import Scribe.Java.Binding
import Scribe.Proofs.Render.Binding

/-!
Sessions with the Java factory alone, which has at most one transform for each kind.
-/
namespace Scribe.Java

def transform? : Kind → Option Transform
  | .file => some fileTransform
  | .classDecl => some classTransform
  | .interfaceDecl => some interfaceTransform
  | .enumDecl => some enumTransform
  | .annotationDecl => some annotationDeclTransform
  | .enumConstant => some enumConstantTransform
  | .method => some methodTransform
  | .constructor => some constructorTransform
  | .field => some fieldTransform
  | .initializer => some initializerTransform
  | .type => some typeTransform
  | .generic => some genericTransform
  | .importDecl => some importTransform
  | .annotationUse => some annotationUseTransform
  | .javadoc => some javadocTransform
  | .javadocTag => some javadocTagTransform
  | .arrayValue | .booleanValue | .enumValue | .numberValue | .referenceValue | .textValue
  | .nullValue | .invocationValue | .anonymousValue => some valueTransform
  | .document | .declaration | .tag | .tagAttribute | .text => none

theorem resolve_factory (k : Kind) : factory.resolve k = (transform? k).toList := by
  cases k <;> rfl

def binding : Binding := ⟨factory, transform?, resolve_factory⟩

/-- The dispatcher of every session with the Java factory alone. -/
def dispatcher (f : Format) : Dispatcher := ⟨.build [factory], f⟩

/-- A session in which nothing has been used yet. -/
def session (ignored : List IgnorePattern) (format : Format) (maxDepth : Nat) : Generator where
  factories := [factory]
  table := .build [factory]
  dependencies := { ignored }
  format := format
  maxDepth := maxDepth

theorem render_session (ignored : List IgnorePattern) (f : Format) (maxDepth : Nat)
    (d : Dependencies) (n : Node) :
    ((session ignored f maxDepth).withDependencies d).render n =
      ((((dispatcher f).children maxDepth {}).first n d).1.map (·.text),
        (session ignored f maxDepth).withDependencies
          (((dispatcher f).children maxDepth {}).first n d).2) := rfl

theorem run_generator (f : Format) :
    (generator.run f).1 = session ignorePatterns f Generator.defaultMaxDepth := rfl

def script (ctx : Context) (n : Node) : Script (Option String) :=
  match transform? n.kind with
  | some t => t.script ctx n
  | none => pure none

section

variable (f : Format) (remaining : Nat) (stack : Stack) (n : Node) (d : Dependencies)

abbrev below : Children := (dispatcher f).children remaining (stack.push n)

theorem text_first :
    (((dispatcher f).children (remaining + 1) stack).first n d).1.map (·.text) =
      ((script ⟨f, stack.push n⟩ n).run (below f remaining stack n) d).1 :=
  binding.text_first f remaining stack n d

theorem dependencies_first :
    (((dispatcher f).children (remaining + 1) stack).first n d).2 =
      ((script ⟨f, stack.push n⟩ n).run (below f remaining stack n) d).2 :=
  binding.dependencies_first f remaining stack n d

theorem run_text?_succ :
    (Script.text? n).run ((dispatcher f).children (remaining + 1) stack) d =
      (script ⟨f, stack.push n⟩ n).run (below f remaining stack n) d :=
  Prod.ext (text_first f remaining stack n d) (dependencies_first f remaining stack n d)

/-- The visits of the children that a script asks for. -/
def visitsOf (asks : List Ask) : List Visit :=
  asks.flatMap fun a => (dispatcher f).visits remaining (stack.push n) a.all a.node a.before

def ownVisit (t : Transform) : Visit where
  candidate := ⟨factory, t⟩
  node := n
  stack := stack
  before := d
  asks := (script ⟨f, stack.push n⟩ n).asks (below f remaining stack n) d
  text := ((script ⟨f, stack.push n⟩ n).run (below f remaining stack n) d).1
  after := ((script ⟨f, stack.push n⟩ n).run (below f remaining stack n) d).2

theorem visits_of_transform {t : Transform} (h : transform? n.kind = some t) (all : Bool) :
    (dispatcher f).visits (remaining + 1) stack all n d =
      ownVisit f remaining stack n d t
      :: visitsOf f remaining stack n
          ((script ⟨f, stack.push n⟩ n).asks (below f remaining stack n) d) :=
  binding.visits_of_transform f remaining stack n d h all

theorem visits_of_none (h : transform? n.kind = none) (all : Bool) :
    (dispatcher f).visits (remaining + 1) stack all n d = [] :=
  binding.visits_of_none f remaining stack n d h all

end

end Scribe.Java
