import Scribe.Proofs.Java.Parent

/-!
Three dots. A method or constructor that asks for them is written like one that does not, but for
the type of its last parameter. Which of its parameters is the last is told by where they stand, so
equal parameters are kept apart, and nothing further inside sees the difference.
-/
namespace Scribe

namespace Text

theorem dropEnd?_append (text ending : String) : dropEnd? ending (text ++ ending) = some text := by
  have hbegins : ending.toList.reverse.isPrefixOf (text ++ ending).toList.reverse := by
    rw [String.toList_append, List.reverse_append, List.isPrefixOf_iff_prefix]
    exact List.prefix_append _ _
  rw [dropEnd?, if_pos hbegins, String.toList_append, List.reverse_append]
  simp

theorem times_succ' (n : Nat) (text : String) : times (n + 1) text = times n text ++ text := by
  rw [times, List.replicate_succ', times]
  simp

theorem intercalate_concat (sep : String) (ts : List String) :
    ∃ lead, ∀ t, sep.intercalate (ts ++ [t]) = lead ++ t := by
  by_cases hnil : ts = []
  · exact ⟨"", fun t => by simp [hnil]⟩
  · refine ⟨sep.intercalate ts ++ sep, fun t => ?_⟩
    rw [String.intercalate_append_of_ne_nil hnil (List.cons_ne_nil _ _),
      String.intercalate_singleton]

end Text

namespace Format

theorem lines_concat (f : Format) (items : List String) :
    ∃ lead, ∀ item ≠ "", f.lines (items ++ [item]) = lead ++ item := by
  obtain ⟨lead, hlead⟩ := Text.intercalate_concat f.lineTerminator (items.filter (· != ""))
  refine ⟨lead, fun item hitem => ?_⟩
  have hlast : [item].filter (· != "") = [item] := by simp [hitem]
  rw [lines, join, List.filter_append, hlast, hlead]

end Format

namespace Script

theorem run_texts_concat (c : Children) (ns : List Node) (n : Node) (d : Dependencies) :
    (texts (ns ++ [n])).run c d =
      (((texts ns).run c d).1 ++ ((text? n).run c ((texts ns).run c d).2).1.toList,
        ((text? n).run c ((texts ns).run c d).2).2) := by
  induction ns generalizing d with
  | nil =>
    rw [List.nil_append, texts_cons]
    simp only [run_monadBind, texts, run, run_pure, List.append_nil, List.nil_append]
  | cons m ns ih =>
    rw [List.cons_append, texts_cons, texts_cons]
    simp only [run_monadBind, run_pure, ih, List.append_assoc]

end Script

namespace Java

open Script

theorem run_texts_congr {c c' : Children} {ns : List Node}
    (h : ∀ n ∈ ns, (text? n).run c' = (text? n).run c) : (texts ns).run c' = (texts ns).run c := by
  induction ns with
  | nil => rfl
  | cons n ns ih =>
    obtain ⟨hn, hns⟩ := List.forall_mem_cons.1 h
    rw [texts_cons]
    exact run_bind_congr hn fun text => run_bind_congr (ih hns) fun rest => rfl

theorem modifierWords_push {n n' : Node} (h : n.kind = n'.kind) (s : Stack) (ms : Modifiers) :
    modifierWords (s.push n) ms = modifierWords (s.push n') ms := by
  unfold modifierWords implicitModifiers
  rw [Stack.top?_push, Stack.top?_push, Stack.parent?_push, Stack.parent?_push]
  cases s.top? with
  | none => rfl
  | some p => simp only [h]

/-- Where two parents make no difference to what is done for a node, they make none to what is done
for the nodes inside it. -/
theorem text?_of_script (f : Format) (remaining : Nat) (s : Stack) {p p' n : Node}
    (h : script ⟨f, (s.push p).push n⟩ n = script ⟨f, (s.push p').push n⟩ n) :
    (text? n).run (below f remaining s p) = (text? n).run (below f remaining s p') := by
  cases remaining with
  | zero => rfl
  | succ remaining =>
    have hbelow : (script ⟨f, (s.push p).push n⟩ n).run (below f remaining (s.push p) n) =
        (script ⟨f, (s.push p).push n⟩ n).run (below f remaining (s.push p') n) := by
      refine run_script_congr (fun m hm => ?_) fun i place => text?_of_parent f remaining _ _ nofun
      exact text?_of_parent f remaining _ _ fun hconstructor =>
        beq_iff_eq.2 (Item.family_of_holds_constructor hm hconstructor)
    funext d
    rw [run_text?_succ, run_text?_succ, hbelow, h]

/-- A parameter with `words` for its modifiers, and its type as `write` has it. -/
def parameter (n : Node) (y : Field) (words : String) (write : String → String) :
    Draft String := do
  let type ← child (n.part .type (.type y.type))
  let annotations ← texts (n.parts .annotations (y.annotations.map .annotationUse))
  return " ".intercalate (annotations ++ [words ++ write type ++ " " ++ y.name])

theorem quiet_parameter (y : Field) (q : Place) (words : String) (write : String → String) :
    Quiet (Item.field y).Holds (parameter ⟨.field y, q⟩ y words write).run := by
  refine quiet_draftBind (quiet_child (by simp [Node.part])) fun type => ?_
  refine quiet_draftBind (quiet_lift (quiet_parts ?_)) fun annotations => quiet_draftPure _
  simp +contextual [Item.heading, Item.annotations?]

theorem run_parameter (c : Children) (n : Node) (y : Field) (words : String) (d : Dependencies) :
    let type? := (text? (n.part .type (.type y.type))).run c d
    (type?.1 = none ∧ ∀ write, (parameter n y words write).run.run c d = (none, type?.2))
    ∨ ∃ type lead e, type?.1 = some type ∧ ∀ write,
      (parameter n y words write).run.run c d = (some (lead ++ write type ++ " " ++ y.name), e) := by
  intro type?
  have hscript (write : String → String) : (parameter n y words write).run = (do
      match ← text? (n.part .type (.type y.type)) with
      | none => return none
      | some type =>
        let annotations ← texts (n.parts .annotations (y.annotations.map .annotationUse))
        return some (" ".intercalate (annotations ++ [words ++ write type ++ " " ++ y.name]))) := by
    unfold parameter
    rw [OptionT.run_bind]
    change text? _ >>= _ = text? _ >>= _
    congr 1
    funext type?
    cases type? <;> simp
  cases htype : type?.1 with
  | none =>
    refine .inl ⟨rfl, fun write => ?_⟩
    rw [hscript, run_monadBind, htype, run_pure]
  | some type =>
    let annotations := (texts (n.parts .annotations (y.annotations.map .annotationUse))).run c type?.2
    obtain ⟨lead, hlead⟩ := Text.intercalate_concat " " annotations.1
    refine .inr ⟨type, lead ++ words, annotations.2, rfl, fun write => ?_⟩
    rw [hscript, run_monadBind, htype, run_monadBind, run_pure, hlead]
    simp only [String.append_assoc]
    rfl

theorem text_type (f : Format) (remaining : Nat) (s : Stack) (t : TypeRef) (place : Place)
    (d : Dependencies) : ∃ base,
    ((text? ⟨.type t, place⟩).run ((dispatcher f).children (remaining + 1) s) d).1 =
      some (base ++ Text.times t.dimensions.toNat "[]") := by
  rw [run_text?_succ, script_type, run_monadBind, run_typeName]
  unfold renderTail typeTail
  rw [run_monadBind, run_pure]
  exact ⟨_, congrArg some (String.append_assoc ..).symm⟩

inductive Callable where
  | method (m : Method)
  | constructor (c : Constructor)

namespace Callable

def fields : Callable → List Field
  | method m => m.fields
  | constructor c => c.fields

def exceptions : Callable → List TypeRef
  | method m => m.exceptions
  | constructor c => c.exceptions

def item (dots : Bool) : Callable → Item
  | method m => .method { m with tripleDot := dots }
  | constructor c => .constructor { c with tripleDot := dots }

def node (x : Callable) (place : Place) (dots : Bool) : Node := ⟨x.item dots, place⟩

def parameterNodes (x : Callable) (place : Place) : List Node :=
  (x.node place false).parts .fields (x.fields.map .field)

def opening (ctx : Context) (n : Node) : Callable → Script (Option String)
  | method m => do
    let generics ← genericList n m.generics
    let type? ← text? (n.part .type (.type m.type))
    let words := modifierWords ctx.stack m.modifiers ++ (if generics = "" then "" else generics ++ " ")
    return type?.map fun type => words ++ type ++ " " ++ m.name
  | constructor c =>
    let words := modifierWords ctx.stack c.modifiers
    return (ctx.stack.enclosing?.bind Node.name?).map fun name => words ++ name

def body (ctx : Context) : Callable → String
  | method m => if hasBody ctx.stack m.modifiers then " " ++ codeBlock ctx.format m.code else ";"
  | constructor c => " " ++ codeBlock ctx.format c.code

def finish (ctx : Context) (n : Node) (x : Callable) (signature : String) : Script String := do
  let throws ← throwsClause n x.exceptions
  declaration ctx.format n (signature ++ throws ++ x.body ctx)

theorem script_node (ctx : Context) (x : Callable) (place : Place) (dots : Bool) :
    script ctx (x.node place dots) = (do
      match ← x.opening ctx (x.node place dots) with
      | none => return none
      | some head =>
        let ps ← texts (x.parameterNodes place)
        some <$> x.finish ctx (x.node place dots) (head ++ "(" ++ ", ".intercalate ps ++ ")")) := by
  cases x with
  | method m =>
    change (renderMethod ctx _ _).run = _
    unfold renderMethod opening finish
    simp only [OptionT.run_bind, Option.elimM, OptionT.run_monadLift, monadLift_self, liftM,
      Option.elim_some, parameters, commaList, map_eq_pure_bind, LawfulMonad.bind_assoc, pure_bind]
    congr 1
    funext generics
    change text? _ >>= _ = text? _ >>= _
    congr 1
    funext type?
    cases type? <;> rfl
  | constructor c =>
    change (renderConstructor ctx _ _).run = _
    unfold renderConstructor opening finish
    cases ctx.stack.enclosing?.bind Node.name? with
    | none => rfl
    | some name =>
      simp [Option.elimM, parameters, commaList, body, String.append_assoc, exceptions]
      rfl

/-- Items that are written without a look at what is around them. -/
def Plain (i : Item) : Prop :=
  i.kind = .generic ∨ i.kind = .type ∨ i.kind = .javadoc ∨ i.kind = .annotationUse

section

variable (x : Callable) (f : Format) (remaining : Nat) (stack : Stack) (place : Place)

theorem kind_node (dots : Bool) : (x.node place dots).kind = (x.node place false).kind := by
  cases x <;> rfl

theorem opening_eq (dots : Bool) :
    x.opening ⟨f, stack.push (x.node place dots)⟩ (x.node place dots) =
      x.opening ⟨f, stack.push (x.node place false)⟩ (x.node place false) := by
  cases x <;> simp only [opening, modifierWords_push (kind_node _ place dots) stack] <;> rfl

theorem finish_eq (dots : Bool) :
    x.finish ⟨f, stack.push (x.node place dots)⟩ (x.node place dots) =
      x.finish ⟨f, stack.push (x.node place false)⟩ (x.node place false) := by
  cases x <;> rfl

theorem quiet_opening (ctx : Context) (n : Node) : Quiet Plain (x.opening ctx n) := by
  cases x with
  | method m =>
    refine quiet_bind (quiet_genericList fun _ _ => .inl rfl) fun generics => ?_
    exact quiet_bind (quiet_text? (.inr (.inl rfl))) fun _ => quiet_pure _
  | constructor c => exact quiet_pure _

theorem quiet_finish (ctx : Context) (dots : Bool) (signature : String) :
    Quiet Plain (x.finish ctx (x.node place dots) signature) := by
  have hheading : ∀ i ∈ (x.item dots).heading, Plain i := by
    intro i hi
    simp only [Item.heading, List.mem_append, List.mem_map] at hi
    rcases hi with ⟨j, -, rfl⟩ | ⟨u, -, rfl⟩
    · exact .inr (.inr (.inl rfl))
    · exact .inr (.inr (.inr rfl))
  refine quiet_bind (quiet_throwsClause fun _ _ => .inr (.inl rfl)) fun throws => ?_
  exact quiet_declaration hheading

theorem text?_plain {n : Node} (h : Plain n.item) (dots : Bool) :
    (text? n).run (below f remaining stack (x.node place dots)) =
      (text? n).run (below f remaining stack (x.node place false)) := by
  refine text?_of_script f remaining stack ?_
  obtain ⟨item, place⟩ := n
  cases item with
  | generic | type | javadoc | annotationUse => rfl
  | value v => cases v <;> simp [Plain, Item.kind, Value.kind] at h
  | _ => simp [Plain, Item.kind] at h

/-- Whether a parameter is the last one is told by its place. -/
def isLast (q : Place) : Bool := (x.parameterNodes place).getLast?.any (q == ·.place)

theorem script_parameter (dots : Bool) (y : Field) (q : Place) :
    let ctx : Context := ⟨f, (stack.push (x.node place dots)).push ⟨.field y, q⟩⟩
    script ctx ⟨.field y, q⟩ = (parameter ⟨.field y, q⟩ y (modifierWords ctx.stack y.modifiers)
      (if 0 < y.type.dimensions ∧ dots ∧ x.isLast place q then varargsType else id)).run := by
  intro ctx
  have hvarargs : isVarargs ctx.stack ⟨.field y, q⟩ y =
      decide (0 < y.type.dimensions ∧ dots ∧ x.isLast place q) := by
    cases x <;> simp only [isVarargs, Bool.decide_and, Bool.decide_eq_true] <;> rfl
  change (renderField ctx ⟨.field y, q⟩ y).run = _
  unfold renderField parameter
  simp only [hvarargs, decide_eq_true_eq, ite_apply, id]
  cases x <;> rfl

theorem text?_parameter (dots : Bool) (y : Field) (q : Place) (d : Dependencies) :
    (text? ⟨.field y, q⟩).run (below f (remaining + 1) stack (x.node place dots)) d =
      (parameter ⟨.field y, q⟩ y
        (modifierWords ((stack.push (x.node place false)).push ⟨.field y, q⟩) y.modifiers)
        (if 0 < y.type.dimensions ∧ dots ∧ x.isLast place q then varargsType else id)).run.run
        (below f remaining (stack.push (x.node place false)) ⟨.field y, q⟩) d := by
  have hwords : modifierWords ((stack.push (x.node place dots)).push ⟨.field y, q⟩) y.modifiers =
      modifierWords ((stack.push (x.node place false)).push ⟨.field y, q⟩) y.modifiers := by
    cases x <;> rfl
  rw [run_text?_succ, script_parameter, hwords]
  refine congrFun ((quiet_parameter y q _ _).run_congr fun m hm => ?_) d
  exact text?_of_parent f remaining _ _ fun hconstructor =>
    beq_iff_eq.2 (Item.family_of_holds_constructor hm hconstructor)

theorem text?_parameter_eq {y : Field} {q : Place} (h : y.type.dimensions = 0 ∨ x.isLast place q = false) :
    (text? ⟨.field y, q⟩).run (below f remaining stack (x.node place true)) =
      (text? ⟨.field y, q⟩).run (below f remaining stack (x.node place false)) := by
  cases remaining with
  | zero => rfl
  | succ remaining =>
    have hplain : ¬ (0 < y.type.dimensions ∧ true ∧ x.isLast place q) := by
      rcases h with h | h <;> simp [h]
    funext d
    rw [text?_parameter, text?_parameter, if_neg hplain, if_neg (by simp)]

theorem text?_parameter_snd (y : Field) (q : Place) (d : Dependencies) :
    ((text? ⟨.field y, q⟩).run (below f remaining stack (x.node place true)) d).2 =
      ((text? ⟨.field y, q⟩).run (below f remaining stack (x.node place false)) d).2 := by
  cases remaining with
  | zero => rfl
  | succ remaining =>
    rw [text?_parameter, text?_parameter]
    rcases run_parameter (below f remaining (stack.push (x.node place false)) ⟨.field y, q⟩)
      ⟨.field y, q⟩ y (modifierWords ((stack.push (x.node place false)).push ⟨.field y, q⟩) y.modifiers)
      d with ⟨-, hrun⟩ | ⟨type, lead, e, -, hrun⟩ <;> rw [hrun, hrun]

theorem text?_last {y : Field} {q : Place} (hy : 0 < y.type.dimensions) (hq : x.isLast place q)
    (d : Dependencies) : ∃ lead element e,
      ((text? (Node.part ⟨.field y, q⟩ .type (.type y.type))).run
        (below f (remaining + 1) (stack.push (x.node place false)) ⟨.field y, q⟩) d).1 =
        some (element ++ "[]")
      ∧ (text? ⟨.field y, q⟩).run (below f (remaining + 2) stack (x.node place false)) d =
        (some (lead ++ (element ++ "[]") ++ " " ++ y.name), e)
      ∧ (text? ⟨.field y, q⟩).run (below f (remaining + 2) stack (x.node place true)) d =
        (some (lead ++ (element ++ "...") ++ " " ++ y.name), e) := by
  let n : Node := ⟨.field y, q⟩
  let c := below f (remaining + 1) (stack.push (x.node place false)) n
  let words := modifierWords ((stack.push (x.node place false)).push n) y.modifiers
  obtain ⟨base, hbase⟩ := text_type f remaining ((stack.push (x.node place false)).push n) y.type
    (n.part .type (.type y.type)).place d
  have hbrackets : base ++ Text.times y.type.dimensions.toNat "[]" =
      base ++ Text.times (y.type.dimensions.toNat - 1) "[]" ++ "[]" := by
    have hpos : 1 ≤ y.type.dimensions.toNat := UInt64.lt_iff_toNat_lt.1 hy
    rw [String.append_assoc, ← Text.times_succ', Nat.sub_add_cancel hpos]
  rw [hbrackets] at hbase
  rw [text?_parameter, text?_parameter, if_neg (by simp), if_pos ⟨hy, rfl, hq⟩]
  rcases run_parameter c n y words d with ⟨hnone, -⟩ | ⟨type, lead, e, htype, hrun⟩
  · exact absurd (hbase.symm.trans hnone) (Option.some_ne_none _)
  · obtain rfl := Option.some.inj (hbase.symm.trans htype)
    refine ⟨lead, _, e, htype, hrun id, (hrun varargsType).trans ?_⟩
    rw [varargsType, Text.dropEnd?_append]

section

variable {x place} {ys : List Field} {y : Field} (h : x.fields = ys ++ [y])

include h

theorem parameterNodes_concat : x.parameterNodes place =
    (x.node place false).parts .fields (ys.map .field) ++
      [⟨.field y, (.fields, ys.length) :: place⟩] := by
  rw [parameterNodes, h, List.map_append, Node.parts, List.map_singleton, List.mapIdx_concat,
    List.length_map]
  rfl

theorem isLast_iff {q : Place} : x.isLast place q ↔ q = (.fields, ys.length) :: place := by
  rw [isLast, parameterNodes_concat h, List.getLast?_concat]
  exact beq_iff_eq

theorem run_init :
    (texts ((x.node place false).parts .fields (ys.map .field))).run
        (below f remaining stack (x.node place true)) =
      (texts ((x.node place false).parts .fields (ys.map .field))).run
        (below f remaining stack (x.node place false)) := by
  refine run_texts_congr fun m hm => ?_
  obtain ⟨i, hi, rfl⟩ := List.mem_mapIdx.1 hm
  rw [List.length_map] at hi
  rw [List.getElem_map]
  refine text?_parameter_eq x f remaining stack place (.inr (Bool.eq_false_iff.2 fun hlast => ?_))
  have hplace := (isLast_iff h).1 hlast
  simp only [List.cons.injEq, Prod.mk.injEq] at hplace
  omega

end

theorem run_parameterNodes_eq (h : ∀ y ∈ x.fields.getLast?, y.type.dimensions = 0) :
    (texts (x.parameterNodes place)).run (below f remaining stack (x.node place true)) =
      (texts (x.parameterNodes place)).run (below f remaining stack (x.node place false)) := by
  rcases List.eq_nil_or_concat x.fields with hnil | ⟨ys, y, hconcat⟩
  · rw [parameterNodes, hnil]
    rfl
  · rw [List.concat_eq_append] at hconcat
    rw [hconcat, List.getLast?_concat] at h
    funext d
    rw [parameterNodes_concat hconcat, run_texts_concat, run_texts_concat,
      run_init f remaining stack hconcat,
      text?_parameter_eq x f remaining stack place (.inl (h y rfl))]

theorem run_parameterNodes_last {ys : List Field} {y : Field} (h : x.fields = ys ++ [y])
    (hy : 0 < y.type.dimensions) (d : Dependencies) :
    ∃ (init : List String) (lead element : String) (e : Dependencies),
      let q : Node := ⟨.field y, (.fields, ys.length) :: place⟩
      ((text? (q.part .type (.type y.type))).run
        (below f (remaining + 1) (stack.push (x.node place false)) q) e).1 = some (element ++ "[]")
      ∧ ((texts (x.parameterNodes place)).run
        (below f (remaining + 2) stack (x.node place false)) d).1 =
        init ++ [lead ++ (element ++ "[]") ++ " " ++ y.name]
      ∧ ((texts (x.parameterNodes place)).run
        (below f (remaining + 2) stack (x.node place true)) d).1 =
        init ++ [lead ++ (element ++ "...") ++ " " ++ y.name] := by
  let init := (texts ((x.node place false).parts .fields (ys.map .field))).run
    (below f (remaining + 2) stack (x.node place false)) d
  have hlast : x.isLast place ((.fields, ys.length) :: place) := (isLast_iff h).2 rfl
  obtain ⟨lead, element, e, htype, hbrackets, hdots⟩ :=
    text?_last x f remaining stack place hy hlast init.2
  refine ⟨init.1, lead, element, init.2, htype, ?_, ?_⟩
  · rw [parameterNodes_concat h, run_texts_concat, hbrackets]
    rfl
  · rw [parameterNodes_concat h, run_texts_concat, run_init f _ stack h, hdots]
    rfl

theorem run_parameterNodes_snd (d : Dependencies) :
    ((texts (x.parameterNodes place)).run (below f remaining stack (x.node place true)) d).2 =
      ((texts (x.parameterNodes place)).run (below f remaining stack (x.node place false)) d).2 := by
  rcases List.eq_nil_or_concat x.fields with hnil | ⟨ys, y, hconcat⟩
  · rw [parameterNodes, hnil]
    rfl
  · rw [List.concat_eq_append] at hconcat
    rw [parameterNodes_concat hconcat, run_texts_concat, run_texts_concat,
      run_init f remaining stack hconcat]
    exact text?_parameter_snd x f remaining stack place y _ _

theorem run_finish (c : Children) (ctx : Context) (n : Node) (e : Dependencies) :
    ∃ lead tail e', ∀ signature ≠ "",
      (x.finish ctx n signature).run c e = (lead ++ signature ++ tail, e') := by
  let throws := (throwsClause n x.exceptions).run c e
  let above := (preamble n).run c throws.2
  obtain ⟨lead, hlead⟩ := ctx.format.lines_concat above.1
  refine ⟨lead, throws.1 ++ x.body ctx, above.2, fun signature hsignature => ?_⟩
  have hne : signature ++ throws.1 ++ x.body ctx ≠ "" := by simp [hsignature]
  unfold finish declaration
  rw [run_monadBind, run_monadBind, run_pure, hlead _ hne]
  simp only [String.append_assoc]
  rfl

end

/-- A member with dots is written like the one without, and leaves the same dependencies. If its last
parameter is an array, only this parameter is written in another way, with three dots for the last
pair of brackets of its type; otherwise nothing is. -/
theorem tripleDot_last (x : Callable) (f : Format) (remaining : Nat) (stack : Stack) (place : Place)
    (d : Dependencies) :
    let render (dots : Bool) :=
      (text? (x.node place dots)).run ((dispatcher f).children (remaining + 1) stack) d
    (render true).2 = (render false).2
    ∧ ((∀ dots, (render dots).1 = none) ∨ ∃ (e : Dependencies) (head tail : String),
      let parameters (dots : Bool) :=
        ((texts (x.parameterNodes place)).run (below f remaining stack (x.node place dots)) e).1
      (∀ dots, (render dots).1 =
        some (head ++ "(" ++ ", ".intercalate (parameters dots) ++ ")" ++ tail))
      ∧ ((∀ y ∈ x.fields.getLast?, y.type.dimensions = 0) → parameters true = parameters false)
      ∧ ∀ ys y, x.fields = ys ++ [y] → 0 < y.type.dimensions → 2 ≤ remaining →
        ∃ (init : List String) (lead element : String) (e' : Dependencies),
          let q : Node := ⟨.field y, (.fields, ys.length) :: place⟩
          ((text? (q.part .type (.type y.type))).run
            (below f (remaining - 1) (stack.push (x.node place false)) q) e').1 =
            some (element ++ "[]")
          ∧ parameters false = init ++ [lead ++ (element ++ "[]") ++ " " ++ y.name]
          ∧ parameters true = init ++ [lead ++ (element ++ "...") ++ " " ++ y.name]) := by
  intro render
  let c (dots : Bool) : Children := below f remaining stack (x.node place dots)
  let ctx (dots : Bool) : Context := ⟨f, stack.push (x.node place dots)⟩
  let opened := (x.opening (ctx false) (x.node place false)).run (c false) d
  have hplain (dots : Bool) {α : Type} {s : Script α} (hs : Quiet Plain s) :
      s.run (c dots) = s.run (c false) :=
    hs.run_congr fun n hn => text?_plain x f remaining stack place hn dots
  have hopened (dots : Bool) :
      (x.opening (ctx dots) (x.node place dots)).run (c dots) d = opened := by
    rw [opening_eq, hplain dots (quiet_opening x _ _)]
  have hrender (dots : Bool) : render dots =
      (script (ctx dots) (x.node place dots)).run (c dots) d := run_text?_succ ..
  simp only [script_node, run_monadBind, hopened] at hrender
  cases hhead : opened.1 with
  | none =>
    simp only [hhead, run_pure] at hrender
    exact ⟨by rw [hrender, hrender], .inl fun dots => by rw [hrender]⟩
  | some head =>
    let ps (dots : Bool) := (texts (x.parameterNodes place)).run (c dots) opened.2
    have hsnd (dots : Bool) : (ps dots).2 = (ps false).2 := by
      cases dots
      · rfl
      · exact run_parameterNodes_snd x f remaining stack place opened.2
    obtain ⟨lead, tail, e', hfinish⟩ :=
      run_finish x (c false) (ctx false) (x.node place false) (ps false).2
    have hwhole (dots : Bool) : render dots =
        (some (lead ++ (head ++ "(" ++ ", ".intercalate (ps dots).1 ++ ")") ++ tail), e') := by
      rw [hrender, hhead]
      simp only [run_monadBind, map_eq_pure_bind, run_pure]
      change (some ((x.finish (ctx dots) (x.node place dots) _).run (c dots) (ps dots).2).1,
        ((x.finish (ctx dots) (x.node place dots) _).run (c dots) (ps dots).2).2) = _
      rw [finish_eq, hplain dots (quiet_finish x place _ false _), hsnd, hfinish _ (by simp)]
    refine ⟨by rw [hwhole, hwhole], .inr ⟨opened.2, lead ++ head, tail, fun dots => ?text, ?same,
      fun ys y hfields hy hremaining => ?last⟩⟩
    case text => rw [hwhole]; simp only [String.append_assoc]; rfl
    case same =>
      exact fun h => congrArg Prod.fst
        (congrFun (run_parameterNodes_eq x f remaining stack place h) opened.2)
    case last =>
      obtain ⟨remaining, rfl⟩ := Nat.exists_eq_add_of_le' hremaining
      exact run_parameterNodes_last x f remaining stack place hfields hy opened.2

theorem tripleDot_last_twins :
    let row : Field := { name := "row", type := { name := "int", dimensions := 2 } }
    let x : Callable := .method { name := "draw", type := .ofName "void", fields := [row, row] }
    let render (dots : Bool) := (text? (x.node [] dots)).run ((dispatcher {}).children 3 {}) {}
    (x.fields = [row] ++ [row] ∧ 0 < row.type.dimensions ∧ 2 ≤ 2)
      ∧ (render false).1 = some "void draw(int[][] row, int[][] row) \x7b\x7d"
      ∧ (render true).1 = some "void draw(int[][] row, int[]... row) \x7b\x7d"
      ∧ (render true).2 = (render false).2
      ∧ ∃ before element after, (render false).1 = some (before ++ (element ++ "[]") ++ after)
        ∧ (render true).1 = some (before ++ (element ++ "...") ++ after) := by
  intro row x render
  have hfields : x.fields = [row] ++ [row] := rfl
  have hrow : 0 < row.type.dimensions := by decide
  have hplain : (render false).1 = some "void draw(int[][] row, int[][] row) \x7b\x7d" := by
    decide +kernel
  have hdots : (render true).1 = some "void draw(int[][] row, int[]... row) \x7b\x7d" := by
    decide +kernel
  obtain ⟨hstate, hnone | ⟨e, head, tail, htext, -, hlast⟩⟩ := tripleDot_last x {} 2 {} [] {}
  · exact absurd (hplain.symm.trans (hnone false)) (Option.some_ne_none _)
  · obtain ⟨init, lead, element, -, -, hbrackets, hthree⟩ := hlast _ _ hfields hrow (by decide)
    obtain ⟨start, hstart⟩ := Text.intercalate_concat ", " init
    refine ⟨⟨hfields, hrow, by decide⟩, hplain, hdots, hstate, head ++ "(" ++ start ++ lead, element,
      " row" ++ ")" ++ tail, (htext false).trans ?_, (htext true).trans ?_⟩
    · rw [hbrackets, hstart]
      simp only [String.append_assoc]
      rfl
    · rw [hthree, hstart]
      simp only [String.append_assoc]
      rfl

end Callable

end Java

end Scribe
