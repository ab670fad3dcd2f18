import Scribe.Render.IgnorePattern

/-!
The names that a file uses. A name that is not ignored is loaded, to be imported, and the first
name with some last segment owns that segment: another name with the same one cannot be written
short.
-/
namespace Scribe

structure Dependencies where
  ignored : List IgnorePattern := []
  /-- In ascending order, each name once. -/
  loaded : List String := []
  /-- Short names and the qualified names that own them; the first entry of a short name counts. -/
  owners : List (String × String) := []
  package : Option String := none
deriving DecidableEq, Repr

namespace Dependencies

def fresh (d : Dependencies) : Dependencies := { ignored := d.ignored }

def ignores (d : Dependencies) (name : String) : Bool := d.ignored.any (·.covers name)

def isLoaded (d : Dependencies) (name : String) : Bool := d.loaded.contains name

def insertName (name : String) : List String → List String
  | [] => [name]
  | n :: ns =>
    if name < n then name :: n :: ns
    else if name = n then n :: ns
    else n :: insertName name ns

def owner? (d : Dependencies) (short : String) : Option String := d.owners.lookup short

/-- Gives a short name to its first claimant. -/
def reserve (d : Dependencies) (name : String) : Dependencies :=
  match d.owner? (Name.short name) with
  | some _ => d
  | none => { d with owners := (Name.short name, name) :: d.owners }

/-- Records the use of a name, and tells whether it is the first. -/
def load (d : Dependencies) (name : String) : Bool × Dependencies :=
  if d.isLoaded name then (false, d)
  else (true, { d with loaded := insertName name d.loaded }.reserve name)

/-- Whether the short name belongs to another name. -/
def conflicts (d : Dependencies) (name : String) : Bool :=
  match d.owner? (Name.short name) with
  | some owner => owner != name
  | none => false

/-- Sets the package of the file being rendered, unless one is set. -/
def setPackage (d : Dependencies) (package : String) : Bool × Dependencies :=
  match d.package with
  | some _ => (false, d)
  | none => (true, { d with package := some package })

def unsetPackage (d : Dependencies) (package : String) : Bool × Dependencies :=
  if d.package = some package then (true, { d with package := none }) else (false, d)

def isSamePackage (d : Dependencies) (name : String) : Bool :=
  match d.package, Name.package? name with
  | some current, some package => current == package
  | _, _ => false

theorem mem_insertName {name n : String} {ns : List String} :
    n ∈ insertName name ns ↔ n = name ∨ n ∈ ns := by
  induction ns with
  | nil => simp [insertName]
  | cons m ns ih =>
    simp only [insertName]
    split
    · simp
    · split
      · next h => subst h; simp
      · simp only [List.mem_cons, ih]; grind

@[simp] theorem loaded_reserve (d : Dependencies) (name : String) :
    (d.reserve name).loaded = d.loaded := by
  unfold reserve; split <;> rfl

@[simp] theorem package_reserve (d : Dependencies) (name : String) :
    (d.reserve name).package = d.package := by
  unfold reserve; split <;> rfl

end Dependencies

end Scribe
