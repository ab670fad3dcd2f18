import Scribe.Proofs.Model.Inside
import Scribe.Proofs.Text.Split
import Mathlib.Data.List.Basic

/-!
The strings of a model that are written as they are. Of these, comments and code may be of many
lines. Quoted text is not among them.
-/
namespace Scribe.Item

@[simp] def strings : Item → List String
  | file x => [x.name]
  | classDecl x => [x.name]
  | interfaceDecl x => [x.name]
  | enumDecl x => [x.name]
  | annotationDecl x => [x.name]
  | enumConstant x => [x.name]
  | method x => [x.name]
  | field x => [x.name]
  | generic x => x.name.toList
  | importDecl x => x.type.name :: x.member.toList
  | annotationUse x => x.values.map (·.name)
  | type x => [x.name]
  | value (.enumConstant _ constant) => [constant]
  | value (.reference expression) => [expression]
  | value (.invocation _ name _) => [name]
  | declaration x => x.version :: x.encoding.toList
  | tag x => [x.name]
  | tagAttribute x => x.name :: x.value.toList
  | text x => [x.value]
  | constructor _ | javadoc _ | javadocTag _ | initializer _ | value _ | document _ => []

/-- The strings of an item that may be of many lines: comments and code, but no quoted text. -/
@[simp] def prose : Item → List String
  | javadoc x => [x.text]
  | javadocTag x => x.name :: (x.value.toList ++ x.text.toList)
  | method x => x.code
  | constructor x => x.code
  | initializer x => x.code
  | _ => []

@[simp] def code : Item → List String
  | method x => x.code
  | constructor x => x.code
  | initializer x => x.code
  | _ => []

/-- No line of the code of an item is empty. -/
def Dense (i : Item) : Prop := ∀ statement ∈ i.code, "" ∉ Text.splitOn "\n" statement

def Throughout (P : Item → Prop) (i : Item) : Prop := ∀ m, i.Within m → P m

section

variable {P : Item → Prop} {i m : Item}

theorem throughout_iff : i.Throughout P ↔ P i ∧ ∀ m, i.Holds m → m.Throughout P := by
  constructor
  · intro h
    exact ⟨h i .refl, fun m hm inner hinner => h inner (.head hm hinner)⟩
  · rintro ⟨hown, hinside⟩ m hm
    rcases hm.cases_head with rfl | ⟨inner, hinner, hm⟩
    · exact hown
    · exact hinside inner hinner m hm

theorem Throughout.own (h : i.Throughout P) : P i := (throughout_iff.1 h).1

theorem Throughout.holds (h : i.Throughout P) (hm : i.Holds m) : m.Throughout P :=
  (throughout_iff.1 h).2 m hm

theorem throughout_iff_forall : i.Throughout P ↔ P i ∧ i.inside.Forall (Throughout P) := by
  rw [throughout_iff, List.forall_iff_forall_mem]
  exact Iff.rfl

end

/-- No string of an item, or of what is inside it, reaches over a line. -/
def OneLine (i : Item) : Prop := ∀ m, i.Within m → ∀ text ∈ m.strings, Text.OneLine text

theorem oneLine_iff {i : Item} :
    i.OneLine ↔ (∀ text ∈ i.strings, Text.OneLine text) ∧ ∀ m, i.Holds m → m.OneLine :=
  throughout_iff

theorem OneLine.own {i : Item} (h : i.OneLine) : ∀ text ∈ i.strings, Text.OneLine text :=
  Throughout.own h

theorem OneLine.holds {i m : Item} (h : i.OneLine) (hm : i.Holds m) : m.OneLine :=
  Throughout.holds h hm

theorem oneLine_iff_forall {i : Item} :
    i.OneLine ↔ (∀ text ∈ i.strings, Text.OneLine text) ∧ i.inside.Forall OneLine :=
  throughout_iff_forall

end Scribe.Item
