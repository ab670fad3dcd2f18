import Scribe.Json.Tree

/-!
Trees with other numerals in the place of their own, and how deep a tree is.
-/
namespace Scribe.Json.Tree

mutual

def renumber (φ : Numeral → Numeral) : Tree → Tree
  | .number n => .number (φ n)
  | .array items close => .array (renumberItems φ items) close
  | .object members close => .object (renumberMembers φ members) close
  | t => t

def renumberItems (φ : Numeral → Numeral) : List Tree → List Tree
  | [] => []
  | t :: ts => t.renumber φ :: renumberItems φ ts

def renumberMembers (φ : Numeral → Numeral) : List Member → List Member
  | [] => []
  | ⟨key, value⟩ :: ms => ⟨key, value.renumber φ⟩ :: renumberMembers φ ms

end

theorem renumberMembers_eq (φ : Numeral → Numeral) (members : List Member) :
    renumberMembers φ members = members.map fun m => ⟨m.key, m.value.renumber φ⟩ := by
  induction members with
  | nil => rw [renumberMembers, List.map_nil]
  | cons m ms ih =>
    cases m
    rw [renumberMembers, ih, List.map_cons]

mutual

theorem keepBreak?_renumber (φ : Numeral → Numeral) :
    (t : Tree) → (t.renumber φ).keepBreak? = t.keepBreak?
  | .null | .bool _ | .number _ | .string _ | .flawed _ => rfl
  | .array items close => congrArg (·.or close.break?) (keepItems?_renumber φ items)
  | .object members close => congrArg (·.or close.break?) (keepMembers?_renumber φ members)

theorem keepItems?_renumber (φ : Numeral → Numeral) :
    (ts : List Tree) → keepItems? (renumberItems φ ts) = keepItems? ts
  | [] => rfl
  | t :: ts => by
    rw [renumberItems, keepItems?, keepItems?, keepBreak?_renumber φ t, keepItems?_renumber φ ts]

theorem keepMembers?_renumber (φ : Numeral → Numeral) :
    (ms : List Member) → keepMembers? (renumberMembers φ ms) = keepMembers? ms
  | [] => rfl
  | ⟨key, value⟩ :: ms => by
    cases key <;>
      rw [renumberMembers, keepMembers?, keepMembers?, keepBreak?_renumber φ value,
        keepMembers?_renumber φ ms]

end

mutual

/-- How many arrays and objects are open at once in a tree. -/
def height : Tree → Nat
  | .array items _ => heightItems items + 1
  | .object members _ => heightMembers members + 1
  | _ => 0

def heightItems : List Tree → Nat
  | [] => 0
  | t :: ts => max t.height (heightItems ts)

def heightMembers : List Member → Nat
  | [] => 0
  | ⟨_, value⟩ :: ms => max value.height (heightMembers ms)

end

end Scribe.Json.Tree
