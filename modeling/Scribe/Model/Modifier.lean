/-!
Declaration modifiers, in the order in which they are written, and sets of them.
-/
namespace Scribe

inductive Modifier where
  | publicAccess | protectedAccess | privateAccess | abstract | default | static | final
  | transient | volatile | synchronized | native | strictfp
deriving DecidableEq, Repr

namespace Modifier

def all : List Modifier :=
  [publicAccess, protectedAccess, privateAccess, abstract, default, static, final, transient,
   volatile, synchronized, native, strictfp]

def rank (m : Modifier) : Nat := m.ctorIdx

def keyword : Modifier → String
  | publicAccess => "public"
  | protectedAccess => "protected"
  | privateAccess => "private"
  | abstract => "abstract"
  | default => "default"
  | static => "static"
  | final => "final"
  | transient => "transient"
  | volatile => "volatile"
  | synchronized => "synchronized"
  | native => "native"
  | strictfp => "strictfp"

def ofKeyword? (s : String) : Option Modifier := all.find? (·.keyword == s)

theorem mem_all (m : Modifier) : m ∈ all := by cases m <;> decide

theorem rank_lt (m : Modifier) : m.rank < 12 := by cases m <;> decide

theorem rank_inj {m n : Modifier} : m.rank = n.rank ↔ m = n := by
  refine ⟨fun h => ?_, fun h => h ▸ rfl⟩
  cases m <;> cases n <;> first | rfl | exact absurd h (by decide)

end Modifier

/-- A set of modifiers, one bit for each. -/
structure Modifiers where
  bits : BitVec 12 := 0
deriving DecidableEq, Repr

namespace Modifiers

def empty : Modifiers := {}

def contains (s : Modifiers) (m : Modifier) : Bool := s.bits.getLsbD m.rank

instance : Membership Modifier Modifiers where
  mem s m := s.contains m = true

def insert (s : Modifiers) (m : Modifier) : Modifiers := ⟨s.bits ||| BitVec.twoPow 12 m.rank⟩

def insertAll (s : Modifiers) (ms : List Modifier) : Modifiers := ms.foldl insert s

def ofList (ms : List Modifier) : Modifiers := empty.insertAll ms

def toList (s : Modifiers) : List Modifier := Modifier.all.filter s.contains

theorem contains_insert (s : Modifiers) (m n : Modifier) :
    (s.insert m).contains n = (s.contains n || decide (n = m)) := by
  have := n.rank_lt
  by_cases h : n = m
  · simp_all [contains, insert]
  · have : m.rank ≠ n.rank := fun e => h (Modifier.rank_inj.1 e).symm
    simp [contains, insert, BitVec.getLsbD_twoPow, h, this]

theorem mem_toList {s : Modifiers} {m : Modifier} : m ∈ s.toList ↔ s.contains m := by
  simp [toList, Modifier.mem_all]

end Modifiers

end Scribe
