import Scribe.Model.Node

/-!
The nodes being rendered, from the root to the one whose transform runs.
-/
namespace Scribe

/-- Innermost first. -/
structure Stack where
  nodes : List Node := []

namespace Stack

def push (s : Stack) (n : Node) : Stack := ⟨n :: s.nodes⟩

def depth (s : Stack) : Nat := s.nodes.length

def top? (s : Stack) : Option Node := s.nodes.head?

def parent? (s : Stack) : Option Node := s.nodes[1]?

/-- The innermost node of a kind, the top included. -/
def nearest? (s : Stack) (k : Kind) : Option Node := s.nodes.find? (·.kind == k)

def enclosing? (s : Stack) : Option Node := s.nodes.tail.find? Node.isTypeDecl

/-- Outermost first. -/
def chain (s : Stack) : List Node := s.nodes.reverse

@[simp] theorem top?_push (s : Stack) (n : Node) : (s.push n).top? = some n := rfl

@[simp] theorem parent?_push (s : Stack) (n : Node) : (s.push n).parent? = s.top? := by
  cases s with
  | mk nodes => cases nodes <;> rfl

@[simp] theorem depth_push (s : Stack) (n : Node) : (s.push n).depth = s.depth + 1 := rfl

end Stack

end Scribe
