import Scribe.Text.Ranges

/-!
How code points are written as bytes, and how a range of them becomes sequences of byte ranges.
-/
namespace Scribe.Text.Utf8

def encode (n : Nat) : List Nat :=
  let tail := fun (i : Nat) => 0x80 + n / Nat.pow 64 i % 64
  if n ≤ 0x7F then [n]
  else if n ≤ 0x7FF then [0xC0 + n / 64, tail 0]
  else if n ≤ 0xFFFF then [0xE0 + n / 4096, tail 1, tail 0]
  else [0xF0 + n / 262144, tail 2, tail 1, tail 0]

/-- Where code points from `first` to `last` are cut in two, as the end of the lower part and the
start of the upper one: at the surrogates, where the count of bytes changes, and where the leading
bytes differ while the trailing ones do not run through all their values. -/
def cut? (first last : Nat) : Option (Nat × Nat) :=
  if first ≤ 0xD7FF ∧ 0xE000 ≤ last then some (0xD7FF, 0xE000)
  else
    let lengths := [0x7F, 0x7FF, 0xFFFF].findSome? fun m =>
      if first ≤ m ∧ m < last then some (m, m + 1) else none
    let leads := fun (_ : Unit) => [64, 4096, 262144].findSome? fun m =>
      if first / m = last / m then none
      else if first % m ≠ 0 then some (first / m * m + m - 1, first / m * m + m)
      else if last % m ≠ m - 1 then some (last / m * m - 1, last / m * m)
      else none
    lengths <|> if last ≤ 0x7F then none else leads ()

/-- The encodings of the code points from `first` to `last`, as sequences of byte ranges in
ascending order; every choice of one byte from each range of a sequence is an encoding. -/
def sequences (first last : Nat) : List Ranges :=
  match cut? first last with
  | none => [(encode first).zip (encode last)]
  | some (low, high) =>
    if _h : first ≤ low ∧ low < high ∧ high ≤ last then sequences first low ++ sequences high last
    else []
termination_by last - first

end Scribe.Text.Utf8
