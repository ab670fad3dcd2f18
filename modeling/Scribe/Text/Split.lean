/-!
Cutting text at a separator and putting it back together. The scan keeps the open piece and the
finished pieces reversed, so that a text of any length is cut in constant stack.
-/
namespace Scribe.Text

/-- `skip` counts the characters of a separator already met that are still to be passed over. -/
def cut (sep : List Char) : Nat → List Char → List (List Char) → List Char → List (List Char)
  | _, piece, pieces, [] => (piece.reverse :: pieces).reverse
  | skip + 1, piece, pieces, _ :: cs => cut sep skip piece pieces cs
  | 0, piece, pieces, c :: cs =>
    if sep.isPrefixOf (c :: cs) then cut sep (sep.length - 1) [] (piece.reverse :: pieces) cs
    else cut sep 0 (c :: piece) pieces cs

/-- The pieces between the occurrences of `sep`, found left to right without overlap. An empty
separator stands before, between and after all characters. -/
def splitOn (sep text : String) : List String :=
  if sep = "" then "" :: (text.toList.map String.singleton ++ [""])
  else (cut sep.toList 0 [] [] text.toList).map String.ofList

/-- The lines of a text; a newline ends a line and opens none. -/
def lines (text : String) : List String :=
  let pieces := splitOn "\n" text
  if pieces.getLast? = some "" then pieces.dropLast else pieces

def splitLast? (c : Char) (text : String) : Option (String × String) :=
  let (after, before) := text.toList.reverse.span (· != c)
  match before with
  | [] => none
  | _ :: before => some (String.ofList before.reverse, String.ofList after.reverse)

def substitute (f : Char → List Char) (text : String) : String :=
  String.ofList (text.toList.flatMap f)

def dropEnd? (ending text : String) : Option String :=
  let cs := text.toList.reverse
  if ending.toList.reverse.isPrefixOf cs then
    some (String.ofList (cs.drop ending.toList.length).reverse)
  else none

def times (n : Nat) (text : String) : String :=
  String.join (List.replicate n text)

/-- The most bytes that a text can have. -/
def capacity : Nat := Nat.pow 2 63 - 1

def fits (n : Nat) (text : String) : Bool := n * text.utf8ByteSize ≤ capacity

theorem toList_substitute (f : Char → List Char) (text : String) :
    (substitute f text).toList = text.toList.flatMap f := by
  simp [substitute]

theorem cut_eq_append (sep : List Char) (cs : List Char) : ∀ (skip : Nat) (piece : List Char)
    (pieces : List (List Char)),
    cut sep skip piece pieces cs = pieces.reverse ++ cut sep skip piece [] cs := by
  induction cs with
  | nil => intro skip piece pieces; cases skip <;> simp [cut]
  | cons c cs ih =>
    intro skip piece pieces
    cases skip with
    | succ skip => simp only [cut]; rw [ih]
    | zero =>
      simp only [cut]
      split
      · rw [ih, ih _ _ [piece.reverse]]; simp
      · rw [ih]

end Scribe.Text
