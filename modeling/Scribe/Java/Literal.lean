import Scribe.Model.Value
import Scribe.Number.Shortest
import Scribe.Text.Split

/-!
Literals: numbers by their shortest digits, and quoted text.
-/
namespace Scribe.Java

/-- Both widths have an exponent from `1e16` on and below `1e-4`. -/
def numeralStyle : NumeralStyle := ⟨-3, 16⟩

def integerText (i : Int64) : String := (Numeral.ofInt i.toInt).toText ""

/-- A finite number; of two shortest decimals equally near, the greater is written. -/
def binaryText (x : Binary l) : String := (x.toNumeral numeralStyle .up).toText ""

/-- Infinities and what is not a number are constants of the wrapper class. -/
def specialText (wrapper : String) (x : Binary l) : String :=
  wrapper ++ (if x.isNaN then ".NaN"
    else if x.negative then ".NEGATIVE_INFINITY" else ".POSITIVE_INFINITY")

def numberLiteral : Number → String
  | .int i => integerText i
  | .long i => integerText i ++ "L"
  | .float x => if x.isFinite then binaryText x ++ "f" else specialText "Float" x
  | .double x => if x.isFinite then binaryText x else specialText "Double" x

def escapeChar : Char → List Char
  | '"' => ['\\', '"']
  | '\\' => ['\\', '\\']
  | '\n' => ['\\', 'n']
  | '\r' => ['\\', 'r']
  | '\t' => ['\\', 't']
  | c => [c]

def quote (text : String) : String := "\"" ++ Text.substitute escapeChar text ++ "\""

end Scribe.Java
