/-!
Classes of characters given as tables of code point ranges.
-/
namespace Scribe.Text

abbrev Ranges := List (Nat × Nat)

namespace Ranges

def contains (ranges : Ranges) (c : Char) : Bool :=
  ranges.any fun r => r.1 ≤ c.toNat && c.toNat ≤ r.2

end Ranges

end Scribe.Text
