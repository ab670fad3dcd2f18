import Scribe.Text.Ranges

/-!
Blank characters, the Unicode property White_Space, and the trimming of text by it.
-/
namespace Scribe.Text

def blankRanges : Ranges :=
  [(0x9, 0xD), (0x20, 0x20), (0x85, 0x85), (0xA0, 0xA0), (0x1680, 0x1680), (0x2000, 0x200A),
   (0x2028, 0x2029), (0x202F, 0x202F), (0x205F, 0x205F), (0x3000, 0x3000)]

def isBlank (c : Char) : Bool := blankRanges.contains c

def trimEndChars (cs : List Char) : List Char := (cs.reverse.dropWhile isBlank).reverse

def trimEnd (text : String) : String := String.ofList (trimEndChars text.toList)

def trim (text : String) : String := String.ofList (trimEndChars (text.toList.dropWhile isBlank))

def allBlank (text : String) : Bool := text.toList.all isBlank

end Scribe.Text
