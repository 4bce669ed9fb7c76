import TreeScript.Text.Ranges

/-!
# Blank characters

Blanks are the characters of the Unicode property White_Space together with the four separators
U+001C to U+001F: 29 code points. Documents are sniffed and number texts are trimmed by this class.
-/

namespace TreeScript.Text

def blankRanges : Ranges :=
  [(0x09, 0x0D), (0x1C, 0x20), (0x85, 0x85), (0xA0, 0xA0), (0x1680, 0x1680), (0x2000, 0x200A),
   (0x2028, 0x2029), (0x202F, 0x202F), (0x205F, 0x205F), (0x3000, 0x3000)]

def isBlank (c : Char) : Bool := blankRanges.contains c

def trimLeft (text : List Char) : List Char := text.dropWhile isBlank

def trim (text : List Char) : List Char :=
  ((trimLeft text).reverse.dropWhile isBlank).reverse

end TreeScript.Text
