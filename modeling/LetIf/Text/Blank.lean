import LetIf.Text.Ranges

/-!
# White space

The characters of the Unicode property White_Space, and the removal of such
characters from both ends of a text. The separators U+001C to U+001F and the
zero-width characters do not have the property.
-/

namespace LetIf.Text

def whiteSpace : Ranges :=
  [(0x9, 0xd), (0x20, 0x20), (0x85, 0x85), (0xa0, 0xa0), (0x1680, 0x1680), (0x2000, 0x200a),
   (0x2028, 0x2029), (0x202f, 0x202f), (0x205f, 0x205f), (0x3000, 0x3000)]

def isWhiteSpace (c : Char) : Bool :=
  whiteSpace.contains c

def trim (cs : List Char) : List Char :=
  ((cs.dropWhile isWhiteSpace).reverse.dropWhile isWhiteSpace).reverse

end LetIf.Text
