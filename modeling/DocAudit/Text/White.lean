/-!
# Text/White — white space, trimming and blank text

Text is read as a list of characters, so that every operation below is a recursion on the text
itself. White space is the Unicode property of that name: it has the line separators and the wide
spaces, and it has neither the zero-width characters nor the information separators U+001C to
U+001F.
-/

namespace DocAudit.Text

/-- The characters of the Unicode property White_Space. -/
def isWhite (c : Char) : Bool :=
  let n := c.toNat
  (9 ≤ n && n ≤ 13) || n == 0x20 || n == 0x85 || n == 0xa0 || n == 0x1680 ||
    (0x2000 ≤ n && n ≤ 0x200a) || n == 0x2028 || n == 0x2029 || n == 0x202f || n == 0x205f ||
    n == 0x3000

/-- The text without the white space in front. -/
def trimStart (s : List Char) : List Char :=
  s.dropWhile isWhite

/-- The text without the white space at its end. -/
def trimEnd (s : List Char) : List Char :=
  (s.reverse.dropWhile isWhite).reverse

/-- The text without the white space at either end. -/
def trim (s : List Char) : List Char :=
  trimEnd (trimStart s)

/-- A blank text holds white space only; the empty text is blank. -/
def isBlank (s : List Char) : Bool :=
  s.all isWhite

/-- The maximal runs of characters that are not white, in order. -/
def words (s : List Char) : List (List Char) :=
  (s.splitOnP isWhite).filter fun w => !w.isEmpty

/-- How many characters of white space the text starts with. -/
def indentation (s : List Char) : Nat :=
  (s.takeWhile isWhite).length

end DocAudit.Text
