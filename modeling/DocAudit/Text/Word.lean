import DocAudit.Text.WordTable

/-!
# Text/Word — word characters and digits

The character classes behind "looks like an identifier": a word character is alphabetic, a mark, a
decimal digit, a connecting punctuation or a join control, in all of Unicode. ASCII is decided by
rule and the rest by the ranges of `Text/WordTable`.
-/

namespace DocAudit.Text

/-- Some closed range of the list holds the code point. -/
def inRanges (ranges : List (Nat × Nat)) (n : Nat) : Bool :=
  ranges.any fun r => r.1 ≤ n && n ≤ r.2

/-- Decimal digits of every script. -/
def isDigit (c : Char) : Bool :=
  if c.toNat < 0x80 then c.isDigit else inRanges digitRanges c.toNat

/-- Word characters of every script. -/
def isWord (c : Char) : Bool :=
  if c.toNat < 0x80 then c.isAlphanum || c == '_' else inRanges wordRanges c.toNat

/-- The small Latin letters. -/
def isLower (c : Char) : Bool :=
  'a' ≤ c && c ≤ 'z'

end DocAudit.Text
