import DocAudit.Python.NameTable
import DocAudit.Text.Word

/-!
# Python/Name — the characters of names, and the reserved words

A name starts with a letter or an underscore and goes on with letters, digits, marks and
underscores, in all of Unicode. Beyond ASCII the class is that of `Text/Word` up to the lists of
`Python/NameTable`.
-/

namespace DocAudit.Python

open DocAudit.Text

/-- The character may stand inside a name. -/
def continuesName (c : Char) : Bool :=
  if c.toNat < 0x80 then isWord c
  else (isWord c && !inRanges outsideNames c.toNat) || inRanges onlyInNames c.toNat

/-- The character may start a name. -/
def startsName (c : Char) : Bool :=
  if c.toNat < 0x80 then isWord c && !isDigit c
  else continuesName c && !inRanges onlyInside c.toNat

/-- Words that never name an operand, because they start, join or end an expression. -/
def expressionWords : List String :=
  ["and", "as", "async", "await", "else", "False", "for", "from", "if", "in", "is", "lambda",
    "None", "not", "or", "True", "yield"]

/-- Words that start a statement of their own. -/
def statementWords : List String :=
  ["assert", "break", "class", "continue", "def", "del", "elif", "except", "finally", "global",
    "import", "nonlocal", "pass", "raise", "return", "try", "while", "with"]

end DocAudit.Python
