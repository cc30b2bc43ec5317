import DocAudit.Text.Line
import DocAudit.Text.White

/-!
# Docstring — from a string literal to the text of a docstring

`literalValue` takes the letters and quotes off a string literal; literals of bytes and formatted
literals are no docstrings. `clean` then removes the indentation that the docstring only has because
of the code around it: the least indentation of the lines after the first goes from all of them, and
blank lines at either end go altogether.
-/

namespace DocAudit.Docstring

open DocAudit.Text

/-! ## String literals -/

/-- The quotes of a string literal, the longer ones first. -/
def quoteStyles : List (List Char) :=
  ["\"\"\"".toList, "'''".toList, "\"".toList, "'".toList]

/-- The content between the given quotes, if the text has them at both ends. -/
def between (quote s : List Char) : Option (List Char) :=
  if 2 * quote.length ≤ s.length ∧ quote.isPrefixOf s ∧ quote.isSuffixOf s then
    some ((s.drop quote.length).take (s.length - 2 * quote.length))
  else none

/-- Letters in front of a literal that make it one of bytes or a formatted one. -/
def isBytesOrFormat (c : Char) : Bool :=
  c == 'b' || c == 'B' || c == 'f' || c == 'F'

/-- The quotes themselves. -/
def isQuote (c : Char) : Bool :=
  c == '"' || c == '\''

/-- The content of a string literal as it is written, escapes included. -/
def literalValue (literal : List Char) : Option (List Char) :=
  if (literal.takeWhile fun c => !isQuote c).any isBytesOrFormat then none
  else quoteStyles.findSome? fun quote => between quote (literal.dropWhile fun c => !isQuote c)

/-! ## Indentation -/

/-- The text with eight blanks for each tab. -/
def expandTabs (s : List Char) : List Char :=
  s.flatMap fun c => if c = '\t' then List.replicate 8 ' ' else [c]

/-- The least indentation among the lines that are not blank; zero if all are. -/
def margin (ls : List (List Char)) : Nat :=
  (((ls.filter fun l => !isBlank l).map indentation).min?).getD 0

/-- The lines without the indentation that the code around them causes. -/
def dedent : List (List Char) → List (List Char)
  | [] => []
  | first :: rest => trimStart first :: rest.map fun l => trimEnd (l.drop (margin rest))

/-- The lines without the blank ones at either end. -/
def dropBlankEnds (ls : List (List Char)) : List (List Char) :=
  ((ls.dropWhile isBlank).reverse.dropWhile isBlank).reverse

/-- The text of a docstring without the indentation of the code around it. -/
def clean (raw : List Char) : List Char :=
  unlines (dropBlankEnds (dedent (lines (expandTabs raw))))

/-- The docstring that the content of its literals gives; an empty text is no docstring. -/
def ofContent? (raw : List Char) : Option String :=
  if (clean raw).isEmpty then none else some (String.ofList (clean raw))

end DocAudit.Docstring
