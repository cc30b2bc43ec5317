import DocAudit.Text.White
import DocAudit.Text.Word

/-!
# TypeText — the normal form of a written type

Types are compared as text, so the text is brought to a normal form first:

* `dropRoles` removes cross-reference roles such as `:class:` or `:py:class:`;
* backticks and tildes go, then the white space at the ends, then one pair of equal quotes;
* `respace` writes the blanks anew. Which blank stands in front of a character is decided by `gap`
  from the character before it alone, so the old spacing is forgotten wherever punctuation fixes it.
-/

namespace DocAudit.TypeText

open DocAudit.Text

/-! ## Cross-reference roles -/

/-- How many characters a small-letter name and the colon behind it take; zero if there is none. -/
def segmentLength (s : List Char) : Nat :=
  let name := s.takeWhile isLower
  if name ≠ [] ∧ (s.drop name.length).head? = some ':' then name.length + 1 else 0

/-- How many characters a role takes behind its opening colon; zero if no role stands there. A
domain in front of the role's name (`py:class:`) belongs to it. -/
def roleLength (s : List Char) : Nat :=
  let first := segmentLength s
  if first = 0 then 0 else first + segmentLength (s.drop first)

/-- The text without its roles, when its first `skip` characters are the rest of a role. -/
def dropRolesFrom : (skip : Nat) → List Char → List Char
  | _, [] => []
  | skip + 1, _ :: s => dropRolesFrom skip s
  | 0, c :: s =>
    if c = ':' ∧ roleLength s ≠ 0 then dropRolesFrom (roleLength s) s
    else c :: dropRolesFrom 0 s

/-- The text without its roles, read from the left; roles do not overlap. -/
def dropRoles (s : List Char) : List Char :=
  dropRolesFrom 0 s

/-! ## Marks and quotes -/

/-- Backticks and tildes mark up a cross-reference and are no part of the type. -/
def isMark (c : Char) : Bool :=
  c == '\x60' || c == '~'

/-- The text without the pair of equal quotes around it, if it has one. -/
def unquote : List Char → List Char
  | [] => []
  | q :: s => if (q = '"' ∨ q = '\'') ∧ s.getLast? = some q then s.dropLast else q :: s

/-! ## Spacing -/

/-- Punctuation that stands close to what is in front of it. -/
def closesUp (c : Char) : Bool :=
  c == '[' || c == ']' || c == '(' || c == ')' || c == '.' || c == ','

/-- Separators, which keep one blank behind them. -/
def isSeparator (c : Char) : Bool :=
  c == ',' || c == '|'

/-- Punctuation that what follows stands close to. -/
def holdsNext (c : Char) : Bool :=
  c == '[' || c == '(' || c == '.'

/-- The blank in front of `c`: `prev` is the character written before it, if any, and `white` says
whether white space stood between the two. -/
def gap (prev : Option Char) (white : Bool) (c : Char) : List Char :=
  match prev with
  | none => []
  | some p =>
    if closesUp c then []
    else if c == '|' || isSeparator p || (white && !holdsNext p) then [' ']
    else []

/-- The characters that are not white, with the blanks between them written anew. -/
def respace : (prev : Option Char) → (white : Bool) → List Char → List Char
  | _, _, [] => []
  | prev, white, c :: s =>
    if isWhite c then respace prev true s
    else gap prev white c ++ c :: respace (some c) false s

/-! ## The normal form -/

/-- The normal form of a written type. -/
def normalize (s : List Char) : List Char :=
  respace none false (unquote (trim ((dropRoles s).filter fun c => !isMark c)))

end DocAudit.TypeText

namespace DocAudit

/-- The normal form of a written type, as a string. -/
def normalType (text : String) : String :=
  String.ofList (TypeText.normalize text.toList)

end DocAudit
