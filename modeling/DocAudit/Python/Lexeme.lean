import DocAudit.Python.Name

/-!
# Python/Lexeme — a source cut into lexemes

`lexemes` cuts a source into pieces that follow each other without a gap: put together again they
are the source. A stack of modes remembers the open brackets and the formatted strings that the text
is inside of, for inside brackets a line end does not count, and inside a formatted string braces
switch between text and expression.
-/

namespace DocAudit.Python

/-- What a lexeme is. -/
inductive LexemeKind
  /-- White space, continued lines, and line ends inside brackets. -/
  | blank
  | comment
  /-- A line end outside brackets. -/
  | lineEnd
  | word
  | number
  | string
  | formatStart
  | formatText
  | formatEnd
  | operator
  /-- A character or a literal that no lexeme can hold. -/
  | invalid
deriving DecidableEq, Repr

/-- What the text is inside of. -/
inductive Mode
  | bracket
  /-- The text of a formatted string with the given closing quotes. -/
  | format (quote : List Char) (raw : Bool)
  /-- A replacement field of a formatted string, up to its format specification. -/
  | field
  /-- The format specification of a replacement field. -/
  | spec
deriving DecidableEq, Repr

/-- The kind and length of the next lexeme, and the modes behind it. -/
structure Cut where
  kind : LexemeKind
  length : Nat
  modes : List Mode

/-! ## Literals -/

/-- How many characters of a digit sequence stand in front; underscores may follow the first
digit. -/
def digitsLength (digit : Char → Bool) : List Char → Nat
  | [] => 0
  | c :: s => if digit c then 1 + (s.takeWhile fun d => digit d || d == '_').length else 0

/-- The digits of a radix mark; underscores may stand anywhere among them. -/
def radixDigits? (c : Char) : Option (Char → Bool) :=
  if c == 'x' || c == 'X' then
    some fun d => d.isDigit || ('a' ≤ d && d ≤ 'f') || ('A' ≤ d && d ≤ 'F')
  else if c == 'o' || c == 'O' then some fun d => '0' ≤ d && d ≤ '7'
  else if c == 'b' || c == 'B' then some fun d => d == '0' || d == '1'
  else none

/-- The length of a number with a radix mark; zero if none stands there. -/
def radixLength : List Char → Nat
  | '0' :: mark :: s =>
    match radixDigits? mark with
    | some digit =>
      let digits := s.takeWhile fun d => digit d || d == '_'
      if digits.any digit then 2 + digits.length else 0
    | none => 0
  | _ => 0

/-- The length of a fraction with its point. -/
def fractionLength : List Char → Nat
  | '.' :: s => 1 + digitsLength Char.isDigit s
  | _ => 0

/-- The length of an exponent with its mark; a mark without digits is none. -/
def exponentLength : List Char → Nat
  | [] => 0
  | mark :: s =>
    if mark == 'e' || mark == 'E' then
      let sign := if s.head? = some '+' ∨ s.head? = some '-' then 1 else 0
      match digitsLength Char.isDigit (s.drop sign) with
      | 0 => 0
      | n => 1 + sign + n
    else 0

/-- The length of the letter that marks a long or an imaginary number. -/
def suffixLength : List Char → Nat
  | c :: _ => if c == 'j' || c == 'J' || c == 'l' || c == 'L' then 1 else 0
  | [] => 0

/-- The length of the number in front. -/
def numberLength (s : List Char) : Nat :=
  match radixLength s with
  | 0 =>
    let whole := digitsLength Char.isDigit s
    let fraction := fractionLength (s.drop whole)
    let exponent := exponentLength (s.drop (whole + fraction))
    let mantissa := whole + fraction + exponent
    mantissa + suffixLength (s.drop mantissa)
  | n => n + suffixLength (s.drop n)

/-- A number starts with a digit, or with a point and a digit. -/
def startsNumber : List Char → Bool
  | '.' :: c :: _ => c.isDigit
  | c :: _ => c.isDigit
  | [] => false

/-- Letters that may stand in front of the quotes of a string. -/
def isStringLetter (c : Char) : Bool :=
  c.toLower == 'f' || c.toLower == 'r' || c.toLower == 'b' || c.toLower == 'u'

/-- The quotes in front: three of a kind, or one. -/
def quote? : List Char → Option (List Char)
  | '"' :: '"' :: '"' :: _ => some ['"', '"', '"']
  | '\'' :: '\'' :: '\'' :: _ => some ['\'', '\'', '\'']
  | '"' :: _ => some ['"']
  | '\'' :: _ => some ['\'']
  | _ => none

/-- How far a string goes on behind its opening quotes, the closing ones included. A backslash
protects the character behind it, and a single quote has to be closed on its line. -/
def contentLength? (quote : List Char) : List Char → Option Nat
  | [] => none
  | '\\' :: '\r' :: '\n' :: s => (contentLength? quote s).map (· + 3)
  | '\\' :: _ :: s => (contentLength? quote s).map (· + 2)
  | c :: s =>
    if quote.isPrefixOf (c :: s) then some quote.length
    else if c = '\n' ∧ quote.length = 1 then none
    else (contentLength? quote s).map (· + 1)

/-- The string in front, if one starts there. A string that is not closed is invalid up to the end
of its line. -/
def stringCut? (modes : List Mode) (s : List Char) : Option Cut :=
  let letters := s.takeWhile isStringLetter
  let body := s.drop letters.length
  (quote? body).map fun quote =>
    let opening := letters.length + quote.length
    if letters.any fun c => c.toLower == 'f' then
      ⟨.formatStart, opening, .format quote (letters.any fun c => c.toLower == 'r') :: modes⟩
    else
      match contentLength? quote (body.drop quote.length) with
      | some n => ⟨.string, opening + n, modes⟩
      | none => ⟨.invalid, opening + (s.drop opening |>.takeWhile (· != '\n')).length, modes⟩

/-! ## Operators -/

/-- The operators and delimiters, the longer ones first. -/
def operators : List String :=
  ["**=", "//=", ">>=", "<<=", "...", "!=", "->", ":=", "+=", "-=", "*=", "/=", "%=", "@=", "&=",
    "|=", "^=", "==", "<=", ">=", "<>", "<<", ">>", "**", "//", "+", "-", "*", "/", "%", "@", "&",
    "|", "^", "~", "<", ">", "(", ")", "[", "]", "\x7b", "\x7d", ",", ":", ".", ";", "="]

/-- The length of the operator in front; zero if none stands there. -/
def operatorLength (s : List Char) : Nat :=
  match operators.find? fun o => o.toList.isPrefixOf s with
  | some o => o.length
  | none => 0

/-- The modes behind a closing bracket or brace. -/
def closeMode (brace : Bool) : List Mode → List Mode
  | .bracket :: modes => modes
  | .field :: modes => if brace then modes else .field :: modes
  | modes => modes

/-- The operator in front. -/
def operatorCut (modes : List Mode) (s : List Char) : Cut :=
  match s.head? with
  | some '(' | some '[' | some '\x7b' => ⟨.operator, 1, .bracket :: modes⟩
  | some ')' | some ']' => ⟨.operator, 1, closeMode false modes⟩
  | some '\x7d' => ⟨.operator, 1, closeMode true modes⟩
  | _ =>
    match operatorLength s with
    | 0 => ⟨.invalid, 1, modes⟩
    | n => ⟨.operator, n, modes⟩

/-! ## Code -/

/-- White space inside a line. -/
def isLineBlank (c : Char) : Bool :=
  let n := c.toNat
  n == 0x20 || n == 9 || n == 11 || n == 12 || n == 13 || n == 0xfeff || n == 0x2060 || n == 0x200b

/-- The lexeme in front of a text that is code. -/
def codeCut (modes : List Mode) (s : List Char) : Cut :=
  match s with
  | [] => ⟨.blank, 0, modes⟩
  | '\n' :: _ => ⟨if modes.isEmpty then .lineEnd else .blank, 1, modes⟩
  | '\\' :: '\n' :: _ => ⟨.blank, 2, modes⟩
  | '\\' :: '\r' :: '\n' :: _ => ⟨.blank, 3, modes⟩
  | '#' :: _ => ⟨.comment, (s.takeWhile (· != '\n')).length, modes⟩
  | c :: _ =>
    if isLineBlank c then ⟨.blank, (s.takeWhile isLineBlank).length, modes⟩
    else
      match stringCut? modes s with
      | some cut => cut
      | none =>
        if startsNumber s then ⟨.number, numberLength s, modes⟩
        else if startsName c then ⟨.word, (s.takeWhile continuesName).length, modes⟩
        else operatorCut modes s

/-- The lexeme in front of the text of a formatted string. -/
def formatCut (quote : List Char) (raw : Bool) (outer modes : List Mode) (s : List Char) : Cut :=
  if quote.isPrefixOf s then ⟨.formatEnd, quote.length, outer⟩
  else
    match s with
    | '\x7b' :: '\x7b' :: _ => ⟨.formatText, 2, modes⟩
    | '\x7d' :: '\x7d' :: _ => ⟨.formatText, 2, modes⟩
    | '\x7b' :: _ => ⟨.operator, 1, .field :: modes⟩
    | '\x7d' :: _ => ⟨.invalid, 1, modes⟩
    | '\\' :: '\x7b' :: _ => ⟨.formatText, 1, modes⟩
    | '\\' :: '\x7d' :: _ => ⟨.formatText, 1, modes⟩
    | '\\' :: 'N' :: '\x7b' :: t =>
      if raw then ⟨.formatText, 2, modes⟩
      else ⟨.formatText, 4 + (t.takeWhile (· != '\x7d')).length, modes⟩
    | '\\' :: '\r' :: '\n' :: _ => ⟨.formatText, 3, modes⟩
    | '\\' :: _ :: _ => ⟨.formatText, 2, modes⟩
    | '\n' :: _ => if quote.length = 1 then ⟨.invalid, 1, modes⟩ else ⟨.formatText, 1, modes⟩
    | _ =>
      let plain (c : Char) : Bool :=
        c != '\\' && c != '\x7b' && c != '\x7d' && c != '\n' && quote.head? != some c
      ⟨.formatText, max 1 (s.takeWhile plain).length, modes⟩

/-- The lexeme in front of the code in a replacement field. -/
def fieldCut (modes : List Mode) (s : List Char) : Cut :=
  match s with
  | ':' :: _ => ⟨.operator, 1, .spec :: modes⟩
  | '!' :: '=' :: _ => ⟨.operator, 2, modes⟩
  | '!' :: _ => ⟨.operator, 1, modes⟩
  | _ => codeCut modes s

/-- The lexeme in front of a format specification. -/
def specCut (outer modes : List Mode) (s : List Char) : Cut :=
  match s with
  | '\x7b' :: _ => ⟨.operator, 1, .field :: modes⟩
  | '\x7d' :: _ => ⟨.operator, 1, closeMode true outer⟩
  | '\n' :: _ => ⟨.invalid, 1, modes⟩
  | _ =>
    ⟨.formatText, (s.takeWhile fun c => c != '\x7b' && c != '\x7d' && c != '\n').length, modes⟩

/-- The lexeme in front of a text in the given modes. -/
def cut (modes : List Mode) (s : List Char) : Cut :=
  match modes with
  | .format quote raw :: outer => formatCut quote raw outer modes s
  | .field :: _ => fieldCut modes s
  | .spec :: outer => specCut outer modes s
  | _ => codeCut modes s

/-! ## The whole source -/

/-- A piece of source. -/
structure Lexeme where
  kind : LexemeKind
  text : List Char
deriving DecidableEq, Repr

/-- The lexemes of a text in the given modes. Each takes at least one character. -/
def lexemesFrom (modes : List Mode) (s : List Char) : List Lexeme :=
  match s with
  | [] => []
  | c :: t =>
    let next := cut modes (c :: t)
    let n := next.length - 1
    ⟨next.kind, c :: t.take n⟩ :: lexemesFrom next.modes (t.drop n)
termination_by s.length
decreasing_by simp only [List.length_cons, List.length_drop]; omega

/-- The lexemes of a source. -/
def lexemes (source : List Char) : List Lexeme :=
  lexemesFrom [] source

end DocAudit.Python
