import DocAudit.Toml.Basic

/-!
# Toml/Scalar — strings, numbers and points in time

Every function here takes a value off the front of a text and hands on what is left. Strings come in
four kinds: with or without escapes, on one line or on several. Numbers and points in time are first
cut off as a run of their characters and then told apart by their form.
-/

namespace DocAudit.Toml

/-! ## Characters -/

/-- Characters that may stand in a comment or a string: the tab and all but the control
characters. -/
def isPrintable (c : Char) : Bool :=
  c == '\t' || (0x20 ≤ c.toNat && c.toNat != 0x7f)

/-- Blanks inside a line. -/
def isBlank (c : Char) : Bool :=
  c == ' ' || c == '\t'

/-- The text behind a line end in front of it. -/
def lineEnd? : List Char → Option (List Char)
  | '\n' :: s => some s
  | '\r' :: '\n' :: s => some s
  | _ => none

/-- The text behind the blanks in front of it. -/
def skipBlanks (s : List Char) : List Char :=
  s.dropWhile isBlank

/-! ## Strings -/

/-- The value of a digit in base sixteen. -/
def hexDigit? (c : Char) : Option Nat :=
  if c.isDigit then some (c.toNat - 48)
  else if 'a' ≤ c ∧ c ≤ 'f' then some (c.toNat - 87)
  else if 'A' ≤ c ∧ c ≤ 'F' then some (c.toNat - 55)
  else none

/-- The character whose code point the given number of digits in base sixteen denote. -/
def codePoint? (digits : Nat) (s : List Char) : Option (Char × List Char) := do
  let ds ← (s.take digits).mapM hexDigit?
  guard (ds.length = digits)
  let n := ds.foldl (fun n d => 16 * n + d) 0
  if n.isValidChar then some (Char.ofNat n, s.drop digits) else none

/-- The character of an escape, read behind its backslash. -/
def escaped? : List Char → Option (Char × List Char)
  | 'b' :: s => some (Char.ofNat 8, s)
  | 't' :: s => some ('\t', s)
  | 'n' :: s => some ('\n', s)
  | 'f' :: s => some (Char.ofNat 12, s)
  | 'r' :: s => some ('\r', s)
  | '"' :: s => some ('"', s)
  | '\\' :: s => some ('\\', s)
  | 'u' :: s => codePoint? 4 s
  | 'U' :: s => codePoint? 8 s
  | _ => none

/-- The text behind the blanks and line ends in front of it. -/
def skipBlankLines : List Char → List Char
  | ' ' :: s => skipBlankLines s
  | '\t' :: s => skipBlankLines s
  | '\n' :: s => skipBlankLines s
  | '\r' :: '\n' :: s => skipBlankLines s
  | s => s

/-- The text behind blanks and line ends, if a line end comes right behind blanks in front. -/
def continuedLine? (s : List Char) : Option (List Char) :=
  (lineEnd? (skipBlanks s)).map skipBlankLines

/-- The characters up to the quotes that close a string: `quotes` of the quote character, with
escapes or without. A string with three quotes may go over several lines and may end in one or two
quotes of its own. -/
def content? (quote : Char) (quotes : Nat) (escapes : Bool) :
    (fuel : Nat) → List Char → Option (List Char × List Char)
  | 0, _ => none
  | _ + 1, [] => none
  | fuel + 1, c :: s =>
    let run := ((c :: s).takeWhile (· == quote)).length
    if quotes ≤ run then
      let own := if quotes = 1 then 0 else min 2 (run - quotes)
      some (List.replicate own quote, (c :: s).drop (own + quotes))
    else if c = '\\' ∧ escapes then
      match if quotes = 3 then continuedLine? s else none with
      | some rest => content? quote quotes escapes fuel rest
      | none => do
        let (e, rest) ← escaped? s
        let (cs, rest) ← content? quote quotes escapes fuel rest
        some (e :: cs, rest)
    else
      match lineEnd? (c :: s) with
      | some rest =>
        if quotes = 3 then do
          let (cs, rest) ← content? quote quotes escapes fuel rest
          some ('\n' :: cs, rest)
        else none
      | none =>
        if isPrintable c then do
          let (cs, rest) ← content? quote quotes escapes fuel s
          some (c :: cs, rest)
        else none

/-- A string on one line, read behind its opening quote. -/
def lineString? (quote : Char) (s : List Char) : Option (String × List Char) :=
  (content? quote 1 (quote == '"') (s.length + 1) s).map fun (cs, rest) => (String.ofList cs, rest)

/-- A string on several lines, read behind its opening quotes; a line end right behind them does not
count. -/
def linesString? (quote : Char) (s : List Char) : Option (String × List Char) :=
  let s := (lineEnd? s).getD s
  (content? quote 3 (quote == '"') (s.length + 1) s).map fun (cs, rest) => (String.ofList cs, rest)

/-- A string of any kind. -/
def text? : List Char → Option (String × List Char)
  | '"' :: '"' :: '"' :: s => linesString? '"' s
  | '\'' :: '\'' :: '\'' :: s => linesString? '\'' s
  | '"' :: s => lineString? '"' s
  | '\'' :: s => lineString? '\'' s
  | _ => none

/-! ## Numbers -/

/-- Digits with single underscores between them. -/
def isDigitRun (digit : Char → Bool) : List Char → Bool
  | [] => false
  | [c] => digit c
  | c :: '_' :: s => digit c && isDigitRun digit s
  | c :: s => digit c && isDigitRun digit s

/-- The number that digits of a base denote; underscores do not count. -/
def numberOf (base : Nat) (s : List Char) : Nat :=
  (s.filterMap hexDigit?).foldl (fun n d => base * n + d) 0

/-- The text without the sign in front of it, and whether that sign is a minus. -/
def unsigned : List Char → Bool × List Char
  | '-' :: s => (true, s)
  | '+' :: s => (false, s)
  | s => (false, s)

/-- Digits that do not start with a zero, unless they are the zero alone. -/
def isWhole (s : List Char) : Bool :=
  isDigitRun Char.isDigit s && (s.length = 1 || s.head? != some '0')

/-- The first integer that does not fit in 64 bits, sign included. -/
def integerLimit : Int :=
  9223372036854775808

/-- Integers have to fit in 64 bits, sign included. -/
def inRange (n : Int) : Bool :=
  -integerLimit ≤ n && n < integerLimit

/-- An integer in base two, eight or sixteen, read behind its mark. -/
def based? (base : Nat) (digit : Char → Bool) (s : List Char) : Option Int :=
  if isDigitRun digit s && inRange (numberOf base s) then some (numberOf base s) else none

/-- The integer that a text denotes. -/
def integer? (s : List Char) : Option Int :=
  match s with
  | '0' :: 'x' :: s => based? 16 (fun c => (hexDigit? c).isSome) s
  | '0' :: 'o' :: s => based? 8 (fun c => '0' ≤ c && c ≤ '7') s
  | '0' :: 'b' :: s => based? 2 (fun c => c == '0' || c == '1') s
  | s =>
    let (negative, digits) := unsigned s
    if isWhole digits then
      let n : Int := numberOf 10 digits
      let n := if negative then -n else n
      if inRange n then some n else none
    else none

/-- An exponent behind its mark; leading zeros are allowed. -/
def isExponent (s : List Char) : Bool :=
  isDigitRun Char.isDigit (unsigned s).2

/-- A number with a fraction, an exponent or both, or one of the special numbers. -/
def isFloat (s : List Char) : Bool :=
  let body := (unsigned s).2
  if body == "inf".toList || body == "nan".toList then true
  else
    let isMark (c : Char) : Bool := c == 'e' || c == 'E'
    let mantissa := body.takeWhile fun c => !isMark c
    let exponent := (body.dropWhile fun c => !isMark c).tail?
    let whole := mantissa.takeWhile (· != '.')
    let fraction := (mantissa.dropWhile (· != '.')).tail?
    isWhole whole && fraction.all (isDigitRun Char.isDigit) && exponent.all isExponent &&
      (fraction.isSome || exponent.isSome)

/-! ## Points in time -/

/-- The number of exactly so many digits in front, and the text behind them. -/
def fixed? (digits : Nat) (s : List Char) : Option (Nat × List Char) :=
  let ds := s.take digits
  if ds.length = digits ∧ ds.all Char.isDigit then some (numberOf 10 ds, s.drop digits) else none

/-- The text behind the given character. -/
def mark? (c : Char) : List Char → Option (List Char)
  | d :: s => if c = d then some s else none
  | [] => none

/-- How many days a month has. -/
def daysIn (year month : Nat) : Nat :=
  if month = 2 then
    if (year % 4 = 0 ∧ year % 100 ≠ 0) ∨ year % 400 = 0 then 29 else 28
  else if month ∈ [4, 6, 9, 11] then 30
  else 31

/-- A day in front, and the text behind it. -/
def date? (s : List Char) : Option (List Char) := do
  let (year, s) ← fixed? 4 s
  let s ← mark? '-' s
  let (month, s) ← fixed? 2 s
  let s ← mark? '-' s
  let (day, s) ← fixed? 2 s
  guard (1 ≤ month ∧ month ≤ 12 ∧ 1 ≤ day ∧ day ≤ daysIn year month)
  some s

/-- A fraction of a second in front, if there is one. -/
def secondFraction? : List Char → Option (List Char)
  | '.' :: s =>
    if (s.takeWhile Char.isDigit).isEmpty then none else some (s.dropWhile Char.isDigit)
  | s => some s

/-- A time of day in front, and the text behind it. -/
def time? (s : List Char) : Option (List Char) := do
  let (hour, s) ← fixed? 2 s
  let s ← mark? ':' s
  let (minute, s) ← fixed? 2 s
  let s ← mark? ':' s
  let (second, s) ← fixed? 2 s
  guard (hour ≤ 23 ∧ minute ≤ 59 ∧ second ≤ 60)
  secondFraction? s

/-- An offset from universal time. -/
def isOffset : List Char → Bool
  | [] => true
  | ['Z'] => true
  | ['z'] => true
  | c :: s =>
    (c == '+' || c == '-') &&
      (do
        let (hour, s) ← fixed? 2 s
        let s ← mark? ':' s
        let (minute, s) ← fixed? 2 s
        guard (hour ≤ 23 ∧ minute ≤ 59)
        guard s.isEmpty : Option Unit).isSome

/-- A day, a time of day, or both with an optional offset. -/
def isDateTime (s : List Char) : Bool :=
  match time? s with
  | some rest => rest.isEmpty
  | none =>
    match date? s with
    | none => false
    | some [] => true
    | some (c :: rest) =>
      (c == 'T' || c == 't' || c == ' ') &&
        (match time? rest with
        | some offset => isOffset offset
        | none => false)

/-! ## Scalars that are not strings -/

/-- Characters of numbers, points in time and truth values. -/
def isScalarChar (c : Char) : Bool :=
  c.isAlphanum || c == '_' || c == '+' || c == '-' || c == '.' || c == ':'

/-- The run of such characters in front; a blank between a day and a time of day belongs to it. -/
def scalarRun (s : List Char) : List Char :=
  let run := s.takeWhile isScalarChar
  match s.drop run.length with
  | ' ' :: rest =>
    if date? run = some [] ∧ (fixed? 2 rest).isSome then
      run ++ ' ' :: rest.takeWhile isScalarChar
    else run
  | _ => run

/-- The value that a run of such characters denotes. -/
def scalarOf? (run : List Char) : Option Toml :=
  if run = "true".toList then some (boolean true)
  else if run = "false".toList then some (boolean false)
  else
    match integer? run with
    | some n => some (integer n)
    | none =>
      if isFloat run then some (float (String.ofList run))
      else if isDateTime run then some (dateTime (String.ofList run))
      else none

end DocAudit.Toml
