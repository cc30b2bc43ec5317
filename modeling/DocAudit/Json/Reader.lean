import DocAudit.Json.Basic

/-!
# Json/Reader — JSON text as values

The reader takes a value off the front of a text and hands on what is left. Nested values are
bounded by `fuel`; each value takes at least one character, so `parse?` starts with more fuel than
the text can use up. White space is blank, tab, line feed and carriage return. A string may hold
every character from U+0020 on as itself; surrogates have to be escaped in pairs.
-/

namespace DocAudit.Json

/-- White space between tokens. -/
def isSpace (c : Char) : Bool :=
  c == ' ' || c == '\t' || c == '\n' || c == '\r'

/-- The text behind the white space in front of it. -/
def skipSpace (s : List Char) : List Char :=
  s.dropWhile isSpace

/-- The text behind a word. -/
def word? (w s : List Char) : Option (List Char) :=
  if w.isPrefixOf s then some (s.drop w.length) else none

/-! ## Numbers -/

/-- Characters that numbers are written with. -/
def isNumeral (c : Char) : Bool :=
  c.isDigit || c == '-' || c == '+' || c == '.' || c == 'e' || c == 'E'

/-- The text is digits, at least one of them. -/
def isDigits (s : List Char) : Bool :=
  !s.isEmpty && s.all Char.isDigit

/-- An integer part: a zero alone, or digits that do not start with zero. -/
def isInteger (s : List Char) : Bool :=
  isDigits s && (s == ['0'] || s.head? != some '0')

/-- An exponent behind its mark: digits with an optional sign. -/
def isExponent : List Char → Bool
  | '+' :: s => isDigits s
  | '-' :: s => isDigits s
  | s => isDigits s

/-- A part of a number in front of a mark, and the part behind it if the mark is there. -/
def splitAtMark (mark : Char → Bool) (s : List Char) : List Char × Option (List Char) :=
  (s.takeWhile fun c => !mark c, ((s.dropWhile fun c => !mark c).tail?))

/-- A number without its sign: integer part, then fraction and exponent where they are written. -/
def isUnsigned (s : List Char) : Bool :=
  let (mantissa, exponent) := splitAtMark (fun c => c == 'e' || c == 'E') s
  let (whole, fraction) := splitAtMark (· == '.') mantissa
  isInteger whole && fraction.all isDigits && exponent.all isExponent

/-- The number that a numeral denotes. -/
def numeral? (s : List Char) : Option Json :=
  if isInteger s then some (natural (s.foldl (fun n c => 10 * n + (c.toNat - 48)) 0))
  else if isUnsigned (if s.head? = some '-' then s.tail else s) then some (number (String.ofList s))
  else none

/-! ## Strings -/

/-- The value of a digit in base sixteen. -/
def hexDigit? (c : Char) : Option Nat :=
  if c.isDigit then some (c.toNat - 48)
  else if 'a' ≤ c ∧ c ≤ 'f' then some (c.toNat - 87)
  else if 'A' ≤ c ∧ c ≤ 'F' then some (c.toNat - 55)
  else none

/-- Four digits in base sixteen at the front of a text. -/
def hexUnit? : List Char → Option (Nat × List Char)
  | a :: b :: c :: d :: s => do
    let a ← hexDigit? a
    let b ← hexDigit? b
    let c ← hexDigit? c
    let d ← hexDigit? d
    some (((a * 16 + b) * 16 + c) * 16 + d, s)
  | _ => none

/-- The character of an escape with a code unit; one of the upper half of the surrogates needs one
of the lower half behind it. -/
def unicode? (s : List Char) : Option (Char × List Char) := do
  let (hi, s) ← hexUnit? s
  if 0xd800 ≤ hi ∧ hi < 0xdc00 then
    let s ← word? ['\\', 'u'] s
    let (lo, s) ← hexUnit? s
    if 0xdc00 ≤ lo ∧ lo < 0xe000 then
      some (Char.ofNat (0x10000 + (hi - 0xd800) * 0x400 + (lo - 0xdc00)), s)
    else none
  else if 0xdc00 ≤ hi ∧ hi < 0xe000 then none
  else some (Char.ofNat hi, s)

/-- The character of an escape, read behind its backslash. -/
def escaped? : List Char → Option (Char × List Char)
  | '"' :: s => some ('"', s)
  | '\\' :: s => some ('\\', s)
  | '/' :: s => some ('/', s)
  | 'b' :: s => some (Char.ofNat 8, s)
  | 'f' :: s => some (Char.ofNat 12, s)
  | 'n' :: s => some ('\n', s)
  | 'r' :: s => some ('\r', s)
  | 't' :: s => some ('\t', s)
  | 'u' :: s => unicode? s
  | _ => none

/-- The characters of a string up to its closing quote. -/
def chars? : (fuel : Nat) → List Char → Option (List Char × List Char)
  | 0, _ => none
  | _ + 1, [] => none
  | fuel + 1, c :: s =>
    if c = '"' then some ([], s)
    else if c = '\\' then do
      let (c, s) ← escaped? s
      let (cs, s) ← chars? fuel s
      some (c :: cs, s)
    else if c.toNat < 0x20 then none
    else do
      let (cs, s) ← chars? fuel s
      some (c :: cs, s)

/-- A string, read behind its opening quote. -/
def text? (s : List Char) : Option (String × List Char) :=
  (chars? s.length s).map fun (cs, rest) => (String.ofList cs, rest)

/-! ## Values -/

mutual

/-- A value and the text behind it. -/
def value? : (fuel : Nat) → List Char → Option (Json × List Char)
  | 0, _ => none
  | fuel + 1, s =>
    match skipSpace s with
    | '"' :: s => (text? s).map fun (t, s) => (string t, s)
    | '[' :: s =>
      match skipSpace s with
      | ']' :: s => some (array [], s)
      | _ => (items? fuel s).map fun (items, s) => (array items, s)
    | '\x7b' :: s =>
      match skipSpace s with
      | '\x7d' :: s => some (object [], s)
      | _ => (members? fuel s).map fun (members, s) => (object members, s)
    | 't' :: s => (word? "rue".toList s).map fun s => (bool true, s)
    | 'f' :: s => (word? "alse".toList s).map fun s => (bool false, s)
    | 'n' :: s => (word? "ull".toList s).map fun s => (null, s)
    | s => (numeral? (s.takeWhile isNumeral)).map fun v => (v, s.dropWhile isNumeral)

/-- The items of an array up to its closing bracket. -/
def items? : (fuel : Nat) → List Char → Option (List Json × List Char)
  | 0, _ => none
  | fuel + 1, s =>
    match value? fuel s with
    | none => none
    | some (item, s) =>
      match skipSpace s with
      | ',' :: s => (items? fuel s).map fun (items, s) => (item :: items, s)
      | ']' :: s => some ([item], s)
      | _ => none

/-- The members of an object up to its closing brace. -/
def members? : (fuel : Nat) → List Char → Option (List (String × Json) × List Char)
  | 0, _ => none
  | fuel + 1, s =>
    match skipSpace s with
    | '"' :: s =>
      match text? s with
      | none => none
      | some (key, s) =>
        match skipSpace s with
        | ':' :: s =>
          match value? fuel s with
          | none => none
          | some (value, s) =>
            match skipSpace s with
            | ',' :: s => (members? fuel s).map fun (members, s) => ((key, value) :: members, s)
            | '\x7d' :: s => some ([(key, value)], s)
            | _ => none
        | _ => none
    | _ => none

end

/-- The value that a text denotes; nothing but white space may stand around it. -/
def parse? (text : String) : Option Json :=
  match value? (2 * text.toList.length + 2) text.toList with
  | some (v, rest) => if (skipSpace rest).isEmpty then some v else none
  | none => none

end DocAudit.Json
