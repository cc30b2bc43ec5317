import DocAudit.Json.Basic

/-!
# Json/Printer — JSON values as text

One printer serves both forms of the text: a `Style` says where lines break and what stands behind a
key. `Style.compact` writes no blank at all; `Style.pretty` puts each item on a line of its own,
indented by two blanks a level. An empty array or object is closed right away in both.
-/

namespace DocAudit.Json

/-! ## Strings -/

/-- The digits of a code point below U+0100 in base sixteen, two of them. -/
def hexPair (n : Nat) : List Char :=
  [Nat.digitChar (n / 16), Nat.digitChar (n % 16)]

/-- A character inside a string. Quotes, backslashes and control characters are escaped, everything
else stands for itself. -/
def escape (c : Char) : List Char :=
  if c = '"' then ['\\', '"']
  else if c = '\\' then ['\\', '\\']
  else if c = '\n' then ['\\', 'n']
  else if c = '\r' then ['\\', 'r']
  else if c = '\t' then ['\\', 't']
  else if c.toNat = 8 then ['\\', 'b']
  else if c.toNat = 12 then ['\\', 'f']
  else if c.toNat < 0x20 then ['\\', 'u', '0', '0'] ++ hexPair c.toNat
  else [c]

/-- A string in its quotes. -/
def quoted (s : String) : List Char :=
  '"' :: s.toList.flatMap escape ++ ['"']

/-! ## Values -/

/-- Where the text of a value breaks into lines. -/
structure Style where
  /-- What stands in front of an item at the given level. -/
  lineBreak : (level : Nat) → List Char
  /-- What stands between a key and its value. -/
  colon : List Char

/-- No blanks and no line breaks. -/
def Style.compact : Style where
  lineBreak _ := []
  colon := [':']

/-- Each item on a line of its own, two blanks deeper than what it belongs to. -/
def Style.pretty : Style where
  lineBreak level := '\n' :: List.replicate (2 * level) ' '
  colon := [':', ' ']

mutual

/-- The text of a value at a level. -/
def render (st : Style) (level : Nat) : Json → List Char
  | null => "null".toList
  | bool true => "true".toList
  | bool false => "false".toList
  | natural n => Nat.toDigits 10 n
  | number text => text.toList
  | string s => quoted s
  | array [] => ['[', ']']
  | array (item :: items) =>
    '[' :: (st.lineBreak (level + 1) ++ render st (level + 1) item ++ renderItems st level items)
  | object [] => ['\x7b', '\x7d']
  | object ((key, value) :: members) =>
    '\x7b' :: (st.lineBreak (level + 1) ++ quoted key ++ st.colon ++ render st (level + 1) value ++
      renderMembers st level members)

/-- The items behind the first one of an array, and its closing bracket. -/
def renderItems (st : Style) (level : Nat) : List Json → List Char
  | [] => st.lineBreak level ++ [']']
  | item :: items =>
    ',' :: (st.lineBreak (level + 1) ++ render st (level + 1) item ++ renderItems st level items)

/-- The members behind the first one of an object, and its closing brace. -/
def renderMembers (st : Style) (level : Nat) : List (String × Json) → List Char
  | [] => st.lineBreak level ++ ['\x7d']
  | (key, value) :: members =>
    ',' :: (st.lineBreak (level + 1) ++ quoted key ++ st.colon ++ render st (level + 1) value ++
      renderMembers st level members)

end

/-- The text of a value without blanks. -/
def compact (j : Json) : String :=
  String.ofList (render .compact 0 j)

/-- The text of a value on indented lines. -/
def pretty (j : Json) : String :=
  String.ofList (render .pretty 0 j)

end DocAudit.Json
