import DocAudit.Toml.Scalar
import DocAudit.Toml.Table

/-!
# Toml/Reader — documents

A document is a list of lines: blank ones, key-value pairs, headers of tables and headers of tables
in an array. `parse?` reads it into one table. Nested values and lines are bounded by `fuel`; each
takes at least one character, so the length of the text is fuel enough.
-/

namespace DocAudit.Toml

/-! ## Keys -/

/-- Characters of keys without quotes. -/
def isKeyChar (c : Char) : Bool :=
  c.isAlphanum || c == '_' || c == '-'

/-- A single key. -/
def simpleKey? (s : List Char) : Option (String × List Char) :=
  match s with
  | '"' :: rest => lineString? '"' rest
  | '\'' :: rest => lineString? '\'' rest
  | s =>
    let key := s.takeWhile isKeyChar
    if key.isEmpty then none else some (String.ofList key, s.drop key.length)

/-- A key with dots. -/
def key? : (fuel : Nat) → List Char → Option (List String × List Char)
  | 0, _ => none
  | fuel + 1, s => do
    let (key, rest) ← simpleKey? s
    match skipBlanks rest with
    | '.' :: rest =>
      let (keys, rest) ← key? fuel (skipBlanks rest)
      some (key :: keys, rest)
    | rest => some ([key], rest)

/-! ## Values -/

/-- The text behind a comment in front of it, if there is one; the line end stays. -/
def skipComment? : List Char → Option (List Char)
  | '#' :: s =>
    let rest := s.dropWhile isPrintable
    if rest.isEmpty || (lineEnd? rest).isSome then some rest else none
  | s => some s

/-- The text behind blanks, line ends and comments. -/
def skipLines : (fuel : Nat) → List Char → List Char
  | 0, s => s
  | fuel + 1, s =>
    match skipComment? (skipBlanks s) with
    | none => s
    | some rest =>
      match lineEnd? rest with
      | some rest => skipLines fuel rest
      | none => rest

mutual

/-- A value and the text behind it. -/
def value? : (fuel : Nat) → List Char → Option (Toml × List Char)
  | 0, _ => none
  | fuel + 1, s =>
    match s with
    | '[' :: rest => (items? fuel rest).map fun (items, rest) => (array items, rest)
    | '\x7b' :: rest =>
      match skipBlanks rest with
      | '\x7d' :: rest => some (table [], rest)
      | rest =>
        (pairs? fuel [] rest).map fun (entries, rest) => (table (entriesToToml entries), rest)
    | c :: _ =>
      if c = '"' ∨ c = '\'' then (text? s).map fun (t, rest) => (string t, rest)
      else
        let run := scalarRun s
        (scalarOf? run).map fun v => (v, s.drop run.length)
    | [] => none

/-- The items of an array up to its closing bracket. -/
def items? : (fuel : Nat) → List Char → Option (List Toml × List Char)
  | 0, _ => none
  | fuel + 1, s =>
    match skipLines s.length s with
    | ']' :: rest => some ([], rest)
    | rest =>
      match value? fuel rest with
      | none => none
      | some (item, rest) =>
        match skipLines rest.length rest with
        | ',' :: rest => (items? fuel rest).map fun (items, rest) => (item :: items, rest)
        | ']' :: rest => some ([item], rest)
        | _ => none

/-- The pairs of an inline table up to its closing brace, added to the given entries. -/
def pairs? : (fuel : Nat) → Entries → List Char → Option (Entries × List Char)
  | 0, _, _ => none
  | fuel + 1, entries, s =>
    match pair? fuel (skipBlanks s) with
    | none => none
    | some (keys, v, rest) =>
      match addValue v keys entries with
      | none => none
      | some entries =>
        match skipBlanks rest with
        | ',' :: rest => pairs? fuel entries rest
        | '\x7d' :: rest => some (entries, rest)
        | _ => none

/-- A key and its value. -/
def pair? : (fuel : Nat) → List Char → Option (List String × Toml × List Char)
  | 0, _ => none
  | fuel + 1, s =>
    match key? s.length s with
    | some (keys, '=' :: rest) =>
      (value? fuel (skipBlanks rest)).map fun (v, rest) => (keys, v, rest)
    | _ => none

end

/-! ## Lines -/

/-- A document as far as it has been read. -/
structure Draft where
  root : Entries := []
  /-- The keys of the table that pairs go to. -/
  current : List String := []

/-- What a line of a document says. -/
inductive Line
  | pair (keys : List String) (v : Toml)
  | header (keys : List String)
  | arrayHeader (keys : List String)

/-- The draft with one more line. -/
def Draft.add (d : Draft) : Line → Option Draft
  | .pair keys v => (change (addValue v keys) d.current d.root).map fun root => { d with root }
  | .header keys =>
    (change (defineTable (keys.getLastD "")) keys.dropLast d.root).map fun root =>
      { root, current := keys }
  | .arrayHeader keys =>
    (change (appendTable (keys.getLastD "")) keys.dropLast d.root).map fun root =>
      { root, current := keys }

/-- The text behind the end of a line: blanks and a comment may stand in front of it. -/
def finishLine? (s : List Char) : Option (List Char) :=
  match skipComment? (skipBlanks s) with
  | none => none
  | some [] => some []
  | some rest => lineEnd? rest

/-- What a line says, and the text behind that; the line is not blank. -/
def line? (s : List Char) : Option (Line × List Char) :=
  match s with
  | '[' :: '[' :: rest =>
    match key? rest.length (skipBlanks rest) with
    | some (keys, ']' :: ']' :: rest) => some (.arrayHeader keys, rest)
    | _ => none
  | '[' :: rest =>
    match key? rest.length (skipBlanks rest) with
    | some (keys, ']' :: rest) => some (.header keys, rest)
    | _ => none
  | s => (pair? (2 * s.length) s).map fun (keys, v, rest) => (.pair keys v, rest)

/-- The draft with all lines of the text. -/
def readLines : (fuel : Nat) → Draft → List Char → Option Draft
  | 0, d, s => if s.isEmpty then some d else none
  | fuel + 1, d, s =>
    match skipBlanks s with
    | [] => some d
    | c :: rest =>
      if c = '#' ∨ (lineEnd? (c :: rest)).isSome then
        (finishLine? (c :: rest)).bind (readLines fuel d)
      else do
        let (line, rest) ← line? (c :: rest)
        let d ← d.add line
        let rest ← finishLine? rest
        readLines fuel d rest

/-- The table that a document denotes. -/
def parse? (text : String) : Option Toml :=
  let s := if text.toList.head? = some '\ufeff' then text.toList.tail else text.toList
  (readLines s.length {} s).map fun d => table (entriesToToml d.root)

end DocAudit.Toml
