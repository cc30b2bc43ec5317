/-!
# Path — file paths compared by their components

A path keeps the text it was written with, and that text is what a report shows. Comparison goes by
`components`: repeated and trailing slashes and inner `.` segments vanish, a leading `.` stays. So
two spellings may be equal as paths, and `a/b.py` comes before `a-b/c.py`, which comes before
`a.py`.
-/

namespace DocAudit

/-- A file path as it was written. -/
structure Path where
  text : String
deriving DecidableEq, Repr

namespace Path

/-- One step of a path. -/
inductive Component
  | root
  | current
  | parent
  | name (label : String)
deriving DecidableEq, Repr

namespace Component

/-- The kinds of steps in their order. -/
def rank : Component → Nat
  | root => 0
  | current => 1
  | parent => 2
  | name _ => 3

/-- The text of a named step; the other steps have none. -/
def label : Component → String
  | name label => label
  | _ => ""

/-- Steps compare by kind, names by their characters. -/
instance : Ord Component :=
  ⟨compareLex (compareOn rank) (compareOn label)⟩

/-- The step that a segment behind a slash denotes; empty segments and `.` are no steps. -/
def ofSegment? (segment : List Char) : Option Component :=
  if segment = [] ∨ segment = ['.'] then none
  else if segment = ['.', '.'] then some parent
  else some (name (String.ofList segment))

end Component

/-- The steps of the path whose segments between slashes are given. -/
def stepsOf : List (List Char) → List Component
  | [] => []
  | [[]] => []
  | [] :: rest => .root :: rest.filterMap Component.ofSegment?
  | first :: rest =>
    (if first = ['.'] then [.current] else (Component.ofSegment? first).toList) ++
      rest.filterMap Component.ofSegment?

/-- The segments of the path between its slashes. -/
def segments (p : Path) : List (List Char) :=
  p.text.toList.splitOn '/'

/-- The steps of the path. -/
def components (p : Path) : List Component :=
  stepsOf p.segments

/-- Paths compare by their steps, and a path comes before those that go on from it. -/
instance : Ord Path :=
  ⟨compareOn components⟩

/-- The name that the path ends with; none for `/`, `.`, `..` and the empty path. -/
def fileName? (p : Path) : Option String :=
  match p.components.getLast? with
  | some (.name label) => some label
  | _ => none

/-- What follows the last dot of a file name, unless that dot comes first. -/
def extensionOf? (name : List Char) : Option (List Char) :=
  match name.reverse.dropWhile (· != '.') with
  | [] => none
  | [_] => none
  | _ => some (name.reverse.takeWhile (· != '.')).reverse

/-- The extension of the file name that the path ends with. -/
def extension? (p : Path) : Option String :=
  p.fileName?.bind fun name => (extensionOf? name.toList).map String.ofList

/-- The path with one more segment; a slash is added only where none stands yet. -/
def child (p : Path) (name : String) : Path :=
  match p.text.toList.getLast? with
  | none => ⟨name⟩
  | some '/' => ⟨p.text ++ name⟩
  | some _ => ⟨p.text ++ "/" ++ name⟩

end Path

end DocAudit
