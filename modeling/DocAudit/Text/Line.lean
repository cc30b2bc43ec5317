/-!
# Text/Line — the lines of a text

A line ends at a line feed, and a carriage return right before that line feed belongs to the line
end. What follows the last line feed is a line of its own unless it is empty; since no line feed
closes it, it keeps a final carriage return.
-/

namespace DocAudit.Text

/-- A closed line without the carriage return of its line end. -/
def dropReturn (s : List Char) : List Char :=
  if s.getLast? = some '\r' then s.dropLast else s

/-- The lines among the pieces that line feeds leave: all but the last piece are closed lines. -/
def closedLines : List (List Char) → List (List Char)
  | [] => []
  | [rest] => if rest.isEmpty then [] else [rest]
  | piece :: pieces => dropReturn piece :: closedLines pieces

/-- The lines of a text, without their line ends. -/
def lines (s : List Char) : List (List Char) :=
  closedLines (s.splitOn '\n')

/-- The texts with one line feed between each two of them. -/
def unlines (ls : List (List Char)) : List Char :=
  ['\n'].intercalate ls

end DocAudit.Text
