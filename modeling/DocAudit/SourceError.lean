import DocAudit.Path

/-!
# SourceError — why a file could not be analyzed

A file may be unreadable or hold no valid source. `SourceError.message` is the text that reports
show, and `SourceError.line` the line that a diagnostic about the file points to.
-/

namespace DocAudit

/-- Why a file could not be read as text. A system knows more faults than these five; they are the
ones that the place of a file, the right to read it and its bytes can cause. -/
inductive ReadFault
  | notFound
  | isDirectory
  | notDirectory
  | denied
  | notText
deriving DecidableEq, Repr

/-- The system's words for a fault. -/
def ReadFault.message : ReadFault → String
  | notFound => "No such file or directory (os error 2)"
  | isDirectory => "Is a directory (os error 21)"
  | notDirectory => "Not a directory (os error 20)"
  | denied => "Permission denied (os error 13)"
  | notText => "stream did not contain valid UTF-8"

/-- What is said of a file that could not be read. -/
def unreadableMessage (path : Path) (fault : ReadFault) : String :=
  "Failed to read file " ++ path.text ++ ": " ++ fault.message

/-- Why a file could not be analyzed. -/
inductive SourceError
  | unreadable (path : Path) (fault : ReadFault)
  /-- The source is not valid; the line is that of the first fault. -/
  | invalid (path : Path) (line : Nat)
deriving DecidableEq, Repr

namespace SourceError

/-- What is said of the file. -/
def message : SourceError → String
  | unreadable path fault => unreadableMessage path fault
  | invalid path line =>
    "Parse error at " ++ path.text ++ ":" ++ toString line ++ ": invalid Python syntax"

/-- The line to point to; zero stands for the file as a whole. -/
def line : SourceError → Nat
  | unreadable _ _ => 0
  | invalid _ line => line

end SourceError

end DocAudit
