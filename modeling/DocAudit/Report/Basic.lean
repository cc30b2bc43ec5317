import DocAudit.Definition
import DocAudit.SourceError

/-!
# Report/Basic — the result of checking files

A report counts the files and functions that were checked and lists their diagnostics. Reports of
single files are merged in any order and then sorted, so a report does not show the order in which
files were finished.
-/

namespace DocAudit

/-- The result of checking files. -/
structure Report where
  filesChecked : Nat := 0
  functionsChecked : Nat := 0
  diagnostics : List Diagnostic := []
  /-- The run was cancelled before all files were checked. -/
  aborted : Bool := false
deriving DecidableEq, Repr

namespace Report

/-- The report of no file at all. -/
def empty : Report :=
  {}

/-- The report of a file that was skipped because the run had been cancelled. -/
def skipped : Report :=
  { aborted := true }

/-- Nothing was found. -/
def passed (r : Report) : Bool :=
  r.diagnostics.isEmpty

/-- How many diagnostics have the severity. -/
def countOf (severity : Severity) (r : Report) : Nat :=
  r.diagnostics.countP fun d => d.severity == severity

/-- How many diagnostics are errors. -/
def errors (r : Report) : Nat :=
  r.countOf .error

/-- How many diagnostics are warnings. -/
def warnings (r : Report) : Nat :=
  r.countOf .warning

/-- Both reports in one; the diagnostics of the second follow those of the first. -/
def merge (a b : Report) : Report where
  filesChecked := a.filesChecked + b.filesChecked
  functionsChecked := a.functionsChecked + b.functionsChecked
  diagnostics := a.diagnostics ++ b.diagnostics
  aborted := a.aborted || b.aborted

/-- The report with its diagnostics in report order. -/
def sort (r : Report) : Report :=
  { r with diagnostics := Diagnostic.sortBy Diagnostic.compareReport r.diagnostics }

/-- All reports in one, in report order. -/
def gather (rs : List Report) : Report :=
  (rs.foldl merge empty).sort

/-- The name under which a diagnostic about a whole file is reported. -/
def moduleScope : String :=
  "<module>"

/-- The diagnostic about a file that could not be analyzed. -/
def sourceDiagnostic (path : Path) (error : SourceError) : Diagnostic :=
  .ofFinding (.invalidSource error.message) moduleScope ⟨path, error.line⟩ none

/-- The report of one file, from what was found in it. -/
def ofExtraction (path : Path) (settings : Settings) :
    Except SourceError (List Definition) → Report
  | .error error =>
    { filesChecked := 1
      diagnostics :=
        if settings.reports .invalidSource then [sourceDiagnostic path error] else [] }
  | .ok definitions =>
    { filesChecked := 1
      functionsChecked := definitions.length
      diagnostics := definitions.flatMap (Definition.check settings) }

end Report

end DocAudit
