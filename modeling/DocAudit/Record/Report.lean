import DocAudit.Json.Printer
import DocAudit.Record.Diagnostic
import DocAudit.Report.Basic
import DocAudit.Report.Text

/-!
# Record/Report — reports as JSON records

`Report.toJson` is the record of a report; `Report.toJsonWithTotals` has the numbers of errors and
warnings beside it and is what the machine-readable formats print. Both read back by
`Report.ofJson?`.
-/

namespace DocAudit

namespace Report

/-- The record of a report. -/
def toJson (r : Report) : Json :=
  .object
    [("files_checked", .natural r.filesChecked),
      ("functions_checked", .natural r.functionsChecked),
      ("diagnostics", .ofList Diagnostic.toJson r.diagnostics), ("aborted", .bool r.aborted)]

/-- The record of a report with its totals. -/
def toJsonWithTotals (r : Report) : Json :=
  .object
    [("files_checked", .natural r.filesChecked),
      ("functions_checked", .natural r.functionsChecked), ("errors", .natural r.errors),
      ("warnings", .natural r.warnings), ("aborted", .bool r.aborted),
      ("diagnostics", .ofList Diagnostic.toJson r.diagnostics)]

/-- Reads the record of a report. -/
def ofJson? (j : Json) : Option Report := do
  let j ← j.record? 3 ["files_checked", "functions_checked", "diagnostics", "aborted"]
  let filesChecked ← j.required Json.natural? "files_checked"
  let functionsChecked ← j.required Json.natural? "functions_checked"
  let diagnostics ← j.required (Json.list? Diagnostic.ofJson?) "diagnostics"
  let aborted ← j.orElse Json.bool? "aborted" false
  some { filesChecked, functionsChecked, diagnostics, aborted }

end Report

/-- The formats of a report. -/
inductive ReportFormat
  | text
  | json
  | jsonPretty
deriving DecidableEq, Repr

namespace ReportFormat

/-- All formats. -/
def all : List ReportFormat :=
  [text, json, jsonPretty]

/-- The name of a format. -/
def label : ReportFormat → String
  | text => "text"
  | json => "json"
  | jsonPretty => "json-pretty"

/-- The format of a name. -/
def ofLabel? (name : String) : Option ReportFormat :=
  all.find? fun f => f.label == name

/-- The report in the format. -/
def render (paint : Report.Paint) (r : Report) : ReportFormat → String
  | text => r.text paint
  | json => r.toJsonWithTotals.compact
  | jsonPretty => r.toJsonWithTotals.pretty

end ReportFormat

end DocAudit
