import DocAudit.Report.Basic

/-!
# Report/Text — reports for people

One line a diagnostic, `path:line: [category] message`, and a summary of a few lines. A `Paint` says
how stressed parts are set off: not at all, or by terminal control sequences.
-/

namespace DocAudit.Report

/-- The ways in which a part of the text is set off. -/
inductive Stress
  | faint
  | redBold
  | yellowBold
  | greenBold
  | yellow
  | blue
deriving DecidableEq, Repr

/-- The parameters of the terminal control sequence for a stress. -/
def Stress.code : Stress → String
  | faint => "2"
  | redBold => "1;31"
  | yellowBold => "1;33"
  | greenBold => "1;32"
  | yellow => "33"
  | blue => "34"

/-- How stressed parts are written. -/
abbrev Paint :=
  Stress → String → String

/-- Stress does not show. -/
def Paint.plain : Paint :=
  fun _ text => text

/-- Stress shows by terminal control sequences. -/
def Paint.colored : Paint :=
  fun stress text => "\x1b[" ++ stress.code ++ "m" ++ text ++ "\x1b[0m"

/-- The stress of the category of a diagnostic. -/
def stressOf : Severity → Stress
  | .error => .redBold
  | .warning => .yellowBold
  | .info => .blue

/-- A diagnostic as `path:line: [category] message`. -/
def line (paint : Paint) (d : Diagnostic) : String :=
  paint .faint (d.location.file.text ++ ":" ++ toString d.location.line ++ ":") ++ " " ++
    paint (stressOf d.severity) ("[" ++ d.category.label ++ "]") ++ " " ++ d.message

/-- All diagnostics, one a line and without a final line feed. -/
def text (paint : Paint) (r : Report) : String :=
  "\n".intercalate (r.diagnostics.map (line paint))

/-- The totals of a report. -/
def summary (paint : Paint) (r : Report) : String :=
  "Checked " ++ toString r.filesChecked ++ " files, " ++ toString r.functionsChecked ++
    " functions\n" ++
  (if r.aborted then paint .redBold "ABORTED" ++ " run was cancelled\n" else "") ++
  (if r.passed then paint .greenBold "OK" ++ " No issues found\n"
   else paint .redBold (toString r.errors) ++ " errors, " ++
     paint .yellow (toString r.warnings) ++ " warnings\n")

end DocAudit.Report
