import DocAudit.CommandLine.Options
import DocAudit.Run
import DocAudit.SettingsFile

/-!
# CommandLine/Command — the command as a function of its arguments and the disk

Settings come from the file that the arguments name, or else from the current directory; the
arguments then override them. The report goes to the standard output, the summary of a text report
to the standard error. The exit code is zero if nothing was found, one if something was, and two if
the command could not run.
-/

namespace DocAudit.CommandLine

/-- What the command does in the end. -/
inductive Outcome
  /-- It ran, or printed its version. -/
  | finished (code : UInt8) (output errors : String)
  /-- The arguments are not what it takes. -/
  | usage
  /-- The settings could not be loaded. -/
  | settings (error : SettingsError)
deriving DecidableEq, Repr

/-- The name and version of the command. -/
def versionLine : String :=
  "rstdoc 0.1.0\n"

namespace Options

/-- The settings with what the arguments say. -/
def override (o : Options) (s : Settings) : Settings :=
  { s.ignoring o.ignore with
    requireRtypeForNone := s.requireRtypeForNone || o.requireRtypeForNone
    includeMethods := o.methods.getD s.includeMethods
    jobs := o.jobs.or s.jobs }

/-- The settings of a run. -/
def settings (o : Options) (disk : Disk) : Except SettingsError Settings :=
  let loaded :=
    match o.config with
    | some p => Settings.load disk p
    | none => Settings.discover disk ⟨"."⟩
  loaded.map o.override

/-- The paths of a run; the current directory if none are given. -/
def pathsOrHere (o : Options) : List Path :=
  if o.paths.isEmpty then [⟨"."⟩] else o.paths

end Options

/-- The outcome of a run with the given report. -/
def present (format : ReportFormat) (paint : Report.Paint) (r : Report) : Outcome :=
  let rendered := format.render paint r
  .finished (if r.passed then 0 else 1) (if rendered.isEmpty then "" else rendered ++ "\n")
    (if format = .text then r.summary paint else "")

/-- The outcome of the command; `terminal` says whether its output goes to a terminal. -/
def run (disk : Disk) (terminal : Bool) (args : List String) : Outcome :=
  match Options.read args with
  | .error .usage => .usage
  | .error .version => .finished 0 versionLine ""
  | .ok o =>
    match o.settings disk with
    | .error error => .settings error
    | .ok settings =>
      let paint := if terminal && !o.noColor then Report.Paint.colored else Report.Paint.plain
      present (o.format.getD .text) paint (checkPaths disk settings false o.pathsOrHere)

end DocAudit.CommandLine
