import DocAudit.Discovery
import DocAudit.Extraction

/-!
# Run — checking files and directories

Each file is read, its definitions are extracted and checked, and the reports are gathered. A run
that has been cancelled skips every file.
-/

namespace DocAudit

/-- The definitions of the file at a path. -/
def extractFile (disk : Disk) (settings : Settings) (p : Path) :
    Except SourceError (List Definition) :=
  match disk.read p with
  | .ok source => extract p settings source
  | .error fault => .error (.unreadable p fault)

/-- The report of the file at a path. -/
def checkFile (disk : Disk) (settings : Settings) (p : Path) : Report :=
  Report.ofExtraction p settings (extractFile disk settings p)

/-- The report of all files that the given paths stand for. -/
def checkPaths (disk : Disk) (settings : Settings) (cancelled : Bool) (paths : List Path) :
    Report :=
  Report.gather <| (Discovery.files disk settings paths).map fun p =>
    if cancelled then Report.skipped else checkFile disk settings p

end DocAudit
