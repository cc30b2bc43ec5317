import DocAudit.FileTree
import DocAudit.Settings
import DocAudit.Toml.Reader

/-!
# SettingsFile — settings kept in files

A run takes its settings from a file of their own, or else from a table in the project's file. A
file is refused as a whole if it is no valid document, if a setting has a value of the wrong type,
or if a key is no setting; the project's file may hold anything outside the table.
-/

namespace DocAudit

/-- Why settings could not be loaded. -/
inductive SettingsError
  | unreadable (path : Path) (fault : ReadFault)
  /-- The file holds no valid settings. -/
  | invalid (path : Path)
deriving DecidableEq, Repr

/-- What is said of the file. -/
def SettingsError.message : SettingsError → String
  | unreadable path fault => unreadableMessage path fault
  | invalid path => "Invalid configuration in " ++ path.text

namespace Settings

/-- The file that holds settings only. -/
def fileName : String :=
  "rstdoc.toml"

/-- The project's file, which may hold settings in a table. -/
def projectFileName : String :=
  "pyproject.toml"

/-- The name of that table among the tools. -/
def toolName : String :=
  "rstdoc"

/-! ## Tables of settings -/

/-- A severity by its name. -/
def severity? (v : Toml) : Option Severity :=
  v.string?.bind fun name => Severity.all.find? fun s => s.label == name

/-- A category by its name. -/
def category? (v : Toml) : Option Category :=
  v.string?.bind Category.ofLabel?

/-- The settings with the one of the key changed. -/
def set? (s : Settings) (key : String) (v : Toml) : Option Settings :=
  match key with
  | "ignore_categories" =>
    (v.list? category?).map fun cs => { s with ignores := cs.contains }
  | "require_rtype_for_none" => v.boolean?.map fun b => { s with requireRtypeForNone := b }
  | "missing_rtype_severity" => (severity? v).map fun x => { s with missingRtypeSeverity := x }
  | "include_methods" => v.boolean?.map fun b => { s with includeMethods := b }
  | "suppression_marker" => v.string?.map fun text => { s with suppressionMarker := text }
  | "exclude" => (v.list? Toml.string?).map fun names => { s with exclude := names }
  | "jobs" => v.natural?.map fun n => { s with jobs := some n }
  | _ => none

/-- The settings that a table holds; what it does not mention has its default. -/
def ofTable? : Toml → Option Settings
  | .table entries => entries.foldlM (fun s (key, v) => s.set? key v) {}
  | _ => none

/-- The settings in a document of the project: none, if it has no table for them. The tools have to
be a table, if there are any. -/
def ofProject? (document : Toml) : Option (Option Settings) :=
  match document.get? "tool" with
  | none => some none
  | some (.table tools) =>
    match tools.lookup toolName with
    | none => some none
    | some v => (ofTable? v).map some
  | some _ => none

/-! ## Files -/

/-- Reads a document and what it says. -/
def loadAs {α : Type} (disk : Disk) (read : Toml → Option α) (p : Path) : Except SettingsError α :=
  match disk.read p with
  | .error fault => .error (.unreadable p fault)
  | .ok text =>
    match (Toml.parse? text).bind read with
    | some a => .ok a
    | none => .error (.invalid p)

/-- The settings in a file that holds settings only. -/
def load (disk : Disk) (p : Path) : Except SettingsError Settings :=
  loadAs disk ofTable? p

/-- The settings in a project's file, if it has any. -/
def loadProject (disk : Disk) (p : Path) : Except SettingsError (Option Settings) :=
  loadAs disk ofProject? p

/-- The settings for a directory: those of its own file, else those of the project's file, else the
defaults. -/
def discover (disk : Disk) (directory : Path) : Except SettingsError Settings :=
  let own := directory.child fileName
  let project := directory.child projectFileName
  if disk.isFile own then load disk own
  else if disk.isFile project then
    (loadProject disk project).map fun found => found.getD {}
  else .ok {}

end Settings

end DocAudit
