import DocAudit.CommandLine.Command

/-!
# Main — the command on a real disk

What the command may look at is read first: the files that may hold settings, the given files, and
the source files below the given directories. `CommandLine.run` then decides everything from that,
and its outcome is printed.
-/

namespace DocAudit

/-- What was found at each path, the path as it is written. -/
abbrev Survey :=
  List (String × Except ReadFault FileTree)

namespace Survey

/-- The disk as far as it was surveyed. -/
def toDisk (survey : Survey) : Disk :=
  fun p => (survey.lookup p.text).getD (.error .notFound)

/-- The fault behind a failure of the system. -/
def faultOf : IO.Error → ReadFault
  | .permissionDenied .. => .denied
  | .inappropriateType .. => .notDirectory
  | _ => .notFound

/-- What the bytes of a file are as text. -/
def contentOf (bytes : ByteArray) : Content :=
  match String.fromUTF8? bytes with
  | some s => .text s
  | none => .binary

/-- Reads the file at a path. -/
def file (p : Path) : IO (Except ReadFault FileTree) := do
  if p.text.isEmpty then
    return .error .notFound
  try
    let bytes ← IO.FS.readBinFile p.text
    return .ok (.file (contentOf bytes))
  catch e =>
    return .error (faultOf e)

/-- Reads the directory at a path, with what a walk may find in it: source files and directories
that are not hidden. The survey holds what is below the directory. -/
partial def directory (p : Path) : IO (FileTree × Survey) := do
  let place := (← IO.currentDir) / p.text
  let listing ← try place.readDir catch _ => pure #[]
  let mut entries : List (String × FileTree) := []
  let mut below : Survey := []
  for entry in listing do
    let name := entry.fileName
    let path := p.child name
    match (← entry.path.symlinkMetadata).type with
    | .dir =>
      if !Discovery.isHidden name then
        let (tree, deeper) ← directory path
        entries := (name, tree) :: entries
        below := (path.text, .ok tree) :: deeper ++ below
    | .file =>
      if Discovery.isSource path then
        let found ← file path
        entries := (name, found.toOption.getD (.file .binary)) :: entries
        below := (path.text, found) :: below
    | _ => pure ()
  return (.directory entries, below)

/-- Reads what stands at a path and below it. -/
def ofPath (p : Path) : IO Survey := do
  let place := (← IO.currentDir) / p.text
  if !p.text.isEmpty && (← place.isDir) then
    let (tree, below) ← directory p
    return (p.text, .ok tree) :: below
  else
    return [(p.text, ← file p)]

/-- Reads the file at a path; of a directory it is only known that it is one. -/
def ofFile (p : Path) : IO Survey := do
  let place := (← IO.currentDir) / p.text
  if !p.text.isEmpty && (← place.isDir) then
    return [(p.text, .ok (.directory []))]
  else
    return [(p.text, ← file p)]

end Survey

namespace CommandLine

/-- The files that may hold the settings of a run. -/
def Options.settingsPaths (o : Options) : List Path :=
  match o.config with
  | some p => [p]
  | none => [Path.child ⟨"."⟩ Settings.fileName, Path.child ⟨"."⟩ Settings.projectFileName]

/-- Reads what a run with the options may look at. -/
def Options.survey (o : Options) : IO Survey := do
  let settings ← o.settingsPaths.mapM Survey.ofFile
  let sources ← o.pathsOrHere.mapM Survey.ofPath
  return settings.flatten ++ sources.flatten

/-- How the command is called. -/
def usageText : String :=
  "Usage: rstdoc [OPTIONS] [PATHS]...\n\n" ++
  "Options:\n" ++
  "      --config <CONFIG>         File with settings\n" ++
  "      --ignore <CATEGORY>       Category of diagnostics to ignore (repeatable)\n" ++
  "      --require-rtype-for-none  Require :rtype: on functions annotated `-> None`\n" ++
  "      --methods                 Check methods inside class bodies\n" ++
  "      --no-methods              Only check module-level functions\n" ++
  "  -j, --jobs <JOBS>             Number of worker threads\n" ++
  "  -f, --format <FORMAT>         text, json or json-pretty\n" ++
  "      --no-color                Disable colored output\n" ++
  "  -v, --verbose                 Increase log verbosity\n" ++
  "  -V, --version                 Print version\n"

/-- Prints an outcome and gives the exit code. -/
def Outcome.print : Outcome → IO UInt32
  | finished code output errors => do
    IO.print output
    IO.eprint errors
    return code.toUInt32
  | usage => do
    IO.eprint usageText
    return 2
  | settings error => do
    IO.eprintln ("Error: " ++ error.message)
    return 2

end CommandLine

end DocAudit

/-- Runs the command on the disk. -/
def main (args : List String) : IO UInt32 := do
  let survey ←
    match DocAudit.CommandLine.Options.read args with
    | .ok options => options.survey
    | .error _ => pure []
  let terminal ← (← IO.getStdout).isTty
  (DocAudit.CommandLine.run survey.toDisk terminal args).print
