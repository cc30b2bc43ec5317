import DocAudit.FileTree
import DocAudit.Firsts
import DocAudit.Settings

/-!
# Discovery — the files that a run checks

A path that is no directory is taken as it is, whether or not a file stands there. A directory is
walked for source files. The walk leaves out entries whose name is excluded, and directories that
are hidden or hold cached byte code; the directories given by the caller are always walked.
-/

namespace DocAudit.Discovery

/-- Extensions of source files. -/
def sourceExtensions : List String :=
  ["py", "pyi"]

/-- The path ends in the name of a source file. -/
def isSource (p : Path) : Bool :=
  match p.extension? with
  | some extension => sourceExtensions.contains extension
  | none => false

/-- Directories of the name are not walked. -/
def isHidden (name : String) : Bool :=
  name.toList.head? == some '.' || name == "__pycache__"

/-- The walk leaves the entry of a directory out. -/
def skips (settings : Settings) (name : String) (tree : FileTree) : Bool :=
  settings.exclude.contains name || (tree.isDirectory && isHidden name)

mutual

/-- The source files that a walk finds at a path where the given tree stands. -/
def walk (settings : Settings) (p : Path) : FileTree → List Path
  | .file _ => if isSource p then [p] else []
  | .directory entries => walkEntries settings p entries

/-- The source files that a walk finds among the entries of the directory at a path. -/
def walkEntries (settings : Settings) (p : Path) : List (String × FileTree) → List Path
  | [] => []
  | (name, tree) :: entries =>
    (if skips settings name tree then [] else walk settings (p.child name) tree) ++
      walkEntries settings p entries

end

/-- The files that a given path stands for. -/
def expand (disk : Disk) (settings : Settings) (p : Path) : List Path :=
  match disk p with
  | .ok (.directory entries) => walkEntries settings p entries
  | _ => [p]

/-- The files to check: those of all given paths, in path order and each once. -/
def files (disk : Disk) (settings : Settings) (paths : List Path) : List Path :=
  firstsBy Path.components
    ((paths.flatMap (expand disk settings)).mergeSort fun a b => (compare a b).isLE)

end DocAudit.Discovery
