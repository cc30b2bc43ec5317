import DocAudit.SourceError

/-!
# FileTree — directories, files and what stands at a path

A file tree is a finite tree of directories and regular files. `FileTree.at?` follows a path through
it the way a file system does: every segment but the last has to lead to a directory, and a trailing
slash or dot demands one too. A `Disk` is anything that answers what stands at a path; the checks
below read files through it.
-/

namespace DocAudit

/-- What a regular file holds. -/
inductive Content
  | text (s : String)
  /-- Bytes that are no valid text. -/
  | binary
deriving DecidableEq, Repr

/-- A directory or a regular file. -/
inductive FileTree
  | file (content : Content)
  | directory (entries : List (String × FileTree))
deriving Repr

namespace FileTree

/-- The tree is a directory. -/
def isDirectory : FileTree → Bool
  | directory _ => true
  | file _ => false

/-- Follows the segments of a path; `above` holds the directories above, the nearest first. Nothing
is known of what stands above the topmost one. -/
def follow : (above : List FileTree) → FileTree → List (List Char) → Except ReadFault FileTree
  | _, here, [] => .ok here
  | _, file _, _ :: _ => .error .notDirectory
  | above, directory entries, segment :: rest =>
    if segment = [] ∨ segment = ['.'] then follow above (directory entries) rest
    else if segment = ['.', '.'] then
      match above with
      | [] => .error .notFound
      | up :: above => follow above up rest
    else
      match entries.lookup (String.ofList segment) with
      | none => .error .notFound
      | some tree => follow (directory entries :: above) tree rest

/-- What stands at a path that starts in the given directory. -/
def at? (tree : FileTree) (p : Path) : Except ReadFault FileTree :=
  match p.segments with
  | [[]] => .error .notFound
  | [] :: _ => .error .notFound
  | segments => follow [] tree segments

/-- The entries with the one of the name replaced, or added behind them. -/
def setEntry (name : String) (tree : FileTree) : List (String × FileTree) → List (String × FileTree)
  | [] => [(name, tree)]
  | (n, t) :: entries =>
    if n = name then (n, tree) :: entries else (n, t) :: setEntry name tree entries

/-- The tree with another one put at the end of the given names; directories on the way are made
where they are missing, and an existing directory stays when a directory is put there. -/
def put (new : FileTree) : (names : List String) → FileTree → FileTree
  | [], here =>
    match here, new with
    | directory entries, directory [] => directory entries
    | _, _ => new
  | name :: names, here =>
    let entries :=
      match here with
      | directory entries => entries
      | file _ => []
    directory (setEntry name (put new names ((entries.lookup name).getD (directory []))) entries)

/-- The names on the way to a path inside a tree; none for a path that may lead out of it. -/
def names? (p : Path) : Option (List String) :=
  p.components.foldr
    (fun c names =>
      match c with
      | .name label => names.map (label :: ·)
      | .current => names
      | .root | .parent => none)
    (some [])

end FileTree

/-- What stands at each path. -/
abbrev Disk :=
  Path → Except ReadFault FileTree

namespace Disk

/-- The text of the file at a path. -/
def read (disk : Disk) (p : Path) : Except ReadFault String :=
  match disk p with
  | .error fault => .error fault
  | .ok (.directory _) => .error .isDirectory
  | .ok (.file .binary) => .error .notText
  | .ok (.file (.text s)) => .ok s

/-- A regular file stands at the path. -/
def isFile (disk : Disk) (p : Path) : Bool :=
  match disk p with
  | .ok (.file _) => true
  | _ => false

end Disk

end DocAudit
