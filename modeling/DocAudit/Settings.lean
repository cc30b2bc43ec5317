import DocAudit.Diagnostic.Category
import DocAudit.Path

/-!
# Settings — what is reported, and how

The settings of a run are passed to every check explicitly. The ignored categories are a set of
categories, given by its membership test; `Settings.ignoredList` lists it in the order of the
categories, whatever order they were named in.
-/

namespace DocAudit

/-- What a run reports and which files it reads. -/
structure Settings where
  ignores : Category → Bool := fun _ => false
  /-- A function that is declared to return `None` still needs its return type documented. -/
  requireRtypeForNone : Bool := false
  missingRtypeSeverity : Severity := .error
  includeMethods : Bool := true
  /-- A comment with this text switches the checks of its function off. -/
  suppressionMarker : String := "noqa_doc"
  exclude : List String := []
  jobs : Option Nat := none

namespace Settings

/-- The ignored categories, in the order of the categories. -/
def ignoredList (s : Settings) : List Category :=
  Category.all.filter s.ignores

/-- The settings with more categories ignored. -/
def ignoring (s : Settings) (cs : List Category) : Settings :=
  { s with ignores := fun c => s.ignores c || cs.contains c }

/-- Diagnostics of the category are reported. -/
def reports (s : Settings) (c : Category) : Bool :=
  !s.ignores c

/-- The file name at the end of the path is excluded. -/
def excludes (s : Settings) (p : Path) : Bool :=
  match p.fileName? with
  | some name => s.exclude.contains name
  | none => false

end Settings

end DocAudit
