import DocAudit.Diagnostic.Finding
import DocAudit.Signature

/-!
# Diagnostic/Basic — diagnostics and their order

A diagnostic is a finding placed in a function of a file. Within one function diagnostics are
ordered by `Diagnostic.compareWithin`: group, position, subject, category, kind of field. A whole
report is ordered by `Diagnostic.compareReport`, which puts location and function in front. Both
orders are lexicographic compositions of comparisons by a key, so their laws come from the keys.
-/

namespace DocAudit

/-- A finding placed in a function of a file. -/
structure Diagnostic where
  category : Category
  severity : Severity
  function : String
  location : Location
  message : String
  /-- The position of the parameter that the finding is about. -/
  position : Option Nat
  finding : Finding
deriving DecidableEq, Repr

namespace Diagnostic

/-- The diagnostic of a finding; category, severity and message follow from the finding. -/
def ofFinding (finding : Finding) (function : String) (location : Location)
    (position : Option Nat) : Diagnostic :=
  { category := finding.category
    severity := finding.category.defaultSeverity
    function, location
    message := finding.message function
    position, finding }

/-- What makes two diagnostics of a function the same report. -/
def key (d : Diagnostic) : Category × Option FieldKind × Option String :=
  (d.category, d.finding.field, d.finding.subject)

/-! ## Report order -/

/-- Positions in order, and no position behind all of them. -/
def comparePosition : Option Nat → Option Nat → Ordering
  | some a, some b => compare a b
  | some _, none => .lt
  | none, some _ => .gt
  | none, none => .eq

/-- Optional keys in order, and no key in front of all of them. -/
def compareOption {α : Type} [Ord α] : Option α → Option α → Ordering
  | some a, some b => compare a b
  | some _, none => .gt
  | none, some _ => .lt
  | none, none => .eq

/-- The order of the diagnostics of one function. -/
def compareWithin : Diagnostic → Diagnostic → Ordering :=
  compareLex (compareOn fun d => d.category.group.rank) <|
  compareLex (fun a b => comparePosition a.position b.position) <|
  compareLex (fun a b => compareOption a.finding.subject b.finding.subject) <|
  compareLex (compareOn category) <|
  fun a b => compareOption a.finding.field b.finding.field

/-- The order of the diagnostics of a report. -/
def compareReport : Diagnostic → Diagnostic → Ordering :=
  compareLex (compareOn location) <| compareLex (compareOn function) compareWithin

/-- The diagnostics in the given order; equal ones keep theirs. -/
def sortBy (cmp : Diagnostic → Diagnostic → Ordering) (ds : List Diagnostic) : List Diagnostic :=
  ds.mergeSort fun a b => (cmp a b).isLE

end Diagnostic

end DocAudit
