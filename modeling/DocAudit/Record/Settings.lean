import DocAudit.Record.Diagnostic
import DocAudit.Settings

/-!
# Record/Settings — settings as JSON records

All seven settings are written. On reading, a setting that is absent has its default, and a member
that is no setting makes the whole record unreadable.
-/

namespace DocAudit.Settings

/-- The names of the settings. -/
def keys : List String :=
  ["ignore_categories", "require_rtype_for_none", "missing_rtype_severity", "include_methods",
    "suppression_marker", "exclude", "jobs"]

/-- The record of settings. -/
def toJson (s : Settings) : Json :=
  .object
    [("ignore_categories", .ofList Category.toJson s.ignoredList),
      ("require_rtype_for_none", .bool s.requireRtypeForNone),
      ("missing_rtype_severity", s.missingRtypeSeverity.toJson),
      ("include_methods", .bool s.includeMethods),
      ("suppression_marker", .string s.suppressionMarker),
      ("exclude", .ofList .string s.exclude), ("jobs", .ofOption .natural s.jobs)]

/-- The value is an object whose members all are settings. -/
def hasOnlyKeys : Json → Bool
  | .object members => members.all fun m => keys.contains m.1
  | _ => false

/-- Reads `Settings.toJson`. -/
def ofJson? (j : Json) : Option Settings := do
  let j ← j.record? 0 keys
  guard (hasOnlyKeys j)
  let default : Settings := {}
  let ignored ← j.orElse (Json.list? Category.ofJson?) "ignore_categories" []
  let requireRtypeForNone ←
    j.orElse Json.bool? "require_rtype_for_none" default.requireRtypeForNone
  let missingRtypeSeverity ←
    j.orElse Severity.ofJson? "missing_rtype_severity" default.missingRtypeSeverity
  let includeMethods ← j.orElse Json.bool? "include_methods" default.includeMethods
  let suppressionMarker ← j.orElse Json.string? "suppression_marker" default.suppressionMarker
  let exclude ← j.orElse (Json.list? Json.string?) "exclude" default.exclude
  let jobs ← j.optional Json.natural? "jobs"
  some
    { ignores := ignored.contains, requireRtypeForNone, missingRtypeSeverity, includeMethods,
      suppressionMarker, exclude, jobs }

end DocAudit.Settings
