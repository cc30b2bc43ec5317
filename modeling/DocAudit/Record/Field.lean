import DocAudit.Field
import DocAudit.Json.Basic

/-!
# Record/Field — docstring fields as JSON records

A subject that is absent is written as `null`; the mark of an inline type is written only where it
is set.
-/

namespace DocAudit

namespace FieldKind

/-- The name of a kind. -/
def toJson (k : FieldKind) : Json :=
  .string k.label

/-- Reads `FieldKind.toJson`. -/
def ofJson? (j : Json) : Option FieldKind :=
  j.oneOf? label all

end FieldKind

namespace Field

/-- The record of a field. -/
def toJson (f : Field) : Json :=
  .object
    ([("kind", f.kind.toJson), ("subject", .ofOption .string f.subject),
        ("body", .string f.body)] ++
      if f.isInline then [("inline", .bool true)] else [])

/-- Reads `Field.toJson`. -/
def ofJson? (j : Json) : Option Field := do
  let j ← j.record? 3 ["kind", "subject", "body", "inline"]
  let kind ← j.required FieldKind.ofJson? "kind"
  let subject ← j.optional Json.string? "subject"
  let body ← j.required Json.string? "body"
  let isInline ← j.orElse Json.bool? "inline" false
  some { kind, subject, body, isInline }

end Field

namespace FieldList

/-- The record of a field list. -/
def toJson (fields : List Field) : Json :=
  .object [("fields", .ofList Field.toJson fields)]

/-- Reads `FieldList.toJson`. -/
def ofJson? (j : Json) : Option (List Field) := do
  let j ← j.record? 1 ["fields"]
  j.required (Json.list? Field.ofJson?) "fields"

end FieldList

end DocAudit
