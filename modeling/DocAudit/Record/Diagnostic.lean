import DocAudit.Diagnostic.Basic
import DocAudit.Record.Field
import DocAudit.Record.Signature

/-!
# Record/Diagnostic — diagnostics as JSON records

The record of a finding names its category beside the data of the finding. Category and message of a
diagnostic are read as they are written, whatever the finding says. The position of a diagnostic and
the two types of a one-sided type are left out where they are absent; an absent subject is `null`.
-/

namespace DocAudit

namespace Severity

/-- The name of a severity. -/
def toJson (s : Severity) : Json :=
  .string s.label

/-- Reads `Severity.toJson`. -/
def ofJson? (j : Json) : Option Severity :=
  j.oneOf? label all

end Severity

namespace Category

/-- The name of a category. -/
def toJson (c : Category) : Json :=
  .string c.label

/-- Reads `Category.toJson`. -/
def ofJson? (j : Json) : Option Category :=
  j.oneOf? label all

end Category

namespace Finding

/-- The data of a finding as record members. -/
def dataMembers : Finding → List (String × Json)
  | missingDocstring | missingReturn | missingRtype => []
  | missingParam name => [("name", .string name)]
  | typeOnOneSide name declared documented =>
    [("name", .string name)] ++ Json.memberOf .string "declared" declared ++
      Json.memberOf .string "documented" documented
  | typeMismatch name declared documented =>
    [("name", .string name), ("declared", .string declared), ("documented", .string documented)]
  | rtypeMismatch declared documented =>
    [("declared", .string declared), ("documented", .string documented)]
  | unknownParam name => [("name", .string name)]
  | paramOrder expected actual =>
    [("expected", .ofList .string expected), ("actual", .ofList .string actual)]
  | duplicateField field subject =>
    [("field", field.toJson), ("subject", .ofOption .string subject)]
  | malformedField field subject reason =>
    [("field", field.toJson), ("subject", .ofOption .string subject), ("reason", .string reason)]
  | invalidRest line => [("line", .string line)]
  | invalidSource reason => [("reason", .string reason)]

/-- The record of a finding: its category and its data. -/
def toJson (f : Finding) : Json :=
  .object (("category", f.category.toJson) :: f.dataMembers)

/-- Reads the data of a finding of the category. -/
def ofData? (j : Json) : Category → Option Finding
  | .missingDocstring => some missingDocstring
  | .missingReturnDoc => some missingReturn
  | .missingRtypeDoc => some missingRtype
  | .missingParamDoc => do
    let name ← j.required Json.string? "name"
    some (missingParam name)
  | .typeDocMissing => do
    let name ← j.required Json.string? "name"
    let declared ← j.optional Json.string? "declared"
    let documented ← j.optional Json.string? "documented"
    some (typeOnOneSide name declared documented)
  | .typeMismatch => do
    let name ← j.required Json.string? "name"
    let declared ← j.required Json.string? "declared"
    let documented ← j.required Json.string? "documented"
    some (typeMismatch name declared documented)
  | .rtypeMismatch => do
    let declared ← j.required Json.string? "declared"
    let documented ← j.required Json.string? "documented"
    some (rtypeMismatch declared documented)
  | .unknownParamDoc => do
    let name ← j.required Json.string? "name"
    some (unknownParam name)
  | .paramOrderMismatch => do
    let expected ← j.required (Json.list? Json.string?) "expected"
    let actual ← j.required (Json.list? Json.string?) "actual"
    some (paramOrder expected actual)
  | .duplicateFieldDoc => do
    let field ← j.required FieldKind.ofJson? "field"
    let subject ← j.optional Json.string? "subject"
    some (duplicateField field subject)
  | .malformedFieldDoc => do
    let field ← j.required FieldKind.ofJson? "field"
    let subject ← j.optional Json.string? "subject"
    let reason ← j.required Json.string? "reason"
    some (malformedField field subject reason)
  | .invalidRest => do
    let line ← j.required Json.string? "line"
    some (invalidRest line)
  | .invalidSource => do
    let reason ← j.required Json.string? "reason"
    some (invalidSource reason)

/-- The names of the data of a finding of the category. -/
def dataKeys : Category → List String
  | .missingDocstring | .missingReturnDoc | .missingRtypeDoc => []
  | .missingParamDoc | .unknownParamDoc => ["name"]
  | .typeDocMissing | .typeMismatch => ["name", "declared", "documented"]
  | .rtypeMismatch => ["declared", "documented"]
  | .paramOrderMismatch => ["expected", "actual"]
  | .duplicateFieldDoc => ["field", "subject"]
  | .malformedFieldDoc => ["field", "subject", "reason"]
  | .invalidRest => ["line"]
  | .invalidSource => ["reason"]

/-- How many of the data an array of them has to hold at least. -/
def leastData : Category → Nat
  | .typeDocMissing => 1
  | c => (dataKeys c).length

/-- A category, plainly by its name. -/
def tag? (j : Json) : Option Category :=
  j.string?.bind Category.ofLabel?

/-- Reads `Finding.toJson`, or an array of the category and the data. -/
def ofJson? : Json → Option Finding
  | .array (tag :: items) => do
    let c ← tag? tag
    let j ← (Json.array items).record? (leastData c) (dataKeys c)
    ofData? j c
  | j => (j.required tag? "category").bind (ofData? j)

end Finding

namespace Diagnostic

/-- The record of a diagnostic. -/
def toJson (d : Diagnostic) : Json :=
  .object
    ([("category", d.category.toJson), ("severity", d.severity.toJson),
      ("function", .string d.function), ("location", d.location.toJson),
      ("message", .string d.message)] ++
      Json.memberOf .natural "position" d.position ++ [("kind", d.finding.toJson)])

/-- Reads `Diagnostic.toJson`. -/
def ofJson? (j : Json) : Option Diagnostic := do
  let j ← j.record? 7
    ["category", "severity", "function", "location", "message", "position", "kind"]
  let category ← j.required Category.ofJson? "category"
  let severity ← j.required Severity.ofJson? "severity"
  let function ← j.required Json.string? "function"
  let location ← j.required Location.ofJson? "location"
  let message ← j.required Json.string? "message"
  let position ← j.optional Json.natural? "position"
  let finding ← j.required Finding.ofJson? "kind"
  some { category, severity, function, location, message, position, finding }

end Diagnostic

end DocAudit
