import DocAudit.Diagnostic.Category
import DocAudit.Field

/-!
# Diagnostic/Finding — what was found, and how it is worded

A finding is a category together with the data that its message is made from. Field-level findings
(`duplicateField`, `malformedField`) carry the kind of the field, which tells them apart where the
subject is the same.
-/

namespace DocAudit

/-- One inconsistency, with the data of its message. -/
inductive Finding
  | missingDocstring
  | missingParam (name : String)
  /-- Only one of declaration and docstring gives the type. -/
  | typeOnOneSide (name : String) (declared documented : Option String)
  | missingReturn
  | missingRtype
  | typeMismatch (name declared documented : String)
  | rtypeMismatch (declared documented : String)
  | unknownParam (name : String)
  | paramOrder (expected actual : List String)
  | duplicateField (field : FieldKind) (subject : Option String)
  | malformedField (field : FieldKind) (subject : Option String) (reason : String)
  | invalidRest (line : String)
  | invalidSource (reason : String)
deriving DecidableEq, Repr

namespace Finding

/-- The category of a finding. -/
def category : Finding → Category
  | missingDocstring => .missingDocstring
  | missingParam _ => .missingParamDoc
  | typeOnOneSide _ _ _ => .typeDocMissing
  | missingReturn => .missingReturnDoc
  | missingRtype => .missingRtypeDoc
  | typeMismatch _ _ _ => .typeMismatch
  | rtypeMismatch _ _ => .rtypeMismatch
  | unknownParam _ => .unknownParamDoc
  | paramOrder _ _ => .paramOrderMismatch
  | duplicateField _ _ => .duplicateFieldDoc
  | malformedField _ _ _ => .malformedFieldDoc
  | invalidRest _ => .invalidRest
  | invalidSource _ => .invalidSource

/-- The parameter or subject that a finding is about. -/
def subject : Finding → Option String
  | missingParam name => some name
  | typeOnOneSide name _ _ => some name
  | typeMismatch name _ _ => some name
  | unknownParam name => some name
  | duplicateField _ subject => subject
  | malformedField _ subject _ => subject
  | _ => none

/-- The kind of field that a field-level finding is about. -/
def field : Finding → Option FieldKind
  | duplicateField field _ => some field
  | malformedField field _ _ => some field
  | _ => none

/-- Text in backticks. -/
def ticked (text : String) : String :=
  "`" ++ text ++ "`"

/-- The marker of a field of the kind, in backticks. -/
def tickedMarker (field : FieldKind) (subject : Option String) : String :=
  match subject with
  | some subject => ticked (":" ++ field.label ++ " " ++ subject ++ ":")
  | none => ticked (":" ++ field.label ++ ":")

/-- The message of a finding in the given function. -/
def message (function : String) : Finding → String
  | missingDocstring => "No docstring found in function " ++ ticked function
  | missingParam name =>
    "Parameter " ++ ticked name ++ " of " ++ ticked function ++ " is not documented"
  | typeOnOneSide name (some declared) _ =>
    "Parameter " ++ ticked name ++ " of " ++ ticked function ++ " is annotated as " ++
      ticked declared ++ " but has no " ++ tickedMarker .type (some name) ++ " field"
  | typeOnOneSide name none (some documented) =>
    "Parameter " ++ ticked name ++ " of " ++ ticked function ++ " is documented as " ++
      ticked documented ++ " but has no type annotation"
  | typeOnOneSide name none none =>
    "Type of parameter " ++ ticked name ++ " of " ++ ticked function ++
      " is given on one side only"
  | missingReturn =>
    "Return value of " ++ ticked function ++ " is not documented with " ++
      tickedMarker .returns none
  | missingRtype =>
    "Return type of " ++ ticked function ++ " is not documented with " ++ tickedMarker .rtype none
  | typeMismatch name declared documented =>
    "Parameter " ++ ticked name ++ " of " ++ ticked function ++ " is annotated as " ++
      ticked declared ++ " but documented as " ++ ticked documented
  | rtypeMismatch declared documented =>
    "Return type of " ++ ticked function ++ " is annotated as " ++ ticked declared ++
      " but documented as " ++ ticked documented
  | unknownParam name =>
    "Documented parameter " ++ ticked name ++ " does not exist in the signature of " ++
      ticked function
  | paramOrder expected actual =>
    "Parameters of " ++ ticked function ++ " are documented in order (" ++
      ", ".intercalate actual ++ ") but declared in order (" ++ ", ".intercalate expected ++ ")"
  | duplicateField field subject =>
    "Field " ++ tickedMarker field subject ++ " is documented more than once in " ++
      ticked function
  | malformedField field subject reason =>
    "Malformed " ++ tickedMarker field subject ++ " field in " ++ ticked function ++ ": " ++ reason
  | invalidRest line =>
    "Docstring of " ++ ticked function ++ " is not a valid reST field list near " ++ ticked line
  | invalidSource reason => "File could not be analyzed: " ++ reason

end Finding

end DocAudit
