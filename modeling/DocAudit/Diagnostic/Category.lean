/-!
# Diagnostic/Category — the kinds of inconsistencies and their weight

Thirteen categories, each with the name under which it is shown and configured, the group that leads
the report order, and the severity it has unless a setting says otherwise.
-/

namespace DocAudit

/-- How much a diagnostic weighs. -/
inductive Severity
  | error
  | warning
  | info
deriving DecidableEq, Repr

namespace Severity

/-- All severities, the heaviest first. -/
def all : List Severity :=
  [error, warning, info]

/-- The name of a severity. -/
def label : Severity → String
  | error => "error"
  | warning => "warning"
  | info => "info"

end Severity

/-- The kind of an inconsistency. -/
inductive Category
  | missingDocstring
  | missingParamDoc
  | typeDocMissing
  | missingReturnDoc
  | missingRtypeDoc
  | typeMismatch
  | rtypeMismatch
  | unknownParamDoc
  | paramOrderMismatch
  | duplicateFieldDoc
  | malformedFieldDoc
  | invalidRest
  | invalidSource
deriving DecidableEq, Repr

/-- The groups of categories, in report order. -/
inductive CategoryGroup
  | missing
  | mismatch
  | unknown
  | order
  | duplicate
  | structural
deriving DecidableEq, Repr

namespace CategoryGroup

/-- The place of a group in report order. -/
def rank : CategoryGroup → Nat
  | missing => 0
  | mismatch => 1
  | unknown => 2
  | order => 3
  | duplicate => 4
  | structural => 5

end CategoryGroup

namespace Category

/-- All categories, in their order. -/
def all : List Category :=
  [missingDocstring, missingParamDoc, typeDocMissing, missingReturnDoc, missingRtypeDoc,
    typeMismatch, rtypeMismatch, unknownParamDoc, paramOrderMismatch, duplicateFieldDoc,
    malformedFieldDoc, invalidRest, invalidSource]

/-- The place of a category in their order. -/
def rank : Category → Nat
  | missingDocstring => 0
  | missingParamDoc => 1
  | typeDocMissing => 2
  | missingReturnDoc => 3
  | missingRtypeDoc => 4
  | typeMismatch => 5
  | rtypeMismatch => 6
  | unknownParamDoc => 7
  | paramOrderMismatch => 8
  | duplicateFieldDoc => 9
  | malformedFieldDoc => 10
  | invalidRest => 11
  | invalidSource => 12

/-- Categories compare by their place. -/
instance : Ord Category :=
  ⟨compareOn rank⟩

/-- The name of a category. -/
def label : Category → String
  | missingDocstring => "missing-docstring"
  | missingParamDoc => "missing-param-doc"
  | typeDocMissing => "type-doc-missing"
  | missingReturnDoc => "missing-return-doc"
  | missingRtypeDoc => "missing-rtype-doc"
  | typeMismatch => "type-mismatch"
  | rtypeMismatch => "rtype-mismatch"
  | unknownParamDoc => "unknown-param-doc"
  | paramOrderMismatch => "param-order-mismatch"
  | duplicateFieldDoc => "duplicate-field-doc"
  | malformedFieldDoc => "malformed-field-doc"
  | invalidRest => "invalid-rest"
  | invalidSource => "invalid-source"

/-- The category of a name. -/
def ofLabel? (name : String) : Option Category :=
  all.find? fun c => c.label == name

/-- What is said of a name that no category has. -/
def unknownMessage (name : String) : String :=
  "unknown diagnostic category `" ++ name ++ "`"

/-- The group of a category, which leads the report order. -/
def group : Category → CategoryGroup
  | missingDocstring | missingParamDoc | typeDocMissing | missingReturnDoc | missingRtypeDoc =>
    .missing
  | typeMismatch | rtypeMismatch => .mismatch
  | unknownParamDoc => .unknown
  | paramOrderMismatch => .order
  | duplicateFieldDoc => .duplicate
  | malformedFieldDoc | invalidRest | invalidSource => .structural

/-- The severity of a category unless a setting says otherwise. -/
def defaultSeverity : Category → Severity
  | typeDocMissing | paramOrderMismatch => .warning
  | _ => .error

end Category

end DocAudit
