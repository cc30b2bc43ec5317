import DocAudit.Analysis
import DocAudit.FieldList

/-!
# Definition — a function found in a source, and its check

A definition is a signature with the docstring below it. `Definition.check` reads the docstring into
fields, compares them with the signature and adds the first line that starts like a field and is
none.
-/

namespace DocAudit

/-- A function found in a source. -/
structure Definition where
  signature : Signature
  docstring : Option String
  /-- A comment at its head switches its checks off. -/
  suppressed : Bool
deriving DecidableEq, Repr

namespace Definition

/-- The fields of the docstring, if there is a docstring. -/
def fields (d : Definition) : Option (List Field) :=
  d.docstring.map FieldList.parse

/-- The first line of the docstring that starts like a field and is none. -/
def brokenLine? (d : Definition) : Option String :=
  (d.fields.bind fun fields => fields.find? fun f => f.kind == .parseError).map Field.body

/-- The diagnostic about a broken line. -/
def brokenLineDiagnostic (d : Definition) (line : String) : Diagnostic :=
  .ofFinding (.invalidRest line) d.signature.qualifiedName d.signature.location none

/-- The diagnostics of a definition, in report order. -/
def check (settings : Settings) (d : Definition) : List Diagnostic :=
  if d.suppressed then []
  else
    let found := analyze d.signature d.fields settings
    match d.brokenLine? with
    | some line =>
      if settings.reports .invalidRest then
        Diagnostic.sortBy Diagnostic.compareWithin (found ++ [d.brokenLineDiagnostic line])
      else found
    | none => found

end Definition

end DocAudit
