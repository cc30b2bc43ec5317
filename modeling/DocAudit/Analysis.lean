import DocAudit.Diagnostic.Basic
import DocAudit.Firsts
import DocAudit.Settings
import DocAudit.Subject
import DocAudit.Text.White
import DocAudit.TypeExpr

/-!
# Analysis — a signature compared with the fields of its docstring

Each section below reads one kind of discrepancy off the signature and the fields and lists it as
remarks: findings with the position of the parameter they are about. `analyze` gathers the remarks,
drops the categories that are switched off, puts the rest in report order and keeps the first
diagnostic of each key.

Fields are read in two ways. Duplicates, parameters and types are read off the *usable* fields:
known kinds, and for `:param:` and `:type:` an identifier-like subject. The return documentation is
read off all fields.
-/

namespace DocAudit.Analysis

open DocAudit.Text

/-- A finding and the position of the parameter that it is about. -/
structure Remark where
  finding : Finding
  position : Option Nat := none
deriving DecidableEq, Repr

/-- The text of a body is blank. -/
def hasBlankBody (f : Field) : Bool :=
  isBlank f.body.toList

/-! ## The shape of a field -/

/-- Fields of unknown kind and broken fields take no part in the comparison. -/
def isKnown (f : Field) : Bool :=
  f.kind != .other && f.kind != .parseError

/-- The subject is what a field of this kind needs. -/
def hasSubject (f : Field) : Bool :=
  !f.kind.requiresSubject || Subject.isIdentifierLike (f.subject.getD "")

/-- The field can be compared with the signature. -/
def isUsable (f : Field) : Bool :=
  isKnown f && hasSubject f

/-- The malformations of one field. Only a `:raises:` field may have an empty body. -/
def shapeOf (f : Field) : List Remark :=
  if !isKnown f then []
  else if !hasSubject f then
    [⟨.malformedField f.kind (f.subject.filter (· ≠ "")) "expected a parameter name", none⟩]
  else if hasBlankBody f && f.kind != .raises then
    [⟨.malformedField f.kind f.subject "field body is empty", none⟩]
  else []

/-- The malformations of all fields. -/
def shapes (fields : List Field) : List Remark :=
  fields.flatMap shapeOf

/-! ## Repeated fields -/

/-- The subject of a field, named by the parameter that it resolves to if there is one. -/
def canonicalSubject (expected : List Parameter) (f : Field) : Option String :=
  f.subject.map fun subject =>
    if f.kind.requiresSubject then
      match Subject.resolve? expected subject with
      | some p => p.name
      | none => subject
    else subject

/-- What two fields share if one repeats the other. -/
def fieldKey (expected : List Parameter) (f : Field) : FieldKind × Option String :=
  (f.kind, canonicalSubject expected f)

/-- The position of the parameter that a repeated field is about. -/
def keyPosition (expected : List Parameter) (key : FieldKind × Option String) : Option Nat :=
  if key.1.requiresSubject then
    (key.2.bind (Subject.resolve? expected)).map Parameter.position
  else none

/-- The keys that more than one field has. An inline type never counts as a repetition. -/
def duplicates (expected : List Parameter) (usable : List Field) : List Remark :=
  let keys := (usable.filter fun f => !f.isInline).map (fieldKey expected)
  ((firstsBy id keys).filter fun k => 1 < keys.count k).map fun k =>
    ⟨.duplicateField k.1 k.2, keyPosition expected k⟩

/-! ## Documented parameters and types -/

/-- The subjects of the fields of a kind. -/
def subjects (kind : FieldKind) (usable : List Field) : List String :=
  (fieldsOf kind usable).filterMap Field.subject

/-- The subjects of a kind that name no expected parameter. -/
def unknowns (kind : FieldKind) (expected : List Parameter) (usable : List Field) : List Remark :=
  ((subjects kind usable).filter fun s => (Subject.resolve? expected s).isNone).map fun s =>
    ⟨.unknownParam s, none⟩

/-- The parameters that `:param:` fields document, in the order of first mention. -/
def documented (expected : List Parameter) (usable : List Field) : List Parameter :=
  firstsBy Parameter.position ((subjects .param usable).filterMap (Subject.resolve? expected))

/-- The type that the fields document for the parameter of the name: the first that is not blank. -/
def documentedType (expected : List Parameter) (usable : List Field) (name : String) :
    Option String :=
  ((fieldsOf .type usable).find? fun f =>
    !hasBlankBody f &&
      (((f.subject.bind (Subject.resolve? expected)).map Parameter.name) == some name)).map
    Field.body

/-! ## Expected parameters -/

/-- How the declared and the documented type of a parameter disagree. -/
def typeFinding (name : String) : (declared documented : Option String) → Option Finding
  | some d, some t =>
    if TypeExpr.parse d = TypeExpr.parse t then none
    else some (.typeMismatch name (normalType d) (normalType t))
  | some d, none => some (.typeOnOneSide name (some (normalType d)) none)
  | none, some t => some (.typeOnOneSide name none (some (normalType t)))
  | none, none => none

/-- What is missing or wrong in the documentation of one expected parameter. -/
def parameterFinding (expected : List Parameter) (usable : List Field) (p : Parameter) :
    Option Finding :=
  if (documented expected usable).any fun q => q.position == p.position then
    typeFinding p.name p.declaredType (documentedType expected usable p.name)
  else some (.missingParam p.name)

/-- What is missing or wrong in the documentation of the expected parameters. -/
def parameters (expected : List Parameter) (usable : List Field) : List Remark :=
  expected.filterMap fun p =>
    (parameterFinding expected usable p).map fun finding => ⟨finding, some p.position⟩

/-! ## The order of parameters -/

/-- The name of the first expected parameter at a position. -/
def nameAt (expected : List Parameter) (position : Nat) : String :=
  match expected.find? fun p => p.position == position with
  | some p => p.name
  | none => ""

/-- The documented parameters are mentioned in another order than they are declared in. -/
def order (expected : List Parameter) (usable : List Field) : List Remark :=
  let actual := (documented expected usable).map Parameter.position
  let declared := actual.mergeSort fun a b => decide (a ≤ b)
  if actual = declared then []
  else [⟨.paramOrder (declared.map (nameAt expected)) (actual.map (nameAt expected)), none⟩]

/-! ## The return value -/

/-- Some field has the kind. -/
def hasKind (kind : FieldKind) (fields : List Field) : Bool :=
  fields.any fun f => f.kind == kind

/-- The documented return type: the first `:rtype:` body that is not blank, trimmed. -/
def documentedRtype (fields : List Field) : Option String :=
  ((fieldsOf .rtype fields).find? fun f => !hasBlankBody f).map fun f =>
    String.ofList (trim f.body.toList)

/-- A function that returns a value needs `:returns:`. -/
def lacksReturns (returnType : Option String) (fields : List Field) : Bool :=
  !returnsNothing returnType && !hasKind .returns fields

/-- A function that returns a value needs `:rtype:`; a setting demands it for a declared `None`. -/
def lacksRtype (returnType : Option String) (fields : List Field) (settings : Settings) : Bool :=
  !hasKind .rtype fields &&
    (!returnsNothing returnType || (returnType.isSome && settings.requireRtypeForNone))

/-- The declared and the documented return type disagree. -/
def rtypeFinding : (declared documented : Option String) → Option Finding
  | some d, some t =>
    if TypeExpr.parse d = TypeExpr.parse t then none
    else some (.rtypeMismatch (normalType d) (normalType t))
  | _, _ => none

/-- What is missing or wrong in the documentation of the return value. -/
def returns (returnType : Option String) (fields : List Field) (settings : Settings) :
    List Remark :=
  (if lacksReturns returnType fields then [⟨.missingReturn, none⟩] else []) ++
  (if lacksRtype returnType fields settings then [⟨.missingRtype, none⟩] else []) ++
  (rtypeFinding returnType (documentedRtype fields)).toList.map fun finding => ⟨finding, none⟩

/-! ## The analysis -/

/-- All remarks on a function with the given fields. -/
def remarks (signature : Signature) (fields : List Field) (settings : Settings) : List Remark :=
  let expected := signature.expected
  let usable := fields.filter isUsable
  shapes fields ++ duplicates expected usable ++
    unknowns .param expected usable ++ unknowns .type expected usable ++
    parameters expected usable ++ order expected usable ++
    returns signature.returnType fields settings

/-- The diagnostic of a remark on a function. A missing return type has the severity that the
settings give it. -/
def Remark.diagnostic (signature : Signature) (settings : Settings) (r : Remark) : Diagnostic :=
  let d := Diagnostic.ofFinding r.finding signature.qualifiedName signature.location r.position
  if d.category = .missingRtypeDoc then { d with severity := settings.missingRtypeSeverity } else d

/-- The diagnostics that are reported, in report order and the first of each key. -/
def finish (settings : Settings) (ds : List Diagnostic) : List Diagnostic :=
  firstsBy Diagnostic.key
    (Diagnostic.sortBy Diagnostic.compareWithin (ds.filter fun d => settings.reports d.category))

end DocAudit.Analysis

namespace DocAudit

open DocAudit.Analysis

/-- The diagnostics of a function with the given docstring fields, or with no docstring at all. -/
def analyze (signature : Signature) (docstring : Option (List Field)) (settings : Settings) :
    List Diagnostic :=
  let found : List Remark :=
    match docstring with
    | none => [⟨.missingDocstring, none⟩]
    | some fields => remarks signature fields settings
  finish settings (found.map fun r => r.diagnostic signature settings)

end DocAudit
