/-!
# Field — the fields of a docstring

A docstring documents a function by a list of fields. A field has a kind, which its name decides
(`FieldKind.ofName`), a subject for the kinds that speak about something, and a body. The type in
`:param int x:` counts as a type field of its own, marked as inline.
-/

namespace DocAudit

/-- What a field speaks about. -/
inductive FieldKind
  | param
  | type
  | returns
  | rtype
  | raises
  /-- A field with a name that has no meaning here. -/
  | other
  /-- A line that starts like a field and is none. -/
  | parseError
deriving DecidableEq, Repr

namespace FieldKind

/-- The kind that the name of a field decides; names are case-sensitive. -/
def ofName (name : String) : FieldKind :=
  if name ∈ ["param", "parameter", "arg", "argument"] then param
  else if name = "type" then type
  else if name ∈ ["returns", "return"] then returns
  else if name = "rtype" then rtype
  else if name ∈ ["raises", "raise", "except", "exception"] then raises
  else other

/-- Fields of this kind need the name of a parameter as their subject. -/
def requiresSubject : FieldKind → Bool
  | param | type => true
  | _ => false

/-- All kinds, in their order. -/
def all : List FieldKind :=
  [param, type, returns, rtype, raises, other, parseError]

/-- The place of the kind in their order. -/
def rank : FieldKind → Nat
  | param => 0
  | type => 1
  | returns => 2
  | rtype => 3
  | raises => 4
  | other => 5
  | parseError => 6

/-- The name under which reports show the kind. -/
def label : FieldKind → String
  | param => "param"
  | type => "type"
  | returns => "returns"
  | rtype => "rtype"
  | raises => "raises"
  | other => "other"
  | parseError => "parse-error"

/-- Kinds compare by their place. -/
instance : Ord FieldKind :=
  ⟨compareOn rank⟩

end FieldKind

/-- One field of a docstring. -/
structure Field where
  kind : FieldKind
  subject : Option String
  body : String
  /-- The field stands inside the marker of a `:param:` field. -/
  isInline : Bool := false
deriving DecidableEq, Repr

namespace Field

/-- `:param name: body` -/
def param (name body : String) : Field :=
  { kind := .param, subject := some name, body }

/-- `:type name: text` -/
def typeOf (name text : String) : Field :=
  { kind := .type, subject := some name, body := text }

/-- The type part of `:param text name:`. -/
def inlineTypeOf (name text : String) : Field :=
  { typeOf name text with isInline := true }

/-- `:returns: body` -/
def returns (body : String) : Field :=
  { kind := .returns, subject := none, body }

/-- `:rtype: text` -/
def rtype (text : String) : Field :=
  { kind := .rtype, subject := none, body := text }

/-- `:raises exception: body` -/
def raises (exception body : String) : Field :=
  { kind := .raises, subject := some exception, body }

/-- A line that starts like a field and is none. -/
def broken (line : String) : Field :=
  { kind := .parseError, subject := none, body := line }

end Field

/-- The fields of one kind, in order. -/
def fieldsOf (kind : FieldKind) (fields : List Field) : List Field :=
  fields.filter fun f => f.kind = kind

end DocAudit
