import DocAudit.Field
import DocAudit.Text.Line
import DocAudit.Text.White

/-!
# FieldList — the field list of a docstring text

A line with a colon in the first column opens a field, and the field runs on to the next such line
(`blocks`). What the opening line says between its first two colons is the marker: its first word
names the field, the other words are its arguments. Lines before the first field are description and
carry no field. `Block.fields` reads one block by itself, so the list of a text is the concatenation
over its blocks.
-/

namespace DocAudit.FieldList

open DocAudit.Text

/-! ## Blocks -/

/-- A line with a colon in the first column. -/
def opensField (line : List Char) : Bool :=
  line.head? == some ':'

/-- The line that opens a field and the lines up to the next one. -/
structure Block where
  head : List Char
  continuation : List (List Char)
deriving DecidableEq, Repr

/-- The blocks among the given lines; lines in front of the first block belong to none. -/
def blocks : List (List Char) → List Block
  | [] => []
  | line :: rest =>
    if opensField line then ⟨line, rest.takeWhile fun l => !opensField l⟩ :: blocks rest
    else blocks rest

/-! ## The marker -/

/-- What stands between the first two colons of an opening line, and what follows the second. -/
def marker? (line : List Char) : Option (List Char × List Char) :=
  let inner := line.drop 1
  match inner.dropWhile (· != ':') with
  | [] => none
  | _ :: body => some (inner.takeWhile (· != ':'), body)

/-- Backslashes in a marker protect stars and are no part of the name. -/
def unescape (s : List Char) : List Char :=
  s.filter (· != '\\')

/-- Words with one blank between each two of them. -/
def unwords (ws : List (List Char)) : List Char :=
  [' '].intercalate ws

/-- The subject that the arguments of a marker give to a field of the kind. -/
def subjectOf (kind : FieldKind) (args : List (List Char)) : Option (List Char) :=
  match kind with
  | .returns | .rtype => none
  | .param => args.getLast?.map unescape
  | _ => if args.isEmpty then none else some (unescape (unwords args))

/-- The type that stands in front of the name in the marker of a `:param:` field. -/
def inlineTypeOf (kind : FieldKind) (args : List (List Char)) : Option (List Char) :=
  if kind = .param ∧ 1 < args.length then some (unwords args.dropLast) else none

/-! ## Fields -/

/-- The body of a field: its pieces, trimmed and without the blank ones, joined by one blank. -/
def joinBody (pieces : List (List Char)) : List Char :=
  unwords ((pieces.map trim).filter fun piece => !piece.isEmpty)

namespace Block

/-- The fields that a block with a marker of the given words holds. -/
def fieldsOf (kind : FieldKind) (args pieces : List (List Char)) : List Field :=
  let subject := (subjectOf kind args).map String.ofList
  let main : Field := { kind, subject, body := String.ofList (joinBody pieces) }
  match inlineTypeOf kind args, subject with
  | some text, some name => [main, Field.inlineTypeOf name (String.ofList text)]
  | _, _ => [main]

/-- The fields that a block holds: one, and a second one for an inline type. An opening line without
a second colon, or with a blank marker, is a broken field and takes no continuation. -/
def fields (b : Block) : List Field :=
  match marker? b.head with
  | none => [Field.broken (String.ofList (trimEnd b.head))]
  | some (marker, body) =>
    match words marker with
    | [] => [Field.broken (String.ofList (trimEnd b.head))]
    | name :: args => fieldsOf (.ofName (String.ofList name)) args (body :: b.continuation)

end Block

/-- The fields of a docstring text, in order. -/
def parse (text : String) : List Field :=
  (blocks (lines text.toList)).flatMap Block.fields

end DocAudit.FieldList
