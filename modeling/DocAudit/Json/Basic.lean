/-!
# Json/Basic — JSON values and access to their members

Numbers come in two constructors, because the records of this library hold unsigned integers only: a
number written with digits alone is a `natural`, and every other number keeps the text it is written
with. Of members with the same key the last one counts.

The second half is a small kit for reading records: `record?` takes a value for a record, and
`required`, `optional` and `orElse` read one member, each of them saying what an absent member
means.
-/

namespace DocAudit

/-- A JSON value. -/
inductive Json
  | null
  | bool (b : Bool)
  /-- A number written with digits alone. -/
  | natural (n : Nat)
  /-- Any other number, as it is written. -/
  | number (text : String)
  | string (s : String)
  | array (items : List Json)
  | object (members : List (String × Json))
deriving Inhabited, Repr, BEq

namespace Json

/-- The member of an object with the key. -/
def get? (key : String) : Json → Option Json
  | object members => members.reverse.lookup key
  | _ => none

/-! ## Reading single values -/

/-- A string. -/
def string? : Json → Option String
  | string s => some s
  | _ => none

/-- A truth value. -/
def bool? : Json → Option Bool
  | bool b => some b
  | _ => none

/-- An unsigned integer of 64 bits. -/
def natural? : Json → Option Nat
  | natural n => if n < UInt64.size then some n else none
  | _ => none

/-- An array whose items all read. -/
def list? {α : Type} (read : Json → Option α) : Json → Option (List α)
  | array items => items.mapM read
  | _ => none

/-- A name out of a fixed list of values. It may also be the key of an object with nothing but
`null` under it. -/
def oneOf? {α : Type} (label : α → String) (all : List α) : Json → Option α
  | string s => all.find? fun a => label a == s
  | object [(s, null)] => all.find? fun a => label a == s
  | _ => none

/-! ## Reading members -/

/-- The value as a record with the given keys. An object is one; an array is one if it holds the
values of the keys in order, of which all behind the first `least` may be left out at the end. -/
def record? (least : Nat) (keys : List String) : Json → Option Json
  | object members => some (object members)
  | array items =>
    if least ≤ items.length ∧ items.length ≤ keys.length then some (object (keys.zip items))
    else none
  | _ => none

/-- A member that has to be there. -/
def required {α : Type} (read : Json → Option α) (key : String) (j : Json) : Option α :=
  (j.get? key).bind read

/-- A member that may be absent or `null`, which both mean none. -/
def optional {α : Type} (read : Json → Option α) (key : String) (j : Json) : Option (Option α) :=
  match j.get? key with
  | none => some none
  | some null => some none
  | some v => (read v).map some

/-- A member that may be absent, which means the given value; `null` is no value. -/
def orElse {α : Type} (read : Json → Option α) (key : String) (default : α) (j : Json) : Option α :=
  match j.get? key with
  | none => some default
  | some v => read v

/-! ## Writing members -/

/-- `null` for none. -/
def ofOption {α : Type} (write : α → Json) : Option α → Json
  | none => null
  | some a => write a

/-- No member for none. -/
def memberOf {α : Type} (write : α → Json) (key : String) : Option α → List (String × Json)
  | none => []
  | some a => [(key, write a)]

/-- An array of values that are all written the same way. -/
def ofList {α : Type} (write : α → Json) (l : List α) : Json :=
  array (l.map write)

end Json

end DocAudit
