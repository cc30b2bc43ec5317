/-!
# Toml/Basic — the values of a TOML document

Numbers with a fraction and points in time are kept as they are written: settings hold neither, but
a document may.
-/

namespace DocAudit

/-- A value of a TOML document. -/
inductive Toml
  | string (s : String)
  | integer (n : Int)
  | float (text : String)
  | boolean (b : Bool)
  | dateTime (text : String)
  | array (items : List Toml)
  | table (entries : List (String × Toml))
deriving Inhabited, Repr

namespace Toml

/-- The entry of a table with the key. -/
def get? (key : String) : Toml → Option Toml
  | table entries => entries.lookup key
  | _ => none

/-- A string. -/
def string? : Toml → Option String
  | string s => some s
  | _ => none

/-- A truth value. -/
def boolean? : Toml → Option Bool
  | boolean b => some b
  | _ => none

/-- An integer that is not negative. -/
def natural? : Toml → Option Nat
  | integer (.ofNat n) => some n
  | _ => none

/-- An array whose items all read. -/
def list? {α : Type} (read : Toml → Option α) : Toml → Option (List α)
  | array items => items.mapM read
  | _ => none

end Toml

end DocAudit
