import DocAudit.Toml.Basic

/-!
# Toml/Table — tables under construction

A table of a document may grow by headers and by dotted keys, and the format forbids to mix the two
or to define anything twice. So a table remembers where it comes from while the document is read:
`implicit` tables were only passed through by a header and may still be defined by one, `dotted`
tables were made by dotted keys and may only grow by them. `Node.toToml` forgets it all in the end.
-/

namespace DocAudit.Toml

/-- A part of a document under construction. -/
inductive Node
  | value (v : Toml)
  | table (implicit dotted : Bool) (entries : List (String × Node))
  /-- An array of tables, in order; the last one still grows. -/
  | tables (items : List (List (String × Node)))

/-- The entries of a table under construction. -/
abbrev Entries :=
  List (String × Node)

mutual

/-- The value that a part of a document has in the end. -/
def Node.toToml : Node → Toml
  | .value v => v
  | .table _ _ entries => .table (entriesToToml entries)
  | .tables items => .array (tablesToToml items)

/-- The entries that a table has in the end. -/
def entriesToToml : List (String × Node) → List (String × Toml)
  | [] => []
  | (key, node) :: entries => (key, node.toToml) :: entriesToToml entries

/-- The tables that an array has in the end. -/
def tablesToToml : List (List (String × Node)) → List Toml
  | [] => []
  | entries :: items => .table (entriesToToml entries) :: tablesToToml items

end

/-- The entries with a new node for the key. -/
def setNode (key : String) (node : Node) : Entries → Entries
  | [] => [(key, node)]
  | (k, n) :: entries =>
    if k = key then (k, node) :: entries else (k, n) :: setNode key node entries

/-- Changes the table that the keys lead to; tables on the way are made where they are missing, and
an array of tables leads to its last one. -/
def change (f : Entries → Option Entries) : List String → Entries → Option Entries
  | [], entries => f entries
  | key :: keys, entries =>
    match entries.lookup key with
    | none => (change f keys []).map fun inner => setNode key (.table true false inner) entries
    | some (.value _) => none
    | some (.table implicit dotted inner) =>
      (change f keys inner).map fun inner => setNode key (.table implicit dotted inner) entries
    | some (.tables items) =>
      match items.getLast? with
      | none => none
      | some inner =>
        (change f keys inner).map fun inner =>
          setNode key (.tables (items.dropLast ++ [inner])) entries

/-- Defines a table by its header. -/
def defineTable (key : String) (entries : Entries) : Option Entries :=
  match entries.lookup key with
  | none => some (setNode key (.table false false []) entries)
  | some (.table true false inner) => some (setNode key (.table false false inner) entries)
  | some _ => none

/-- Adds a table to an array of tables by its header. -/
def appendTable (key : String) (entries : Entries) : Option Entries :=
  match entries.lookup key with
  | none => some (setNode key (.tables [[]]) entries)
  | some (.tables items) => some (setNode key (.tables (items ++ [[]])) entries)
  | some _ => none

/-- Adds a value under a dotted key. -/
def addValue (v : Toml) : (path : List String) → Entries → Option Entries
  | [], _ => none
  | [key], entries =>
    match entries.lookup key with
    | none => some (entries ++ [(key, .value v)])
    | some _ => none
  | key :: keys, entries =>
    match entries.lookup key with
    | none => (addValue v keys []).map fun inner => entries ++ [(key, .table true true inner)]
    | some (.table true dotted inner) =>
      if dotted || 1 < keys.length then
        (addValue v keys inner).map fun inner => setNode key (.table true dotted inner) entries
      else none
    | some _ => none

end DocAudit.Toml
