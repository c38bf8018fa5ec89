import Pipework.Json.Value

/-!
# Tables in TOML

A document fills its tables piece by piece. A header opens a table, a dotted key makes the tables
that it needs, and an array of tables gets a further table with each of its headers. What stands
for a table decides who may add to it: a table with a header of its own is opened once, and a table
made by dotted keys is filled by dotted keys only.
-/

namespace Pipework.Toml

/-- Where a table comes from. -/
inductive Origin where
  /-- It has a header or braces of its own. -/
  | own
  /-- The header of a table in it. -/
  | header
  /-- A dotted key. -/
  | dotted
deriving DecidableEq

/-- What stands under a key while a document is read. -/
inductive Node where
  | leaf (value : Value)
  | table (origin : Origin) (entries : List (String × Node))
  | tables (tables : List (List (String × Node)))

/-- The keys of a table and what stands under them. -/
abbrev Entries := List (String × Node)

/-- Puts something else under a key. -/
def replaceNode (key : String) (node : Node) (entries : Entries) : Entries :=
  entries.map fun entry => if entry.1 = key then (key, node) else entry

/-- Changes the table at the end of a path. Tables that are missing on the way are made; a path of
dotted keys does not lead through tables with a header of their own. -/
def descend? {α : Type} (dotted : Bool) (change : Origin → Entries → Option (α × Entries)) :
    List String → Origin → Entries → Option (α × Entries)
  | [], origin, entries => change origin entries
  | key :: rest, _, entries =>
      match entries.lookup key with
      | none => do
          let origin := if dotted then Origin.dotted else Origin.header
          let (result, inner) ← descend? dotted change rest origin []
          return (result, entries ++ [(key, .table origin inner)])
      | some (.leaf _) => none
      | some (.tables tables) => do
          let (result, inner) ← descend? dotted change rest .own (tables.getLastD [])
          return (result, replaceNode key (.tables (tables.dropLast ++ [inner])) entries)
      | some (.table origin inner) =>
          if dotted ∧ origin = .own then none
          else do
            let (result, inner) ← descend? dotted change rest origin inner
            return (result, replaceNode key (.table origin inner) entries)

/-- Files a value under a dotted key. -/
def insertValue? (path : List String) (key : String) (value : Node) (entries : Entries) :
    Option Entries := do
  let change (origin : Origin) (entries : Entries) : Option (Unit × Entries) :=
    if (origin == .dotted) == path.isEmpty then none
    else if (entries.lookup key).isSome then none
    else some ((), entries ++ [(key, value)])
  return (← descend? true change path .own entries).2

/-- A document of which some tables have been read. -/
structure Document where
  root : Entries
  /-- The path of the table that is being read. -/
  path : List String
  /-- Whether it is a further table of an array. -/
  isItem : Bool
  current : Entries

namespace Document

/-- A document of which nothing has been read. -/
def empty : Document := { root := [], path := [], isItem := false, current := [] }

/-- Files a finished table under the last key of its path. -/
def place? (isItem : Bool) (key : String) (table : Entries) (_ : Origin) (entries : Entries) :
    Option (Unit × Entries) :=
  match entries.lookup key, isItem with
  | none, false => some ((), entries ++ [(key, .table .own table)])
  | none, true => some ((), entries ++ [(key, .tables [table])])
  | some (.tables tables), true => some ((), replaceNode key (.tables (tables ++ [table])) entries)
  | some (.table origin _), false =>
      if origin = .own then none else some ((), replaceNode key (.table .own table) entries)
  | some _, _ => none

/-- The tables with the one that is being read in its place. -/
def finish? (document : Document) : Option Entries :=
  match document.path.getLast? with
  | none => some document.current
  | some key => do
      let (_, root) ← descend? false (place? document.isItem key document.current)
        document.path.dropLast .own document.root
      return root

/-- Takes out a table that other headers have made, or nothing if there is none. -/
def open? (key : String) (_ : Origin) (entries : Entries) : Option (Entries × Entries) :=
  match entries.lookup key with
  | none => some ([], entries)
  | some (.table .header inner) => some (inner, entries.filter fun entry => entry.1 != key)
  | some _ => none

/-- Makes sure that a key is free or that of an array of tables. -/
def openItem? (key : String) (_ : Origin) (entries : Entries) : Option (Entries × Entries) :=
  match entries.lookup key with
  | none | some (.tables _) => some ([], entries)
  | some _ => none

/-- Starts the table of a header. -/
def start? (document : Document) (path : List String) (isItem : Bool) : Option Document := do
  let root ← document.finish?
  let key ← path.getLast?
  let (current, root) ←
    descend? false (if isItem then openItem? key else open? key) path.dropLast .own root
  return { root, path, isItem, current }

/-- Files a value in the table that is being read. -/
def insert? (document : Document) (path : List String) (key : String) (value : Value) :
    Option Document := do
  return { document with
    current := ← insertValue? path key (.leaf value) document.current }

end Document

mutual

/-- A node as a value. -/
def Node.toValue : Node → Value
  | .leaf value => value
  | .table _ entries => .object (.ofList (entriesValues entries))
  | .tables tables => .list (tablesValues tables)

/-- The values of the entries of a table. -/
def entriesValues : List (String × Node) → List (String × Value)
  | [] => []
  | (key, node) :: rest => (key, node.toValue) :: entriesValues rest

/-- The tables of an array as values. -/
def tablesValues : List (List (String × Node)) → List Value
  | [] => []
  | entries :: rest => .object (.ofList (entriesValues entries)) :: tablesValues rest

end

end Pipework.Toml
