import RouteMigration.Settings.Value

/-! The tables of a document while they are being filled. A table that a header or a key
only leads through is implicit, and one that a dotted key leads through is dotted; both
decide who may add to it later. -/

namespace RouteMigration.Settings.Toml

inductive Item where
  /-- Complete: nothing is added to it any more. -/
  | value (v : Value)
  | table ( implicit dotted : Bool) (entries : List (String × Item))
  /-- An array of tables, one header each. -/
  | tables (ts : List (List (String × Item)))
  deriving Inhabited

abbrev Entries := List (String × Item)

namespace Entries

/-- The entries with `item` under `key`, new or in place of another. -/
def put (es : Entries) (key : String) (item : Item) : Entries :=
  if (es.lookup key).isSome then es.map fun (k, old) => if k = key then (k, item) else (k, old)
  else es ++ [(key, item)]

def remove (es : Entries) (key : String) : Entries := es.filter (·.1 ≠ key)

/-- Changes the table a path leads to. Tables that are not there yet are made on the way,
and of an array of tables the last is meant. `change` is told whether the table it gets is
dotted. A dotted path may not lead through a table that has a header. -/
def changeAt (dotted : Bool) (change : Bool → Entries → Option Entries) :
    List String → Bool → Entries → Option Entries
  | [], isDotted, es => change isDotted es
  | key :: path, _, es =>
    match es.lookup key with
    | none => do
      let inner ← changeAt dotted change path dotted []
      return es.put key (.table true dotted inner)
    | some (.value _) => none
    | some (.table implicit isDotted inner) =>
      if dotted && !implicit then none
      else do
        let inner ← changeAt dotted change path isDotted inner
        return es.put key (.table implicit isDotted inner)
    | some (.tables ts) =>
      match ts.getLast? with
      | none => none
      | some last => do
        let last ← changeAt dotted change path false last
        return es.put key (.tables (ts.dropLast ++ [last]))

/-- Adds a value under a key that may be dotted. No key is given twice, and a dotted key
only adds to tables that are dotted themselves. -/
def insert (es : Entries) (path : List String) (key : String) (v : Value) : Option Entries :=
  changeAt true (fun isDotted inner =>
    if isDotted = path.isEmpty || (inner.lookup key).isSome then none
    else some (inner ++ [(key, .value v)])) path false es

/-- The same with the key as a list of its parts. -/
def insertKey (es : Entries) (parts : List String) (v : Value) : Option Entries :=
  match parts.getLast? with
  | some key => es.insert parts.dropLast key v
  | none => none

end Entries

mutual

def Item.toValue : Item → Value
  | .value v => v
  | .table _ _ entries => .table (entriesToTable entries)
  | .tables ts => .list (tablesToValues ts)

/-- Entries as a table, with the keys in order. -/
def entriesToTable : List (String × Item) → Table
  | [] => []
  | (key, item) :: entries => Table.put key item.toValue (entriesToTable entries)

def tablesToValues : List (List (String × Item)) → List Value
  | [] => []
  | t :: ts => .table (entriesToTable t) :: tablesToValues ts

end

end RouteMigration.Settings.Toml
