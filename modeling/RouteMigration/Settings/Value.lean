import RouteMigration.Number.Shortest
import RouteMigration.Text.Quoted

/-! Settings before they are understood: a tree of values. A table lists its keys in rising
order, each once. -/

namespace RouteMigration.Settings

open RouteMigration.Number RouteMigration.Text

inductive Value where
  | bool (b : Bool)
  /-- A whole number that may have a sign. -/
  | signed (n : Int)
  | unsigned (n : Nat)
  | float (x : Binary64)
  | char (c : Char)
  | text (s : String)
  | list (items : List Value)
  | table (entries : List (String × Value))
  deriving Inhabited, Repr

abbrev Table := List (String × Value)

mutual

/-- Whether two values are the same, part by part. -/
def Value.same : Value → Value → Bool
  | .bool b, .bool c => b = c
  | .signed m, .signed n => m = n
  | .unsigned m, .unsigned n => m = n
  | .float x, .float y => x = y
  | .char c, .char d => c = d
  | .text s, .text t => s = t
  | .list vs, .list ws => sameItems vs ws
  | .table s, .table t => sameEntries s t
  | _, _ => false

def sameItems : List Value → List Value → Bool
  | [], [] => true
  | v :: vs, w :: ws => v.same w && sameItems vs ws
  | _, _ => false

def sameEntries : Table → Table → Bool
  | [], [] => true
  | (k, v) :: s, (l, w) :: t => k = l && v.same w && sameEntries s t
  | _, _ => false

end

mutual

theorem Value.same_iff (v w : Value) : v.same w = true ↔ v = w := by
  cases v with
  | list vs => cases w <;> simp [Value.same, sameItems_iff vs]
  | table s => cases w <;> simp [Value.same, sameEntries_iff s]
  | _ => cases w <;> simp [Value.same]

theorem sameItems_iff (vs ws : List Value) : sameItems vs ws = true ↔ vs = ws := by
  match vs, ws with
  | [], [] | [], _ :: _ | _ :: _, [] => simp [sameItems]
  | v :: vs, w :: ws => simp [sameItems, Value.same_iff v w, sameItems_iff vs ws]

theorem sameEntries_iff (s t : Table) : sameEntries s t = true ↔ s = t := by
  match s, t with
  | [], [] | [], _ :: _ | _ :: _, [] => simp [sameEntries]
  | (k, v) :: s, (l, w) :: t =>
    simp [sameEntries, Value.same_iff v w, sameEntries_iff s t, and_assoc]

end

instance : DecidableEq Value := fun v w => decidable_of_iff _ (Value.same_iff v w)

namespace Table

/-- The table with `value` under `key`. -/
def put (key : String) (value : Value) : Table → Table
  | [] => [(key, value)]
  | (k, v) :: t =>
    if key < k then (key, value) :: (k, v) :: t
    else if key = k then (key, value) :: t
    else (k, v) :: put key value t

end Table

mutual

/-- The later of two values; of two tables, both, key by key. -/
def Value.merge : Value → Value → Value
  | .table t, .table entries => .table (mergeEntries t entries)
  | _, new => new

/-- A table with further entries, a later one winning over what stands under its key. -/
def mergeEntries : Table → List (String × Value) → Table
  | t, [] => t
  | t, (key, v) :: entries =>
    mergeEntries (Table.put key (match t.lookup key with
      | some before => before.merge v
      | none => v) t) entries

end

/-- What a refusal calls a value. A single character is a text there. -/
def Value.describe : Value → String
  | bool b => "bool " ++ toString b
  | signed n => "signed int `" ++ toString n ++ "`"
  | unsigned n => "unsigned int `" ++ toString n ++ "`"
  | float x => "float `" ++ x.plainText ++ "`"
  | char c => "string " ++ quoted (String.singleton c)
  | text s => "string " ++ quoted s
  | list _ => "sequence"
  | table _ => "map"

end RouteMigration.Settings
