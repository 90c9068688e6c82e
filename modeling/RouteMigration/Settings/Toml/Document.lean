import RouteMigration.Settings.Toml.Item
import RouteMigration.Settings.Toml.Scalar

/-! Reading a TOML document. -/

namespace RouteMigration.Settings.Toml

/-! ## Values -/

/-- The elements of an array after its opening bracket: values with white space of any kind
around them, separated by commas; one comma may follow the last. -/
def elementsFrom (value : Scanner Value) (s : List Char) : Option (List Value × List Char) :=
  match skipLines s with
  | ']' :: rest => some ([], rest)
  | _ =>
    match value (skipLines s) with
    | none => none
    | some (v, rest) =>
      match skipLines rest with
      | ']' :: rest => some ([v], rest)
      | ',' :: rest =>
        if rest.length < s.length then
          (elementsFrom value rest).map fun (vs, rest) => (v :: vs, rest)
        else none
      | _ => none
termination_by s.length

/-- The pairs of an inline table from a key on, each added to `es`. They stand on one line,
and no comma follows the last. -/
def pairsFrom (value : Scanner Value) (es : Entries) (s : List Char) :
    Option (Entries × List Char) :=
  match key s with
  | none => none
  | some (parts, rest) =>
    match rest with
    | '=' :: rest =>
      match value (skipBlank rest) with
      | none => none
      | some (v, rest) =>
        match es.insertKey parts v with
        | none => none
        | some es =>
          match skipBlank rest with
          | '\x7d' :: rest => some (es, rest)
          | ',' :: rest => if rest.length < s.length then pairsFrom value es rest else none
          | _ => none
    | _ => none
termination_by s.length

/-- An inline table after its opening brace. -/
def inlineTable (value : Scanner Value) : Scanner Value := fun s =>
  match skipBlank s with
  | '\x7d' :: rest => some (.table [], rest)
  | s => (pairsFrom value [] s).map fun (es, rest) => (.table (entriesToTable es), rest)

/-- A value inside at most `depth` further brackets. -/
def valueWithin : Nat → Scanner Value
  | 0 => scalar
  | depth + 1 => fun s =>
    match s with
    | '[' :: s => (elementsFrom (valueWithin depth) s).map fun (vs, rest) => (.list vs, rest)
    | '\x7b' :: s => inlineTable (valueWithin depth) s
    | s => scalar s

def value : Scanner Value := valueWithin (depthLimit - 1)

/-! ## Statements -/

/-- The document read so far: what is complete, and the table that is being filled. -/
structure State where
  root : Entries := []
  current : Entries := []
  /-- The header of the current table; no part at all for the top of the document. -/
  path : List String := []
  isArray : Bool := false

namespace State

/-- Puts the current table in its place. -/
def settle (st : State) : Option Entries :=
  match st.path.getLast? with
  | none => some st.current
  | some key =>
    Entries.changeAt false (fun _ es =>
      if st.isArray then
        match es.lookup key with
        | none => some (es.put key (.tables [st.current]))
        | some (.tables ts) => some (es.put key (.tables (ts ++ [st.current])))
        | _ => none
      else some (es.put key (.table false false st.current))) st.path.dropLast false st.root

/-- The entries an implicit table has already got. A table with a header of its own, or one
a dotted key has made, may not be given another. -/
def startTable? (es : Entries) (key : String) : Option Entries :=
  match es.lookup key with
  | none => some []
  | some (.table true false entries) => some entries
  | _ => none

/-- The table a path leads to, as it is now. -/
def tableAt? (root : Entries) : List String → Option Entries
  | [] => some root
  | key :: path =>
    match root.lookup key with
    | none => some []
    | some (.value _) => none
    | some (.table _ _ es) => tableAt? es path
    | some (.tables ts) => ts.getLast?.bind (tableAt? · path)

/-- A header in single brackets. -/
def openTable (st : State) (path : List String) : Option State := do
  let root ← st.settle
  let key ← path.getLast?
  let entries ← startTable? (← tableAt? root path.dropLast) key
  let root ← Entries.changeAt false (fun _ es => some (es.remove key)) path.dropLast false root
  return { root, current := entries, path, isArray := false }

/-- A header in double brackets. -/
def openArray (st : State) (path : List String) : Option State := do
  let root ← st.settle
  let key ← path.getLast?
  match (← tableAt? root path.dropLast).lookup key with
  | none | some (.tables _) => return { root, current := [], path, isArray := true }
  | _ => none

end State

/-- A header in brackets of its own line. -/
def header (st : State) : Scanner State := fun s => do
  match s with
  | '[' :: '[' :: s =>
    let (path, rest) ← key s
    match rest with
    | ']' :: ']' :: rest =>
      let (_, rest) ← endLine rest
      return (← st.openArray path, rest)
    | _ => none
  | '[' :: s =>
    let (path, rest) ← key s
    match rest with
    | ']' :: rest =>
      let (_, rest) ← endLine rest
      return (← st.openTable path, rest)
    | _ => none
  | _ => none

/-- A key with its value. -/
def pair (st : State) : Scanner State := fun s => do
  let (parts, rest) ← key s
  match rest with
  | '=' :: rest =>
    let (v, rest) ← value (skipBlank rest)
    let (_, rest) ← endLine rest
    return ({ st with current := ← st.current.insertKey parts v }, rest)
  | _ => none

def statement (st : State) : Scanner State := fun s =>
  match s with
  | '[' :: _ => header st s
  | s => pair st s

/-- The statements of a document, one after the other. Each takes up some text. -/
def statementsFrom (st : State) (s : List Char) : Option State :=
  match skipLines s with
  | [] => some st
  | s' =>
    match statement st s' with
    | some (st, rest) => if rest.length < s.length then statementsFrom st rest else none
    | none => none
termination_by s.length

def skipMark (s : List Char) : List Char :=
  match s with
  | '\uFEFF' :: rest => rest
  | _ => s

/-- The tree of a document; `none` where the text is not TOML. -/
def parse (text : String) : Option Table := do
  let st ← statementsFrom {} (skipMark text.toList)
  return entriesToTable (← st.settle)

end RouteMigration.Settings.Toml
