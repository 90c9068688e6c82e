import RouteMigration.Document.Skip
import RouteMigration.Route
import RouteMigration.Text.Quoted

/-! Reading a routes document: an object with a `routesList` of routes. Unknown members
are passed over, known ones may occur once, and the optional ones may be absent or null.
Either object may also be given as the array of its fields in declared order. -/

namespace RouteMigration.Document

open RouteMigration.Text

/-! ## What was found where something else is expected -/

/-- Describes the value at the front of a text, reading as much of it as the description
takes. -/
def found : Reader String
  | [] => .error .cutShort
  | 'n' :: s => do return ("null", (← expectWord "ull".toList s).2)
  | 't' :: s => do return ("boolean `true`", (← expectWord "rue".toList s).2)
  | 'f' :: s => do return ("boolean `false`", (← expectWord "alse".toList s).2)
  | '"' :: s => do
    let (text, rest) ← textBody s
    return ("string " ++ quoted text, rest)
  | '-' :: s => do
    let (n, rest) ← numeral true s
    return (n.describe, rest)
  | '[' :: s => .ok ("sequence", s)
  | '{' :: s => .ok ("map", s)
  | c :: s =>
    if isDigit c then do
      let (n, rest) ← numeral false (c :: s)
      return (n.describe, rest)
    else .error .malformed

def mismatch {α : Type} (expected : String) : Reader α := do
  refuse (.invalidType (← found) expected)

/-! ## Scalars -/

def text : Reader String := fun s =>
  match skipBlank s with
  | [] => .error .cutShort
  | '"' :: s => textBody s
  | s => mismatch "a string" s

def boolean : Reader Bool := fun s =>
  match skipBlank s with
  | [] => .error .cutShort
  | 't' :: s => do return (true, (← expectWord "rue".toList s).2)
  | 'f' :: s => do return (false, (← expectWord "alse".toList s).2)
  | s => mismatch "a boolean" s

/-- A value that may be null, which stands for the default. -/
def orNull {α : Type} (default : α) (read : Reader α) : Reader α := fun s =>
  match skipBlank s with
  | 'n' :: s => do return (default, (← expectWord "ull".toList s).2)
  | _ => read s

/-! ## Sequences -/

/-- Whether a sequence goes on. The closing bracket stays in the text. -/
def hasItem ( isFirst : Bool) : Reader Bool := fun s =>
  match skipBlank s with
  | [] => .error .cutShort
  | ']' :: s => .ok (false, ']' :: s)
  | ',' :: s =>
    if isFirst then .ok (true, ',' :: s)
    else match skipBlank s with
      | [] => .error .cutShort
      | ']' :: _ => .error .malformed
      | s => .ok (true, s)
  | s => if isFirst then .ok (true, s) else .error .malformed

/-- The items of a sequence that are left. Each item takes up some text. -/
def itemsFrom {α : Type} (item : Reader α) ( isFirst : Bool) (s : List Char) :
    Except Refusal (List α × List Char) :=
  match hasItem isFirst s with
  | .error e => .error e
  | .ok (false, rest) => .ok ([], rest)
  | .ok (true, rest) =>
    match item rest with
    | .error e => .error e
    | .ok (x, rest) =>
      if rest.length < s.length then
        match itemsFrom item false rest with
        | .ok (xs, rest) => .ok (x :: xs, rest)
        | .error e => .error e
      else .error .malformed
termination_by s.length

def closeSquare : Reader Unit := fun s =>
  match skipBlank s with
  | [] => .error .cutShort
  | ']' :: s => .ok ((), s)
  | _ => .error .malformed

def list {α : Type} (item : Reader α) : Reader (List α) := fun s =>
  match skipBlank s with
  | [] => .error .cutShort
  | '[' :: s => do
    let (xs, rest) ← itemsFrom item true s
    let (_, rest) ← closeSquare rest
    return (xs, rest)
  | s => mismatch "a sequence" s

/-! ## Objects -/

def colon : Reader Unit := fun s =>
  match skipBlank s with
  | [] => .error .cutShort
  | ':' :: s => .ok ((), s)
  | _ => .error .malformed

def key : Reader String := fun s =>
  match s with
  | [] => .error .cutShort
  | '"' :: s => textBody s
  | _ => .error .malformed

/-- The members of an object from its first key to its closing bracket, each given to
`member`. Each one takes up some text. -/
def membersFrom {δ : Type} (member : String → δ → Reader δ) (d : δ) (s : List Char) :
    Except Refusal (δ × List Char) :=
  match key s with
  | .error e => .error e
  | .ok (k, rest) =>
    match member k d rest with
    | .error e => .error e
    | .ok (d, rest) =>
      match skipBlank rest with
      | [] => .error .cutShort
      | '}' :: rest => .ok (d, rest)
      | ',' :: rest =>
        let rest := skipBlank rest
        if rest.length < s.length then membersFrom member d rest else .error .malformed
      | _ => .error .malformed
termination_by s.length

/-- What follows the opening bracket of an object. -/
def members {δ : Type} (member : String → δ → Reader δ) (d : δ) : Reader δ := fun s =>
  match skipBlank s with
  | [] => .error .cutShort
  | '}' :: s => .ok (d, s)
  | s => membersFrom member d s

/-! ## Routes -/

inductive Field where
  | uuid
  | name
  | rule
  | description
  | enabled
  | queues
  | createdDate
  | modifiedDate
  deriving DecidableEq, Repr

namespace Field

def all : List Field :=
  [uuid, name, rule, description, enabled, queues, createdDate, modifiedDate]

def key : Field → String
  | uuid => "uuid"
  | name => "name"
  | rule => "rule"
  | description => "description"
  | enabled => "enabled"
  | queues => "queues"
  | createdDate => "createdDate"
  | modifiedDate => "modifiedDate"

def ofKey? (k : String) : Option Field := all.find? (·.key = k)

def isRequired : Field → Bool
  | uuid | name | rule | queues => true
  | description | enabled | createdDate | modifiedDate => false

end Field

/-- The fields of a route read so far. -/
structure Draft where
  uuid : Option String := none
  name : Option String := none
  rule : Option String := none
  description : Option String := none
  enabled : Option Bool := none
  queues : Option (List String) := none
  createdDate : Option String := none
  modifiedDate : Option String := none

namespace Draft

def has (d : Draft) : Field → Bool
  | .uuid => d.uuid.isSome
  | .name => d.name.isSome
  | .rule => d.rule.isSome
  | .description => d.description.isSome
  | .enabled => d.enabled.isSome
  | .queues => d.queues.isSome
  | .createdDate => d.createdDate.isSome
  | .modifiedDate => d.modifiedDate.isSome

/-- Reads the value of a field. -/
def read (d : Draft) : Field → Reader Draft
  | .uuid => do return { d with uuid := ← text }
  | .name => do return { d with name := ← text }
  | .rule => do return { d with rule := ← text }
  | .description => do return { d with description := ← orNull "" text }
  | .enabled => do return { d with enabled := ← orNull false boolean }
  | .queues => do return { d with queues := ← list text }
  | .createdDate => do return { d with createdDate := ← orNull "" text }
  | .modifiedDate => do return { d with modifiedDate := ← orNull "" text }

/-- A field that has to be there. -/
def require {α : Type} (f : Field) (value : Option α) : Except Refusal α :=
  match value with
  | some x => .ok x
  | none => .error (.missingField f.key)

/-- The route, once all fields are read. -/
def finish (d : Draft) : Except Refusal Route := do
  let uuid ← require .uuid d.uuid
  let name ← require .name d.name
  let rule ← require .rule d.rule
  let queues ← require .queues d.queues
  return {
    uuid, name, rule, queues
    description := d.description.getD ""
    enabled := d.enabled.getD false
    createdDate := d.createdDate.getD ""
    modifiedDate := d.modifiedDate.getD "" }

end Draft

/-- One member of a route: a known field, at most once, or something to pass over. -/
def routeMember (k : String) (d : Draft) : Reader Draft :=
  match Field.ofKey? k with
  | some f => do
    if d.has f then refuse (.duplicateField k)
    colon
    d.read f
  | none => do
    colon
    skipValue
    return d

/-- The fields of a route that is given as an array. Where it ends before a required field,
the count of the fields before that one is reported. -/
def positionalFrom : List Field → Nat → Draft → Reader Draft
  | [], _, d => pure d
  | f :: fields, index, d => do
    if ← hasItem (index = 0) then
      positionalFrom fields (index + 1) (← d.read f)
    else if f.isRequired then
      refuse (.invalidLength index "struct Route with 8 elements")
    else positionalFrom fields (index + 1) d

def finishDraft (d : Draft) : Reader Route := fun s =>
  match d.finish with
  | .ok r => .ok (r, s)
  | .error e => .error e

def route : Reader Route := fun s =>
  match skipBlank s with
  | [] => .error .cutShort
  | '{' :: s => (do finishDraft (← members routeMember {})) s
  | '[' :: s => (do
    let d ← positionalFrom Field.all 0 {}
    closeSquare
    finishDraft d) s
  | s => mismatch "struct Route" s

/-! ## The document -/

def listKey : String := "routesList"

/-- One member of the document. -/
def listMember (k : String) (routes? : Option (List Route)) : Reader (Option (List Route)) :=
  if k = listKey then do
    if routes?.isSome then refuse (.duplicateField k)
    colon
    return some (← list route)
  else do
    colon
    skipValue
    return routes?

def routesList : Reader (List Route) := fun s =>
  match skipBlank s with
  | [] => .error .cutShort
  | '{' :: s => (do
    match ← members listMember none with
    | some routes => return routes
    | none => refuse (.missingField listKey)) s
  | '[' :: s => (do
    if ← hasItem true then
      let routes ← list route
      closeSquare
      return routes
    else refuse (.invalidLength 0 "struct RoutesList with 1 element")) s
  | s => mismatch "struct RoutesList" s

/-- The whole text is one value. -/
def whole {α : Type} (read : Reader α) (s : List Char) : Except Refusal α :=
  match read s with
  | .error e => .error e
  | .ok (x, rest) => if (skipBlank rest).isEmpty then .ok x else .error .malformed

def parse (document : String) : Except Refusal (List Route) := whole routesList document.toList

end RouteMigration.Document
