import RouteMigration.Number.Literal
import RouteMigration.Settings.Value
import RouteMigration.Text.Blank
import RouteMigration.Text.Cut
import RouteMigration.Text.Hex

/-! Settings in environment variables. A name says where in the tree a value belongs, and
the value has a small grammar of its own; a text outside the grammar stands for itself. -/

namespace RouteMigration.Settings

open RouteMigration.Number RouteMigration.Text

namespace Variables

/-- Reads something at the front of a text. -/
abbrev Scanner (α : Type) := StateT (List Char) Option α

def skipBlank (s : List Char) : List Char := s.dropWhile isAsciiBlank

def expect (c : Char) : Scanner Unit
  | d :: s => if d = c then some ((), s) else none
  | [] => none

/-! ## Texts -/

/-- The character a fixed number of hexadecimal digits names, and how many they are. -/
def escapedCode (length : Nat) (s : List Char) : Option (Char × Nat) :=
  let digits := s.take length
  if digits.length < length then none
  else do
    let n ← hexNumber? digits
    if n.isValidChar then some (Char.ofNat n, length + 1) else none

/-- The character an escape stands for, and how many characters follow the backslash. -/
def escape? (s : List Char) : Option (Char × Nat) :=
  match s with
  | 'u' :: s => escapedCode 4 s
  | 'U' :: s => escapedCode 8 s
  | c :: _ =>
    (([('"', '"'), ('\\', '\\'), ('b', '\x08'), ('f', '\x0c'), ('n', '\n'), ('r', '\r'),
      ('t', '\t')].lookup c).map (·, 1))
  | [] => none

def isTextChar (c : Char) : Bool := c == '\t' || (0x20 ≤ c.toNat && c.toNat ≠ 0x7F)

/-- A text up to its closing quote. The first `skip` characters belong to an escape
already read. -/
def textFrom : Nat → List Char → Option (List Char × List Char)
  | _, [] => none
  | skip + 1, _ :: s => textFrom skip s
  | 0, c :: s =>
    if c = '"' then some ([], s)
    else if c = '\\' then do
      let (d, taken) ← escape? s
      let (text, rest) ← textFrom taken s
      return (d :: text, rest)
    else if isTextChar c then do
      let (text, rest) ← textFrom 0 s
      return (c :: text, rest)
    else none

def quotedText : Scanner String := fun s =>
  match s with
  | '"' :: s => (textFrom 0 s).map fun (text, rest) => (String.ofList text, rest)
  | _ => none

/-! ## Values -/

def isSeparator (c : Char) : Bool := ",\x7b\x7d[]".toList.contains c

/-- The number a plain text is, if it is one: floating where it has a point, else unsigned
if that is possible and signed if not. -/
def number? (s : List Char) : Option Value :=
  let float := if s.contains '.' then float? s else none
  match float, s with
  | some x, _ => some (.float x)
  | none, '-' :: digits =>
    if !digits.isEmpty && digits.all isDigit && decimalValue digits ≤ 0x8000000000000000 then
      some (.signed (-(decimalValue digits)))
    else none
  | none, _ =>
    let digits := (cutSign s).2
    if !digits.isEmpty && digits.all isDigit && decimalValue digits < 0x10000000000000000 then
      some (.unsigned (decimalValue digits))
    else none

/-- A value without quotes or brackets, up to the next separator. -/
def plain : Scanner Value := fun s =>
  let text := trim (s.takeWhile (!isSeparator ·))
  let rest := s.dropWhile (!isSeparator ·)
  some ((number? text).getD (.text (String.ofList text)), rest)

def charValue : Scanner Value := fun s =>
  match s with
  | c :: '\'' :: s => some (.char c, s)
  | _ => none

/-- Items separated by commas up to `close`, which may follow a comma. Each item takes up
some text, or the comma after it does. -/
def itemsFrom {α : Type} (item : Scanner α) (close : Char) :
    List Char → Option (List α × List Char)
  | [] => none
  | c :: s =>
    if c = close then some ([], s)
    else match item (c :: s) with
      | some (x, ',' :: rest) =>
        if rest.length ≤ s.length then
          (itemsFrom item close rest).map fun (xs, rest) => (x :: xs, rest)
        else none
      | some (x, d :: rest) => if d = close then some ([x], rest) else none
      | _ => none
termination_by s => s.length

def isKeyChar (c : Char) : Bool := c.isAlphanum || c == '_' || c == '-'

def key : Scanner String := fun s =>
  match skipBlank s with
  | '"' :: s => do
    let (k, s) ← quotedText ('"' :: s)
    return (k, skipBlank s)
  | s =>
    let k := s.takeWhile isKeyChar
    if k.isEmpty then none else some (String.ofList k, skipBlank (s.dropWhile isKeyChar))

def entry (value : Scanner Value) : Scanner (String × Value) := do
  let k ← key
  expect '='
  return (k, ← value)

/-- A value with the blanks around it. The fuel bounds how deep brackets may nest. -/
def value : Nat → Scanner Value
  | 0 => fun _ => none
  | fuel + 1 => fun s => do
    let s := skipBlank s
    let (v, rest) ←
      match dropWord "true".toList s, dropWord "false".toList s, s with
      | some rest, _, _ => some (.bool true, rest)
      | _, some rest, _ => some (.bool false, rest)
      | _, _, '[' :: s =>
        (itemsFrom (value fuel) ']' s).map fun (vs, rest) => (.list vs, rest)
      | _, _, '\x7b' :: s =>
        (itemsFrom (entry (value fuel)) '\x7d' s).map fun (entries, rest) =>
          (.table (entries.foldl (fun t (k, v) => Table.put k v t) []), rest)
      | _, _, '"' :: s => (quotedText ('"' :: s)).map fun (text, rest) => (.text text, rest)
      | _, _, '\'' :: s => charValue s
      | _, _, s => plain s
    return (v, skipBlank rest)

/-- What the text of a variable means. Brackets nest no deeper than the text is long. -/
def parseValue (s : String) : Value :=
  match value (s.length + 1) s.toList with
  | some (v, []) => v
  | _ => .text s

/-! ## Names -/

def namePrefix : List Char := "RMX_".toList

/-- Where in the tree a variable belongs. The start of the name counts in any case, two
underscores nest like a dot, and a name with an empty part belongs nowhere. -/
def pathOf? (name : String) : Option (List String) :=
  let s := name.toList
  if (s.take 4).map Char.toUpper ≠ namePrefix then none
  else
    let rest := replaceAll ['_', '_'] ['.'] (trim (s.drop 4))
    let parts := (rest.map Char.toLower).splitOn '.'
    if parts.any List.isEmpty then none else some (parts.map String.ofList)

/-- A value under a path of keys. -/
def nest : List String → Value → Value
  | [], v => v
  | k :: ks, v => .table [(k, nest ks v)]

/-- The tree the variables make, a later one winning over an earlier. -/
def load (vars : List (String × String)) : Table :=
  vars.foldl (fun tree (name, text) =>
    match pathOf? name with
    | some (key :: path) => mergeEntries tree [(key, nest path (parseValue text))]
    | _ => tree) []

end Variables

end RouteMigration.Settings
