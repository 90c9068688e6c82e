import RouteMigration.Number.Literal
import RouteMigration.Settings.Toml.Lexeme

/-! Numbers, truth values and dates of TOML. -/

namespace RouteMigration.Settings.Toml

open RouteMigration.Number RouteMigration.Text

/-! ## Numbers -/

/-- Digits of a class, where an underscore may stand between two of them. -/
def digitsFrom (isDigit : Char → Bool) : List Char → List Char × List Char
  | [] => ([], [])
  | c :: s =>
    if isDigit c then
      let (digits, rest) := digitsFrom isDigit s
      (c :: digits, rest)
    else if c = '_' && s.head?.any isDigit then digitsFrom isDigit s
    else ([], c :: s)

/-- At least one digit, without an underscore in front. -/
def digits (isDigit : Char → Bool) : Scanner (List Char) := fun s =>
  if s.head?.any isDigit then some (digitsFrom isDigit s) else none

/-- A whole number after its sign: no zero stands before another digit. -/
def wholeDigits : Scanner (List Char) := fun s =>
  match s with
  | '0' :: s => some (['0'], s)
  | s => digits isDigit s

/-- Whether a signed integer of 64 bits can hold it. -/
def inRange (n : Int) : Bool := -0x8000000000000000 ≤ n && n < 0x8000000000000000

def ofInt (n : Int) : Option Value := if inRange n then some (.signed n) else none

/-- A whole number in another base, after the sign of that base. -/
def based (base : Nat) : Scanner Value := fun s => do
  let isDigit := fun c => (hexValue? c).any (· < base)
  let (ds, rest) ← digits isDigit s
  let v ← ofInt (ofDigits base (fun c => (hexValue? c).getD 0) ds)
  return (v, rest)

/-- The part after `e`. -/
def exponentPart : Scanner (List Char) := fun s =>
  match s with
  | 'e' :: s | 'E' :: s => do
    let (sign, s) := match s with
      | '+' :: s => ([], s)
      | '-' :: s => (['-'], s)
      | s => ([], s)
    let (ds, rest) ← digits isDigit s
    return ('e' :: (sign ++ ds), rest)
  | _ => none

/-- Point and digits, an exponent, or both; nothing where the number is whole. -/
def floatPart : Scanner (List Char) := fun s =>
  match s with
  | '.' :: s => do
    let (ds, rest) ← digits isDigit s
    match rest with
    | 'e' :: _ | 'E' :: _ =>
      let (e, rest) ← exponentPart rest
      return ('.' :: (ds ++ e), rest)
    | rest => return ('.' :: ds, rest)
  | 'e' :: _ | 'E' :: _ => exponentPart s
  | s => some ([], s)

/-- Greater than all doubles is no number; less than all of them is negative infinity. -/
def ofFloat (x : Binary64) : Option Value :=
  if x = .signed false .infinite then none else some (.float x)

/-- A number in base ten. -/
def decimal : Scanner Value := fun s => do
  let (minus, s) := cutSign s
  let (whole, rest) ← wholeDigits s
  let (fraction, rest) ← floatPart rest
  if fraction.isEmpty then
    let n : Int := decimalValue whole
    return (← ofInt (if minus then -n else n), rest)
  else
    let sign := if minus then ['-'] else []
    return (← ofFloat (← float? (sign ++ whole ++ fraction)), rest)

/-- Infinity and what is no number, after an optional sign. -/
def special : Scanner Value := fun s =>
  let (minus, s) := cutSign s
  match dropWord "inf".toList s, dropWord "nan".toList s with
  | some rest, _ => some (.float (.signed minus .infinite), rest)
  | _, some rest => some (.float .nan, rest)
  | _, _ => none

def number : Scanner Value := fun s =>
  match s with
  | '0' :: 'x' :: s => based 16 s
  | '0' :: 'o' :: s => based 8 s
  | '0' :: 'b' :: s => based 2 s
  | s =>
    match special s with
    | some result => some result
    | none => decimal s

/-! ## Dates -/

/-- The key under which a date stands in a table of its own. -/
def dateKey : String := "$__toml_private_datetime"

/-- A number of exactly `width` digits within bounds. -/
def field (width lo hi : Nat) : Scanner Nat := fun s =>
  let ds := s.take width
  if ds.length = width && ds.all isDigit then
    let n := decimalValue ds
    if lo ≤ n && n ≤ hi then some (n, s.drop width) else none
  else none

def sign (c : Char) : Scanner Unit
  | d :: s => if d = c then some ((), s) else none
  | [] => none

def isLeapYear (y : Nat) : Bool := y % 4 == 0 && (y % 100 != 0 || y % 400 == 0)

def daysIn (year month : Nat) : Nat :=
  if month = 2 then (if isLeapYear year then 29 else 28)
  else if month = 4 || month = 6 || month = 9 || month = 11 then 30
  else 31

def date : Scanner Unit := do
  let year ← field 4 0 9999
  sign '-'
  let month ← field 2 1 12
  sign '-'
  let _ ← field 2 1 (daysIn year month)

/-- Digits of a second after the point, if there is a point. -/
def secondFraction : Scanner Unit := fun s =>
  match s with
  | '.' :: s =>
    if s.head?.any isDigit then some ((), s.dropWhile isDigit) else none
  | s => some ((), s)

def time : Scanner Unit := do
  let _ ← field 2 0 23
  sign ':'
  let _ ← field 2 0 59
  sign ':'
  let _ ← field 2 0 60
  secondFraction

/-- The distance from universal time, if it is given. -/
def offset : Scanner Unit := fun s =>
  match s with
  | 'Z' :: s | 'z' :: s => some ((), s)
  | '+' :: s | '-' :: s => (do
    let _ ← field 2 0 23
    sign ':'
    let _ ← field 2 0 59) s
  | s => some ((), s)

/-- What may follow a date: a time, with or without its offset. -/
def timeAfterDate : Scanner Unit := fun s =>
  match s with
  | 'T' :: s | 't' :: s => (do time; offset) s
  | ' ' :: s =>
    match s with
    | a :: b :: ':' :: _ =>
      if isDigit a && isDigit b then (do time; offset) s else some ((), ' ' :: s)
    | s => some ((), ' ' :: s)
  | s => some ((), s)

/-- A date, a time of day, or both. -/
def dateTime : Scanner Value := fun s => do
  let (_, rest) ← match s with
    | _ :: _ :: ':' :: _ => time s
    | _ => (do date; timeAfterDate) s
  let text := String.ofList (s.take (s.length - rest.length))
  return (.table [(dateKey, .text text)], rest)

/-- Whether what starts like a number is a date or a time. -/
def looksLikeDate (s : List Char) : Bool :=
  match s with
  | a :: b :: ':' :: _ => isDigit a && isDigit b
  | a :: b :: c :: d :: '-' :: _ => isDigit a && isDigit b && isDigit c && isDigit d
  | _ => false

/-! ## All of them -/

def scalar : Scanner Value := fun s =>
  match s with
  | '"' :: _ | '\'' :: _ => (text s).map fun (t, rest) => (.text t, rest)
  | 't' :: _ => (dropWord "true".toList s).map (.bool true, ·)
  | 'f' :: _ => (dropWord "false".toList s).map (.bool false, ·)
  | 'i' :: _ | 'n' :: _ => special s
  | s => if looksLikeDate s then dateTime s else number s

end RouteMigration.Settings.Toml
