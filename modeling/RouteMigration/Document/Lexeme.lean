import RouteMigration.Document.Refusal
import RouteMigration.Text.Hex

/-! The pieces of a document that hold no others: blanks, words, texts. -/

namespace RouteMigration.Document

open RouteMigration.Text

def isBlank (c : Char) : Bool := c == ' ' || c == '\n' || c == '\t' || c == '\r'

def skipBlank (s : List Char) : List Char := s.dropWhile isBlank

/-- Exactly the characters of `word`. -/
def expectWord : List Char → Reader Unit
  | [], s => .ok ((), s)
  | _ :: _, [] => .error .cutShort
  | w :: word, c :: s => if c = w then expectWord word s else .error .malformed

/-! ## Texts -/

/-- The code unit that four hexadecimal digits name. -/
def codeUnit (s : List Char) : Except Refusal Nat :=
  match s with
  | a :: b :: c :: d :: _ =>
    match hexNumber? [a, b, c, d] with
    | some n => .ok n
    | none => .error .malformed
  | _ => if (String.ofList s).utf8ByteSize < 4 then .error .cutShort else .error .malformed

def isLeading (unit : Nat) : Bool := 0xD800 ≤ unit && unit ≤ 0xDBFF

def isTrailing (unit : Nat) : Bool := 0xDC00 ≤ unit && unit ≤ 0xDFFF

/-- The character outside the basic plane that a pair of code units stands for. -/
def joinUnits (first second : Nat) : Char :=
  Char.ofNat (0x10000 + (first - 0xD800) * 0x400 + (second - 0xDC00))

/-- The character one letter after a backslash stands for. -/
def shortEscape? (c : Char) : Option Char :=
  [('"', '"'), ('\\', '\\'), ('/', '/'), ('b', '\x08'), ('f', '\x0c'), ('n', '\n'),
   ('r', '\r'), ('t', '\t')].lookup c

/-- The character an escape stands for, and how many characters follow the backslash. -/
def escape (s : List Char) : Except Refusal (Char × Nat) :=
  match s with
  | [] => .error .cutShort
  | 'u' :: s => do
    let first ← codeUnit s
    if isTrailing first then throw .malformed
    if isLeading first then
      match s.drop 4 with
      | '\\' :: 'u' :: s =>
        let second ← codeUnit s
        if isTrailing second then return (joinUnits first second, 11) else throw .malformed
      | [] | ['\\'] => throw .cutShort
      | _ => throw .malformed
    return (Char.ofNat first, 5)
  | c :: _ =>
    match shortEscape? c with
    | some d => .ok (d, 1)
    | none => .error .malformed

/-- The result with one more character at the front of its text. -/
def consText (c : Char) : Except Refusal (List Char × List Char) →
    Except Refusal (List Char × List Char)
  | .ok (text, rest) => .ok (c :: text, rest)
  | .error e => .error e

/-- A text up to its closing quote. The first `skip` characters belong to an escape
already read. -/
def textFrom : Nat → List Char → Except Refusal (List Char × List Char)
  | _, [] => .error .cutShort
  | skip + 1, _ :: s => textFrom skip s
  | 0, c :: s =>
    if c = '"' then .ok ([], s)
    else if c = '\\' then
      match escape s with
      | .ok (d, taken) => consText d (textFrom taken s)
      | .error e => .error e
    else if c.toNat < 0x20 then .error .malformed
    else consText c (textFrom 0 s)

/-- What follows an opening quote. -/
def textBody : Reader String := fun s =>
  match textFrom 0 s with
  | .ok (text, rest) => .ok (String.ofList text, rest)
  | .error e => .error e

/-! ## Texts nobody asked for

They are passed over without a look at what the escapes stand for. -/

/-- How many characters of an escape follow the backslash. -/
def escapeLength (s : List Char) : Except Refusal Nat :=
  match s with
  | [] => .error .cutShort
  | 'u' :: s => do
    let _ ← codeUnit s
    return 5
  | c :: _ => if (shortEscape? c).isSome then .ok 1 else .error .malformed

def skipTextFrom : Nat → List Char → Except Refusal (List Char)
  | _, [] => .error .cutShort
  | skip + 1, _ :: s => skipTextFrom skip s
  | 0, c :: s =>
    if c = '"' then .ok s
    else if c = '\\' then
      match escapeLength s with
      | .ok taken => skipTextFrom taken s
      | .error e => .error e
    else if c.toNat < 0x20 then .error .malformed
    else skipTextFrom 0 s

end RouteMigration.Document
