import RouteMigration.Document.Refusal
import RouteMigration.Number.Shortest

/-! Numbers. No field of a route is one; a number where something else is expected is
still read to its end, because it may be malformed and because the refusal quotes it. -/

namespace RouteMigration.Document

open RouteMigration.Number

def isDigit (c : Char) : Bool := '0' ≤ c && c ≤ '9'

def digitValue (c : Char) : Nat := c.toNat - 0x30

inductive Numeral where
  | natural (n : Nat)
  | negative (n : Nat)
  | float (x : Binary64)

def Numeral.describe : Numeral → String
  | natural n => "integer `" ++ toString n ++ "`"
  | negative n => "integer `-" ++ toString n ++ "`"
  | float x => "floating point `" ++ x.scientificText ++ "`"

/-- The greatest significand that is kept; digits beyond only move the point. -/
def significandLimit : Nat := 0xFFFFFFFFFFFFFFFF

/-- The leading digits of `digits` that fit after `significand`, and those that do not. -/
def takeDigits (significand : Nat) : List Char → Nat × List Char
  | [] => (significand, [])
  | c :: digits =>
    let longer := 10 * significand + digitValue c
    if longer ≤ significandLimit then takeDigits longer digits else (significand, c :: digits)

/-- A magnitude times a power of ten, in as many roundings as it takes with powers up to
10^308; `none` when it outgrows the doubles. The fuel is the number of steps of 308. -/
def scaleBy : Nat → Magnitude → Int → Option Magnitude
  | 0, m, _ => some m
  | fuel + 1, m, exponent =>
    if exponent.natAbs ≤ 308 then
      if exponent < 0 then some (m.div (.tenTo exponent.natAbs))
      else match m.mul (.tenTo exponent.natAbs) with
        | .infinite => none
        | m => some m
    else if m = .zero then some m
    else if exponent < 0 then scaleBy fuel (m.div (.tenTo 308)) (exponent + 308)
    else none

/-- The double a significand and an exponent stand for. A double is zero after three
divisions by 10^308. -/
def toFloat ( isNegative : Bool) (significand : Nat) (exponent : Int) : Except Refusal Numeral :=
  match scaleBy 4 (.ofRatio significand 1) exponent with
  | some m => .ok (.float (.signed isNegative m))
  | none => .error .malformed

/-- What an exponent saturates at. -/
def exponentLimit : Nat := 0x7FFFFFFF

def clampExponent (e : Int) : Int :=
  max (-0x80000000) (min 0x7FFFFFFF e)

/-- The part after `e`: an optional sign and at least one digit. -/
def exponentPart ( isNegative : Bool) (significand : Nat) (exponent : Int) : Reader Numeral := fun s =>
  let (minus, s) := match s with
    | '+' :: s => (false, s)
    | '-' :: s => (true, s)
    | s => (false, s)
  match s with
  | [] => .error .cutShort
  | c :: _ =>
    if !isDigit c then .error .malformed
    else
      let e := (s.takeWhile isDigit).foldl (fun e c => 10 * e + digitValue c) 0
      let rest := s.dropWhile isDigit
      if e > exponentLimit then
        if significand ≠ 0 && !minus then .error .malformed
        else .ok (.float (.signed isNegative .zero), rest)
      else do
        let total := clampExponent (if minus then exponent - e else exponent + e)
        return (← toFloat isNegative significand total, rest)

/-- What may follow the digits: an exponent or nothing. -/
def afterDigits ( isNegative : Bool) (significand : Nat) (exponent : Int) : Reader Numeral := fun s =>
  match s with
  | 'e' :: s | 'E' :: s => exponentPart isNegative significand exponent s
  | s => do return (← toFloat isNegative significand exponent, s)

/-- The part after the point, with at least one digit. -/
def fractionPart ( isNegative : Bool) (significand : Nat) (exponent : Int) : Reader Numeral := fun s =>
  match s with
  | [] => .error .cutShort
  | c :: _ =>
    if !isDigit c then .error .malformed
    else
      let digits := s.takeWhile isDigit
      let (significand, beyond) := takeDigits significand digits
      afterDigits isNegative significand (exponent - (digits.length - beyond.length : Nat))
        (s.dropWhile isDigit)

/-- A number after its sign. Minus zero and what is below the least 64-bit integer are
floating. -/
def numeral ( isNegative : Bool) : Reader Numeral := fun s =>
  match s with
  | [] => .error .cutShort
  | c :: more =>
    if !isDigit c then .error .malformed
    else if c = '0' && (more.head?.any isDigit) then .error .malformed
    else
      let (significand, beyond) := takeDigits 0 (s.takeWhile isDigit)
      match s.dropWhile isDigit with
      | '.' :: rest => fractionPart isNegative significand beyond.length rest
      | 'e' :: rest | 'E' :: rest => exponentPart isNegative significand beyond.length rest
      | rest =>
        if !beyond.isEmpty then do
          return (← toFloat isNegative significand beyond.length, rest)
        else if !isNegative then .ok (.natural significand, rest)
        else if significand = 0 || significand > 0x8000000000000000 then do
          return (← toFloat true significand 0, rest)
        else .ok (.negative significand, rest)

end RouteMigration.Document
