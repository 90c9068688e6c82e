import RouteMigration.Number.Binary64

/-! Numbers as settings write them: digits, an optional point, an optional exponent. -/

namespace RouteMigration.Number

def isDigit (c : Char) : Bool := '0' ≤ c && c ≤ '9'

/-- The number some digits write in a base. -/
def ofDigits (base : Nat) (value : Char → Nat) (digits : List Char) : Nat :=
  digits.foldl (fun n c => base * n + value c) 0

def decimalValue (digits : List Char) : Nat := ofDigits 10 (fun c => c.toNat - 0x30) digits

/-- A sign in front, and whether it is a minus. -/
def cutSign (s : List Char) : Bool × List Char :=
  match s with
  | '-' :: rest => (true, rest)
  | '+' :: rest => (false, rest)
  | _ => (false, s)

/-- A signed whole number at the end of a text. -/
def exponent? (s : List Char) : Option Int :=
  let (minus, digits) := cutSign s
  if digits.isEmpty || !digits.all isDigit then none
  else some (if minus then -(decimalValue digits) else decimalValue digits)

/-- A text that is a number with or without point and exponent. On one side of the point
there has to be a digit. -/
def float? (s : List Char) : Option Binary64 :=
  let (minus, s) := cutSign s
  let whole := s.takeWhile isDigit
  let rest := s.dropWhile isDigit
  let (fraction, rest) := match rest with
    | '.' :: rest => (rest.takeWhile isDigit, rest.dropWhile isDigit)
    | rest => ([], rest)
  let digits := whole ++ fraction
  if digits.isEmpty then none
  else
    let number := fun (e : Int) =>
      Binary64.signed minus (.ofDecimal (decimalValue digits) (e - fraction.length))
    match rest with
    | [] => some (number 0)
    | 'e' :: rest | 'E' :: rest => (exponent? rest).map number
    | _ => none

end RouteMigration.Number
