import RouteMigration.Number.Binary64

/-! The shortest decimal that reads back as a given double, and the two ways it is
written. -/

namespace RouteMigration.Number

/-- `digits * 10 ^ exponent`. -/
structure Decimal where
  digits : Nat
  exponent : Int
  deriving DecidableEq, Repr

namespace Decimal

def toMagnitude (d : Decimal) : Magnitude := .ofDecimal d.digits d.exponent

/-- The decimal with `k` digits next below `n / d`, which lies under `10 ^ places`, and what
is left over, as the numerator and the denominator of a part of one unit. -/
def below (n d : Nat) (places : Int) (k : Nat) : Decimal × Nat × Nat :=
  let exponent := places - Int.ofNat k
  let (a, b) :=
    if exponent < 0 then (n * Nat.pow 10 exponent.natAbs, d)
    else (n, d * Nat.pow 10 exponent.natAbs)
  (⟨a / b, exponent⟩, a % b, b)

/-- How many digits `n / d` has before the point; zero or less counts zeros after it. -/
def placesOf (n d : Nat) : Int :=
  let a := (Nat.toDigits 10 n).length
  let b := (Nat.toDigits 10 d).length
  let guess : Int := Int.ofNat a - Int.ofNat b
  let atLeast := if a < b then d ≤ n * Nat.pow 10 (b - a) else d * Nat.pow 10 (a - b) ≤ n
  if atLeast then guess + 1 else guess

/-- Of the two decimals with `k` digits around `n / d`, the nearest that rounds to `m`. -/
def around? (m : Magnitude) (n d : Nat) (k : Nat) : Option Decimal :=
  let (low, rest, unit) := below n d (placesOf n d) k
  let high : Decimal := ⟨low.digits + 1, low.exponent⟩
  let lowFits := low.toMagnitude = m
  let highFits := high.toMagnitude = m
  let lowNearer := 2 * rest < unit || (2 * rest == unit && low.digits % 2 == 0)
  if lowFits && (lowNearer || !highFits) then some low
  else if highFits then some high
  else none

/-- No factor of ten is left in the digits. Seventeen digits are all there can be. -/
def stripZeros : Nat → Decimal → Decimal
  | 0, d => d
  | fuel + 1, d =>
    if d.digits % 10 = 0 then stripZeros fuel ⟨d.digits / 10, d.exponent + 1⟩ else d

/-- The shortest decimal that rounds to a finite magnitude. Seventeen digits always do. -/
def shortest (m : Nat) (e : Int) : Decimal :=
  if m = 0 then ⟨0, 0⟩
  else
    let (n, d) := Magnitude.ratio m e
    match (List.range 17).findSome? fun k => around? (.finite m e) n d (k + 1) with
    | some found => stripZeros 17 found
    | none => stripZeros 17 (below n d (placesOf n d) 17).1

/-- The digits without a point, and the exponent of the leading one. -/
def leading (d : Decimal) : List Char × Int :=
  let digits := Nat.toDigits 10 d.digits
  (digits, d.exponent + Int.ofNat digits.length - 1)

def zeros (n : Nat) : List Char := List.replicate n '0'

/-- Whole part and digits after the point. -/
def positional (d : Decimal) : List Char × List Char :=
  let (digits, e) := d.leading
  if e < 0 then (['0'], zeros (e.natAbs - 1) ++ digits)
  else if d.exponent < 0 then digits.splitAt (e.natAbs + 1)
  else (digits ++ zeros d.exponent.natAbs, [])

/-- Without an exponent, and without a point where the number is whole. -/
def plainText (d : Decimal) : List Char :=
  match d.positional with
  | (whole, []) => whole
  | (whole, fraction) => whole ++ '.' :: fraction

/-- A sign, also where it is a plus, and the digits. -/
def exponentText (e : Int) : List Char :=
  (if e < 0 then '-' else '+') :: Nat.toDigits 10 e.natAbs

/-- With a point where the leading digit stands for a hundred thousandth up to a thousand
million million, with an exponent elsewhere. -/
def scientificText (d : Decimal) : List Char :=
  let (digits, e) := d.leading
  if -5 ≤ e && e ≤ 15 then
    match d.positional with
    | (whole, []) => whole ++ ['.', '0']
    | (whole, fraction) => whole ++ '.' :: fraction
  else
    match digits with
    | first :: more@(_ :: _) => first :: '.' :: (more ++ 'e' :: exponentText e)
    | _ => digits ++ 'e' :: exponentText e

end Decimal

namespace Binary64

def textBy (write : Decimal → List Char) : Binary64 → List Char
  | nan => "NaN".toList
  | signed negative magnitude =>
    let text := match magnitude with
      | .infinite => "inf".toList
      | .finite m e => write (.shortest m e)
    if negative then '-' :: text else text

/-- Positional, however long that gets. -/
def plainText (x : Binary64) : String := String.ofList (x.textBy Decimal.plainText)

/-- With an exponent for the very large and the very small. -/
def scientificText (x : Binary64) : String := String.ofList (x.textBy Decimal.scientificText)

end Binary64

end RouteMigration.Number
