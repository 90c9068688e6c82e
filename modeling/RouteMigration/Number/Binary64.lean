/-! Double-precision numbers, exactly: a magnitude is a significand times a power of two,
and every operation rounds its exact result once, to the nearest, ties to the even
significand. -/

namespace RouteMigration.Number

/-- A number without its sign. A finite one is `significand * 2 ^ exponent`. -/
inductive Magnitude where
  | finite (significand : Nat) (exponent : Int)
  | infinite
  deriving DecidableEq, Repr, Inhabited

namespace Magnitude

def zero : Magnitude := .finite 0 0

/-- The quotient to the nearest whole number, a tie to the even one. -/
def divideToEven (n d : Nat) : Nat :=
  let q := n / d
  let twice := 2 * (n % d)
  if twice > d || (twice == d && q % 2 == 1) then q + 1 else q

/-- Numerator and denominator of `n / d` divided by `2 ^ e`. -/
def scaled (n d : Nat) (e : Int) : Nat × Nat :=
  if e < 0 then (n <<< e.natAbs, d) else (n, d <<< e.natAbs)

/-- The exponent that gives `n / d` a significand of 53 bits, or the smallest there is. -/
def exponentOf (n d : Nat) : Int :=
  let guess : Int := Int.ofNat n.log2 - Int.ofNat d.log2
  let (a, b) := scaled n d guess
  max (if a < b then guess - 53 else guess - 52) (-1074)

/-- The double nearest to `n / d`. -/
def ofRatio (n d : Nat) : Magnitude :=
  if n = 0 then zero
  else
    let e := exponentOf n d
    let (a, b) := scaled n d e
    let m := divideToEven a b
    let (m, e) := if m = 1 <<< 53 then (1 <<< 52, e + 1) else (m, e)
    if e > 971 then infinite else if m = 0 then zero else finite m e

/-- A finite magnitude as a ratio. -/
def ratio (m : Nat) (e : Int) : Nat × Nat :=
  if e < 0 then (m, 1 <<< e.natAbs) else (m <<< e.natAbs, 1)

def mul : Magnitude → Magnitude → Magnitude
  | finite m e, finite m' e' =>
    let (a, b) := ratio m e
    let (a', b') := ratio m' e'
    ofRatio (a * a') (b * b')
  | _, _ => infinite

/-- A quotient by a finite number other than zero. -/
def div : Magnitude → Magnitude → Magnitude
  | finite m e, finite m' e' =>
    let (a, b) := ratio m e
    let (a', b') := ratio m' e'
    ofRatio (a * b') (b * a')
  | _, _ => infinite

/-- The double nearest to a power of ten. -/
def tenTo (k : Nat) : Magnitude := ofRatio (Nat.pow 10 k) 1

/-- The double nearest to `digits * 10 ^ exponent`, whatever the size of the exponent:
beyond 310 places before the point all is infinite, beyond 330 after it all is zero. -/
def ofDecimal (digits : Nat) (exponent : Int) : Magnitude :=
  let places : Int := exponent + Int.ofNat (Nat.toDigits 10 digits).length
  if digits = 0 || places < -330 then zero
  else if places > 310 then infinite
  else if exponent < 0 then ofRatio digits (Nat.pow 10 exponent.natAbs)
  else ofRatio (digits * Nat.pow 10 exponent.natAbs) 1

end Magnitude

inductive Binary64 where
  | nan
  | signed ( negative : Bool) (magnitude : Magnitude)
  deriving DecidableEq, Repr, Inhabited

end RouteMigration.Number
