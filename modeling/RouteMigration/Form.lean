import RouteMigration.Text.Hex
import RouteMigration.Text.Utf8

/-! The codec of `application/x-www-form-urlencoded`, for one name or value and for
a list of pairs. -/

namespace RouteMigration.Form

open RouteMigration.Text

/-- The octets that stand for themselves: ASCII letters and digits and four marks. -/
def isPlain (b : UInt8) : Bool :=
  (0x30 ≤ b && b ≤ 0x39) || (0x41 ≤ b && b ≤ 0x5A) || (0x61 ≤ b && b ≤ 0x7A) ||
    b == 0x2A || b == 0x2D || b == 0x2E || b == 0x5F

/-- An upper-case hexadecimal digit. -/
def hexDigit (n : Nat) : Char := if n < 10 then Char.ofNat (0x30 + n) else Char.ofNat (0x37 + n)

def encodeByte (b : UInt8) : List Char :=
  if isPlain b then [Char.ofNat b.toNat]
  else if b == 0x20 then ['+']
  else ['%', hexDigit (b.toNat / 16), hexDigit (b.toNat % 16)]

def encode (s : List Char) : List Char := (Utf8.encode s).flatMap encodeByte

/-- The octet two hexadecimal digits name. -/
def hexPair? (a b : Char) : Option UInt8 :=
  match hexValue? a, hexValue? b with
  | some x, some y => some (UInt8.ofNat (16 * x + y))
  | _, _ => none

/-- `skip` characters belong to an escape already read. A percent sign that no two
hexadecimal digits follow is itself. -/
def octetsFrom : Nat → List Char → List UInt8
  | _, [] => []
  | skip + 1, _ :: cs => octetsFrom skip cs
  | 0, c :: cs =>
    if c = '+' then 0x20 :: octetsFrom 0 cs
    else if c = '%' then
      match cs with
      | a :: b :: _ =>
        match hexPair? a b with
        | some octet => octet :: octetsFrom 2 cs
        | none => 0x25 :: octetsFrom 0 cs
      | _ => 0x25 :: octetsFrom 0 cs
    else String.utf8EncodeChar c ++ octetsFrom 0 cs

def decode (s : List Char) : List Char := Utf8.decode (octetsFrom 0 s)

/-- Pairs joined by ampersands, each name and value encoded on its own. -/
def encodePairs (pairs : List (List Char × List Char)) : List Char :=
  ['&'].intercalate (pairs.map fun (name, value) => encode name ++ '=' :: encode value)

end RouteMigration.Form
