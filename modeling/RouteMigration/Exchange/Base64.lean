/-! Base64 with padding. -/

namespace RouteMigration.Base64

def alphabet : List Char :=
  "ABCDEFGHIJKLMNOPQRSTUVWXYZabcdefghijklmnopqrstuvwxyz0123456789+/".toList

/-- The sign for six bits. -/
def sign (n : Nat) : Char := alphabet.getD (n % 64) '='

/-- Three octets make four signs; what is missing of the last three shows as padding. -/
def encode : List UInt8 → List Char
  | [] => []
  | [a] => [sign (a.toNat / 4), sign (a.toNat * 16), '=', '=']
  | [a, b] => [sign (a.toNat / 4), sign (a.toNat * 16 + b.toNat / 16), sign (b.toNat * 4), '=']
  | a :: b :: c :: rest =>
    sign (a.toNat / 4) :: sign (a.toNat * 16 + b.toNat / 16) ::
      sign (b.toNat * 4 + c.toNat / 64) :: sign c.toNat :: encode rest

end RouteMigration.Base64
