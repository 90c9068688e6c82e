import RouteMigration.Form

/-! The host of an address: a name, or a number in one of the many spellings that numbers of
hosts have. -/

namespace RouteMigration

open RouteMigration.Text

inductive HostFlaw where
  | empty
  /-- A character that no name holds. -/
  | badName
  /-- A character that no host holds where the scheme says nothing of names. -/
  | badChar
  | badIpv4
  | badIpv6
  deriving DecidableEq, Repr

def HostFlaw.message : HostFlaw → String
  | empty => "empty host"
  | badName => "invalid international domain name"
  | badChar => "invalid domain character"
  | badIpv4 => "invalid IPv4 address"
  | badIpv6 => "invalid IPv6 address"

namespace Host

def isDigit (c : Char) : Bool := '0' ≤ c && c ≤ '9'

def digitsValue (base : Nat) (s : List Char) : Nat :=
  s.foldl (fun n c => base * n + (hexValue? c).getD 0) 0

/-- The number a text writes in a base, `0` for none at all. -/
def numberIn? (base : Nat) (s : List Char) : Option Nat :=
  if s.all fun c => (hexValue? c).any (· < base) then some (digitsValue base s) else none

/-! ## Four octets -/

/-- A part of the number of a host: hexadecimal after `0x`, octal after `0`, else decimal. -/
def ipv4Part? : List Char → Option Nat
  | [] => none
  | '0' :: 'x' :: s | '0' :: 'X' :: s => numberIn? 16 s
  | ['0'] => some 0
  | '0' :: s => numberIn? 8 s
  | s => numberIn? 10 s

/-- The parts between dots; a dot at the end starts none. -/
def dottedParts (s : List Char) : List (List Char) :=
  let parts := s.splitOn '.'
  if parts.length > 1 && parts.getLast? = some [] then parts.dropLast else parts

/-- Whether a host has to be a number, by its last part. -/
def endsInNumber (s : List Char) : Bool :=
  match (dottedParts s).getLast? with
  | some [] | none => false
  | some last => last.all isDigit || (ipv4Part? last).isSome

/-- The number of parts given: the last one fills the octets that the others leave. -/
def ipv4Value? : List Nat → Option Nat
  | [] => none
  | parts =>
    let leading := parts.dropLast
    let last := parts.getLastD 0
    if leading.length ≤ 3 && leading.all (· ≤ 255) && last < Nat.pow 256 (4 - leading.length) then
      some (leading.zipIdx.foldl (fun value (n, i) => value + n * Nat.pow 256 (3 - i)) last)
    else none

def ipv4Text (n : Nat) : List Char :=
  ['.'].intercalate ([3, 2, 1, 0].map fun i => (toString (n / Nat.pow 256 i % 256)).toList)

def readIpv4 (s : List Char) : Except HostFlaw (List Char) :=
  match (dottedParts s).mapM ipv4Part? with
  | some parts =>
    match ipv4Value? parts with
    | some n => .ok (ipv4Text n)
    | none => .error .badIpv4
  | none => .error .badIpv4

/-! ## Eight pieces -/

/-- A piece of one to four hexadecimal digits. -/
def hexPiece? (s : List Char) : Option Nat :=
  if s.isEmpty || s.length > 4 then none else numberIn? 16 s

/-- An octet in decimal, without zeros in front. -/
def octet? (s : List Char) : Option Nat :=
  if s.isEmpty || s.length > 3 || (s.length > 1 && s.head? = some '0') then none
  else (numberIn? 10 s).filter (· ≤ 255)

/-- The two pieces that four octets are. -/
def octetPieces? (s : List Char) : Option (List Nat) :=
  match (s.splitOn '.').mapM octet? with
  | some [a, b, c, d] => some [256 * a + b, 256 * c + d]
  | _ => none

/-- Pieces with colons between them, of which the last may be four octets. -/
def pieces? (mayEndInOctets : Bool) (s : List Char) : Option (List Nat) :=
  if s.isEmpty then some []
  else
    let parts := s.splitOn ':'
    let last := parts.getLastD []
    do
      let leading ← parts.dropLast.mapM hexPiece?
      let rest ← if mayEndInOctets && last.contains '.' then octetPieces? last
        else (hexPiece? last).map ([·])
      return leading ++ rest

/-- What stands before and after the first two colons in a row. -/
def cutGap : List Char → Option (List Char × List Char)
  | ':' :: ':' :: s => some ([], s)
  | c :: s => (cutGap s).map fun (before, after) => (c :: before, after)
  | [] => none

/-- The eight pieces of a number, where two colons stand for one zero or more. -/
def ipv6Pieces? (s : List Char) : Option (List Nat) :=
  match cutGap s with
  | none => (pieces? true s).filter (·.length = 8)
  | some (before, after) => do
    let before ← pieces? false before
    let after ← pieces? true after
    if before.length + after.length ≤ 7 then
      return before ++ List.replicate (8 - before.length - after.length) 0 ++ after
    else none

/-- How many zeros a list starts with. -/
def zeroRun (pieces : List Nat) : Nat := (pieces.takeWhile (· = 0)).length

/-- Where the first of the longest runs of zeros starts, and how long it is. -/
def longestZeros (pieces : List Nat) : Nat × Nat :=
  (List.range pieces.length).foldl (fun (start, size) i =>
    let here := zeroRun (pieces.drop i)
    if size < here then (i, here) else (start, size)) (0, 0)

/-- Two colons stand for the longest run of zeros, if it has two zeros or more. -/
def ipv6Text (pieces : List Nat) : List Char :=
  let joined := fun (ns : List Nat) => [':'].intercalate (ns.map hexText)
  let (start, size) := longestZeros pieces
  if size < 2 then joined pieces
  else joined (pieces.take start) ++ ':' :: ':' :: joined (pieces.drop (start + size))

/-- A number in brackets, given without the first of them. -/
def readIpv6 (s : List Char) : Except HostFlaw (List Char) :=
  if s.getLast? = some ']' then
    match ipv6Pieces? s.dropLast with
    | some pieces => .ok ('[' :: (ipv6Text pieces ++ [']']))
    | none => .error .badIpv6
  else .error .badIpv6

/-! ## Names -/

/-- The octets of a text whose escapes are resolved. -/
def unescapedOctets : List Char → List UInt8
  | '%' :: a :: b :: s =>
    match Form.hexPair? a b with
    | some octet => octet :: unescapedOctets s
    | none => 0x25 :: unescapedOctets (a :: b :: s)
  | c :: s => String.utf8EncodeChar c ++ unescapedOctets s
  | [] => []

/-- Characters that no name of a host holds. -/
def isOutsideNames (c : Char) : Bool :=
  c.toNat ≤ 0x20 || c.toNat = 0x7F || "%#/:<>?@[\\]^`\x7b|\x7d".toList.contains c

/-- The host of a scheme whose hosts are names. -/
def readNamed (s : List Char) : Except HostFlaw (List Char) :=
  match s with
  | [] => .error .empty
  | '[' :: s => readIpv6 s
  | s =>
    let name := (Utf8.decode (unescapedOctets s)).map Char.toLower
    if name.any isOutsideNames then .error .badName
    else if endsInNumber name then readIpv4 name
    else .ok name

/-- The host of any other scheme, which is taken as it stands. -/
def readOpaque (s : List Char) : Except HostFlaw (List Char) :=
  match s with
  | '[' :: s => readIpv6 s
  | s =>
    if s.any fun c => c.toNat = 0 || " #/:<>?@[\\]^|".toList.contains c then .error .badChar
    else .ok s

end Host

end RouteMigration
