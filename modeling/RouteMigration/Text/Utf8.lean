/-! UTF-8. `encode` writes a text as octets. `decode` reads any octets: each longest
run that begins a character without completing one becomes a single U+FFFD. -/

namespace RouteMigration.Text.Utf8

def encode (s : List Char) : List UInt8 := s.flatMap String.utf8EncodeChar

@[simp] theorem encode_nil : encode [] = [] := rfl

@[simp] theorem encode_cons (c : Char) (s : List Char) :
    encode (c :: s) = String.utf8EncodeChar c ++ encode s := rfl

@[simp] theorem encode_append (s t : List Char) : encode (s ++ t) = encode s ++ encode t := by
  simp [encode]

/-- What the octets read so far still owe: nothing, or `more + 1` continuation octets,
the next of them from `lo` to `hi`, after the leading bits `bits`. -/
inductive Pending where
  | settled
  | owing (more lo hi bits : Nat)

def replacement : Char := '\uFFFD'

/-- An octet where a character may begin. -/
def lead (b : Nat) : List Char × Pending :=
  if b < 0x80 then ([Char.ofNat b], .settled)
  else if 0xC2 ≤ b && b ≤ 0xDF then ([], .owing 0 0x80 0xBF (b % 32))
  else if b == 0xE0 then ([], .owing 1 0xA0 0xBF (b % 16))
  else if b == 0xED then ([], .owing 1 0x80 0x9F (b % 16))
  else if 0xE1 ≤ b && b ≤ 0xEF then ([], .owing 1 0x80 0xBF (b % 16))
  else if b == 0xF0 then ([], .owing 2 0x90 0xBF (b % 8))
  else if 0xF1 ≤ b && b ≤ 0xF3 then ([], .owing 2 0x80 0xBF (b % 8))
  else if b == 0xF4 then ([], .owing 2 0x80 0x8F (b % 8))
  else ([replacement], .settled)

/-- One octet: the characters it completes or gives up, and what is owed after it. -/
def step (p : Pending) (b : Nat) : List Char × Pending :=
  match p with
  | .settled => lead b
  | .owing more lo hi bits =>
    if lo ≤ b && b ≤ hi then
      match more with
      | 0 => ([Char.ofNat (bits * 64 + b % 64)], .settled)
      | more + 1 => ([], .owing more 0x80 0xBF (bits * 64 + b % 64))
    else (replacement :: (lead b).1, (lead b).2)

def decodeFrom : Pending → List UInt8 → List Char
  | .settled, [] => []
  | .owing .., [] => [replacement]
  | p, b :: bs => (step p b.toNat).1 ++ decodeFrom (step p b.toNat).2 bs

def decode (bs : List UInt8) : List Char := decodeFrom .settled bs

end RouteMigration.Text.Utf8
