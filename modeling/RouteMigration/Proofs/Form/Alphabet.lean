import RouteMigration.Proofs.Form.RoundTrip

/-! What form values are written with: ASCII letters, digits and a few marks, and all else as
escapes of two upper-case digits. The hyphens of a text stand in its form one by one. -/

namespace RouteMigration.Form

open RouteMigration.Text

/-! ## Characters and escapes -/

def IsEscapeDigit (c : Char) : Prop := c.isDigit = true ∨ 'A' ≤ c ∧ c ≤ 'F'

instance (c : Char) : Decidable (IsEscapeDigit c) := inferInstanceAs (Decidable (_ ∨ _))

/-- Letters, digits, the marks, and octets escaped with two upper-case digits. -/
inductive Escaped (marks : List Char) : List Char → Prop
  | nil : Escaped marks []
  | char {c s} : c.isAlphanum = true ∨ c ∈ marks → Escaped marks s → Escaped marks (c :: s)
  | escape {a b s} : IsEscapeDigit a → IsEscapeDigit b → Escaped marks s →
      Escaped marks ('%' :: a :: b :: s)

/-- The marks that stand for themselves or for a space, the hyphen apart. -/
def formMarks : List Char := ['*', '.', '_', '+']

namespace Escaped

variable {marks : List Char} {s t : List Char}

theorem append (hs : Escaped marks s) (ht : Escaped marks t) : Escaped marks (s ++ t) := by
  induction hs with
  | nil => exact ht
  | char hc _ ih => exact .char hc ih
  | escape ha hb _ ih => exact .escape ha hb ih

/-- A mark that is not in the text need not be allowed. -/
theorem without {mark : Char} (h : Escaped (mark :: marks) s) (hmark : mark ∉ s) :
    Escaped marks s := by
  induction h with
  | nil => exact .nil
  | @char c s hc _ ih =>
    rw [List.mem_cons, not_or] at hmark
    refine .char (hc.imp_right fun hmem => ?_) (ih hmark.2)
    exact (List.mem_cons.mp hmem).resolve_left (Ne.symm hmark.1)
  | escape ha hb _ ih =>
    simp only [List.mem_cons, not_or] at hmark
    exact .escape ha hb (ih hmark.2.2.2)

end Escaped

/-! ## What encoding writes -/

theorem isEscapeDigit_hexDigit {n : Nat} (h : n < 16) : IsEscapeDigit (hexDigit n) := by
  decide +revert

theorem char_of_isPlain {n : Nat} (h : n < 0x80) (hp : isPlain (UInt8.ofNat n) = true) :
    (Char.ofNat n).isAlphanum = true ∨ Char.ofNat n ∈ '-' :: formMarks := by
  decide +revert

theorem escaped_encodeByte (b : UInt8) : Escaped ('-' :: formMarks) (encodeByte b) := by
  have hb := b.toNat_lt
  rw [encodeByte]
  split
  · rename_i hp
    have hoctet : isPlain (UInt8.ofNat b.toNat) = true := by rwa [UInt8.ofNat_toNat]
    exact .char (char_of_isPlain (isPlain_bounds hp).1 hoctet) .nil
  split
  · exact .char (.inr (by decide)) .nil
  · exact .escape (isEscapeDigit_hexDigit (by omega)) (isEscapeDigit_hexDigit (by omega)) .nil

theorem escaped_encode (s : List Char) : Escaped ('-' :: formMarks) (encode s) := by
  rw [encode]
  induction Utf8.encode s with
  | nil => exact .nil
  | cons b bs ih =>
    rw [List.flatMap_cons]
    exact (escaped_encodeByte b).append ih

/-! ## Hyphens -/

theorem hyphen_mem_encodeByte {b : UInt8} (h : '-' ∈ encodeByte b) : b = 0x2D := by
  have hb := b.toNat_lt
  have hdigit : ∀ n < 16, '-' ≠ hexDigit n := by decide
  rw [encodeByte] at h
  split at h
  · rename_i hp
    have hchar := congrArg Char.toNat (List.mem_singleton.mp h)
    rw [Utf8.toNat_ofNat_ascii (isPlain_bounds hp).1] at hchar
    exact UInt8.toNat_inj.mp hchar.symm
  split at h
  · exact absurd h (by decide)
  · have hhi := hdigit (b.toNat / 16) (by omega)
    have hlo := hdigit (b.toNat % 16) (by omega)
    simp [hhi, hlo] at h

theorem hyphen_not_mem_escape {c : Char} (h : c ≠ '-') :
    '-' ∉ (String.utf8EncodeChar c).flatMap encodeByte := by
  have hyphen : Utf8.IsAscii '-' := by decide
  rw [List.mem_flatMap]
  rintro ⟨b, hb, hmem⟩
  obtain rfl := hyphen_mem_encodeByte hmem
  exact h ((hyphen.mem_utf8EncodeChar_iff c).mp hb)

theorem count_hyphen_encode (s : List Char) : (encode s).count '-' = s.count '-' := by
  induction s with
  | nil => rfl
  | cons c s ih =>
    by_cases hc : c = '-'
    · subst hc
      rw [encode_cons_plain (by decide), List.count_cons_self, List.count_cons_self, ih]
    · rw [encode_cons, List.count_append, List.count_eq_zero_of_not_mem (hyphen_not_mem_escape hc),
        List.count_cons_of_ne hc, ih, Nat.zero_add]

end RouteMigration.Form
