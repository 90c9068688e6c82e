import RouteMigration.Form
import RouteMigration.Proofs.Text.Utf8

/-! Decoding a form value undoes encoding it, for every text. Encoding never writes a number
sign, and it leaves a word of plain characters at the front of a text as it is. -/

namespace RouteMigration.Form

open RouteMigration.Text

/-! ## One octet -/

theorem hexValue?_hexDigit {n : Nat} (h : n < 16) : hexValue? (hexDigit n) = some n := by
  decide +revert

theorem hexPair?_hexDigit (b : UInt8) :
    hexPair? (hexDigit (b.toNat / 16)) (hexDigit (b.toNat % 16)) = some b := by
  have hb := b.toNat_lt
  rw [hexPair?, hexValue?_hexDigit (by omega), hexValue?_hexDigit (by omega)]
  simp only [Option.some.injEq]
  rw [show 16 * (b.toNat / 16) + b.toNat % 16 = b.toNat by omega]
  exact UInt8.ofNat_toNat

/-- A plain octet is ASCII, and none of the two signs that decoding looks for. -/
theorem isPlain_bounds {b : UInt8} (h : isPlain b = true) :
    b.toNat < 0x80 ∧ b.toNat ≠ 0x2B ∧ b.toNat ≠ 0x25 := by
  simp only [isPlain, Bool.or_eq_true, Bool.and_eq_true, decide_eq_true_eq, beq_iff_eq,
    UInt8.le_iff_toNat_le, ← UInt8.toNat_inj] at h
  simp at h
  omega

theorem ofNat_ne {n : Nat} {c : Char} (h : n < 0x80) (hc : n ≠ c.toNat) : Char.ofNat n ≠ c := by
  intro he
  exact hc (by rw [← he, Utf8.toNat_ofNat_ascii h])

theorem utf8EncodeChar_ascii {c : Char} (h : c.toNat < 0x80) :
    String.utf8EncodeChar c = [UInt8.ofNat c.toNat] := by
  have hval : c.val.toNat = c.toNat := rfl
  rw [String.utf8EncodeChar]
  simp only [hval, show c.toNat ≤ 0x7F by omega, if_true]

theorem octetsFrom_self {c : Char} (hplus : c ≠ '+') (hpercent : c ≠ '%') (s : List Char) :
    octetsFrom 0 (c :: s) = String.utf8EncodeChar c ++ octetsFrom 0 s := by
  conv => lhs; unfold octetsFrom
  rw [if_neg hplus, if_neg hpercent]

theorem octetsFrom_escape {a b : Char} {octet : UInt8} (h : hexPair? a b = some octet)
    (s : List Char) : octetsFrom 0 ('%' :: a :: b :: s) = octet :: octetsFrom 0 s := by
  rw [octetsFrom, if_neg (by decide), if_pos rfl]
  simp only [h]
  rfl

theorem octetsFrom_encodeByte (b : UInt8) (s : List Char) :
    octetsFrom 0 (encodeByte b ++ s) = b :: octetsFrom 0 s := by
  rw [encodeByte]
  split
  · rename_i hp
    obtain ⟨hascii, hplus, hpercent⟩ := isPlain_bounds hp
    have hn := Utf8.toNat_ofNat_ascii hascii
    rw [List.singleton_append, octetsFrom_self (ofNat_ne hascii hplus) (ofNat_ne hascii hpercent),
      utf8EncodeChar_ascii (by omega), hn, UInt8.ofNat_toNat]
    rfl
  · split
    · rename_i hs
      rw [beq_iff_eq] at hs
      subst hs
      rfl
    · exact octetsFrom_escape (hexPair?_hexDigit b) s

/-! ## Whole texts -/

theorem octetsFrom_encodeBytes (bs : List UInt8) : octetsFrom 0 (bs.flatMap encodeByte) = bs := by
  induction bs with
  | nil => rfl
  | cons b bs ih => rw [List.flatMap_cons, octetsFrom_encodeByte, ih]

/-- Every text comes back from its form. -/
theorem decode_encode (s : List Char) : decode (encode s) = s := by
  rw [decode, encode, octetsFrom_encodeBytes, Utf8.decode_encode]

theorem encode_injective {s t : List Char} (h : encode s = encode t) : s = t := by
  rw [← decode_encode s, h, decode_encode]

@[simp] theorem encode_nil : encode [] = [] := rfl

theorem encode_eq_nil_iff {s : List Char} : encode s = [] ↔ s = [] :=
  ⟨fun h => encode_injective h, fun h => by rw [h, encode_nil]⟩

theorem encode_append (s t : List Char) : encode (s ++ t) = encode s ++ encode t := by
  rw [encode, Utf8.encode_append, List.flatMap_append, ← encode, ← encode]

theorem octetsFrom_literal {s : List Char} (hplus : '+' ∉ s) (hpercent : '%' ∉ s) :
    octetsFrom 0 s = Utf8.encode s := by
  induction s with
  | nil => rfl
  | cons c s ih =>
    rw [List.mem_cons, not_or] at hplus hpercent
    rw [octetsFrom_self (Ne.symm hplus.1) (Ne.symm hpercent.1), ih hplus.2 hpercent.2,
      Utf8.encode_cons]

/-- A text without the two signs that decoding looks for is its own decoding. -/
theorem decode_literal {s : List Char} (hplus : '+' ∉ s) (hpercent : '%' ∉ s) : decode s = s := by
  rw [decode, octetsFrom_literal hplus hpercent, Utf8.decode_encode]

/-! ## The characters of a form -/

/-- A character that stands for itself. -/
def IsPlainChar (c : Char) : Prop := c.toNat < 0x80 ∧ isPlain (UInt8.ofNat c.toNat) = true

instance (c : Char) : Decidable (IsPlainChar c) := inferInstanceAs (Decidable (_ ∧ _))

def IsPlainText (s : List Char) : Prop := ∀ c ∈ s, IsPlainChar c

instance (s : List Char) : Decidable (IsPlainText s) :=
  decidable_of_iff (s.all (IsPlainChar ·) = true) (by simp [IsPlainText])

theorem isPlainChar_hexDigit {n : Nat} (h : n < 16) : IsPlainChar (hexDigit n) := by
  decide +revert

/-- What encoding writes is plain, or one of the two signs that decoding looks for. -/
theorem mem_encodeByte {b : UInt8} {c : Char} (h : c ∈ encodeByte b) :
    IsPlainChar c ∨ c = '+' ∨ c = '%' := by
  have hb := b.toNat_lt
  rw [encodeByte] at h
  split at h
  · rename_i hp
    have hascii := (isPlain_bounds hp).1
    rw [List.mem_singleton.mp h, IsPlainChar, Utf8.toNat_ofNat_ascii hascii, UInt8.ofNat_toNat]
    exact .inl ⟨hascii, hp⟩
  split at h
  · exact .inr (.inl (List.mem_singleton.mp h))
  · have hhi := isPlainChar_hexDigit (show b.toNat / 16 < 16 by omega)
    have hlo := isPlainChar_hexDigit (show b.toNat % 16 < 16 by omega)
    simp only [List.mem_cons, List.not_mem_nil, or_false] at h
    rcases h with rfl | rfl | rfl
    · exact .inr (.inr rfl)
    · exact .inl hhi
    · exact .inl hlo

theorem not_mem_encode {c : Char} (hplain : ¬ IsPlainChar c) (hplus : c ≠ '+') (hpercent : c ≠ '%')
    (s : List Char) : c ∉ encode s := by
  rw [encode, List.mem_flatMap]
  rintro ⟨b, -, hb⟩
  rcases mem_encodeByte hb with h | h | h
  · exact hplain h
  · exact hplus h
  · exact hpercent h

theorem hash_not_mem_encode (s : List Char) : '#' ∉ encode s :=
  not_mem_encode (by decide) (by decide) (by decide) s

/-! ## The front of a form -/

theorem encode_cons (c : Char) (s : List Char) :
    encode (c :: s) = (String.utf8EncodeChar c).flatMap encodeByte ++ encode s := by
  rw [encode, Utf8.encode_cons, List.flatMap_append, ← encode]

theorem encode_cons_plain {c : Char} (h : IsPlainChar c) (s : List Char) :
    encode (c :: s) = c :: encode s := by
  obtain ⟨hascii, hp⟩ := h
  have hn : (UInt8.ofNat c.toNat).toNat = c.toNat := Utf8.toNat_octet (by omega)
  rw [encode_cons, utf8EncodeChar_ascii hascii, List.flatMap_singleton, encodeByte, if_pos hp, hn,
    Char.ofNat_toNat]
  rfl

theorem encode_plain {s : List Char} (h : IsPlainText s) : encode s = s := by
  induction s with
  | nil => rfl
  | cons c s ih =>
    obtain ⟨hc, hs⟩ := List.forall_mem_cons.mp h
    rw [encode_cons_plain hc, ih hs]

theorem utf8EncodeChar_lead {c : Char} (h : 0x80 ≤ c.toNat) :
    ∃ b bs, String.utf8EncodeChar c = b :: bs ∧ 0x80 ≤ b.toNat := by
  have hval : c.val.toNat = c.toNat := rfl
  have hv := Utf8.toNat_bounds c
  rw [String.utf8EncodeChar]
  simp only [hval]
  rw [if_neg (by omega)]
  split
  · exact ⟨_, _, rfl, by rw [Utf8.toNat_octet (by omega)]; omega⟩
  split
  · exact ⟨_, _, rfl, by rw [Utf8.toNat_octet (by omega)]; omega⟩
  · exact ⟨_, _, rfl, by rw [Utf8.toNat_octet (by omega)]; omega⟩

/-- The first octet of a character that does not stand for itself is not plain. -/
theorem utf8EncodeChar_other {c : Char} (h : ¬ IsPlainChar c) :
    ∃ b bs, String.utf8EncodeChar c = b :: bs ∧ isPlain b = false := by
  by_cases hascii : c.toNat < 0x80
  · refine ⟨_, [], utf8EncodeChar_ascii hascii, ?_⟩
    rw [Bool.eq_false_iff]
    exact fun hp => h ⟨hascii, hp⟩
  · obtain ⟨b, bs, hb, hlead⟩ := utf8EncodeChar_lead (Nat.le_of_not_lt hascii)
    refine ⟨b, bs, hb, ?_⟩
    rw [Bool.eq_false_iff]
    intro hp
    have := (isPlain_bounds hp).1
    omega

/-- Any other character starts an escape, or is a space. -/
theorem encode_cons_other {c : Char} (h : ¬ IsPlainChar c) (s : List Char) :
    ∃ d t, encode (c :: s) = d :: t ∧ (d = '+' ∨ d = '%') := by
  obtain ⟨b, bs, hb, hp⟩ := utf8EncodeChar_other h
  rw [encode_cons, hb, List.flatMap_cons, encodeByte, if_neg (by simp [hp])]
  split
  · exact ⟨'+', _, rfl, .inl rfl⟩
  · exact ⟨'%', _, rfl, .inr rfl⟩

theorem plus_not_plain : ¬ IsPlainChar '+' := by decide

theorem percent_not_plain : ¬ IsPlainChar '%' := by decide

/-- A word of plain characters stands at the front of a form just where it stands at the
front of the text. The number sign after the form is no part of it. -/
theorem prefix_encode_iff {w : List Char} (hw : IsPlainText w) (s t : List Char) :
    w <+: encode s ++ '#' :: t ↔ w <+: s := by
  induction w generalizing s with
  | nil => simp
  | cons c w ih =>
    have hc := hw c (by simp)
    cases s with
    | nil =>
      have hne : c ≠ '#' := fun he => absurd (he ▸ hc) (by decide)
      simp [hne]
    | cons d s =>
      by_cases hd : IsPlainChar d
      · rw [encode_cons_plain hd, List.cons_append, List.cons_prefix_cons, List.cons_prefix_cons,
          ih fun x hx => hw x (List.mem_cons_of_mem _ hx)]
      · have hcd : c ≠ d := fun he => hd (he ▸ hc)
        obtain ⟨x, u, hx, hsign⟩ := encode_cons_other hd s
        have hcx : c ≠ x := by
          rintro rfl
          rcases hsign with rfl | rfl
          · exact plus_not_plain hc
          · exact percent_not_plain hc
        simp [hx, hcd, hcx]

end RouteMigration.Form
