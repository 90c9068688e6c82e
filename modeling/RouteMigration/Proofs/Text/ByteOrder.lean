import RouteMigration.Proofs.Text.Utf8

/-! UTF-8 keeps the order of texts: compared octet by octet or character by character, the same
one comes first. -/

namespace RouteMigration.Text.Utf8

/-- Octets are compared from the front, and the first that differ decide. -/
theorem octet_cons_lt {x y : Nat} {s t : List UInt8} (hle : x ≤ y) (hy : y < 256)
    (hrest : x = y → s < t) : UInt8.ofNat x :: s < UInt8.ofNat y :: t := by
  rw [List.cons_lt_cons_iff]
  rcases Nat.lt_or_eq_of_le hle with hlt | rfl
  · left
    rw [UInt8.lt_iff_toNat_lt, toNat_octet (by omega), toNat_octet hy]
    exact hlt
  · exact .inr ⟨rfl, hrest rfl⟩

/-- What follows two characters does not count where they differ: the one with fewer octets
begins with the smaller of them, and octets of equal number are digits. -/
theorem utf8EncodeChar_append_lt {c d : Char} (h : c.toNat < d.toNat) (s t : List UInt8) :
    String.utf8EncodeChar c ++ s < String.utf8EncodeChar d ++ t := by
  have hc := toNat_bounds c
  have hd := toNat_bounds d
  have hcval : c.val.toNat = c.toNat := rfl
  have hdval : d.val.toNat = d.toNat := rfl
  rw [String.utf8EncodeChar, String.utf8EncodeChar]
  simp only [hcval, hdval]
  generalize c.toNat = n at *
  generalize d.toNat = m at *
  by_cases hone : m ≤ 0x7F
  · rw [if_pos (by omega), if_pos hone]
    exact octet_cons_lt (by omega) (by omega) fun heq => absurd heq (by omega)
  rw [if_neg hone]
  by_cases htwo : m ≤ 0x7FF
  · rw [if_pos htwo]
    split
    · exact octet_cons_lt (by omega) (by omega) fun heq => absurd heq (by omega)
    rw [if_pos (by omega)]
    exact octet_cons_lt (by omega) (by omega) fun _ =>
      octet_cons_lt (by omega) (by omega) fun heq => absurd heq (by omega)
  rw [if_neg htwo]
  by_cases hthree : m ≤ 0xFFFF
  · rw [if_pos hthree]
    split
    · exact octet_cons_lt (by omega) (by omega) fun heq => absurd heq (by omega)
    split
    · exact octet_cons_lt (by omega) (by omega) fun heq => absurd heq (by omega)
    rw [if_pos (by omega)]
    exact octet_cons_lt (by omega) (by omega) fun _ =>
      octet_cons_lt (by omega) (by omega) fun _ =>
        octet_cons_lt (by omega) (by omega) fun heq => absurd heq (by omega)
  rw [if_neg hthree]
  split
  · exact octet_cons_lt (by omega) (by omega) fun heq => absurd heq (by omega)
  split
  · exact octet_cons_lt (by omega) (by omega) fun heq => absurd heq (by omega)
  split
  · exact octet_cons_lt (by omega) (by omega) fun heq => absurd heq (by omega)
  exact octet_cons_lt (by omega) (by omega) fun _ =>
    octet_cons_lt (by omega) (by omega) fun _ =>
      octet_cons_lt (by omega) (by omega) fun _ =>
        octet_cons_lt (by omega) (by omega) fun heq => absurd heq (by omega)

theorem encode_lt_encode {s t : List Char} (h : s < t) : encode s < encode t := by
  induction s generalizing t with
  | nil =>
    cases t with
    | nil => exact absurd h (List.not_lt_nil _)
    | cons d t =>
      obtain ⟨b, rest, hd⟩ := List.exists_cons_of_ne_nil
        (List.append_ne_nil_of_left_ne_nil (String.utf8EncodeChar_ne_nil (c := d)) (encode t))
      rw [encode_nil, encode_cons, hd]
      exact List.nil_lt_cons b rest
  | cons c s ih =>
    cases t with
    | nil => exact absurd h (List.not_lt_nil _)
    | cons d t =>
      rw [encode_cons, encode_cons]
      rcases List.cons_lt_cons_iff.mp h with hcd | ⟨rfl, hst⟩
      · exact utf8EncodeChar_append_lt (Char.lt_def.mp hcd) _ _
      · exact List.append_left_lt (ih hst)

theorem encode_lt_encode_iff {s t : List Char} : encode s < encode t ↔ s < t := by
  refine ⟨fun h => ?_, encode_lt_encode⟩
  by_cases hst : s < t
  · exact hst
  by_cases hts : t < s
  · exact absurd (encode_lt_encode hts) (List.lt_asymm h)
  · rw [List.le_antisymm hts hst] at h
    exact absurd h (List.lt_irrefl _)

end RouteMigration.Text.Utf8
