import Mathlib.Tactic.SplitIfs
import RouteMigration.Proofs.Form.RoundTrip

/-! Commas in form values. Encoding writes none; decoding reads one just where one is written,
plainly or as its escape. -/

namespace RouteMigration.Form

open RouteMigration.Text

/-! ## Encoding -/

theorem comma_not_mem_encode (s : List Char) : ',' ∉ encode s :=
  not_mem_encode (by decide) (by decide) (by decide) s

/-! ## Decoding -/

/-- An escape that decodes to a comma stands somewhere in the text. -/
def EscapesComma (s : List Char) : Prop := "%2C".toList <:+: s ∨ "%2c".toList <:+: s

instance (s : List Char) : Decidable (EscapesComma s) := inferInstanceAs (Decidable (_ ∨ _))

theorem octetsFrom_plus (s : List Char) : octetsFrom 0 ('+' :: s) = 0x20 :: octetsFrom 0 s := by
  conv => lhs; unfold octetsFrom
  rw [if_pos rfl]

/-- A percent sign begins an escape, or stands for itself. -/
theorem octetsFrom_percent (s : List Char) :
    (∃ a b rest octet, s = a :: b :: rest ∧ hexPair? a b = some octet ∧
      octetsFrom 0 ('%' :: s) = octet :: octetsFrom 0 rest) ∨
    (∀ a b rest, s = a :: b :: rest → hexPair? a b = none) ∧
      octetsFrom 0 ('%' :: s) = 0x25 :: octetsFrom 0 s := by
  rcases s with _ | ⟨a, _ | ⟨b, rest⟩⟩
  · exact .inr ⟨by simp, rfl⟩
  · exact .inr ⟨by simp, rfl⟩
  cases h : hexPair? a b with
  | some octet => exact .inl ⟨a, b, rest, octet, rfl, h, octetsFrom_escape h rest⟩
  | none =>
    refine .inr ⟨fun _ _ _ heq => ?_, ?_⟩
    · obtain ⟨rfl, rfl, -⟩ := by simpa using heq
      exact h
    · rw [octetsFrom, if_neg (by decide), if_pos rfl]
      simp only [h]

theorem hexValue?_bounds {c : Char} {n : Nat} (h : hexValue? c = some n) :
    0x30 ≤ c.toNat ∧ c.toNat ≤ 0x39 ∧ n = c.toNat - 0x30 ∨
      0x41 ≤ c.toNat ∧ c.toNat ≤ 0x46 ∧ n = c.toNat - 0x37 ∨
      0x61 ≤ c.toNat ∧ c.toNat ≤ 0x66 ∧ n = c.toNat - 0x57 := by
  have hle : ∀ d e : Char, (d ≤ e) ↔ d.toNat ≤ e.toNat := fun _ _ => Iff.rfl
  unfold hexValue? at h
  simp only [Bool.and_eq_true, decide_eq_true_eq, hle] at h
  split_ifs at h with h0 hA ha
  · exact .inl ⟨h0.1, h0.2, (Option.some.inj h).symm⟩
  · exact .inr (.inl ⟨hA.1, hA.2, (Option.some.inj h).symm⟩)
  · exact .inr (.inr ⟨ha.1, ha.2, (Option.some.inj h).symm⟩)

theorem hexDigit_ne {c d : Char} {n : Nat} (h : hexValue? c = some n) (hd : hexValue? d = none) :
    c ≠ d := by
  rintro rfl
  rw [h] at hd
  cases hd

theorem hexPair?_eq_some_iff {a b : Char} {octet : UInt8} :
    hexPair? a b = some octet ↔
      ∃ x y, hexValue? a = some x ∧ hexValue? b = some y ∧ UInt8.ofNat (16 * x + y) = octet := by
  unfold hexPair?
  cases hexValue? a <;> cases hexValue? b <;> simp

/-- Two digits name the comma, the second of them in either case. -/
theorem hexPair?_eq_comma_iff {a b : Char} :
    hexPair? a b = some 0x2C ↔ a = '2' ∧ (b = 'C' ∨ b = 'c') := by
  constructor
  · intro h
    obtain ⟨x, y, ha, hb, hoctet⟩ := hexPair?_eq_some_iff.mp h
    have hx := hexValue?_bounds ha
    have hy := hexValue?_bounds hb
    have hsum := congrArg UInt8.toNat hoctet
    rw [Utf8.toNat_octet (by omega)] at hsum
    have hsum : 16 * x + y = 0x2C := hsum
    have ha : a.toNat = 0x32 := by omega
    have hb : b.toNat = 0x43 ∨ b.toNat = 0x63 := by omega
    rw [← Char.ofNat_toNat a, ← Char.ofNat_toNat b, ha]
    refine ⟨rfl, hb.imp ?_ ?_⟩
    · exact fun h => congrArg Char.ofNat h
    · exact fun h => congrArg Char.ofNat h
  · rintro ⟨rfl, rfl | rfl⟩ <;> rfl

/-- An escaped comma stands at the front of a text, or further on in it. -/
theorem escapesComma_cons_iff {c : Char} {s : List Char} :
    EscapesComma (c :: s) ↔
      (c = '%' ∧ ∃ a b rest, s = a :: b :: rest ∧ hexPair? a b = some 0x2C) ∨ EscapesComma s := by
  have hfront : ("%2C".toList <+: c :: s ∨ "%2c".toList <+: c :: s) ↔
      c = '%' ∧ ∃ a b rest, s = a :: b :: rest ∧ hexPair? a b = some 0x2C := by
    simp only [hexPair?_eq_comma_iff]
    constructor
    · rintro (⟨rest, heq⟩ | ⟨rest, heq⟩)
      · cases heq
        exact ⟨rfl, '2', 'C', rest, rfl, rfl, .inl rfl⟩
      · cases heq
        exact ⟨rfl, '2', 'c', rest, rfl, rfl, .inr rfl⟩
    · rintro ⟨rfl, a, b, rest, rfl, rfl, rfl | rfl⟩
      · exact .inl ⟨rest, rfl⟩
      · exact .inr ⟨rest, rfl⟩
  rw [← hfront, EscapesComma, EscapesComma, List.infix_cons_iff, List.infix_cons_iff]
  exact or_or_or_comm

theorem escapesComma_cons {c : Char} (h : c ≠ '%') (s : List Char) :
    EscapesComma (c :: s) ↔ EscapesComma s := by
  simp [escapesComma_cons_iff, h]

/-- A comma is written somewhere in the text, plainly or as its escape. -/
def HoldsComma (s : List Char) : Prop := ',' ∈ s ∨ EscapesComma s

theorem holdsComma_cons {c : Char} (h : c ≠ '%') (s : List Char) :
    HoldsComma (c :: s) ↔ c = ',' ∨ HoldsComma s := by
  rw [HoldsComma, escapesComma_cons h, List.mem_cons, or_assoc, eq_comm, HoldsComma]

/-- The digits of an escape hold no sign and no comma. -/
theorem holdsComma_escape {a b : Char} {octet : UInt8} (h : hexPair? a b = some octet)
    (s : List Char) : HoldsComma ('%' :: a :: b :: s) ↔ 0x2C = octet ∨ HoldsComma s := by
  obtain ⟨x, y, ha, hb, -⟩ := hexPair?_eq_some_iff.mp h
  have hacomma : ',' ≠ a := (hexDigit_ne ha (by decide)).symm
  have hbcomma : ',' ≠ b := (hexDigit_ne hb (by decide)).symm
  have hfront : (∃ a' b' rest, a :: b :: s = a' :: b' :: rest ∧ hexPair? a' b' = some 0x2C) ↔
      0x2C = octet := by
    constructor
    · rintro ⟨_, _, _, heq, hcomma⟩
      cases heq
      rw [h] at hcomma
      exact (Option.some.inj hcomma).symm
    · rintro rfl
      exact ⟨a, b, s, rfl, h⟩
  rw [HoldsComma, escapesComma_cons_iff, hfront, escapesComma_cons (hexDigit_ne ha (by decide)),
    escapesComma_cons (hexDigit_ne hb (by decide))]
  simp [hacomma, hbcomma, or_left_comm, HoldsComma]

theorem holdsComma_percent {s : List Char}
    (h : ∀ a b rest, s = a :: b :: rest → hexPair? a b = none) :
    HoldsComma ('%' :: s) ↔ HoldsComma s := by
  have hnoescape : ¬ ∃ a b rest, s = a :: b :: rest ∧ hexPair? a b = some 0x2C := by
    rintro ⟨a, b, rest, heq, hpair⟩
    rw [h a b rest heq] at hpair
    cases hpair
  rw [HoldsComma, escapesComma_cons_iff, iff_false_intro hnoescape]
  simp [HoldsComma]

theorem comma_mem_utf8EncodeChar_iff (c : Char) : 0x2C ∈ String.utf8EncodeChar c ↔ c = ',' := by
  have hcomma : Utf8.IsAscii ',' := by decide
  exact hcomma.mem_utf8EncodeChar_iff c

/-- The octet of a comma is written where decoding reads one, and nowhere else. -/
theorem comma_mem_octetsFrom_iff (s : List Char) : 0x2C ∈ octetsFrom 0 s ↔ HoldsComma s := by
  induction hn : s.length using Nat.strongRecOn generalizing s with
  | ind n ih =>
    have ih : ∀ t : List Char, t.length < s.length → (0x2C ∈ octetsFrom 0 t ↔ HoldsComma t) :=
      fun t ht => ih t.length (hn ▸ ht) t rfl
    rcases s with _ | ⟨c, s⟩
    · simp [octetsFrom, HoldsComma, EscapesComma]
    have hs := ih s (by simp)
    by_cases hplus : c = '+'
    · subst hplus
      rw [octetsFrom_plus, List.mem_cons, hs, holdsComma_cons (by decide)]
      simp
    by_cases hpercent : c = '%'
    · subst hpercent
      rcases octetsFrom_percent s with ⟨a, b, rest, octet, rfl, hpair, hoctets⟩ | ⟨hnone, hoctets⟩
      · rw [hoctets, List.mem_cons, ih rest (by simp; omega), holdsComma_escape hpair]
      · rw [hoctets, List.mem_cons, hs, holdsComma_percent hnone]
        simp
    · rw [octetsFrom_self hplus hpercent, List.mem_append, comma_mem_utf8EncodeChar_iff, hs,
        holdsComma_cons hpercent]

/-- A decoded text holds a comma just where one stands in the form, plainly or escaped. -/
theorem comma_mem_decode_iff (s : List Char) : ',' ∈ decode s ↔ HoldsComma s := by
  have hcomma : Utf8.IsAscii ',' := by decide
  rw [← comma_mem_octetsFrom_iff]
  exact hcomma.mem_decode_iff (octetsFrom 0 s)

end RouteMigration.Form
