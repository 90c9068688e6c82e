import Mathlib.Tactic.SplitIfs
import RouteMigration.Text.Utf8

/-! Reading UTF-8 undoes writing it. The octets of one character are read from the settled
state back to it, and give that character and nothing else. Octets that no text was written as
are read all the same; what stands for an ASCII character there does so in every context. -/

namespace RouteMigration.Text.Utf8

theorem toNat_bounds (c : Char) : c.toNat < 0xD800 ∨ 0xDFFF < c.toNat ∧ c.toNat < 0x110000 :=
  c.valid

@[simp] theorem decodeFrom_cons (p : Pending) (b : UInt8) (bs : List UInt8) :
    decodeFrom p (b :: bs) = (step p b.toNat).1 ++ decodeFrom (step p b.toNat).2 bs := by
  cases p <;> rfl

theorem toNat_octet {n : Nat} (h : n < 256) : (UInt8.ofNat n).toNat = n := by
  simp [Nat.mod_eq_of_lt h]

theorem toNat_ofNat_of_valid {n : Nat} (h : n.isValidChar) : (Char.ofNat n).toNat = n := by
  rw [Char.ofNat, dif_pos h]
  rfl

theorem toNat_ofNat_ascii {n : Nat} (h : n < 0x80) : (Char.ofNat n).toNat = n :=
  toNat_ofNat_of_valid (.inl (by omega))

theorem step_settled (n : Nat) : step .settled n = lead n := rfl

theorem step_last {lo hi bits n : Nat} (hlo : lo ≤ n) (hhi : n ≤ hi) :
    step (.owing 0 lo hi bits) n = ([Char.ofNat (bits * 64 + n % 64)], .settled) := by
  simp [step, hlo, hhi]

theorem step_more {more lo hi bits n : Nat} (hlo : lo ≤ n) (hhi : n ≤ hi) :
    step (.owing (more + 1) lo hi bits) n = ([], .owing more 0x80 0xBF (bits * 64 + n % 64)) := by
  simp [step, hlo, hhi]

theorem lead_one {n : Nat} (h : n < 0x80) : lead n = ([Char.ofNat n], .settled) := by
  simp [lead, h]

theorem lead_two {n : Nat} (hlo : 0xC2 ≤ n) (hhi : n ≤ 0xDF) :
    lead n = ([], .owing 0 0x80 0xBF (n % 32)) := by
  simp [lead, hlo, hhi, show ¬ n < 0x80 by omega]

/-- Of three octets the first says nothing by itself; after 0xE0 and 0xED the second is
confined further, so the two are read together. -/
theorem lead_three {a n : Nat} (hlo : 0xE0 ≤ a) (hhi : a ≤ 0xEF) (hn : 0x80 ≤ n) (hn' : n ≤ 0xBF)
    (he0 : a = 0xE0 → 0xA0 ≤ n) (hed : a = 0xED → n ≤ 0x9F) :
    (lead a).1 = [] ∧
      step (lead a).2 n = ([], .owing 0 0x80 0xBF (a % 16 * 64 + n % 64)) := by
  have hbig : ¬ a < 0x80 := by omega
  have htwo : ¬ a ≤ 0xDF := by omega
  by_cases h0 : a = 0xE0
  · subst h0
    exact ⟨rfl, step_more (he0 rfl) hn'⟩
  by_cases hd : a = 0xED
  · subst hd
    exact ⟨rfl, step_more hn (hed rfl)⟩
  have hl : lead a = ([], .owing 1 0x80 0xBF (a % 16)) := by
    simp [lead, hbig, htwo, h0, hd, hhi, show 0xE1 ≤ a by omega]
  rw [hl]
  exact ⟨rfl, step_more hn hn'⟩

theorem lead_four {a n : Nat} (hlo : 0xF0 ≤ a) (hhi : a ≤ 0xF4) (hn : 0x80 ≤ n) (hn' : n ≤ 0xBF)
    (hf0 : a = 0xF0 → 0x90 ≤ n) (hf4 : a = 0xF4 → n ≤ 0x8F) :
    (lead a).1 = [] ∧
      step (lead a).2 n = ([], .owing 1 0x80 0xBF (a % 8 * 64 + n % 64)) := by
  by_cases h0 : a = 0xF0
  · subst h0
    exact ⟨rfl, step_more (hf0 rfl) hn'⟩
  by_cases h4 : a = 0xF4
  · subst h4
    exact ⟨rfl, step_more hn (hf4 rfl)⟩
  have hl : lead a = ([], .owing 2 0x80 0xBF (a % 8)) := by
    have : a = 0xF1 ∨ a = 0xF2 ∨ a = 0xF3 := by omega
    rcases this with rfl | rfl | rfl <;> rfl
  rw [hl]
  exact ⟨rfl, step_more hn hn'⟩

theorem decodeFrom_char (c : Char) (bs : List UInt8) :
    decodeFrom .settled (String.utf8EncodeChar c ++ bs) = c :: decodeFrom .settled bs := by
  have hv := toNat_bounds c
  have hc : Char.ofNat c.toNat = c := Char.ofNat_toNat c
  have hval : c.val.toNat = c.toNat := rfl
  rw [String.utf8EncodeChar]
  simp only [hval]
  generalize hn : c.toNat = n at hv hc
  split
  · rw [List.cons_append, decodeFrom_cons, toNat_octet (by omega), step_settled,
      lead_one (by omega), hc]
    rfl
  split
  · simp only [List.cons_append, List.nil_append, decodeFrom_cons]
    rw [toNat_octet (by omega), toNat_octet (by omega), step_settled,
      lead_two (by omega) (by omega), step_last (by omega) (by omega),
      show (n / 64 % 32 + 0xC0) % 32 * 64 + (n % 64 + 0x80) % 64 = n by omega, hc]
    rfl
  split
  · simp only [List.cons_append, List.nil_append, decodeFrom_cons]
    rw [toNat_octet (by omega), toNat_octet (by omega), toNat_octet (by omega), step_settled]
    obtain ⟨hl, hs⟩ := lead_three (a := n / 4096 % 16 + 0xE0) (n := n / 64 % 64 + 0x80)
      (by omega) (by omega) (by omega) (by omega) (by omega) (by omega)
    rw [hl, hs, step_last (by omega) (by omega),
      show ((n / 4096 % 16 + 0xE0) % 16 * 64 + (n / 64 % 64 + 0x80) % 64) * 64 +
        (n % 64 + 0x80) % 64 = n by omega, hc]
    rfl
  · simp only [List.cons_append, List.nil_append, decodeFrom_cons]
    rw [toNat_octet (by omega), toNat_octet (by omega), toNat_octet (by omega),
      toNat_octet (by omega), step_settled]
    obtain ⟨hl, hs⟩ := lead_four (a := n / 262144 % 8 + 0xF0) (n := n / 4096 % 64 + 0x80)
      (by omega) (by omega) (by omega) (by omega) (by omega) (by omega)
    rw [hl, hs, step_more (by omega) (by omega), step_last (by omega) (by omega),
      show (((n / 262144 % 8 + 0xF0) % 8 * 64 + (n / 4096 % 64 + 0x80) % 64) * 64 +
        (n / 64 % 64 + 0x80) % 64) * 64 + (n % 64 + 0x80) % 64 = n by omega, hc]
    rfl

theorem decode_encode (s : List Char) : decode (encode s) = s := by
  induction s with
  | nil => rfl
  | cons c s ih => rw [encode_cons, decode, decodeFrom_char, ← decode, ih]

/-! ## ASCII characters among any octets -/

/-- Whatever is owed completes, if at all, to a character beyond ASCII. -/
def Pending.BeyondAscii : Pending → Prop
  | .settled => True
  | .owing more lo hi bits =>
    0x80 ≤ lo ∧ hi ≤ 0xBF ∧ (more = 0 → 2 ≤ bits) ∧ (0 < more → 2 ≤ bits * 64 + (lo - 0x80))

/-- An ASCII character that says something: NUL also stands for numbers of no character. -/
def IsAscii (c : Char) : Prop := 0 < c.toNat ∧ c.toNat < 0x80

instance (c : Char) : Decidable (IsAscii c) := inferInstanceAs (Decidable (_ ∧ _))

theorem IsAscii.ne_ofNat {c : Char} (hc : IsAscii c) {n : Nat} (hn : 0x80 ≤ n) :
    c ≠ Char.ofNat n := by
  rintro rfl
  by_cases hv : n.isValidChar
  · have := hc.2
    rw [toNat_ofNat_of_valid hv] at this
    omega
  · have := hc.1
    rw [Char.ofNat, dif_neg hv] at this
    exact absurd this (by decide)

theorem IsAscii.mem_lead_iff {c : Char} (hc : IsAscii c) (n : Nat) :
    c ∈ (lead n).1 ↔ n = c.toNat := by
  by_cases hn : n < 0x80
  · rw [lead_one hn, List.mem_singleton]
    constructor
    · rintro rfl
      rw [toNat_ofNat_ascii hn]
    · rintro rfl
      rw [Char.ofNat_toNat]
  · have hother : n ≠ c.toNat := fun h => hn (h ▸ hc.2)
    have hreplacement : c ≠ replacement := hc.ne_ofNat (n := 0xFFFD) (by decide)
    unfold lead
    split_ifs <;> simp [hother, hreplacement]

theorem lead_beyondAscii (n : Nat) : (lead n).2.BeyondAscii := by
  unfold lead
  split_ifs <;> simp_all [Pending.BeyondAscii] <;> omega

theorem step_beyondAscii {p : Pending} (hp : p.BeyondAscii) (n : Nat) :
    (step p n).2.BeyondAscii := by
  cases p with
  | settled => exact lead_beyondAscii n
  | owing more lo hi bits =>
    obtain ⟨hlo, hhi, -, hmore⟩ := hp
    simp only [step]
    split
    · rename_i hin
      rw [Bool.and_eq_true, decide_eq_true_eq, decide_eq_true_eq] at hin
      cases more with
      | zero => trivial
      | succ more =>
        have hbits := hmore (Nat.succ_pos more)
        have hsum : 2 ≤ bits * 64 + n % 64 := by omega
        exact ⟨Nat.le_refl _, Nat.le_refl _, fun _ => hsum, fun _ => by omega⟩
    · exact lead_beyondAscii n

theorem IsAscii.mem_step_iff {c : Char} (hc : IsAscii c) {p : Pending} (hp : p.BeyondAscii)
    (n : Nat) : c ∈ (step p n).1 ↔ n = c.toNat := by
  cases p with
  | settled => exact hc.mem_lead_iff n
  | owing more lo hi bits =>
    obtain ⟨hlo, hhi, hlast, -⟩ := hp
    simp only [step]
    split
    · rename_i hin
      rw [Bool.and_eq_true, decide_eq_true_eq, decide_eq_true_eq] at hin
      have hother : n ≠ c.toNat := by
        have := hc.2
        omega
      cases more with
      | zero =>
        have hbits := hlast rfl
        have hbeyond : c ≠ Char.ofNat (bits * 64 + n % 64) := hc.ne_ofNat (by omega)
        simp [hother, hbeyond]
      | succ more => simp [hother]
    · have hreplacement : c ≠ replacement := hc.ne_ofNat (n := 0xFFFD) (by decide)
      simp [hreplacement, hc.mem_lead_iff n]

/-- Among any octets, well-formed or not, an ASCII character is read just where its octet is. -/
theorem IsAscii.mem_decode_iff {c : Char} (hc : IsAscii c) (bs : List UInt8) :
    c ∈ decode bs ↔ UInt8.ofNat c.toNat ∈ bs := by
  have hfrom : ∀ p : Pending, p.BeyondAscii →
      (c ∈ decodeFrom p bs ↔ UInt8.ofNat c.toNat ∈ bs) := by
    induction bs with
    | nil =>
      intro p _
      cases p with
      | settled => simp [decodeFrom]
      | owing more lo hi bits =>
        have hreplacement : c ≠ replacement := hc.ne_ofNat (n := 0xFFFD) (by decide)
        simp [decodeFrom, hreplacement]
    | cons b bs ih =>
      intro p hp
      have hoctet : b.toNat = c.toNat ↔ UInt8.ofNat c.toNat = b := by
        have := hc.2
        rw [← UInt8.toNat_inj, toNat_octet (by omega), eq_comm]
      rw [decodeFrom_cons, List.mem_append, hc.mem_step_iff hp, ih _ (step_beyondAscii hp _),
        List.mem_cons, hoctet]
  exact hfrom .settled trivial

/-- Only the character itself is written with the octet of an ASCII character. -/
theorem IsAscii.mem_utf8EncodeChar_iff {a : Char} (ha : IsAscii a) (c : Char) :
    UInt8.ofNat a.toNat ∈ String.utf8EncodeChar c ↔ c = a := by
  have hread := ha.mem_decode_iff (encode [c])
  rw [decode_encode, List.mem_singleton, encode_cons, encode_nil, List.append_nil] at hread
  rw [eq_comm]
  exact hread.symm

end RouteMigration.Text.Utf8
