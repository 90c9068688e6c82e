import RouteMigration.Document.Printer
import RouteMigration.Proofs.Document.Grammar
import Mathlib.Data.List.Basic

/-! The pieces of a document that hold no others, as they are read and as they are passed over:
blanks, texts and numbers. -/

namespace RouteMigration.Document

open RouteMigration.Text

/-! ## Blanks -/

theorem blanks_nil : Blanks [] := fun _ hc => absurd hc List.not_mem_nil

theorem skipBlank_append {b : List Char} (hb : Blanks b) (s : List Char) :
    skipBlank (b ++ s) = skipBlank s := List.dropWhile_append_of_pos hb

theorem skipBlank_cons {c : Char} (hc : isBlank c = false) (s : List Char) :
    skipBlank (c :: s) = c :: s := List.dropWhile_cons_of_neg (by simp [hc])

/-- Blanks in front of a text that starts with none. -/
theorem skipBlank_append_cons {b : List Char} (hb : Blanks b) {c : Char} (hc : isBlank c = false)
    (s : List Char) : skipBlank (b ++ c :: s) = c :: s := by
  rw [skipBlank_append hb, skipBlank_cons hc]

theorem length_skipBlank_le (s : List Char) : (skipBlank s).length ≤ s.length :=
  (List.dropWhile_sublist _).length_le

/-- What may follow a value. -/
def Ends (rest : List Char) : Prop :=
  ∀ c ∈ rest.head?, isBlank c = true ∨ c = ',' ∨ c = ']' ∨ c = '}'

theorem Ends.append {b : List Char} (hb : Blanks b) {s : List Char} (hs : Ends s) :
    Ends (b ++ s) := by
  cases b with
  | nil => exact hs
  | cons c b =>
    rintro c ⟨⟩
    exact .inl (hb _ List.mem_cons_self)

theorem ends_comma (s : List Char) : Ends (',' :: s) := by
  rintro c ⟨⟩
  exact .inr (.inl rfl)

theorem ends_closing (bracket : Bracket) (s : List Char) : Ends (bracket.closing :: s) := by
  rintro c ⟨⟩
  cases bracket with
  | square => exact .inr (.inr (.inl rfl))
  | curly => exact .inr (.inr (.inr rfl))

/-! ## Texts -/

theorem WritesUnit.codeUnit {digits : List Char} {unit : Nat} (h : WritesUnit digits unit)
    (s : List Char) : codeUnit (digits ++ s) = .ok unit := by
  obtain ⟨hlength, hnumber⟩ := h
  obtain ⟨a, b, c, d, rfl⟩ := List.length_eq_four.mp hlength
  rw [List.cons_append, List.cons_append, List.cons_append, List.cons_append, Document.codeUnit]
  rw [hnumber]

theorem shortEscape?_of_mem {letter c : Char} (h : (letter, c) ∈ shortEscapes) :
    shortEscape? letter = some c := by
  simp only [shortEscapes, List.mem_cons, Prod.mk.injEq, List.not_mem_nil, or_false] at h
  rcases h with ⟨rfl, rfl⟩ | ⟨rfl, rfl⟩ | ⟨rfl, rfl⟩ | ⟨rfl, rfl⟩ | ⟨rfl, rfl⟩ | ⟨rfl, rfl⟩ |
    ⟨rfl, rfl⟩ | ⟨rfl, rfl⟩ <;> rfl

theorem ne_u_of_mem {letter c : Char} (h : (letter, c) ∈ shortEscapes) : letter ≠ 'u' := by
  rintro rfl
  simp [shortEscapes] at h

theorem skipTextFrom_piece {u : List Char} (h : Piece u) (s : List Char) :
    skipTextFrom 0 (u ++ s) = skipTextFrom 0 s := by
  cases h with
  | plain hquote hslash hcontrol =>
    rw [List.singleton_append, skipTextFrom, if_neg hquote, if_neg hslash,
      if_neg (Nat.not_lt.mpr hcontrol)]
  | @short letter c hmem =>
    have hlength : escapeLength (letter :: s) = .ok 1 := by
      unfold escapeLength
      split
      · next heq => cases heq
      · next heq => exact absurd (List.cons.inj heq).1 (ne_u_of_mem hmem)
      · next heq =>
        rw [← (List.cons.inj heq).1, shortEscape?_of_mem hmem]
        rfl
    rw [List.cons_append, List.singleton_append, skipTextFrom, if_neg (by decide), if_pos rfl,
      hlength]
    rfl
  | @unit digits unit hunit =>
    have hlength : escapeLength ('u' :: (digits ++ s)) = .ok 5 := by
      rw [escapeLength, hunit.codeUnit]
      rfl
    obtain ⟨a, b, c, d, rfl⟩ := List.length_eq_four.mp hunit.1
    rw [List.cons_append, List.cons_append, skipTextFrom, if_neg (by decide), if_pos rfl, hlength]
    rfl

theorem skipTextFrom_pieces {us : List (List Char)} (h : ∀ u ∈ us, Piece u) (rest : List Char) :
    skipTextFrom 0 (us.flatten ++ '"' :: rest) = .ok rest := by
  induction us with
  | nil => rfl
  | cons u us ih =>
    obtain ⟨hu, hus⟩ := List.forall_mem_cons.mp h
    rw [List.flatten_cons, List.append_assoc, skipTextFrom_piece hu, ih hus]

/-! ### Texts that are asked for -/

theorem textFrom_escape {s : List Char} {d : Char} {taken : Nat}
    (h : escape s = .ok (d, taken)) : textFrom 0 ('\\' :: s) = consText d (textFrom taken s) := by
  rw [textFrom, if_neg (by decide), if_pos rfl, h]

theorem escape_short {letter c : Char} (h : (letter, c) ∈ shortEscapes) (s : List Char) :
    escape (letter :: s) = .ok (c, 1) := by
  unfold escape
  split
  · next heq => cases heq
  · next heq => exact absurd (List.cons.inj heq).1 (ne_u_of_mem h)
  · next heq => rw [← (List.cons.inj heq).1, shortEscape?_of_mem h]

/-- The code unit of a character is neither half of a pair. -/
theorem escape_unit {c : Char} {digits : List Char} (h : WritesUnit digits c.toNat)
    (s : List Char) : escape ('u' :: (digits ++ s)) = .ok (c, 5) := by
  have hvalid : c.toNat < 0xD800 ∨ 0xDFFF < c.toNat := c.valid.imp_right And.left
  have hleading : isLeading c.toNat = false := by
    simp only [isLeading, Bool.and_eq_false_iff, decide_eq_false_iff_not]
    omega
  have htrailing : isTrailing c.toNat = false := by
    simp only [isTrailing, Bool.and_eq_false_iff, decide_eq_false_iff_not]
    omega
  rw [escape, h.codeUnit]
  simp only [bind, Except.bind, htrailing, hleading, Bool.false_eq_true, if_false, pure,
    Except.pure, Char.ofNat_toNat]

theorem escape_pair {c : Char} {first second : List Char} {high low : Nat}
    (hfirst : WritesUnit first (0xD800 + high)) (hsecond : WritesUnit second (0xDC00 + low))
    (hhigh : high < 0x400) (hlow : low < 0x400)
    (hc : c.toNat = 0x10000 + high * 0x400 + low) (s : List Char) :
    escape ('u' :: (first ++ '\\' :: 'u' :: (second ++ s))) = .ok (c, 11) := by
  have htrailing : isTrailing (0xD800 + high) = false := by
    simp only [isTrailing, Bool.and_eq_false_iff, decide_eq_false_iff_not]
    omega
  have hleading : isLeading (0xD800 + high) = true := by
    simp only [isLeading, Bool.and_eq_true, decide_eq_true_eq]
    omega
  have hsecond' : isTrailing (0xDC00 + low) = true := by
    simp only [isTrailing, Bool.and_eq_true, decide_eq_true_eq]
    omega
  have hjoined : joinUnits (0xD800 + high) (0xDC00 + low) = c := by
    have hcode : 0x10000 + (0xD800 + high - 0xD800) * 0x400 + (0xDC00 + low - 0xDC00) =
        c.toNat := by
      rw [hc]
      omega
    rw [joinUnits, hcode, Char.ofNat_toNat]
  have hdrop : (first ++ '\\' :: 'u' :: (second ++ s)).drop 4 = '\\' :: 'u' :: (second ++ s) :=
    List.drop_left' hfirst.1
  rw [escape, hfirst.codeUnit]
  simp only [bind, Except.bind, htrailing, hleading, Bool.false_eq_true, if_false, if_true, hdrop,
    hsecond.codeUnit, hsecond', hjoined, pure, Except.pure]

theorem textFrom_charText {c : Char} {u : List Char} (h : CharText c u) (s : List Char) :
    textFrom 0 (u ++ s) = consText c (textFrom 0 s) := by
  cases h with
  | plain hquote hslash hcontrol =>
    rw [List.singleton_append, textFrom, if_neg hquote, if_neg hslash,
      if_neg (Nat.not_lt.mpr hcontrol)]
  | short hmem =>
    rw [List.cons_append, List.singleton_append, textFrom_escape (escape_short hmem s)]
    rfl
  | unit hunit =>
    rw [List.cons_append, List.cons_append, textFrom_escape (escape_unit hunit s)]
    obtain ⟨a, b, c', d, rfl⟩ := List.length_eq_four.mp hunit.1
    rfl
  | @pair first second high low hfirst hsecond hhigh hlow hc =>
    have hassoc : '\\' :: 'u' :: (first ++ '\\' :: 'u' :: second) ++ s =
        '\\' :: 'u' :: (first ++ '\\' :: 'u' :: (second ++ s)) := by simp
    rw [hassoc, textFrom_escape (escape_pair hfirst hsecond hhigh hlow hc s)]
    obtain ⟨a, b, c', d, rfl⟩ := List.length_eq_four.mp hfirst.1
    obtain ⟨a, b, c', d, rfl⟩ := List.length_eq_four.mp hsecond.1
    rfl

theorem textFrom_charTexts {cs : List Char} {us : List (List Char)}
    (h : List.Forall₂ CharText cs us) (rest : List Char) :
    textFrom 0 (us.flatten ++ '"' :: rest) = .ok (cs, rest) := by
  induction h with
  | nil => rfl
  | cons hc _ ih =>
    rw [List.flatten_cons, List.append_assoc, textFrom_charText hc, ih]
    rfl

/-- What follows the opening quote of a text. -/
theorem StringText.textBody {s : String} {t : List Char} (h : StringText s t) :
    ∃ u, t = '"' :: u ∧ ∀ rest, textBody (u ++ rest) = .ok (s, rest) := by
  obtain ⟨us, hus, rfl⟩ := h
  refine ⟨_, rfl, fun rest => ?_⟩
  rw [List.append_assoc, List.singleton_append, Document.textBody, textFrom_charTexts hus]
  simp only [String.ofList_toList]

/-! ### Texts that are printed -/

theorem twoDigits_control : ∀ n < 0x20,
    (twoDigits n).length = 2 ∧ hexNumber? ('0' :: '0' :: twoDigits n) = some n := by decide +kernel

theorem charText_writeChar (c : Char) : CharText c (writeChar c) := by
  unfold writeChar
  split
  · next h => subst h; exact .short (by decide)
  split
  · next h => subst h; exact .short (by decide)
  split
  · next h => subst h; exact .short (by decide)
  split
  · next h => subst h; exact .short (by decide)
  split
  · next h => subst h; exact .short (by decide)
  split
  · next h => subst h; exact .short (by decide)
  split
  · next h => subst h; exact .short (by decide)
  next hquote hslash _ _ _ _ _ =>
  split
  · next hcontrol =>
    obtain ⟨hlength, hnumber⟩ := twoDigits_control c.toNat hcontrol
    exact .unit ⟨by rw [List.length_cons, List.length_cons, hlength], hnumber⟩
  · next hcontrol => exact .plain hquote hslash (Nat.not_lt.mp hcontrol)

theorem stringText_writeText (s : String) : StringText s (writeText s) := by
  refine ⟨s.toList.map writeChar, ?_, by rw [writeText, List.flatMap_def]⟩
  induction s.toList with
  | nil => exact .nil
  | cons c cs ih => exact .cons (charText_writeChar c) ih

/-! ## Numbers -/

theorem Digits.isDigit_head {t : List Char} (h : Digits t) :
    ∃ c s, t = c :: s ∧ isDigit c = true := by
  obtain ⟨c, s, rfl⟩ := List.exists_cons_of_ne_nil h.1
  exact ⟨c, s, rfl, h.2 c List.mem_cons_self⟩

/-- No digit follows. -/
def NoDigit (s : List Char) : Prop := s.head?.any isDigit = false

theorem Ends.noDigit {rest : List Char} (h : Ends rest) : NoDigit rest := by
  cases rest with
  | nil => rfl
  | cons c rest =>
    have hc := h c rfl
    simp only [NoDigit, List.head?_cons, Option.any_some]
    rcases hc with hblank | rfl | rfl | rfl
    · simp only [isBlank, Bool.or_eq_true, beq_iff_eq] at hblank
      rcases hblank with ((rfl | rfl) | rfl) | rfl <;> decide
    all_goals decide

theorem skipDigits_digits {digits s : List Char} (h : Digits digits) (hs : NoDigit s) :
    skipDigits (digits ++ s) = .ok s := by
  obtain ⟨c, more, rfl, hc⟩ := h.isDigit_head
  have hdrop : (c :: more ++ s).dropWhile isDigit = s := by
    rw [List.dropWhile_append_of_pos h.2]
    cases s with
    | nil => rfl
    | cons c s => exact List.dropWhile_cons_of_neg (by simpa [NoDigit] using hs)
  rw [skipDigits, List.cons_append, List.head?_cons, Option.any_some, hc, if_pos rfl,
    ← List.cons_append, hdrop]

theorem skipSign_digits {digits : List Char} (h : Digits digits) {sign : List Char}
    (hsign : sign ∈ [[], ['+'], ['-']]) (s : List Char) :
    skipSign (sign ++ (digits ++ s)) = digits ++ s := by
  obtain ⟨c, more, rfl, hc⟩ := h.isDigit_head
  simp only [List.mem_cons, List.not_mem_nil, or_false] at hsign
  rcases hsign with rfl | rfl | rfl
  · rw [List.nil_append, List.cons_append, skipSign]
    · rintro rest ⟨⟩
      cases hc
    · rintro rest ⟨⟩
      cases hc
  · rfl
  · rfl

section
variable {whole fraction exponent rest : List Char}

theorem skipExponent_exponentText (h : ExponentText exponent) (hrest : Ends rest) :
    skipExponent (exponent ++ rest) = .ok rest := by
  rcases h with rfl | ⟨e, he, sign, hsign, digits, hdigits, rfl⟩
  · rw [List.nil_append, skipExponent]
    · rintro s rfl
      simp [Ends, isBlank] at hrest
    · rintro s rfl
      simp [Ends, isBlank] at hrest
  · have hskip : skipDigits (skipSign (sign ++ (digits ++ rest))) = .ok rest := by
      rw [skipSign_digits hdigits hsign, skipDigits_digits hdigits hrest.noDigit]
    rw [List.cons_append, List.append_assoc]
    simp only [List.mem_cons, List.not_mem_nil, or_false] at he
    rcases he with rfl | rfl <;> exact hskip

theorem ExponentText.noDigit (h : ExponentText exponent) (hrest : Ends rest) :
    NoDigit (exponent ++ rest) := by
  rcases h with rfl | ⟨e, he, sign, hsign, digits, hdigits, rfl⟩
  · exact hrest.noDigit
  · simp only [List.mem_cons, List.not_mem_nil, or_false] at he
    rcases he with rfl | rfl <;> rfl

theorem skipFraction_fractionText (hf : FractionText fraction) (he : ExponentText exponent)
    (hrest : Ends rest) : skipFraction (fraction ++ (exponent ++ rest)) = .ok rest := by
  have hexponent := skipExponent_exponentText he hrest
  rcases hf with rfl | ⟨digits, hdigits, rfl⟩
  · rw [List.nil_append, skipFraction]
    · exact hexponent
    · -- no point begins an exponent, or follows a number
      intro s hs
      rcases he with rfl | ⟨e, he, sign, -, more, -, rfl⟩
      · rw [List.nil_append] at hs
        rw [hs] at hrest
        simp [Ends, isBlank] at hrest
      · rw [(List.cons.inj hs).1] at he
        simp at he
  · rw [List.cons_append, skipFraction, skipDigits_digits hdigits (he.noDigit hrest)]
    exact hexponent

theorem FractionText.noDigit (hf : FractionText fraction) (he : ExponentText exponent)
    (hrest : Ends rest) : NoDigit (fraction ++ (exponent ++ rest)) := by
  rcases hf with rfl | ⟨digits, hdigits, rfl⟩
  · exact he.noDigit hrest
  · rfl

theorem skipNumber_wholeText (hw : WholeText whole) (hf : FractionText fraction)
    (he : ExponentText exponent) (hrest : Ends rest) :
    skipNumber (whole ++ (fraction ++ (exponent ++ rest))) = .ok rest := by
  have hfraction := skipFraction_fractionText hf he hrest
  have hend := hf.noDigit he hrest
  rcases hw with rfl | ⟨hdigits, hzero⟩
  · rw [List.singleton_append, skipNumber, if_neg (by rw [hend]; decide)]
    exact hfraction
  · rw [skipNumber]
    · rw [skipDigits_digits hdigits hend]
      exact hfraction
    · rintro s hs
      obtain ⟨c, more, rfl, -⟩ := hdigits.isDigit_head
      rw [(List.cons.inj hs).1] at hzero
      exact hzero rfl

end

end RouteMigration.Document
