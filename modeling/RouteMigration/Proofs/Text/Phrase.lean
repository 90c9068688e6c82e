import Mathlib.Data.List.Infix
import RouteMigration.Text.Cut

/-! Looking for phrases in a text that is put together. What is fixed in such a text keeps the
parts around it apart, if no phrase starts in one of them and ends in the other. -/

namespace RouteMigration.Text

theorem occursIn_iff {word s : List Char} : occursIn word s = true ↔ word <:+: s := by
  induction s with
  | nil => rw [occursIn, List.isEmpty_iff, List.infix_nil]
  | cons c s ih =>
    rw [occursIn, Bool.or_eq_true, ih, List.isPrefixOf_iff_prefix, List.infix_cons_iff]

/-- One of the phrases stands in the text. -/
def Holds (phrases : List (List Char)) (s : List Char) : Prop := ∃ p ∈ phrases, p <:+: s

instance (phrases : List (List Char)) (s : List Char) : Decidable (Holds phrases s) :=
  decidable_of_iff (phrases.any (occursIn · s) = true) <| by
    simp only [List.any_eq_true, occursIn_iff, Holds]

/-- No phrase starts in the text, whatever follows it. -/
def Opens (phrases : List (List Char)) (s : List Char) : Prop :=
  ∀ p ∈ phrases, ∀ rest ∈ s.tails, rest ≠ [] → ¬ p <+: rest ∧ ¬ rest <+: p

instance (phrases : List (List Char)) (s : List Char) : Decidable (Opens phrases s) :=
  inferInstanceAs (Decidable (∀ p ∈ phrases, ∀ rest ∈ s.tails, _))

/-- No phrase ends in the text, whatever comes before it. -/
def Closes (phrases : List (List Char)) (s : List Char) : Prop :=
  ∀ p ∈ phrases, ¬ p <:+: s ∧ ∀ back ∈ p.tails, back ≠ [] → ¬ back <+: s

instance (phrases : List (List Char)) (s : List Char) : Decidable (Closes phrases s) :=
  inferInstanceAs (Decidable (∀ p ∈ phrases, _ ∧ ∀ back ∈ p.tails, _))

/-- No phrase starts or ends in the text, and none goes beyond it at both ends. -/
def Bars (phrases : List (List Char)) (s : List Char) : Prop :=
  Opens phrases s ∧ Closes phrases s ∧ ∀ p ∈ phrases, ∀ back ∈ p.tails, back ≠ [] → ¬ s <+: back

instance (phrases : List (List Char)) (s : List Char) : Decidable (Bars phrases s) :=
  inferInstanceAs (Decidable (_ ∧ _ ∧ ∀ p ∈ phrases, ∀ back ∈ p.tails, _))

section
variable {phrases : List (List Char)} {p s x y : List Char}

theorem Opens.infix_append_iff (h : Opens phrases s) (hp : p ∈ phrases) :
    p <:+: s ++ y ↔ p <:+: y := by
  refine ⟨fun hin => ?_, fun hin => hin.trans (List.suffix_append s y).isInfix⟩
  rcases List.infix_append_iff.mp hin with hs | hy | ⟨front, back, rfl, hends, hstarts⟩
  · obtain ⟨rest, hrest, hsuffix⟩ := List.infix_iff_prefix_suffix.mp hs
    by_cases hempty : rest = []
    · rw [hempty, List.prefix_nil] at hrest
      rw [hrest]
      exact List.nil_infix
    · exact absurd hrest (h p hp rest ((List.mem_tails _ _).mpr hsuffix) hempty).1
  · exact hy
  · by_cases hempty : front = []
    · rw [hempty, List.nil_append]
      exact hstarts.isInfix
    · have hout := h _ hp front ((List.mem_tails _ _).mpr hends) hempty
      exact absurd (List.prefix_append front back) hout.2

theorem Closes.infix_append_iff (h : Closes phrases s) (hp : p ∈ phrases) :
    p <:+: x ++ s ↔ p <:+: x := by
  refine ⟨fun hin => ?_, fun hin => hin.trans (List.prefix_append x s).isInfix⟩
  obtain ⟨hnot, hback⟩ := h p hp
  rcases List.infix_append_iff.mp hin with hx | hs | ⟨front, back, rfl, hends, hstarts⟩
  · exact hx
  · exact absurd hs hnot
  · by_cases hempty : back = []
    · rw [hempty, List.append_nil]
      exact hends.isInfix
    · exact absurd hstarts (hback back ((List.mem_tails _ _).mpr (List.suffix_append _ _)) hempty)

theorem Bars.infix_append_iff (h : Bars phrases s) (hp : p ∈ phrases) :
    p <:+: x ++ (s ++ y) ↔ p <:+: x ∨ p <:+: y := by
  obtain ⟨hopens, hcloses, hbeyond⟩ := h
  constructor
  · intro hin
    rcases List.infix_append_iff.mp hin with hx | hrest | ⟨front, back, rfl, hends, hstarts⟩
    · exact .inl hx
    · exact .inr ((hopens.infix_append_iff hp).mp hrest)
    · by_cases hempty : back = []
      · rw [hempty, List.append_nil]
        exact .inl hends.isInfix
      · have hmem : back ∈ (front ++ back).tails :=
          (List.mem_tails _ _).mpr (List.suffix_append _ _)
        rcases List.prefix_or_prefix_of_prefix hstarts (List.prefix_append s y) with hin | hin
        · exact absurd hin ((hcloses _ hp).2 back hmem hempty)
        · exact absurd hin (hbeyond _ hp back hmem hempty)
  · rintro (hx | hy)
    · exact hx.trans (List.prefix_append x _).isInfix
    · exact (hy.trans (List.suffix_append s y).isInfix).trans (List.suffix_append x _).isInfix

theorem holds_opening (h : Opens phrases s) : Holds phrases (s ++ y) ↔ Holds phrases y := by
  unfold Holds
  exact exists_congr fun p => and_congr_right fun hp => h.infix_append_iff hp

theorem holds_closing (h : Closes phrases s) : Holds phrases (x ++ s) ↔ Holds phrases x := by
  unfold Holds
  exact exists_congr fun p => and_congr_right fun hp => h.infix_append_iff hp

theorem holds_between (h : Bars phrases s) :
    Holds phrases (x ++ (s ++ y)) ↔ Holds phrases x ∨ Holds phrases y := by
  unfold Holds
  rw [← exists_or]
  refine exists_congr fun p => ?_
  rw [← and_or_left]
  exact and_congr_right fun hp => h.infix_append_iff hp

end

end RouteMigration.Text
