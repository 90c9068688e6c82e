import RouteMigration.Text.Cut
import Mathlib.Data.List.Basic

/-! A text is cut in one way at its first separator, and in one way at its last. -/

namespace RouteMigration.Text

theorem cutFirst_append {sep : Char} {a : List Char} (h : sep ∉ a) (b : List Char) :
    cutFirst sep (a ++ sep :: b) = some (a, b) :=
  cutFirst_eq_some_iff.mpr ⟨rfl, h⟩

theorem cut_unique {sep : Char} {a b c d : List Char} (ha : sep ∉ a) (hc : sep ∉ c)
    (h : a ++ sep :: b = c ++ sep :: d) : a = c ∧ b = d := by
  have hleft := cutFirst_append ha b
  rw [h, cutFirst_append hc] at hleft
  simpa [eq_comm] using hleft

theorem cut_last_unique {sep : Char} {a b c d : List Char} (hb : sep ∉ b) (hd : sep ∉ d)
    (h : a ++ sep :: b = c ++ sep :: d) : a = c ∧ b = d := by
  have hrev := congrArg List.reverse h
  simp only [List.reverse_append, List.reverse_cons, List.append_assoc, List.singleton_append]
    at hrev
  obtain ⟨hbd, hac⟩ := cut_unique (by simpa using hb) (by simpa using hd) hrev
  exact ⟨List.reverse_inj.mp hac, List.reverse_inj.mp hbd⟩

theorem cutLast_append {sep : Char} {b : List Char} (h : sep ∉ b) (a : List Char) :
    cutLast sep (a ++ sep :: b) = some (a, b) := by
  induction a with
  | nil =>
    rw [List.nil_append, cutLast, cutLast_eq_none_iff.mpr h]
    exact if_pos rfl
  | cons c a ih => rw [List.cons_append, cutLast, ih]

theorem cutLast_eq_some_iff {sep : Char} {s a b : List Char} :
    cutLast sep s = some (a, b) ↔ s = a ++ sep :: b ∧ sep ∉ b := by
  constructor
  · intro h
    induction s generalizing a with
    | nil => cases h
    | cons c s ih =>
      rw [cutLast] at h
      split at h
      · rename_i before after hs
        cases h
        obtain ⟨rfl, hb⟩ := ih hs
        exact ⟨rfl, hb⟩
      · rename_i hs
        split at h
        · rename_i hc
          cases h
          exact ⟨by rw [hc, List.nil_append], cutLast_eq_none_iff.mp hs⟩
        · cases h
  · rintro ⟨rfl, hb⟩
    exact cutLast_append hb a

/-- A word without separator stands at the front of a text just where it stands at the front
of what comes before the separator. -/
theorem prefix_append_cons_iff {sep : Char} {word : List Char} (h : sep ∉ word)
    (a b : List Char) : word <+: a ++ sep :: b ↔ word <+: a := by
  constructor
  · intro hword
    have hsep : a ++ [sep] <+: a ++ sep :: b := ⟨b, by simp⟩
    rcases List.prefix_or_prefix_of_prefix hword hsep with hshort | hlong
    · rcases List.prefix_concat_iff.mp hshort with rfl | ha
      · simp at h
      · exact ha
    · exact absurd (hlong.subset (by simp)) h
  · exact fun hword => hword.trans (List.prefix_append a _)

theorem suffix_append_cons_iff {sep : Char} {word : List Char} (h : sep ∉ word)
    (a b : List Char) : word <:+ a ++ sep :: b ↔ word <:+ b := by
  rw [← List.reverse_prefix, ← List.reverse_prefix, List.reverse_append, List.reverse_cons,
    List.append_assoc, List.singleton_append, prefix_append_cons_iff (by simpa using h)]

/-- A word without separator stands in a text on one side of it. -/
theorem infix_append_cons_iff {sep : Char} {word : List Char} (h : sep ∉ word)
    (a b : List Char) : word <:+: a ++ sep :: b ↔ word <:+: a ∨ word <:+: b := by
  have hfront : ∀ {part : List Char}, sep ∉ part → part <+: sep :: b → part = [] := by
    intro part hpart hpre
    rcases List.prefix_cons_iff.mp hpre with rfl | ⟨rest, rfl, -⟩
    · rfl
    · simp at hpart
  constructor
  · intro hword
    rcases List.infix_append_iff.mp hword with ha | hb | ⟨left, right, rfl, hleft, hright⟩
    · exact .inl ha
    · rcases List.infix_cons_iff.mp hb with hb | hb
      · rw [hfront h hb]
        exact .inl (List.nil_infix)
      · exact .inr hb
    · simp only [List.mem_append, not_or] at h
      rw [hfront h.2 hright, List.append_nil]
      exact .inl hleft.isInfix
  · rintro (ha | hb)
    · exact ha.trans (List.prefix_append _ _).isInfix
    · exact hb.trans ((List.suffix_cons _ _).trans (List.suffix_append _ _)).isInfix

theorem dropWord_eq_some_iff {word s rest : List Char} :
    dropWord word s = some rest ↔ s = word ++ rest := by
  rw [dropWord, List.isPrefixOf?_eq_some_iff_append_eq, eq_comm]

/-- A run of one class of characters ends in one way before a character outside it. -/
theorem span_append {p : Char → Bool} {run : List Char} {c : Char} (hrun : ∀ x ∈ run, p x = true)
    (hc : p c = false) (rest : List Char) :
    (run ++ c :: rest).takeWhile p = run ∧ (run ++ c :: rest).dropWhile p = c :: rest := by
  rw [List.takeWhile_append_of_pos hrun, List.dropWhile_append_of_pos hrun]
  simp [hc]

theorem span_unique {p : Char → Bool} {a b : List Char} {c d : Char} {r s : List Char}
    (ha : ∀ x ∈ a, p x = true) (hb : ∀ x ∈ b, p x = true) (hc : p c = false) (hd : p d = false)
    (h : a ++ c :: r = b ++ d :: s) : a = b ∧ c :: r = d :: s := by
  have hsame := (span_append ha hc r).1
  rw [h, (span_append hb hd s).1] at hsame
  subst hsame
  exact ⟨rfl, List.append_cancel_left h⟩

theorem not_mem_of_mem_splitOn {sep : Char} {part s : List Char} (h : part ∈ s.splitOn sep) :
    sep ∉ part := by
  induction s generalizing part with
  | nil =>
    rw [List.splitOn_nil, List.mem_singleton] at h
    simp [h]
  | cons c s ih =>
    rw [List.splitOn_cons_eq_if_modifyHead] at h
    split at h
    · rcases List.mem_cons.mp h with rfl | h
      · simp
      · exact ih h
    · rename_i hc
      cases hs : s.splitOn sep with
      | nil => exact absurd hs (List.splitOn_ne_nil sep s)
      | cons p ps =>
        rw [hs, List.modifyHead_cons] at h
        rcases List.mem_cons.mp h with rfl | h
        · have hp : sep ∉ p := ih (by simp [hs])
          have : sep ≠ c := fun he => hc (by simp [he])
          simp [this, hp]
        · exact ih (by simp [hs, h])

end RouteMigration.Text
