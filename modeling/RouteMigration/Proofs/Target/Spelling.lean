import RouteMigration.Proofs.Text.Cut
import RouteMigration.Target.Qualified

/-! Which texts spell a qualified target. A target is proper when its parts are not empty and
hold none of the two signs between them; a literal is read as a target in some spelling just
when it is that spelling of a proper target. -/

namespace RouteMigration.Target.Qualified

open RouteMigration.Text

/-- A part of a target, as a literal can spell it. -/
def IsPart (part : List Char) : Prop := part ≠ [] ∧ '#' ∉ part ∧ '/' ∉ part

instance (part : List Char) : Decidable (IsPart part) := inferInstanceAs (Decidable (_ ∧ _))

structure IsProper (q : Qualified) : Prop where
  system : IsPart q.system
  environment : IsPart q.environment
  qualifier : IsPart q.qualifier

instance (q : Qualified) : Decidable q.IsProper :=
  decidable_of_iff (IsPart q.system ∧ IsPart q.environment ∧ IsPart q.qualifier)
    ⟨fun ⟨hs, he, hq⟩ => ⟨hs, he, hq⟩, fun ⟨hs, he, hq⟩ => ⟨hs, he, hq⟩⟩

theorem ifComplete_eq_some_iff {q r : Qualified} {s t : Spelling} :
    q.ifComplete s = some (r, t) ↔
      (q.system ≠ [] ∧ q.environment ≠ [] ∧ q.qualifier ≠ []) ∧ q = r ∧ s = t := by
  rw [ifComplete]
  split
  · rename_i h
    simp only [isComplete, Bool.and_eq_true, Bool.not_eq_true', List.isEmpty_eq_false_iff] at h
    simp [h]
  · rename_i h
    simp only [isComplete, Bool.and_eq_true, Bool.not_eq_true', List.isEmpty_eq_false_iff] at h
    simp only [reduceCtorEq, false_iff]
    rintro ⟨⟨hs, he, hq⟩, -⟩
    exact h ⟨⟨hs, he⟩, hq⟩

/-- A spelling holds each of its two signs once. -/
theorem count_spell {q : Qualified} (h : q.IsProper) (s : Spelling) :
    (q.spell s).count '#' = 1 ∧ (q.spell s).count '/' = 1 := by
  obtain ⟨⟨-, hsh, hss⟩, ⟨-, heh, hes⟩, ⟨-, hqh, hqs⟩⟩ := h
  cases s <;>
    simp [spell, List.count_eq_zero.mpr hsh, List.count_eq_zero.mpr hss,
      List.count_eq_zero.mpr heh, List.count_eq_zero.mpr hes, List.count_eq_zero.mpr hqh,
      List.count_eq_zero.mpr hqs]

theorem parse?_spell {q : Qualified} (h : q.IsProper) (s : Spelling) :
    parse? (q.spell s) = some (q, s) := by
  obtain ⟨hhash, hslash⟩ := count_spell h s
  obtain ⟨⟨hs, hsh, hss⟩, ⟨he, heh, hes⟩, ⟨hq, hqh, hqs⟩⟩ := h
  rw [parse?, if_neg (by omega)]
  cases s with
  | qualifierFirst =>
    have hcut : cutFirst '#' (q.spell .qualifierFirst) =
        some (q.system ++ '/' :: q.qualifier, q.environment) := by
      rw [cutFirst_eq_some_iff]
      simp [spell, hsh, hqh]
    rw [hcut]
    simp only [cutFirst_append hss, cutFirst_eq_none_iff.mpr hes]
    exact ifComplete_eq_some_iff.mpr ⟨⟨hs, he, hq⟩, rfl, rfl⟩
  | environmentFirst =>
    rw [spell, cutFirst_append hsh]
    simp only [cutFirst_append hes, cutFirst_eq_none_iff.mpr hss]
    exact ifComplete_eq_some_iff.mpr ⟨⟨hs, he, hq⟩, rfl, rfl⟩

theorem parse?_eq_some_iff {literal : List Char} {q : Qualified} {s : Spelling} :
    parse? literal = some (q, s) ↔ q.IsProper ∧ literal = q.spell s := by
  constructor
  · intro h
    unfold parse? at h
    split at h
    · cases h
    rename_i hcount
    rw [not_or, Decidable.not_not, Decidable.not_not] at hcount
    split at h
    · cases h
    rename_i head tail hcut
    obtain ⟨rfl, hhead⟩ := cutFirst_eq_some_iff.mp hcut
    have htail : '#' ∉ tail := by
      have := hcount.1
      rw [List.count_append, List.count_eq_zero.mpr hhead, List.count_cons_self] at this
      exact List.count_eq_zero.mp (by omega)
    have hslash := hcount.2
    simp only [List.count_append, List.count_cons] at hslash
    split at h
    · rename_i system qualifier hh ht
      obtain ⟨rfl, hsys⟩ := cutFirst_eq_some_iff.mp hh
      obtain ⟨hne, rfl, rfl⟩ := ifComplete_eq_some_iff.mp h
      have hqual : '/' ∉ qualifier := by
        rw [← List.count_eq_zero]
        simp at hslash
        omega
      simp only [List.mem_append, List.mem_cons, not_or] at hhead
      refine ⟨⟨⟨hne.1, hhead.1, hsys⟩, ⟨hne.2.1, htail, cutFirst_eq_none_iff.mp ht⟩,
        ⟨hne.2.2, hhead.2.2, hqual⟩⟩, ?_⟩
      simp [spell]
    · rename_i environment qualifier hh ht
      obtain ⟨rfl, henv⟩ := cutFirst_eq_some_iff.mp ht
      obtain ⟨hne, rfl, rfl⟩ := ifComplete_eq_some_iff.mp h
      have hqual : '/' ∉ qualifier := by
        rw [← List.count_eq_zero]
        simp at hslash
        omega
      simp only [List.mem_append, List.mem_cons, not_or] at htail
      exact ⟨⟨⟨hne.1, hhead, cutFirst_eq_none_iff.mp hh⟩, ⟨hne.2.1, htail.1, henv⟩,
        ⟨hne.2.2, htail.2.2, hqual⟩⟩, rfl⟩
    · cases h
  · rintro ⟨hq, rfl⟩
    exact parse?_spell hq s

/-- A spelling gives away its target and which of the two it is. -/
theorem spell_injective {q r : Qualified} {s t : Spelling} (hq : q.IsProper) (hr : r.IsProper)
    (h : q.spell s = r.spell t) : q = r ∧ s = t := by
  have hparse := parse?_spell hq s
  rw [h, parse?_spell hr t] at hparse
  simpa [eq_comm] using hparse

end RouteMigration.Target.Qualified
