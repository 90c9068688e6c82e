import RouteMigration.Proofs.Form.RoundTrip
import RouteMigration.Proofs.Text.Cut
import RouteMigration.Target.Codec

/-! What encoding takes a queue name apart into, and when it succeeds: the name has four parts
between hyphens, the last two of them not empty. -/

namespace RouteMigration.Target

open RouteMigration.Text

/-- A queue name as parts between hyphens: two that open it, the system, and the environment.
Only the system may hold further hyphens. -/
structure Segmented (queue first second system environment : List Char) : Prop where
  eq : queue = first ++ '-' :: (second ++ '-' :: (system ++ '-' :: environment))
  first : '-' ∉ first
  second : '-' ∉ second
  environment : '-' ∉ environment

/-! ## Splitting at hyphens -/

theorem intercalate_concat {sep e : List Char} {parts : List (List Char)} (h : parts ≠ []) :
    sep.intercalate (parts ++ [e]) = sep.intercalate parts ++ (sep ++ e) := by
  induction parts with
  | nil => exact absurd rfl h
  | cons p parts ih =>
    cases parts with
    | nil => simp
    | cons q parts =>
      have := ih (by simp)
      simp only [List.cons_append] at this ⊢
      rw [List.intercalate_cons_cons, List.intercalate_cons_cons, this]
      simp

theorem Segmented.splitOn {queue first second system environment : List Char}
    (h : Segmented queue first second system environment) :
    queue.splitOn '-' = first :: second :: (system.splitOn '-' ++ [environment]) := by
  rw [h.eq, List.splitOn_append_cons_self_of_not_mem h.first,
    List.splitOn_append_cons_self_of_not_mem h.second, List.splitOn_append_cons_self,
    List.splitOn_eq_singleton h.environment]

/-- There is a system as soon as there is anything between the first two segments and the
last one. -/
theorem systemAndEnvironment?_eq_some_iff {segments : List (List Char)}
    {system environment : List Char} :
    systemAndEnvironment? segments = some (system, environment) ↔
      ∃ a b parts, parts ≠ [] ∧ segments = a :: b :: (parts ++ [environment]) ∧
        system = ['-'].intercalate parts := by
  constructor
  · intro h
    unfold systemAndEnvironment? at h
    split at h
    · rename_i a b third rest
      split at h
      · rename_i e he
        split at h
        · cases h
        · rename_i hrest
          cases h
          have hne : third :: rest ≠ [] := by simp
          have hlast : (third :: rest).getLast hne = environment := by
            rw [List.getLast?_eq_some_getLast hne] at he
            exact Option.some.inj he
          have hparts : third :: rest = (third :: rest).dropLast ++ [environment] := by
            rw [← hlast, List.dropLast_concat_getLast]
          refine ⟨a, b, (third :: rest).dropLast, ?_, by rw [← hparts], rfl⟩
          cases rest with
          | nil => simp at hrest
          | cons => simp
      · cases h
    · cases h
  · rintro ⟨a, b, parts, hne, rfl, rfl⟩
    cases parts with
    | nil => exact absurd rfl hne
    | cons third parts =>
      have hlast : (third :: (parts ++ [environment])).getLast? = some environment := by
        rw [← List.cons_append, List.getLast?_append]
        simp
      have hdrop : (third :: (parts ++ [environment])).dropLast = third :: parts := by
        rw [← List.cons_append, List.dropLast_concat]
      simp only [systemAndEnvironment?, List.cons_append, hlast, hdrop]
      simp

theorem systemAndEnvironment?_splitOn {queue system environment : List Char} :
    systemAndEnvironment? (queue.splitOn '-') = some (system, environment) ↔
      ∃ first second, Segmented queue first second system environment := by
  rw [systemAndEnvironment?_eq_some_iff]
  constructor
  · rintro ⟨a, b, parts, hne, hs, rfl⟩
    have hmem : ∀ p ∈ a :: b :: (parts ++ [environment]), '-' ∉ p := fun p hp =>
      not_mem_of_mem_splitOn (hs ▸ hp)
    refine ⟨a, b, ?_, hmem a (by simp), hmem b (by simp), hmem environment (by simp)⟩
    have hqueue : ['-'].intercalate (queue.splitOn '-') = queue := List.intercalate_splitOn '-'
    rw [← hqueue, hs, List.intercalate_cons_cons,
      List.intercalate_cons_of_ne_nil (by simp), intercalate_concat hne]
    simp
  · rintro ⟨a, b, h⟩
    have hsystem : ['-'].intercalate (system.splitOn '-') = system := List.intercalate_splitOn '-'
    exact ⟨a, b, system.splitOn '-', List.splitOn_ne_nil _ _, h.splitOn, hsystem.symm⟩

/-! ## Encoding -/

theorem encodeQueue_eq_ok_iff {queue key : List Char} :
    encodeQueue queue = .ok key ↔ ∃ first second system environment,
      Segmented queue first second system environment ∧ system ≠ [] ∧ environment ≠ [] ∧
        key = Form.encode system ++ '#' :: Form.encode environment := by
  rw [encodeQueue]
  constructor
  · intro h
    split at h
    · cases h
    · rename_i system environment hs
      obtain ⟨a, b, hseg⟩ := systemAndEnvironment?_splitOn.mp hs
      split at h
      · cases h
      · rename_i hne
        cases h
        simp only [Bool.or_eq_true, List.isEmpty_iff, not_or] at hne
        exact ⟨a, b, system, environment, hseg, hne.1, hne.2, rfl⟩
  · rintro ⟨a, b, system, environment, hseg, hs, he, rfl⟩
    rw [systemAndEnvironment?_splitOn.mpr ⟨a, b, hseg⟩]
    simp [hs, he]

end RouteMigration.Target
