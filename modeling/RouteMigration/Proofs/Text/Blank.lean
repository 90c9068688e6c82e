import Mathlib.Data.List.TakeWhile
import RouteMigration.Text.Blank

/-! Trimming takes off what stands around a text, and that only. -/

namespace RouteMigration.Text

variable {p : Char → Bool} {around : List Char}

theorem trimBy_append_left (h : ∀ c ∈ around, p c = true) (s : List Char) :
    trimBy p (around ++ s) = trimBy p s := by
  rw [trimBy, List.dropWhile_append_of_pos h, trimBy]

theorem trimBy_append_right (h : ∀ c ∈ around, p c = true) (s : List Char) :
    trimBy p (s ++ around) = trimBy p s := by
  have hreverse : ∀ c ∈ around.reverse, p c = true := fun c hc => h c (List.mem_reverse.mp hc)
  unfold trimBy
  rw [List.dropWhile_append]
  split
  · next hempty =>
    have hnone : around.dropWhile p = [] := List.dropWhile_eq_nil_iff.mpr h
    rw [hnone, List.isEmpty_iff.mp hempty]
  · rw [List.reverse_append, List.dropWhile_append_of_pos hreverse]

theorem dropWhile_append_cons {c : Char} (hc : p c = false) (s t : List Char) :
    (s ++ c :: t).dropWhile p = s.dropWhile p ++ c :: t := by
  rw [List.dropWhile_append]
  split
  · next hempty => simp [List.isEmpty_iff.mp hempty, hc]
  · rfl

/-- Around a character outside the class, a text is trimmed at its own ends. -/
theorem trimBy_append_cons {c : Char} (hc : p c = false) (s t : List Char) :
    trimBy p (s ++ c :: t) = s.dropWhile p ++ c :: (t.reverse.dropWhile p).reverse := by
  rw [trimBy, dropWhile_append_cons hc, List.reverse_append, List.reverse_cons,
    List.append_assoc, List.singleton_append, dropWhile_append_cons hc]
  simp

theorem trimBy_dropWhile (p : Char → Bool) (s : List Char) :
    trimBy p (s.dropWhile p) = trimBy p s := by
  have htaken : ∀ c ∈ s.takeWhile p, p c = true :=
    fun c hc => List.all_eq_true.mp List.all_takeWhile c hc
  have h := trimBy_append_left htaken (s.dropWhile p)
  rwa [List.takeWhile_append_dropWhile, eq_comm] at h

theorem trimBy_dropWhile_reverse (p : Char → Bool) (s : List Char) :
    trimBy p (s.reverse.dropWhile p).reverse = trimBy p s := by
  have htaken : ∀ c ∈ (s.reverse.takeWhile p).reverse, p c = true :=
    fun c hc => List.all_eq_true.mp List.all_takeWhile c (List.mem_reverse.mp hc)
  have h := trimBy_append_right htaken (s.reverse.dropWhile p).reverse
  rwa [← List.reverse_append, List.takeWhile_append_dropWhile, List.reverse_reverse, eq_comm] at h

theorem head?_dropWhile (p : Char → Bool) (s : List Char) :
    ∀ c ∈ (s.dropWhile p).head?, p c = false := by
  intro c hc
  have h := List.head?_dropWhile_not p s
  rw [Option.mem_def.mp hc] at h
  simpa using h

theorem head?_trimBy (p : Char → Bool) (s : List Char) :
    (trimBy p s).head? = (s.dropWhile p).head? := by
  rw [← trimBy_dropWhile]
  cases hs : s.dropWhile p with
  | nil => rfl
  | cons c rest =>
    have hc : p c = false := head?_dropWhile p s c (by rw [hs]; rfl)
    rw [← List.nil_append (c :: rest), trimBy_append_cons hc]
    rfl

/-- White space and nothing else. -/
def Blanks (s : List Char) : Prop := ∀ c ∈ s, isBlank c = true

instance (s : List Char) : Decidable (Blanks s) :=
  decidable_of_iff (s.all isBlank = true) List.all_eq_true

/-- A text with no white space around it. -/
structure Bare (s : List Char) : Prop where
  first : ∀ c ∈ s.head?, isBlank c = false
  last : ∀ c ∈ s.getLast?, isBlank c = false

instance (s : List Char) : Decidable (Bare s) :=
  decidable_of_iff (s.head?.all (!isBlank ·) = true ∧ s.getLast?.all (!isBlank ·) = true) <| by
    simp only [Option.all_eq_true, Bool.not_eq_true']
    exact ⟨fun ⟨first, last⟩ => ⟨first, last⟩, fun h => ⟨h.first, h.last⟩⟩

theorem trim_of_bare {s : List Char} (h : Bare s) : trim s = s := trimBy_eq_self h.first h.last

theorem trim_surrounded {before s after : List Char} (hbefore : Blanks before)
    (hafter : Blanks after) (h : Bare s) : trim (before ++ s ++ after) = s := by
  rw [trim, trimBy_append_right hafter, trimBy_append_left hbefore]
  exact trim_of_bare h

/-- A text is what trimming leaves of it, with white space around. -/
theorem exists_trim (s : List Char) :
    ∃ before after, Blanks before ∧ Blanks after ∧ s = before ++ trim s ++ after := by
  let rest := s.dropWhile isBlank
  refine ⟨s.takeWhile isBlank, (rest.reverse.takeWhile isBlank).reverse, ?_, ?_, ?_⟩
  · exact fun c hc => List.all_eq_true.mp List.all_takeWhile c hc
  · exact fun c hc => List.all_eq_true.mp List.all_takeWhile c (List.mem_reverse.mp hc)
  · have hrest : trim s ++ (rest.reverse.takeWhile isBlank).reverse = rest := by
      rw [trim, trimBy, ← List.reverse_append, List.takeWhile_append_dropWhile,
        List.reverse_reverse]
    rw [List.append_assoc, hrest, List.takeWhile_append_dropWhile]

theorem bare_trim (s : List Char) : Bare (trim s) := by
  constructor
  · rw [trim, head?_trimBy]
    exact head?_dropWhile isBlank s
  · rw [trim, trimBy, List.getLast?_reverse]
    exact head?_dropWhile isBlank _

end RouteMigration.Text
