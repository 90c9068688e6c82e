import RouteMigration.Proofs.Text.Cut

/-! Replacing a word, and what its neighbours have to do with it. A text in which the word
cannot begin, whatever comes after, is left as it was; and a replacement in which no part of a
text can begin does not bring that text about. -/

namespace RouteMigration.Text

/-! ## Texts that exclude each other -/

/-- The texts differ at a place that both of them have. -/
def Differ (a b : List Char) : Prop := ¬ a <+: b ∧ ¬ b <+: a

instance (a b : List Char) : Decidable (Differ a b) := inferInstanceAs (Decidable (_ ∧ _))

theorem Differ.not_prefix_append {a b : List Char} (h : Differ a b) (s : List Char) :
    ¬ b <+: a ++ s := by
  intro hb
  rcases List.prefix_or_prefix_of_prefix hb (List.prefix_append a s) with hba | hab
  · exact h.2 hba
  · exact h.1 hab

theorem Differ.append_ne {a b : List Char} (h : Differ a b) (s t : List Char) :
    a ++ s ≠ b ++ t := fun heq => h.not_prefix_append s (heq ▸ List.prefix_append b t)

theorem Differ.of_prefix {a b w : List Char} (h : Differ a b) (hb : b <+: w) : Differ a w := by
  refine ⟨fun ha => ?_, fun hw => h.2 (hb.trans hw)⟩
  rcases List.prefix_or_prefix_of_prefix ha hb with hab | hba
  · exact h.1 hab
  · exact h.2 hba

/-- The word begins nowhere in the text, whatever comes after the text. -/
def Avoids (a word : List Char) : Prop := ∀ q ∈ a.tails, q = [] ∨ Differ q word

instance (a word : List Char) : Decidable (Avoids a word) :=
  inferInstanceAs (Decidable (∀ q ∈ a.tails, q = [] ∨ Differ q word))

theorem avoids_cons {c : Char} {a word : List Char} :
    Avoids (c :: a) word ↔ Differ (c :: a) word ∧ Avoids a word := by
  simp [Avoids]

/-- Where no beginning of a word can stand, the word cannot begin. -/
theorem Avoids.of_prefix {a start word : List Char} (h : Avoids a start) (hs : start <+: word) :
    Avoids a word := fun q hq => (h q hq).imp_right (Differ.of_prefix · hs)

theorem Avoids.tail {c : Char} {a word : List Char} (h : Avoids (c :: a) word) : Avoids a word :=
  (avoids_cons.mp h).2

theorem Avoids.not_prefix {c : Char} {a word : List Char} (h : Avoids (c :: a) word)
    (s : List Char) : ¬ word <+: c :: (a ++ s) :=
  (avoids_cons.mp h).1.not_prefix_append s

theorem Avoids.infix_append {a word : List Char} (h : Avoids a word) (s : List Char) :
    word <:+: a ++ s ↔ word <:+: s := by
  induction a with
  | nil => rfl
  | cons c a ih =>
    rw [List.cons_append, List.infix_cons_iff, ih h.tail, or_iff_right (h.not_prefix s)]

/-! ## What replacing reads -/

section
variable {word : List Char}

/-- A text is read from the left, one of two words or one character at a time. -/
@[elab_as_elim]
theorem two_words_induction {v w : List Char} (hv : v ≠ []) (hw : w ≠ [])
    {motive : List Char → Prop} (nil : motive [])
    (first : ∀ s, motive s → motive (v ++ s)) (second : ∀ s, motive s → motive (w ++ s))
    (other : ∀ c s, ¬ v <+: c :: s → ¬ w <+: c :: s → motive s → motive (c :: s))
    (s : List Char) : motive s := by
  induction hn : s.length using Nat.strongRecOn generalizing s with
  | ind n ih =>
    subst hn
    have hshorter : ∀ {x r : List Char}, x ≠ [] → s = x ++ r → motive r := by
      intro x r hx hs
      have := List.length_pos_iff.mpr hx
      exact ih r.length (by rw [hs, List.length_append]; omega) r rfl
    by_cases hvs : v <+: s
    · obtain ⟨r, rfl⟩ := hvs
      exact first r (hshorter hv rfl)
    by_cases hws : w <+: s
    · obtain ⟨r, rfl⟩ := hws
      exact second r (hshorter hw rfl)
    cases s with
    | nil => exact nil
    | cons c s => exact other c s hvs hws (ih s.length (by simp) s rfl)

@[elab_as_elim]
theorem word_induction (hword : word ≠ []) {motive : List Char → Prop} (nil : motive [])
    (found : ∀ s, motive s → motive (word ++ s))
    (other : ∀ c s, ¬ word <+: c :: s → motive s → motive (c :: s)) (s : List Char) : motive s :=
  two_words_induction hword hword nil found found (fun c s h _ => other c s h) s

/-- What comes after each occurrence of the word that replacing it finds. The first `skip`
characters are spoken for. -/
def foundFrom (word : List Char) : Nat → List Char → List (List Char)
  | _, [] => []
  | skip + 1, _ :: cs => foundFrom word skip cs
  | 0, c :: cs =>
    if word.isPrefixOf (c :: cs) then
      cs.drop (word.length - 1) :: foundFrom word (word.length - 1) cs
    else foundFrom word 0 cs

def found (word s : List Char) : List (List Char) := foundFrom word 0 s

theorem foundFrom_eq_drop (n : Nat) (s : List Char) :
    foundFrom word n s = found word (s.drop n) := by
  induction s generalizing n with
  | nil => cases n <;> rfl
  | cons c s ih =>
    cases n with
    | zero => rfl
    | succ n => simpa [foundFrom] using ih n

theorem found_word (h : word ≠ []) (s : List Char) :
    found word (word ++ s) = s :: found word s := by
  cases word with
  | nil => exact absurd rfl h
  | cons w ws =>
    have hp : (w :: ws).isPrefixOf (w :: (ws ++ s)) = true := by
      rw [List.isPrefixOf_iff_prefix]
      exact List.prefix_append _ _
    rw [found, List.cons_append, foundFrom, if_pos hp, foundFrom_eq_drop]
    simp

theorem found_cons {c : Char} {s : List Char} (h : ¬ word <+: c :: s) :
    found word (c :: s) = found word s := by
  rw [found, foundFrom, if_neg (by rwa [List.isPrefixOf_iff_prefix])]
  rfl

theorem found_append {a : List Char} (h : Avoids a word) (s : List Char) :
    found word (a ++ s) = found word s := by
  induction a with
  | nil => rfl
  | cons c a ih =>
    rw [List.cons_append, found_cons (h.not_prefix s), ih h.tail]

/-! ## What replacing leaves -/

variable {sub : List Char}

theorem replaceAll_append {a : List Char} (h : Avoids a word) (s : List Char) :
    replaceAll word sub (a ++ s) = a ++ replaceAll word sub s := by
  induction a with
  | nil => rfl
  | cons c a ih =>
    rw [List.cons_append, replaceAll_cons (h.not_prefix s), ih h.tail, List.cons_append]

/-- What stands at the front after replacing, and could not begin with any of its parts where
the replacement begins, has been there before. -/
theorem prefix_of_prefix_replaceAll (hword : word ≠ []) {u s : List Char} (h : Avoids u sub)
    (hu : u <+: replaceAll word sub s) : u <+: s := by
  induction s using word_induction hword generalizing u with
  | nil => exact hu
  | found s _ =>
    cases u with
    | nil => exact List.nil_prefix
    | cons c u =>
      rw [replaceAll_word hword] at hu
      obtain ⟨hcu, huc⟩ := (avoids_cons.mp h).1
      rcases List.prefix_or_prefix_of_prefix hu (List.prefix_append sub _) with hp | hp
      · exact absurd hp hcu
      · exact absurd hp huc
  | other c s hnot ih =>
    rw [replaceAll_cons hnot] at hu
    cases u with
    | nil => exact List.nil_prefix
    | cons d u =>
      obtain ⟨rfl, htail⟩ := List.cons_prefix_cons.mp hu
      exact List.cons_prefix_cons.mpr ⟨rfl, ih h.tail htail⟩

/-- Replacing brings no word about at a character that it keeps. -/
theorem not_prefix_cons_replaceAll (hword : word ≠ []) {w : List Char} (hw : w ≠ [])
    (htail : Avoids w.tail sub) {c : Char} {s : List Char} (h : ¬ w <+: c :: s) :
    ¬ w <+: c :: replaceAll word sub s := by
  cases w with
  | nil => exact absurd rfl hw
  | cons d w =>
    rw [List.cons_prefix_cons] at h ⊢
    rintro ⟨rfl, hp⟩
    exact h ⟨rfl, prefix_of_prefix_replaceAll hword htail hp⟩

/-- A word is gone after it was replaced, if it cannot begin in its replacement and the
replacement cannot begin in it behind its first character. -/
theorem not_infix_replaceAll (hword : word ≠ []) (hsub : Avoids sub word)
    (htail : Avoids word.tail sub) (s : List Char) : ¬ word <:+: replaceAll word sub s := by
  induction s using word_induction hword with
  | nil => exact fun h => hword (List.infix_nil.mp h)
  | found s ih => rwa [replaceAll_word hword, hsub.infix_append]
  | other c s hnot ih =>
    rw [replaceAll_cons hnot, List.infix_cons_iff, not_or]
    exact ⟨not_prefix_cons_replaceAll hword hword htail hnot, ih⟩

end

end RouteMigration.Text
