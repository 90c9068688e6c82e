/-! Cutting a text at a separator and replacing a word in it. -/

namespace RouteMigration.Text

/-- What stands before and after the first `sep`. -/
def cutFirst (sep : Char) : List Char → Option (List Char × List Char)
  | [] => none
  | c :: cs =>
    if c = sep then some ([], cs)
    else match cutFirst sep cs with
      | some (before, after) => some (c :: before, after)
      | none => none

/-- What stands before and after the last `sep`. -/
def cutLast (sep : Char) : List Char → Option (List Char × List Char)
  | [] => none
  | c :: cs =>
    match cutLast sep cs with
    | some (before, after) => some (c :: before, after)
    | none => if c = sep then some ([], cs) else none

theorem cutFirst_eq_some_iff {sep : Char} {s a b : List Char} :
    cutFirst sep s = some (a, b) ↔ s = a ++ sep :: b ∧ sep ∉ a := by
  induction s generalizing a with
  | nil => simp [cutFirst]
  | cons c cs ih =>
    rw [cutFirst]
    by_cases hc : c = sep
    · subst hc
      cases a with
      | nil => simp [eq_comm]
      | cons x xs => simp; intro h _ hx; exact absurd h hx
    · rw [if_neg hc]
      cases a with
      | nil =>
        have : ¬(c :: cs = [] ++ sep :: b ∧ sep ∉ []) := by simp [hc]
        simp only [this, iff_false]
        split <;> simp
      | cons x xs =>
        have hx : c :: cs = x :: xs ++ sep :: b ∧ sep ∉ x :: xs ↔
            c = x ∧ cs = xs ++ sep :: b ∧ sep ∉ xs := by
          constructor
          · rintro ⟨h, hn⟩
            simp only [List.cons_append, List.cons.injEq] at h
            exact ⟨h.1, h.2, fun hm => hn (List.mem_cons_of_mem _ hm)⟩
          · rintro ⟨h, h', hn⟩
            subst h h'
            exact ⟨rfl, by simp [hn, Ne.symm hc]⟩
        rw [hx]
        cases h : cutFirst sep cs with
        | none =>
          have := mt (ih (a := xs)).mpr (by simp [h])
          simp only [reduceCtorEq, false_iff]
          rintro ⟨_, h⟩
          exact this h
        | some p =>
          obtain ⟨p, q⟩ := p
          have := ih (a := xs)
          rw [h] at this
          simp only [Option.some.injEq, Prod.mk.injEq, List.cons.injEq] at this ⊢
          rw [← this, and_assoc]

theorem cutFirst_eq_none_iff {sep : Char} {s : List Char} : cutFirst sep s = none ↔ sep ∉ s := by
  induction s with
  | nil => simp [cutFirst]
  | cons c cs ih =>
    rw [cutFirst]
    by_cases hc : c = sep
    · simp [hc]
    · rw [if_neg hc]
      have hsep : sep ∉ c :: cs ↔ sep ∉ cs := by simp [Ne.symm hc]
      rw [hsep, ← ih]
      cases cutFirst sep cs <;> simp

theorem cutLast_eq_none_iff {sep : Char} {s : List Char} : cutLast sep s = none ↔ sep ∉ s := by
  induction s with
  | nil => simp [cutLast]
  | cons c cs ih =>
    rw [cutLast]
    cases h : cutLast sep cs with
    | some p =>
      have : sep ∈ cs := by simpa [h] using (not_congr ih)
      simp [this]
    | none =>
      have : sep ∉ cs := ih.mp h
      by_cases hc : c = sep
      · simp [hc]
      · simp [hc, this, Ne.symm hc]

/-- The text with its word at the front taken off. -/
abbrev dropWord (word s : List Char) : Option (List Char) := word.isPrefixOf? s

/-- Whether `word` stands anywhere in the text. -/
def occursIn (word : List Char) : List Char → Bool
  | [] => word.isEmpty
  | c :: cs => word.isPrefixOf (c :: cs) || occursIn word cs

/-- `skip` characters are already spoken for; from there on each occurrence of `word`,
read from the left and without overlap, becomes `sub`. -/
def replaceFrom (word sub : List Char) : Nat → List Char → List Char
  | _, [] => []
  | skip + 1, _ :: cs => replaceFrom word sub skip cs
  | 0, c :: cs =>
    if word.isPrefixOf (c :: cs) then sub ++ replaceFrom word sub (word.length - 1) cs
    else c :: replaceFrom word sub 0 cs

def replaceAll (word sub s : List Char) : List Char := replaceFrom word sub 0 s

theorem replaceFrom_eq_drop (word sub : List Char) (n : Nat) (s : List Char) :
    replaceFrom word sub n s = replaceAll word sub (s.drop n) := by
  induction s generalizing n with
  | nil => cases n <;> rfl
  | cons c cs ih =>
    cases n with
    | zero => rfl
    | succ n => simpa [replaceFrom] using ih n

theorem replaceAll_word {word : List Char} (h : word ≠ []) (sub s : List Char) :
    replaceAll word sub (word ++ s) = sub ++ replaceAll word sub s := by
  cases word with
  | nil => exact absurd rfl h
  | cons w ws =>
    have hp : (w :: ws).isPrefixOf (w :: (ws ++ s)) = true := by
      rw [List.isPrefixOf_iff_prefix]; exact ⟨s, rfl⟩
    rw [replaceAll, List.cons_append, replaceFrom, if_pos hp, replaceFrom_eq_drop]
    simp

theorem replaceAll_cons {word : List Char} {c : Char} {cs : List Char}
    (h : ¬ word <+: c :: cs) (sub : List Char) :
    replaceAll word sub (c :: cs) = c :: replaceAll word sub cs := by
  rw [replaceAll, replaceFrom, if_neg (by rwa [List.isPrefixOf_iff_prefix])]
  rfl

end RouteMigration.Text
