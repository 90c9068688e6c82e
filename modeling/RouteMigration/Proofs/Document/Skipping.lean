import RouteMigration.Proofs.Document.Scalars

/-! Passing over values. Whatever is written as a value is passed over to its very end, in
brackets or not, and however deep the brackets in it go. -/

namespace RouteMigration.Document

/-! ## The beginning of a value -/

/-- A text that starts neither with a blank nor with the end of something. -/
def Solid (t : List Char) : Prop := ∃ c s, t = c :: s ∧ isBlank c = false ∧ c ≠ ']' ∧ c ≠ '}'

theorem Solid.append {t : List Char} (h : Solid t) (s : List Char) : Solid (t ++ s) := by
  obtain ⟨c, u, rfl, hc⟩ := h
  exact ⟨c, u ++ s, rfl, hc⟩

theorem Solid.length_pos {t : List Char} (h : Solid t) : 0 < t.length := by
  obtain ⟨c, u, rfl, -⟩ := h
  exact Nat.succ_pos _

theorem Solid.skipBlank {t : List Char} (h : Solid t) {b : List Char} (hb : Blanks b) :
    skipBlank (b ++ t) = t := by
  obtain ⟨c, u, rfl, hc, -⟩ := h
  exact skipBlank_append_cons hb hc u

theorem solid_nullText : Solid nullText := ⟨'n', _, rfl, rfl, by decide, by decide⟩

theorem solid_boolText (b : Bool) : Solid (boolText b) := by
  cases b <;> exact ⟨_, _, rfl, rfl, by decide, by decide⟩

theorem QuotedText.solid {t : List Char} (h : QuotedText t) : Solid t := by
  obtain ⟨us, -, rfl⟩ := h
  exact ⟨'"', _, rfl, rfl, by decide, by decide⟩

theorem Enclosed.solid (bracket : Bracket) {us : List (List Char)} {t : List Char}
    (h : Enclosed bracket.opening bracket.closing us t) : Solid t := by
  cases h <;> cases bracket <;> exact ⟨_, _, rfl, rfl, by decide, by decide⟩

theorem WholeText.head {whole : List Char} (h : WholeText whole) :
    ∃ c s, whole = c :: s ∧ isDigit c = true := by
  rcases h with rfl | ⟨hdigits, -⟩
  · exact ⟨'0', [], rfl, by decide⟩
  · exact hdigits.isDigit_head

theorem solid_of_isDigit {c : Char} (hc : isDigit c = true) (s : List Char) : Solid (c :: s) := by
  have hne : ∀ d, isDigit d = false → c ≠ d := by
    rintro d hd rfl
    rw [hc] at hd
    cases hd
  refine ⟨c, s, rfl, ?_, hne ']' (by decide), hne '}' (by decide)⟩
  simp [isBlank, hne ' ' (by decide), hne '\n' (by decide), hne '\t' (by decide),
    hne '\r' (by decide)]

theorem NumberText.solid {t : List Char} (h : NumberText t) : Solid t := by
  obtain ⟨sign, hsign, whole, fraction, exponent, hwhole, -, -, rfl⟩ := h
  obtain ⟨c, s, rfl, hc⟩ := hwhole.head
  simp only [List.mem_cons, List.not_mem_nil, or_false] at hsign
  rcases hsign with rfl | rfl
  · exact solid_of_isDigit hc _
  · exact ⟨'-', _, rfl, rfl, by decide, by decide⟩

theorem ValueText.solid {t : List Char} (h : ValueText t) : Solid t := by
  cases h with
  | null => exact solid_nullText
  | bool b => exact solid_boolText b
  | quoted hquoted => exact hquoted.solid
  | number hnumber => exact hnumber.solid
  | bracketed _ _ henclosed => exact henclosed.solid _

theorem skipStart_append {b : List Char} (hb : Blanks b) (inside : List Bracket) (s : List Char) :
    skipStart inside (b ++ s) = skipStart inside s := by
  rw [skipStart, skipStart, skipBlank_append hb]

theorem skipStart_quoted {t : List Char} (h : QuotedText t) (inside : List Bracket)
    (rest : List Char) : skipStart inside (t ++ rest) = closeBrackets inside rest := by
  obtain ⟨us, hus, rfl⟩ := h
  have hskip := skipTextFrom_pieces hus rest
  rw [List.cons_append, List.append_assoc, List.singleton_append, skipStart, skipBlank_cons rfl]
  simp only [hskip]
  rfl

theorem skipStart_bool (b : Bool) (inside : List Bracket) (rest : List Char) :
    skipStart inside (boolText b ++ rest) = closeBrackets inside rest := by
  cases b <;> rfl

theorem skipStart_digit {c : Char} (hc : isDigit c = true) (inside : List Bracket)
    (s : List Char) :
    skipStart inside (c :: s) = (do closeBrackets inside (← skipNumber (c :: s))) := by
  have hblank : skipBlank (c :: s) = c :: s :=
    (solid_of_isDigit hc s).skipBlank (b := []) blanks_nil
  rw [skipStart, hblank]
  split
  case h_9 heq =>
    obtain ⟨rfl, rfl⟩ := List.cons.inj heq
    rw [if_pos hc]
  all_goals
    next heq =>
    cases heq
    try cases hc

theorem skipStart_number {t rest : List Char} (h : NumberText t) (hrest : Ends rest)
    (inside : List Bracket) : skipStart inside (t ++ rest) = closeBrackets inside rest := by
  obtain ⟨sign, hsign, whole, fraction, exponent, hw, hf, he, rfl⟩ := h
  have hskip := skipNumber_wholeText hw hf he hrest
  have hassoc : sign ++ (whole ++ (fraction ++ exponent)) ++ rest =
      sign ++ (whole ++ (fraction ++ (exponent ++ rest))) := by simp
  rw [hassoc]
  simp only [List.mem_cons, List.not_mem_nil, or_false] at hsign
  rcases hsign with rfl | rfl
  · obtain ⟨c, s, rfl, hc⟩ := hw.head
    rw [List.nil_append, List.cons_append, skipStart_digit hc, ← List.cons_append, hskip]
    rfl
  · rw [List.singleton_append, skipStart, skipBlank_cons rfl]
    simp only [hskip]
    rfl

/-! ## What is left after a round -/

theorem length_closeBrackets {inside inside' : List Bracket} {s rest : List Char}
    (h : closeBrackets inside s = .ok (.member inside' rest)) : rest.length < s.length := by
  induction inside generalizing s with
  | nil => cases h
  | cons bracket inside ih =>
    have hle := length_skipBlank_le s
    rw [closeBrackets] at h
    split at h
    · cases h
    · next c more heq =>
      rw [heq, List.length_cons] at hle
      split at h
      · cases h
        omega
      · split at h
        · have hless := ih h
          omega
        · cases h

theorem length_skipTextFrom {n : Nat} {s rest : List Char} (h : skipTextFrom n s = .ok rest) :
    rest.length ≤ s.length := by
  fun_induction skipTextFrom n s with
  | case3 =>
    cases h
    exact Nat.le_succ _
  | case2 _ _ _ ih => exact Nat.le_succ_of_le (ih h)
  | case4 _ _ _ _ ih => exact Nat.le_succ_of_le (ih h)
  | case7 _ _ _ _ _ ih => exact Nat.le_succ_of_le (ih h)
  | case1 | case5 | case6 => cases h

theorem length_skipKey {s rest : List Char} (h : skipKey s = .ok rest) :
    rest.length ≤ s.length := by
  have hle := length_skipBlank_le s
  unfold skipKey at h
  split at h
  · cases h
  · next more heq =>
    rw [heq, List.length_cons] at hle
    cases htext : skipTextFrom 0 more with
    | error e =>
      rw [htext] at h
      cases h
    | ok left =>
      have htext' := length_skipTextFrom htext
      have hleft := length_skipBlank_le left
      rw [htext] at h
      simp only [bind, Except.bind] at h
      split at h
      · cases h
      · next heq' =>
        cases h
        rw [heq', List.length_cons] at hleft
        omega
      · cases h
  · cases h

theorem length_skipMemberStart {inside : List Bracket} {s rest : List Char}
    (h : skipMemberStart inside s = .ok rest) : rest.length ≤ s.length := by
  unfold skipMemberStart at h
  split at h
  · exact length_skipKey h
  · cases h
    exact Nat.le_refl _

/-- From a comma on, up to the last bracket of `inside`. -/
def skipMember (inside : List Bracket) (s : List Char) : Except Refusal (List Char) :=
  match skipMemberStart inside s with
  | .error e => .error e
  | .ok rest => skipFrom inside rest

/-- What becomes of a round. -/
def resume : Except Refusal Remainder → Except Refusal (List Char)
  | .error e => .error e
  | .ok (.finished rest) => .ok rest
  | .ok (.member inside rest) => skipMember inside rest

theorem skipFrom_eq_resume {inside : List Bracket} {s : List Char}
    (h : ∀ inside' rest, skipStart inside s = .ok (.member inside' rest) →
      rest.length < s.length) :
    skipFrom inside s = resume (skipStart inside s) := by
  rw [skipFrom]
  cases hstart : skipStart inside s with
  | error e => rfl
  | ok remainder =>
    cases remainder with
    | finished rest => rfl
    | member inside' rest =>
      have hless := h inside' rest hstart
      simp only [resume, skipMember]
      cases hmember : skipMemberStart inside' rest with
      | error e => rfl
      | ok left =>
        have hle := length_skipMemberStart hmember
        exact if_pos (Nat.lt_of_le_of_lt hle hless)

/-! ## Values -/

/-- Whatever brackets are open and whatever follows, a value is passed over. -/
def Skips (t : List Char) : Prop :=
  ∀ (inside : List Bracket) (b rest : List Char), Blanks b → Ends rest →
    skipFrom inside (b ++ (t ++ rest)) = resume (closeBrackets inside rest)

theorem skips_of_start {t : List Char}
    (h : ∀ inside rest, Ends rest → skipStart inside (t ++ rest) = closeBrackets inside rest) :
    Skips t := by
  intro inside b rest hb hrest
  have hstart := (skipStart_append hb inside (t ++ rest)).trans (h inside rest hrest)
  rw [skipFrom_eq_resume, hstart]
  intro inside' left hleft
  rw [hstart] at hleft
  have hless := length_closeBrackets hleft
  simp only [List.length_append]
  omega

theorem skipKey_quoted {key : List Char} (hkey : QuotedText key) {b b' : List Char}
    (hb : Blanks b) (hb' : Blanks b') (s : List Char) :
    skipKey (b ++ (key ++ (b' ++ ':' :: s))) = .ok s := by
  obtain ⟨us, hus, rfl⟩ := hkey
  have hassoc : '"' :: (us.flatten ++ ['"']) ++ (b' ++ ':' :: s) =
      '"' :: (us.flatten ++ '"' :: (b' ++ ':' :: s)) := by simp
  have hskip := skipTextFrom_pieces hus (b' ++ ':' :: s)
  have hcolon : skipBlank (b' ++ ':' :: s) = ':' :: s := skipBlank_append_cons hb' rfl s
  rw [hassoc, skipKey, skipBlank_append_cons hb rfl]
  simp only [hskip, bind, Except.bind, hcolon]
  rfl

section
variable {bracket : Bracket} {inside : List Bracket}

/-- The next element of the innermost bracket. -/
theorem skipMember_element {value u b rest : List Char} (hvalue : Skips value)
    (helement : ElementText bracket value u) (hb : Blanks b) (hrest : Ends rest) :
    skipMember (bracket :: inside) (b ++ (u ++ rest)) =
      resume (closeBrackets (bracket :: inside) rest) := by
  cases helement with
  | item => exact hvalue (.square :: inside) b rest hb hrest
  | @member key value u hkey hmember =>
    cases hmember with
    | @mk b₁ b₂ hb₁ hb₂ =>
      have hassoc : b ++ (key ++ (b₁ ++ ':' :: (b₂ ++ value)) ++ rest) =
          b ++ (key ++ (b₁ ++ ':' :: (b₂ ++ (value ++ rest)))) := by simp
      have hstart := skipKey_quoted hkey hb hb₁ (b₂ ++ (value ++ rest))
      rw [hassoc, skipMember, skipMemberStart, hstart]
      exact hvalue (.curly :: inside) b₂ rest hb₂ hrest

theorem closeBrackets_closing {b : List Char} (hb : Blanks b) (rest : List Char) :
    closeBrackets (bracket :: inside) (b ++ bracket.closing :: rest) =
      closeBrackets inside rest := by
  rw [closeBrackets]
  cases bracket <;> rw [Bracket.closing, skipBlank_append_cons hb rfl] <;> rfl

theorem closeBrackets_comma {b : List Char} (hb : Blanks b) (rest : List Char) :
    closeBrackets (bracket :: inside) (b ++ ',' :: rest) =
      .ok (.member (bracket :: inside) rest) := by
  rw [closeBrackets, skipBlank_append_cons hb rfl]
  rfl

/-- All elements of the innermost bracket that are left, and the bracket itself. -/
theorem skipMember_commas {values us : List (List Char)} {t : List Char} (h : Commas us t)
    (hvalues : ∀ v ∈ values, Skips v) (helements : List.Forall₂ (ElementText bracket) values us)
    (rest : List Char) :
    skipMember (bracket :: inside) (t ++ bracket.closing :: rest) =
      resume (closeBrackets inside rest) := by
  induction h generalizing values with
  | @one u t hpadded =>
    cases hpadded with
    | @mk b u b' hb hb' =>
      cases helements with
      | @cons value _ _ _ helement hnone =>
        have hvalue := hvalues value List.mem_cons_self
        have hends : Ends (b' ++ bracket.closing :: rest) := (ends_closing bracket rest).append hb'
        have hassoc : b ++ (u ++ b') ++ bracket.closing :: rest =
            b ++ (u ++ (b' ++ bracket.closing :: rest)) := by simp
        rw [hassoc, skipMember_element hvalue helement hb hends, closeBrackets_closing hb']
  | @more u p t us hpadded _ ih =>
    cases hpadded with
    | @mk b u b' hb hb' =>
      cases helements with
      | @cons value _ _ _ helement helements =>
        obtain ⟨hvalue, hvalues⟩ := List.forall_mem_cons.mp hvalues
        have hends : Ends (b' ++ ',' :: (t ++ bracket.closing :: rest)) := (ends_comma _).append hb'
        have hassoc : b ++ (u ++ b') ++ ',' :: t ++ bracket.closing :: rest =
            b ++ (u ++ (b' ++ ',' :: (t ++ bracket.closing :: rest))) := by simp
        rw [hassoc, skipMember_element hvalue helement hb hends, closeBrackets_comma hb']
        exact ih hvalues helements

end

theorem ElementText.solid {bracket : Bracket} {value u : List Char} (hvalue : Solid value)
    (h : ElementText bracket value u) : Solid u := by
  cases h with
  | item => exact hvalue
  | member hkey hmember =>
    cases hmember
    exact hkey.solid.append _

theorem openBracket_solid {bracket : Bracket} {s b : List Char} (hb : Blanks b) (hs : Solid s)
    (inside : List Bracket) :
    openBracket bracket inside (b ++ s) = .ok (.member (bracket :: inside) (b ++ s)) := by
  obtain ⟨c, u, rfl, hblank, hsquare, hcurly⟩ := hs
  have hclosing : c ≠ bracket.closing := by
    cases bracket
    · exact hsquare
    · exact hcurly
  rw [openBracket, skipBlank_append_cons hb hblank]
  simp only [hclosing, if_false]

theorem openBracket_empty {bracket : Bracket} {b : List Char} (hb : Blanks b)
    (inside : List Bracket) (rest : List Char) :
    openBracket bracket inside (b ++ bracket.closing :: rest) = closeBrackets inside rest := by
  rw [openBracket]
  cases bracket <;> rw [Bracket.closing, skipBlank_append_cons hb rfl] <;> rfl

theorem skipStart_opening (bracket : Bracket) (inside : List Bracket) (s : List Char) :
    skipStart inside (bracket.opening :: s) = openBracket bracket inside s := by
  cases bracket <;> rfl

theorem Commas.front {us : List (List Char)} {t : List Char} (h : Commas us t)
    (hus : ∀ u ∈ us, Solid u) : ∃ b s, Blanks b ∧ Solid s ∧ t = b ++ s := by
  cases h with
  | @one u t hpadded =>
    cases hpadded with
    | @mk b _ b' hb _ => exact ⟨b, u ++ b', hb, (hus u List.mem_cons_self).append b', rfl⟩
  | @more u p t us hpadded _ =>
    cases hpadded with
    | @mk b _ b' hb _ =>
      have hassoc : b ++ (u ++ b') ++ ',' :: t = b ++ (u ++ (b' ++ ',' :: t)) := by simp
      exact ⟨b, _, hb, (hus u List.mem_cons_self).append _, hassoc⟩

theorem solid_of_elements {bracket : Bracket} {values us : List (List Char)}
    (hvalues : ∀ v ∈ values, Solid v) (h : List.Forall₂ (ElementText bracket) values us) :
    ∀ u ∈ us, Solid u := by
  induction h with
  | nil => exact fun u hu => absurd hu List.not_mem_nil
  | cons helement _ ih =>
    obtain ⟨hvalue, hvalues⟩ := List.forall_mem_cons.mp hvalues
    exact List.forall_mem_cons.mpr ⟨helement.solid hvalue, ih hvalues⟩

theorem skips_bracketed {bracket : Bracket} {values us : List (List Char)} {t : List Char}
    (hsolid : ∀ v ∈ values, Solid v) (hvalues : ∀ v ∈ values, Skips v)
    (helements : List.Forall₂ (ElementText bracket) values us)
    (h : Enclosed bracket.opening bracket.closing us t) : Skips t := by
  cases h with
  | @empty b hb =>
    refine skips_of_start fun inside rest _ => ?_
    rw [List.cons_append, List.append_assoc, List.singleton_append, skipStart_opening,
      openBracket_empty hb]
  | @elements us t hcommas =>
    obtain ⟨front, s, hfront, hs, ht⟩ := hcommas.front (solid_of_elements hsolid helements)
    intro inside b rest hb hrest
    have hassoc : bracket.opening :: (t ++ [bracket.closing]) ++ rest =
        bracket.opening :: (t ++ bracket.closing :: rest) := by simp
    have hstart : skipStart inside (b ++ bracket.opening :: (t ++ bracket.closing :: rest)) =
        .ok (.member (bracket :: inside) (t ++ bracket.closing :: rest)) := by
      rw [skipStart_append hb, skipStart_opening, ht, List.append_assoc,
        openBracket_solid hfront (hs.append _)]
    rw [hassoc, skipFrom_eq_resume, hstart]
    · exact skipMember_commas hcommas hvalues helements rest
    · intro inside' left hleft
      rw [hstart] at hleft
      cases hleft
      simp only [List.length_append, List.length_cons]
      omega

/-- Any value is passed over, and nothing but the value. -/
theorem ValueText.skips {t : List Char} (h : ValueText t) : Skips t := by
  induction h with
  | null => exact skips_of_start fun _ _ _ => rfl
  | bool b => exact skips_of_start fun inside rest _ => skipStart_bool b inside rest
  | quoted hquoted =>
    exact skips_of_start fun inside rest _ => skipStart_quoted hquoted inside rest
  | number hnumber =>
    exact skips_of_start fun inside rest hrest => skipStart_number hnumber hrest inside
  | bracketed hvalues helements henclosed ih =>
    exact skips_bracketed (fun v hv => (hvalues v hv).solid) ih helements henclosed

theorem skipValue_valueText {t b rest : List Char} (h : ValueText t) (hb : Blanks b)
    (hrest : Ends rest) : skipValue (b ++ (t ++ rest)) = .ok ((), rest) := by
  rw [skipValue, h.skips [] b rest hb hrest]
  rfl

end RouteMigration.Document
