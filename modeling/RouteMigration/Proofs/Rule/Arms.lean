import RouteMigration.Proofs.Rule.Targets
import RouteMigration.Proofs.Rule.Unchanged

/-! A rule read for its literals alone. A disjunction is then its two arms and the characters
around them, and expanding goes by the arms unless they pair two spellings. So what stands in
parentheses may be regrouped, as collapsing does, without a change to the literals. -/

namespace RouteMigration.Rule

open RouteMigration.Text RouteMigration.Target

/-! ## Disjunctions taken apart -/

namespace Token

def IsLiteral : Token → Prop
  | plain _ | disjunction _ _ _ _ => False
  | literal value => '"' ∉ value

/-- The literals of a token, and the characters around them. -/
def apart : Token → List Token
  | plain c => [plain c]
  | literal value => [literal value]
  | disjunction first before after second =>
    plain '(' :: literal first :: ((before ++ (orSign ++ after)).map plain ++
      [literal second, plain ')'])

end Token

theorem literal?_recognizes : Recognizes literal? Token.IsLiteral := by
  intro s t
  rw [literal?_eq_some_iff]
  constructor
  · rintro ⟨value, rfl, hv, hp⟩
    exact ⟨hv, hp⟩
  · rintro ⟨ht, hp⟩
    cases t with
    | plain | disjunction => exact ht.elim
    | literal value => exact ⟨value, rfl, ht, hp⟩

theorem disjunction_text (first before after second : List Char) :
    (Token.disjunction first before after second).text = '(' :: (literalText first ++
      ((before ++ (orSign ++ after)) ++ (literalText second ++ [')']))) := by
  simp [Token.text]

theorem apart_text (t : Token) : textOf t.apart = t.text := by
  cases t with
  | plain | literal => simp [Token.apart]
  | disjunction => simp [Token.apart, Token.text]

theorem aparts_text (ts : List Token) : textOf (ts.flatMap Token.apart) = textOf ts := by
  rw [textOf, List.flatMap_assoc]
  exact congrArg (List.flatMap · ts) (funext apart_text)

theorem noneAt_isLiteral_iff {s : List Char} :
    NoneAt Token.IsLiteral s ↔ readLiteral? s = none := by
  rw [← literal?_recognizes.eq_none_iff, literal?]
  cases readLiteral? s <;> simp

theorem noneAt_isLiteral_cons {c : Char} (h : c ≠ 'e') (s : List Char) :
    NoneAt Token.IsLiteral (c :: s) := by
  rintro t ht ⟨rest, heq⟩
  cases t with
  | plain | disjunction => exact ht.elim
  | literal value => exact h (List.cons.inj heq).1.symm

theorem Reading.plainRun {ts : List Token} (h : Reading Token.IsLiteral ts) {run : List Char}
    (hrun : 'e' ∉ run) : Reading Token.IsLiteral (run.map Token.plain ++ ts) := by
  induction run with
  | nil => exact h
  | cons c run ih =>
    simp only [List.mem_cons, not_or] at hrun
    exact .plain (noneAt_isLiteral_cons (Ne.symm hrun.1) _) (ih hrun.2)

theorem not_mem_e_between {first before after second : List Char}
    (h : IsDisjunction first before after second) : 'e' ∉ before ++ (orSign ++ after) := fun he =>
  (not_opening_between h 'e' he).2 rfl

theorem Reading.apart {t : Token} {ts : List Token} (ht : t.IsPattern)
    (h : Reading Token.IsLiteral ts) : Reading Token.IsLiteral (t.apart ++ ts) := by
  cases t with
  | plain => exact ht.elim
  | literal value => exact .found ht h
  | disjunction first before after second =>
    have hd : IsDisjunction first before after second := ht
    have hclose : Reading Token.IsLiteral (.plain ')' :: ts) :=
      .plain (noneAt_isLiteral_cons (by decide) _) h
    have hsecond : Reading Token.IsLiteral (.literal second :: .plain ')' :: ts) :=
      .found hd.second hclose
    have hfirst : Reading Token.IsLiteral (.literal first ::
        ((before ++ (orSign ++ after)).map Token.plain ++ .literal second :: .plain ')' :: ts)) :=
      .found hd.first (hsecond.plainRun (not_mem_e_between hd))
    have hopen := Reading.plain (noneAt_isLiteral_cons (c := '(') (by decide) _) hfirst
    simpa [Token.apart] using hopen

theorem reading_aparts {ts : List Token} (h : Reading Token.IsPattern ts) :
    Reading Token.IsLiteral (ts.flatMap Token.apart) := by
  induction h with
  | nil => exact .nil
  | found ht _ ih => exact ih.apart ht
  | @plain c ts hnone _ ih =>
    have hfront : NoneAt Token.IsLiteral (c :: textOf (ts.flatMap Token.apart)) := by
      rw [aparts_text, noneAt_isLiteral_iff]
      exact readLiteral?_eq_none hnone
    exact .plain hfront ih

/-- Whatever a rule looks like, its literals are those that stand alone and those in
disjunctions. -/
theorem scan_literal (rule : List Char) :
    scan literal? rule = (scan pattern? rule).flatMap Token.apart := by
  obtain ⟨hread, htext⟩ := reading_scan pattern?_recognizes rule
  conv_lhs => rw [← htext, ← aparts_text]
  exact scan_textOf literal?_recognizes (reading_aparts hread)

/-! ## Expanding by literals -/

theorem expand_apart {t : Token} (h : t.pair? = none) :
    t.apart.flatMap Token.expand = t.expand := by
  cases t with
  | plain | literal => simp [Token.apart]
  | disjunction first before after second =>
    rw [Token.pair?] at h
    simp [Token.apart, Token.expand, h, List.flatMap_map]

theorem expand_eq_apart {rule : List Char} (h : ∀ t ∈ scan pattern? rule, t.pair? = none) :
    expand rule = (scan literal? rule).flatMap Token.expand := by
  rw [scan_literal, List.flatMap_assoc, expand, List.flatMap_def, List.flatMap_def]
  congr 1
  exact List.map_congr_left fun t ht => (expand_apart (h t ht)).symm

/-! ## Pairs -/

theorem proper_of_pair? {t : Token} {q : Qualified} (h : t.pair? = some q) : q.IsProper := by
  cases t with
  | plain | literal => cases h
  | disjunction => exact (bothSpellings?_eq_some_iff.mp h).1

theorem armed_of_pair? {t : Token} {q : Qualified} (ht : t.IsPattern) (h : t.pair? = some q) :
    t.IsArmed := by
  cases t with
  | plain | literal => cases h
  | disjunction => exact ht

theorem quote_of_pair? {t : Token} {q : Qualified} (ht : t.IsPattern) (h : t.pair? = some q)
    (spelling : Spelling) : '"' ∉ q.spell spelling := by
  cases t with
  | plain | literal => cases h
  | disjunction first before after second =>
    have hd : IsDisjunction first before after second := ht
    obtain ⟨-, one, -, -, rfl, -⟩ := bothSpellings?_eq_some_iff.mp h
    exact fun hquote => hd.first ((quote_mem_spell one).mpr ((quote_mem_spell spelling).mp hquote))

/-! ## The literals of a collapsed rule -/

/-- What collapsing writes for a token, as a token. -/
def Token.collapsed (t : Token) : Token :=
  match t.pair? with
  | some q => literal q.canonical
  | none => t

theorem collapsed_text (t : Token) : t.collapsed.text = t.collapse := by
  rw [Token.collapsed]
  cases h : t.pair? with
  | none => rw [collapse_of_no_pair h]
  | some q => rw [collapse_of_pair? h, Token.text]

theorem collapsed_isPattern {t : Token} (h : t.IsPattern) : t.collapsed.IsPattern := by
  rw [Token.collapsed]
  cases hp : t.pair? with
  | none => exact h
  | some q => exact quote_of_pair? h hp .qualifierFirst

/-- The tokens of a rule as collapsing leaves them, disjunctions taken apart. -/
def collapsedApart (ts : List Token) : List Token := ts.flatMap fun t => t.collapsed.apart

theorem collapsedApart_text (ts : List Token) :
    textOf (collapsedApart ts) = ts.flatMap Token.collapse := by
  rw [textOf, collapsedApart, List.flatMap_assoc]
  refine congrArg (List.flatMap · ts) (funext fun t => ?_)
  rw [← collapsed_text, ← apart_text, textOf]

theorem reading_collapsedApart {ts : List Token} (h : Reading Token.IsPattern ts)
    (hc : LiteralsComplete (textOf ts)) : Reading Token.IsLiteral (collapsedApart ts) := by
  induction h with
  | nil => exact .nil
  | found ht _ ih => exact (ih (hc.suffix (List.suffix_append _ _))).apart (collapsed_isPattern ht)
  | @plain c ts hnone hts ih =>
    refine .plain ?_ (ih (hc.suffix (List.suffix_cons _ _)))
    have hfront := respells_collapse.readLiteral?_plain hnone hts hc
    rwa [← collapsedApart_text, ← noneAt_isLiteral_iff] at hfront

/-- A token of a rule whose literals are all complete. -/
inductive Token.IsComplete : Token → Prop
  | plain (c : Char) : IsComplete (.plain c)
  | literal {value : List Char} : IsValue value → IsComplete (.literal value)
  | disjunction {first before after second : List Char} :
      IsDisjunction first before after second → IsValue first → IsValue second →
        IsComplete (.disjunction first before after second)

theorem Token.IsComplete.values {t : Token} (h : t.IsComplete) :
    ∀ value ∈ t.values, IsValue value := by
  cases h with
  | plain => simp [Token.values]
  | literal hvalue => simpa [Token.values] using hvalue
  | disjunction _ hfirst hsecond => simpa [Token.values] using And.intro hfirst hsecond

theorem Reading.isComplete {ts : List Token} (h : Reading Token.IsPattern ts)
    (hv : ∀ t ∈ ts, ∀ value ∈ t.values, IsValue value) : ∀ t ∈ ts, t.IsComplete := by
  intro t ht
  have hvalues := hv t ht
  rcases h.mem t ht with hpattern | ⟨c, rfl⟩
  · cases t with
    | plain => exact hpattern.elim
    | literal value => exact .literal (hvalues value (List.mem_singleton_self value))
    | disjunction => exact .disjunction hpattern (isValue_arms hvalues).1 (isValue_arms hvalues).2
  · exact .plain c

theorem LiteralsComplete.tokens {rule : List Char} (h : LiteralsComplete rule) :
    ∀ t ∈ scan pattern? rule, t.IsComplete := by
  obtain ⟨hread, htext⟩ := reading_scan pattern?_recognizes rule
  exact hread.isComplete (values_of_reading hread (by rwa [htext]))

theorem collapse_eq_flatMap {rule : List Char} (h : ∀ t ∈ scan pattern? rule, t.IsComplete) :
    collapse rule = (scan pattern? rule).flatMap Token.collapse := by
  obtain ⟨hread, htext⟩ := reading_scan pattern?_recognizes rule
  conv_lhs => rw [← htext]
  exact collapse_textOf hread fun value hmem => (h _ hmem).values value (by simp [Token.values])

/-- Where all literals are complete, the literals of the collapsed rule are the canonical ones
written for pairs, and all others as they were. -/
theorem scan_literal_collapse {rule : List Char} (h : LiteralsComplete rule) :
    scan literal? (collapse rule) = collapsedApart (scan pattern? rule) := by
  obtain ⟨hread, htext⟩ := reading_scan pattern?_recognizes rule
  rw [collapse_eq_flatMap h.tokens, ← collapsedApart_text]
  exact scan_textOf literal?_recognizes (reading_collapsedApart hread (by rwa [htext]))

theorem literal_mem_apart_iff {t : Token} {value : List Char} :
    .literal value ∈ t.apart ↔ value ∈ t.values := by
  cases t <;> simp [Token.apart, Token.values]

/-- Each value of a collapsed rule is one that collapsing left or wrote. -/
theorem value_of_collapse {rule : List Char} (h : LiteralsComplete rule) {t : Token}
    (ht : t ∈ scan pattern? (collapse rule)) {value : List Char} (hvalue : value ∈ t.values) :
    ∃ old ∈ scan pattern? rule, value ∈ old.collapsed.values := by
  have hmem : .literal value ∈ scan literal? (collapse rule) := by
    rw [scan_literal]
    exact List.mem_flatMap.mpr ⟨t, ht, literal_mem_apart_iff.mpr hvalue⟩
  rw [scan_literal_collapse h] at hmem
  obtain ⟨old, hold, hmem⟩ := List.mem_flatMap.mp hmem
  exact ⟨old, hold, literal_mem_apart_iff.mp hmem⟩

/-! ## Where disjunctions stand -/

theorem Reading.noneAt_of_plains {kind : Token → Prop} (hplain : ∀ c, ¬ kind (.plain c))
    {ts : List Token} {u w : List Char} (hw : w ≠ [])
    (h : Reading kind ((u ++ w).map Token.plain ++ ts)) : NoneAt kind (w ++ textOf ts) := by
  induction u with
  | nil =>
    obtain ⟨c, w, rfl⟩ := List.exists_cons_of_ne_nil hw
    cases h with
    | found ht _ => exact absurd ht (hplain c)
    | plain hnone _ => simpa using hnone
  | cons c u ih =>
    cases h with
    | found ht _ => exact absurd ht (hplain c)
    | plain _ hrest => exact ih hrest

/-- No disjunction begins inside of a token. -/
theorem noneAt_inside {t : Token} (ht : t.IsComplete) {u w : List Char} (htext : t.text = u ++ w)
    (hu : u ≠ []) (hw : w ≠ []) (rest : List Char) : NoneAt Token.IsArmed (w ++ rest) := by
  obtain ⟨hread, hrest⟩ := reading_scan disjunction?_recognizes rest
  rw [← hrest]
  cases ht with
  | plain c =>
    rcases List.append_eq_cons_iff.mp htext.symm with ⟨h, -⟩ | ⟨v, -, hnil⟩
    · exact absurd h hu
    · exact absurd (List.append_eq_nil_iff.mp hnil.symm).2 hw
  | @literal value hvalue =>
    have hliteral := hread.spreadLiteral hvalue.quote hvalue.not_opening
    rw [show literalText value = u ++ w from htext] at hliteral
    exact hliteral.noneAt_of_plains (fun _ h => h) hw
  | @disjunction first before after second hd hfirst hsecond =>
    obtain ⟨c, u, rfl⟩ := List.exists_cons_of_ne_nil hu
    have hclose : Reading Token.IsArmed (.plain ')' :: scan disjunction? rest) :=
      .plain (noneAt_armed_cons (by decide) _) hread
    have hbetween : '(' ∉ before ++ (orSign ++ after) := fun hmem =>
      (not_opening_between hd '(' hmem).1 rfl
    have hinside := ((hclose.spreadLiteral hsecond.quote hsecond.not_opening).spreadRun
      hbetween).spreadLiteral hfirst.quote hfirst.not_opening
    rw [disjunction_text, List.cons_append, List.cons.injEq] at htext
    refine Reading.noneAt_of_plains (fun _ h => h) (u := u) hw ?_
    rw [← htext.2]
    simpa using hinside

/-- A text that begins inside of no token begins where one does. -/
theorem starts_at {ts : List Token} {piece : List Char} (hpiece : piece ≠ [])
    (hinside : ∀ t ∈ ts, ∀ u w rest, t.text = u ++ w → u ≠ [] → w ≠ [] → ¬ piece <+: w ++ rest)
    {u w : List Char} (heq : textOf ts = u ++ (piece ++ w)) :
    ∃ us t vs, ts = us ++ t :: vs ∧ textOf us = u ∧ textOf (t :: vs) = piece ++ w := by
  induction ts generalizing u with
  | nil => simp [hpiece] at heq
  | cons t ts ih =>
    have hrest := fun x hx => hinside x (List.mem_cons_of_mem t hx)
    cases u with
    | nil => exact ⟨[], t, ts, rfl, rfl, heq⟩
    | cons x u =>
      rw [textOf_cons] at heq
      rcases List.append_eq_append_iff.mp heq with ⟨v, hu, htail⟩ | ⟨v, htext, htail⟩
      · obtain ⟨us, t', vs, rfl, rfl, hvs⟩ := ih hrest htail
        exact ⟨t :: us, t', vs, rfl, hu.symm, hvs⟩
      · by_cases hnil : v = []
        · subst hnil
          rw [List.append_nil] at htext
          obtain ⟨us, t', vs, rfl, hus, hvs⟩ := ih hrest (u := []) htail.symm
          exact ⟨t :: us, t', vs, rfl, by rw [textOf_cons, hus, htext, List.append_nil], hvs⟩
        · exact absurd ⟨w, htail⟩ (hinside t List.mem_cons_self _ _ (textOf ts) htext
            (List.cons_ne_nil x u) hnil)

/-- In a list of tokens with complete literals, a disjunction stands where it is a token itself,
or where its parenthesis is one. -/
theorem opening_at {ts : List Token} (hts : ∀ t ∈ ts, t.IsComplete) {d : Token} (hd : d.IsArmed)
    {u w : List Char} (heq : textOf ts = u ++ (d.text ++ w)) :
    ∃ us t vs, ts = us ++ t :: vs ∧ textOf us = u ∧ textOf (t :: vs) = d.text ++ w ∧
      (t = d ∨ t = .plain '(') := by
  obtain ⟨us, t, vs, rfl, hus, htext⟩ := starts_at d.text_ne_nil
    (fun t ht _ _ rest h hu hw => noneAt_inside (hts t ht) h hu hw rest d hd) heq
  refine ⟨us, t, vs, rfl, hus, htext, ?_⟩
  cases d with
  | plain | literal => exact hd.elim
  | disjunction first before after second =>
    rw [disjunctionText_append, textOf_cons] at htext
    cases hts t (by simp) with
    | plain c => exact .inr (congrArg Token.plain (List.cons.inj htext).1)
    | literal => cases htext
    | disjunction ht =>
      have hread := disjunction?_text ht (textOf vs)
      rw [htext, ← disjunctionText_append, disjunction?_text hd] at hread
      exact .inl (Option.some.inj hread).symm

theorem disjunction_at {ts : List Token} (h : Reading Token.IsPattern ts)
    (hts : ∀ t ∈ ts, t.IsComplete) {d : Token} (hd : d.IsArmed) {u w : List Char}
    (heq : textOf ts = u ++ (d.text ++ w)) :
    ∃ us vs, ts = us ++ d :: vs ∧ textOf us = u ∧ textOf vs = w := by
  obtain ⟨us, t, vs, rfl, hus, htext, -⟩ := opening_at hts hd heq
  obtain ⟨vs', hvs, -, hw⟩ := h.drop.front pattern?_recognizes hd.isPattern htext
  rw [hvs]
  exact ⟨us, vs', rfl, hus, hw⟩

end RouteMigration.Rule
