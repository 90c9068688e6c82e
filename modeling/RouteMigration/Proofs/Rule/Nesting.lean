import RouteMigration.Proofs.Rule.Arms

/-! Collapsing twice. Where all literals are complete, one pass leaves work for a second just
where a pair is an arm of a further disjunction and the other arm is the same target with the
environment first: the literal that the first pass writes for the pair and that arm are a pair
again. -/

namespace RouteMigration.Rule

open RouteMigration.Text RouteMigration.Target

/-! ## What a second pass reads -/

theorem pair?_collapsed (t : Token) : t.collapsed.pair? = none := by
  rw [Token.collapsed]
  cases h : t.pair? with
  | none => exact h
  | some q => rfl

theorem isValue_of_pair? {t : Token} (ht : t.IsComplete) {q : Qualified} (h : t.pair? = some q)
    (spelling : Spelling) : IsValue (q.spell spelling) := by
  cases ht with
  | plain | literal => cases h
  | disjunction _ hfirst _ =>
    obtain ⟨-, one, -, -, rfl, -⟩ := bothSpellings?_eq_some_iff.mp h
    exact hfirst.respell spelling

theorem Token.IsComplete.collapsed {t : Token} (h : t.IsComplete) : t.collapsed.IsComplete := by
  rw [Token.collapsed]
  cases hp : t.pair? with
  | none => exact h
  | some q => exact .literal (isValue_of_pair? h hp .qualifierFirst)

theorem LiteralsComplete.tokens_collapse {rule : List Char} (h : LiteralsComplete rule) :
    ∀ t ∈ scan pattern? (collapse rule), t.IsComplete := by
  refine (reading_scan pattern?_recognizes _).1.isComplete fun t ht value hvalue => ?_
  obtain ⟨old, hold, hvalue⟩ := value_of_collapse h ht hvalue
  exact (h.tokens old hold).collapsed.values value hvalue

theorem collapse_twice_iff {rule : List Char} (h : LiteralsComplete rule) :
    collapse (collapse rule) = collapse rule ↔
      ∀ t ∈ scan pattern? (collapse rule), t.pair? = none := by
  have htext := (reading_scan pattern?_recognizes (collapse rule)).2
  rw [collapse_eq_flatMap h.tokens_collapse, ← flatMap_collapse_eq_iff, htext]

theorem collapsed_eq_plain {t : Token} {c : Char} (h : t.collapsed = .plain c) : t = .plain c := by
  cases hp : t.pair? with
  | none =>
    rw [Token.collapsed, hp] at h
    exact h
  | some q =>
    rw [Token.collapsed, hp] at h
    cases h

theorem collapsed_of_pair? {t : Token} {q : Qualified} (h : t.pair? = some q) :
    t.collapsed = .literal q.canonical := by
  rw [Token.collapsed, h]

theorem collapsed_eq_spell {t : Token} {q : Qualified} (hq : q.IsProper) {s : Spelling}
    (h : t.collapsed = .literal (q.spell s)) :
    t = .literal (q.spell s) ∨ (t.pair? = some q ∧ s = .qualifierFirst) := by
  cases hp : t.pair? with
  | none =>
    rw [Token.collapsed, hp] at h
    exact .inl h
  | some r =>
    rw [collapsed_of_pair? hp] at h
    obtain ⟨rfl, rfl⟩ := Qualified.spell_injective (proper_of_pair? hp) hq (Token.literal.inj h)
    exact .inr ⟨rfl, rfl⟩

/-- A literal at the front of what collapsing wrote is what it made of the first token. -/
theorem front_collapse {ts : List Token} (h : Reading Token.IsPattern ts)
    (hc : LiteralsComplete (textOf ts)) {value rest : List Char} (hv : '"' ∉ value)
    (heq : ts.flatMap Token.collapse = literalText value ++ rest) :
    ∃ t us, ts = t :: us ∧ t.IsPattern ∧ t.collapsed = .literal value ∧
      Reading Token.IsPattern us ∧ us.flatMap Token.collapse = rest := by
  cases h with
  | nil =>
    rw [literalText_cons] at heq
    cases heq
  | @plain c us hnone hus =>
    have hread : readLiteral? (c :: us.flatMap Token.collapse) = some (value, rest) :=
      readLiteral?_eq_some_iff.mpr ⟨hv, heq⟩
    rw [respells_collapse.readLiteral?_plain hnone hus hc] at hread
    cases hread
  | @found t us ht hus =>
    rw [List.flatMap_cons, ← collapsed_text] at heq
    have hcollapsed := collapsed_isPattern ht
    refine ⟨t, us, rfl, ht, ?_⟩
    cases hd : t.collapsed with
    | plain =>
      rw [hd] at hcollapsed
      exact hcollapsed.elim
    | disjunction =>
      rw [hd, disjunctionText_append, literalText_cons] at heq
      cases heq
    | literal old =>
      rw [hd] at hcollapsed heq
      obtain ⟨rfl, hrest⟩ := literal_unique hcollapsed hv heq
      exact ⟨rfl, hus, hrest⟩

theorem not_opening_close : ∀ c ∈ [')'], c ≠ '(' ∧ c ≠ 'e' := by simp

/-- A disjunction right behind a character that opened none has the tokens of its arms there. -/
theorem arms_of_collapse {ts : List Token} (h : Reading Token.IsPattern ts)
    (hc : LiteralsComplete (textOf ts)) {first before after second rest : List Char}
    (hd : IsDisjunction first before after second)
    (heq : ts.flatMap Token.collapse = literalText first ++ ((before ++ (orSign ++ after)) ++
      (literalText second ++ ')' :: rest))) :
    ∃ one two us, one.IsPattern ∧ two.IsPattern ∧ one.collapsed = .literal first ∧
      two.collapsed = .literal second ∧
      ts = one :: ((before ++ (orSign ++ after)).map Token.plain ++ two :: .plain ')' :: us) := by
  obtain ⟨one, ts₁, rfl, hone, hfirst, hts₁, heq⟩ := front_collapse h hc hd.first heq
  have hc₁ : LiteralsComplete (textOf ts₁) := hc.suffix (List.suffix_append _ _)
  obtain ⟨ts₂, rfl, hts₂, heq⟩ := respells_collapse.run id hts₁ (not_opening_between hd) heq
  have hc₂ : LiteralsComplete (textOf ts₂) := by
    rw [textOf_append] at hc₁
    exact hc₁.suffix (List.suffix_append _ _)
  obtain ⟨two, ts₃, rfl, htwo, hsecond, hts₃, heq⟩ := front_collapse hts₂ hc₂ hd.second heq
  obtain ⟨us, rfl, -, -⟩ := respells_collapse.run id hts₃ not_opening_close heq
  exact ⟨one, two, us, hone, htwo, hfirst, hsecond, rfl⟩

/-! ## Nested pairs -/

/-- Both spellings of a target as a disjunction, and its spelling with the environment first. -/
structure Token.Nest (q : Qualified) (pair other : Token) : Prop where
  armed : pair.IsArmed
  pair : pair.pair? = some q
  other : other = literal (q.spell .environmentFirst)

/-- The two of them are the arms of a further disjunction. -/
def NestsPair (rule : List Char) : Prop :=
  ∃ (q : Qualified) (one two : Token) (before after : List Char),
    AllBlank before ∧ AllBlank after ∧ (Token.Nest q one two ∨ Token.Nest q two one) ∧
      '(' :: (one.text ++ ((before ++ (orSign ++ after)) ++ (two.text ++ [')']))) <:+: rule

theorem Token.Nest.isPattern {q : Qualified} {pair other : Token} (h : Token.Nest q pair other) :
    pair.IsPattern ∧ other.IsPattern := by
  obtain ⟨harmed, hpair, rfl⟩ := h
  exact ⟨harmed.isPattern, quote_of_pair? harmed.isPattern hpair .environmentFirst⟩

/-- Two tokens that collapse to both spellings of a target are the two literals, or one of them
is a pair. -/
theorem Token.Nest.of_collapsed {q : Qualified} (hq : q.IsProper) {one two : Token}
    (hone : one.IsPattern) (htwo : two.IsPattern) {s t : Spelling} (hne : s ≠ t)
    (hfirst : one.collapsed = .literal (q.spell s))
    (hsecond : two.collapsed = .literal (q.spell t)) :
    (one = .literal (q.spell s) ∧ two = .literal (q.spell t)) ∨
      Token.Nest q one two ∨ Token.Nest q two one := by
  have hother : ∀ {s : Spelling}, s ≠ .qualifierFirst → s = .environmentFirst := by
    intro s h
    cases s <;> simp at h ⊢
  rcases collapsed_eq_spell hq hfirst with rfl | ⟨hp, rfl⟩
  · rcases collapsed_eq_spell hq hsecond with rfl | ⟨hp, rfl⟩
    · exact .inl ⟨rfl, rfl⟩
    · rw [hother hne]
      exact .inr (.inr ⟨armed_of_pair? htwo hp, hp, rfl⟩)
  · rcases collapsed_eq_spell hq hsecond with rfl | ⟨-, rfl⟩
    · rw [hother hne.symm]
      exact .inr (.inl ⟨armed_of_pair? hone hp, hp, rfl⟩)
    · exact absurd rfl hne

/-- Collapsing makes both spellings of the target of a pair and its other arm. -/
theorem Token.Nest.collapsed {q : Qualified} {one two : Token}
    (h : Token.Nest q one two ∨ Token.Nest q two one) :
    ∃ s t, s ≠ t ∧ one.collapsed = .literal (q.spell s) ∧ two.collapsed = .literal (q.spell t) := by
  rcases h with ⟨-, hpair, rfl⟩ | ⟨-, hpair, rfl⟩
  · exact ⟨.qualifierFirst, .environmentFirst, by simp, collapsed_of_pair? hpair, rfl⟩
  · exact ⟨.environmentFirst, .qualifierFirst, by simp, rfl, collapsed_of_pair? hpair⟩

/-! ## A pair that is left was nested -/

theorem collapseds_text (ts : List Token) :
    textOf (ts.map Token.collapsed) = ts.flatMap Token.collapse := by
  rw [textOf, List.flatMap_map]
  exact congrArg (List.flatMap · ts) (funext collapsed_text)

/-- A pair in the collapsed rule begins with a parenthesis that opened no disjunction before. -/
theorem pair_opened {rule : List Char} (h : LiteralsComplete rule) {d : Token}
    (hmem : d ∈ scan pattern? (collapse rule)) (harmed : d.IsArmed) (hpair : d.pair? ≠ none) :
    ∃ us vs rest, scan pattern? rule = us ++ .plain '(' :: vs ∧
      '(' :: vs.flatMap Token.collapse = d.text ++ rest := by
  obtain ⟨xs, ys, hsplit⟩ := List.append_of_mem hmem
  have htext : textOf ((scan pattern? rule).map Token.collapsed) =
      textOf xs ++ (d.text ++ textOf ys) := by
    rw [collapseds_text, ← collapse_eq_flatMap h.tokens, ← textOf_cons, ← textOf_append,
      ← hsplit, (reading_scan pattern?_recognizes (collapse rule)).2]
  have hcomplete : ∀ t ∈ (scan pattern? rule).map Token.collapsed, t.IsComplete := by
    intro t ht
    obtain ⟨old, hold, rfl⟩ := List.mem_map.mp ht
    exact (h.tokens old hold).collapsed
  obtain ⟨us', t, vs', hts, -, htext, hstart⟩ := opening_at hcomplete harmed htext
  obtain ⟨us, ts, hscan, -, hcons⟩ := List.map_eq_append_iff.mp hts
  obtain ⟨old, vs, rfl, hold, rfl⟩ := List.map_eq_cons_iff.mp hcons
  rcases hstart with rfl | rfl
  · exact absurd (hold ▸ pair?_collapsed old) hpair
  · rw [textOf_cons, collapseds_text] at htext
    exact ⟨us, vs, textOf ys, by rw [hscan, collapsed_eq_plain hold], htext⟩

theorem NestsPair.of_pair {rule : List Char} (h : LiteralsComplete rule) {d : Token}
    (hmem : d ∈ scan pattern? (collapse rule)) {p : Qualified} (hpair : d.pair? = some p) :
    NestsPair rule := by
  cases d with
  | plain | literal => cases hpair
  | disjunction first before after second =>
    have hd : IsDisjunction first before after second :=
      ((reading_scan pattern?_recognizes _).1.mem _ hmem).resolve_right (by simp)
    obtain ⟨us, vs, rest, hts, heq⟩ := pair_opened h hmem hd (by simp [hpair])
    obtain ⟨hread, htext⟩ := reading_scan pattern?_recognizes rule
    rw [hts] at hread htext
    have hc : LiteralsComplete (textOf vs) := by
      refine h.suffix ⟨textOf us ++ ['('], ?_⟩
      rw [← htext]
      simp
    cases hread.drop with
    | found hkind _ => exact hkind.elim
    | plain hnone hvs =>
      rw [disjunctionText_append] at heq
      have heq : vs.flatMap Token.collapse = literalText first ++
          ((before ++ (orSign ++ after)) ++ (literalText second ++ ')' :: rest)) := by
        rw [(List.cons.inj heq).2]
        simp [orSign]
      obtain ⟨one, two, ws, hone, htwo, hfirst, hsecond, rfl⟩ := arms_of_collapse hvs hc hd heq
      have hinfix : '(' :: (one.text ++ ((before ++ (orSign ++ after)) ++ (two.text ++ [')']))) <:+:
          rule := by
        refine ⟨textOf us, textOf ws, ?_⟩
        rw [← htext]
        simp
      obtain ⟨hp, s, t, hne, rfl, rfl⟩ := bothSpellings?_eq_some_iff.mp hpair
      rcases Token.Nest.of_collapsed hp hone htwo hne hfirst hsecond with ⟨rfl, rfl⟩ | hnest
      · refine absurd ⟨textOf ws, ?_⟩ (hnone (.disjunction (p.spell s) before after (p.spell t)) hd)
        simp [Token.text]
      · exact ⟨p, one, two, before, after, hd.before, hd.after, hnest, hinfix⟩

/-! ## Nested pairs leave a pair -/

theorem split_before {us tail xs zs : List Token} {t : Token} (h : us ++ tail = xs ++ t :: zs)
    (hlt : (textOf xs).length < (textOf us).length) :
    ∃ ys, us = xs ++ t :: ys ∧ zs = ys ++ tail := by
  rcases List.append_eq_append_iff.mp h with ⟨ys, rfl, -⟩ | ⟨ys, rfl, hrest⟩
  · rw [textOf_append, List.length_append] at hlt
    omega
  · cases ys with
    | nil => simp at hlt
    | cons y ys =>
      obtain ⟨rfl, rfl⟩ := List.cons.inj hrest
      exact ⟨ys, rfl, rfl⟩

/-- A parenthesis before a pair is a token if what stands between the two would begin a
disjunction, were it to go on with the tail. -/
theorem opening_before {rule : List Char} (hc : LiteralsComplete rule) {pair : Token}
    {q : Qualified} (harmed : pair.IsArmed) (hpair : pair.pair? = some q)
    {u x w before after : List Char} (hrule : rule = u ++ '(' :: (x ++ (pair.text ++ w)))
    (hbefore : AllBlank before) (hafter : AllBlank after) (tail : List Token)
    (htail : ∀ t ∈ tail, t = .literal (q.spell .environmentFirst) ∨ ∃ c, t = .plain c)
    (hne : textOf tail ≠ [])
    (hx : '(' :: (x ++ textOf tail) = (Token.disjunction (q.spell .environmentFirst) before after
      (q.spell .environmentFirst)).text) :
    ∃ us vs, scan pattern? rule = us ++ .plain '(' :: vs ∧ textOf us = u := by
  obtain ⟨hread, htext⟩ := reading_scan pattern?_recognizes rule
  obtain ⟨us, vs, hsplit, hus, -⟩ := disjunction_at hread hc.tokens harmed (u := u ++ '(' :: x)
    (w := w) (by rw [htext, hrule]; simp)
  have htokens := hc.tokens
  rw [hsplit] at htokens
  have hvalue := isValue_of_pair? (htokens pair (by simp)) hpair .environmentFirst
  have hcomplete : ∀ t ∈ us ++ tail, t.IsComplete := by
    refine List.forall_mem_append.mpr ⟨fun t ht => htokens t (List.mem_append_left _ ht), ?_⟩
    intro t ht
    rcases htail t ht with rfl | ⟨c, rfl⟩
    · exact .literal hvalue
    · exact .plain c
  have hd : (Token.disjunction (q.spell .environmentFirst) before after
      (q.spell .environmentFirst)).IsArmed := ⟨hvalue.quote, hbefore, hafter, hvalue.quote⟩
  obtain ⟨xs, t, zs, hcut, rfl, hfront, hstart⟩ := opening_at hcomplete hd (u := u) (w := [])
    (by rw [textOf_append, hus, ← hx]; simp)
  have hlt : (textOf xs).length < (textOf us).length := by
    rw [hus, List.length_append, List.length_cons]
    omega
  obtain ⟨ys, rfl, rfl⟩ := split_before hcut hlt
  rcases hstart with rfl | rfl
  · have hnil : textOf (ys ++ tail) = [] := List.append_cancel_left hfront
    rw [textOf_append, List.append_eq_nil_iff] at hnil
    exact absurd hnil.2 hne
  · exact ⟨xs, ys ++ pair :: vs, by simp [hsplit], rfl⟩

/-- The parenthesis before a pair and its other arm is a token. -/
theorem Token.Nest.opening {rule : List Char} (hc : LiteralsComplete rule) {q : Qualified}
    {one two : Token} {before after u w : List Char} (hbefore : AllBlank before)
    (hafter : AllBlank after) (hnest : Token.Nest q one two ∨ Token.Nest q two one)
    (hrule : rule = u ++ '(' :: (one.text ++ ((before ++ (orSign ++ after)) ++
      (two.text ++ ')' :: w)))) :
    ∃ us vs, scan pattern? rule = us ++ .plain '(' :: vs ∧ textOf us = u := by
  rcases hnest with ⟨harmed, hpair, rfl⟩ | ⟨harmed, hpair, rfl⟩
  · have hplains : ∀ t ∈ (before ++ (orSign ++ after)).map Token.plain, ∃ c, t = .plain c := by
      intro t ht
      obtain ⟨c, -, rfl⟩ := List.mem_map.mp ht
      exact ⟨c, rfl⟩
    refine opening_before hc harmed hpair (x := []) hrule hbefore hafter
      (.literal (q.spell .environmentFirst) :: ((before ++ (orSign ++ after)).map plain ++
        [.literal (q.spell .environmentFirst), .plain ')'])) ?_ (by simp) (by simp [Token.text])
    simp only [List.mem_cons, List.mem_append]
    rintro t (rfl | ht | rfl | rfl | h)
    · exact .inl rfl
    · exact .inr (hplains t ht)
    · exact .inl rfl
    · exact .inr ⟨_, rfl⟩
    · cases h
  · exact opening_before hc harmed hpair (w := ')' :: w)
      (x := literalText (q.spell .environmentFirst) ++ (before ++ (orSign ++ after)))
      (by rw [hrule]; simp [Token.text]) hbefore hafter
      ([.literal (q.spell .environmentFirst), .plain ')']) (by simp) (by simp)
      (by simp [Token.text])

theorem collapse_plain (c : Char) : (Token.plain c).collapse = [c] := rfl

theorem collapse_plains (run : List Char) : (run.map Token.plain).flatMap Token.collapse = run := by
  simp [List.flatMap_map, collapse_plain]

theorem arms_at {ts : List Token} (h : Reading Token.IsPattern ts) {one two : Token}
    (hone : one.IsPattern) (htwo : two.IsPattern) {between rest : List Char}
    (hbetween : ∀ c ∈ between, c ≠ '(' ∧ c ≠ 'e')
    (heq : textOf ts = one.text ++ (between ++ (two.text ++ ')' :: rest))) :
    ∃ us, ts = one :: (between.map Token.plain ++ two :: .plain ')' :: us) := by
  obtain ⟨ts₁, rfl, hts₁, heq⟩ := h.front pattern?_recognizes hone heq
  obtain ⟨ts₂, rfl, hts₂, heq⟩ := respells_text.run id hts₁ hbetween heq
  obtain ⟨ts₃, rfl, hts₃, heq⟩ := hts₂.front pattern?_recognizes htwo heq
  obtain ⟨us, rfl, -, -⟩ := respells_text.run id hts₃ not_opening_close heq
  exact ⟨us, rfl⟩

theorem NestsPair.pair {rule : List Char} (hc : LiteralsComplete rule) (h : NestsPair rule) :
    ∃ d ∈ scan pattern? (collapse rule), d.pair? ≠ none := by
  obtain ⟨q, one, two, before, after, hbefore, hafter, hnest, u, w, hrule⟩ := h
  have hrule : rule = u ++ '(' :: (one.text ++ ((before ++ (orSign ++ after)) ++
      (two.text ++ ')' :: w))) := by
    rw [← hrule]
    simp
  have hproper : q.IsProper := by
    rcases hnest with h | h <;> exact proper_of_pair? h.pair
  have hpattern : one.IsPattern ∧ two.IsPattern := by
    rcases hnest with h | h
    · exact h.isPattern
    · exact h.isPattern.symm
  obtain ⟨s, t, hne, hone, htwo⟩ := Token.Nest.collapsed hnest
  have hd : IsDisjunction (q.spell s) before after (q.spell t) := by
    refine ⟨?_, hbefore, hafter, ?_⟩
    · have := collapsed_isPattern hpattern.1
      rwa [hone] at this
    · have := collapsed_isPattern hpattern.2
      rwa [htwo] at this
  obtain ⟨hread, htext⟩ := reading_scan pattern?_recognizes rule
  obtain ⟨us, vs, hsplit, hus⟩ := Token.Nest.opening hc hbefore hafter hnest hrule
  have hvs : textOf vs =
      one.text ++ ((before ++ (orSign ++ after)) ++ (two.text ++ ')' :: w)) := by
    rw [hsplit, textOf_append, hus, hrule] at htext
    exact (List.cons.inj (List.append_cancel_left htext)).2
  rw [hsplit] at hread
  obtain ⟨ws, rfl⟩ := arms_at hread.drop.tail hpattern.1 hpattern.2 (not_opening_between hd) hvs
  have hcollapse : collapse rule = us.flatMap Token.collapse ++
      ((Token.disjunction (q.spell s) before after (q.spell t)).text ++
        ws.flatMap Token.collapse) := by
    have hfirst : one.collapse = literalText (q.spell s) := by
      rw [← collapsed_text, hone, Token.text]
    have hsecond : two.collapse = literalText (q.spell t) := by
      rw [← collapsed_text, htwo, Token.text]
    rw [collapse_eq_flatMap hc.tokens, hsplit]
    simp [hfirst, hsecond, Token.text, collapse_plain, collapse_plains]
  obtain ⟨hread', htext'⟩ := reading_scan pattern?_recognizes (collapse rule)
  obtain ⟨xs, ys, hmem, -⟩ := disjunction_at hread' hc.tokens_collapse
    (d := .disjunction (q.spell s) before after (q.spell t)) hd (htext'.trans hcollapse)
  refine ⟨.disjunction (q.spell s) before after (q.spell t), by simp [hmem], ?_⟩
  rw [Token.pair?, bothSpellings?_eq_some_iff.mpr ⟨hproper, s, t, hne, rfl, rfl⟩]
  simp

end RouteMigration.Rule
