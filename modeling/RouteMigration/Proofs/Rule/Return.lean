import RouteMigration.Proofs.Rule.Arms

/-! Expanding what collapsing wrote. Where all literals are complete and each qualified one is an
arm of a disjunction as expanding writes it, both passes together give the rule back, however
the disjunctions are nested: a collapsed rule has canonical literals only, so that no two of
them are taken for the spellings of one target. -/

namespace RouteMigration.Rule

open RouteMigration.Text RouteMigration.Target

/-! ## Expanded rules -/

/-- Every literal that spells a target is an arm of the disjunction that expanding writes for
that target: what comes before the literal ends as the disjunction does before the arm. -/
def FullyExpanded (rule : List Char) : Prop :=
  ∀ (q : Qualified) (spelling : Spelling) (before after : List Char),
    q.IsProper → '"' ∉ q.spell spelling →
      rule = before ++ (literalText (q.spell spelling) ++ after) →
        ∃ u w, rule = u ++ ((bothOf q).text ++ w) ∧
          (before = u ++ ['('] ∨
            before = u ++ '(' :: (literalText (q.spell .qualifierFirst) ++ " || ".toList))

theorem fullyExpanded_iff {rule : List Char} :
    FullyExpanded rule ↔ ∀ n ∈ List.range (rule.length + 1), ∀ p ∈ readLiteral? (rule.drop n),
      ∀ x ∈ Qualified.parse? p.1, ∃ m ∈ List.range (rule.length + 1),
        (bothOf x.1).text <+: rule.drop m ∧ (rule.take n = rule.take m ++ ['('] ∨
          rule.take n = rule.take m ++
            '(' :: (literalText (x.1.spell .qualifierFirst) ++ " || ".toList)) := by
  constructor
  · rintro h n - ⟨value, rest⟩ hread ⟨q, spelling⟩ hparse
    obtain ⟨hv, hdrop⟩ := readLiteral?_eq_some_iff.mp hread
    obtain ⟨hq, rfl⟩ := Qualified.parse?_eq_some_iff.mp hparse
    have hrule : rule = rule.take n ++ (literalText (q.spell spelling) ++ rest) := by
      rw [← hdrop, List.take_append_drop]
    obtain ⟨u, w, hu, hbefore⟩ := h q spelling _ _ hq hv hrule
    refine ⟨u.length, ?_, ?_, ?_⟩
    · rw [hu, List.mem_range, List.length_append]
      omega
    · rw [hu, List.drop_left]
      exact List.prefix_append _ _
    · have htake : rule.take u.length = u := by rw [hu, List.take_left]
      rwa [htake]
  · rintro h q spelling before after hq hv rfl
    have hdrop : (before ++ (literalText (q.spell spelling) ++ after)).drop before.length =
        literalText (q.spell spelling) ++ after := List.drop_left
    have hrange : before.length ∈
        List.range ((before ++ (literalText (q.spell spelling) ++ after)).length + 1) := by
      rw [List.mem_range, List.length_append]
      omega
    obtain ⟨m, -, ⟨w, hw⟩, hbefore⟩ := h before.length hrange (q.spell spelling, after)
      (readLiteral?_eq_some_iff.mpr ⟨hv, hdrop⟩) (q, spelling) (Qualified.parse?_spell hq spelling)
    refine ⟨_, w, ?_, by simpa using hbefore⟩
    rw [hw, List.take_append_drop]

instance (rule : List Char) : Decidable (FullyExpanded rule) :=
  decidable_of_iff _ fullyExpanded_iff.symm

/-! ## Their tokens -/

/-- A token without qualified literals, or a disjunction as expanding writes it. -/
def Token.Expanded (t : Token) : Prop :=
  (∃ q, q.IsProper ∧ t = bothOf q) ∨ ∀ value ∈ t.values, Qualified.parse? value = none

/-- A place in a text belongs to one token. -/
theorem token_unique {us vs us' vs' : List Token} {t t' : Token}
    (h : us ++ t :: vs = us' ++ t' :: vs') {n : Nat}
    (hn : (textOf us).length ≤ n ∧ n < (textOf us).length + t.text.length)
    (hn' : (textOf us').length ≤ n ∧ n < (textOf us').length + t'.text.length) : t = t' := by
  -- a token that ends before the other begins does not reach the place
  have hfirst : ∀ {xs ys zs : List Token} {x : Token}, ys = xs ++ x :: zs →
      (textOf xs).length + x.text.length ≤ (textOf ys).length := by
    rintro xs ys zs x rfl
    simp only [textOf_append, textOf_cons, List.length_append]
    omega
  rcases List.append_eq_append_iff.mp h with ⟨ws, hus, hrest⟩ | ⟨ws, hus, hrest⟩
  · cases ws with
    | nil => exact (List.cons.inj hrest).1
    | cons w ws =>
      obtain ⟨rfl, -⟩ := List.cons.inj hrest
      have := hfirst hus
      omega
  · cases ws with
    | nil => exact (List.cons.inj hrest).1.symm
    | cons w ws =>
      obtain ⟨rfl, -⟩ := List.cons.inj hrest
      have := hfirst hus
      omega

/-- A value stands in the text of its token. -/
theorem value_at {t : Token} {value : List Char} (h : value ∈ t.values) :
    ∃ before after, t.text = before ++ (literalText value ++ after) := by
  cases t with
  | plain => cases h
  | literal v =>
    rw [List.mem_singleton.mp h]
    exact ⟨[], [], by simp [Token.text]⟩
  | disjunction first b a second =>
    rcases List.mem_cons.mp h with rfl | h
    · exact ⟨['('], _, rfl⟩
    · rw [List.mem_singleton.mp h]
      refine ⟨'(' :: (literalText first ++ (b ++ (orSign ++ a))), [')'], ?_⟩
      simp [Token.text]

theorem length_bothOf (q : Qualified) :
    (literalText (q.spell .qualifierFirst)).length + 5 < (bothOf q).text.length := by
  simp only [bothOf, Token.text, List.length_cons, List.length_append, length_literalText]
  have : orSign.length = 2 := rfl
  omega

theorem FullyExpanded.token {rule : List Char} (h : FullyExpanded rule)
    (hc : LiteralsComplete rule) : ∀ t ∈ scan pattern? rule, t.Expanded := by
  obtain ⟨hread, htext⟩ := reading_scan pattern?_recognizes rule
  have hcomplete := hc.tokens
  intro t ht
  obtain ⟨us, vs, hsplit⟩ := List.append_of_mem ht
  by_cases hqualified : ∀ value ∈ t.values, Qualified.parse? value = none
  · exact .inr hqualified
  simp only [not_forall] at hqualified
  obtain ⟨value, hvalue, hparse⟩ := hqualified
  obtain ⟨⟨q, spelling⟩, hparse⟩ := Option.ne_none_iff_exists'.mp hparse
  obtain ⟨hq, rfl⟩ := Qualified.parse?_eq_some_iff.mp hparse
  obtain ⟨x, y, hxy⟩ := value_at hvalue
  have hquote := ((hcomplete t ht).values _ hvalue).quote
  have hrule : rule =
      (textOf us ++ x) ++ (literalText (q.spell spelling) ++ (y ++ textOf vs)) := by
    rw [← htext, hsplit, textOf_append, textOf_cons, hxy]
    simp
  obtain ⟨u, w, hu, hbefore⟩ := h q spelling _ _ hq hquote hrule
  have hboth : (bothOf q).IsArmed := by
    have hspell : ∀ s, '"' ∉ q.spell s := fun s hs =>
      hquote ((quote_mem_spell spelling).mpr ((quote_mem_spell s).mp hs))
    exact ⟨hspell _, allBlank_space, allBlank_space, hspell _⟩
  obtain ⟨us', vs', hsplit', rfl, -⟩ := disjunction_at hread hcomplete hboth (htext.trans hu)
  -- the literal begins inside of the disjunction that expanding wrote, and inside of `t`
  have hplace : (textOf us').length ≤ (textOf us ++ x).length ∧
      (textOf us ++ x).length < (textOf us').length + (bothOf q).text.length := by
    have hlength := length_bothOf q
    rcases hbefore with hbefore | hbefore <;> rw [hbefore] <;> simp at hlength ⊢ <;> omega
  have hinside : (textOf us).length ≤ (textOf us ++ x).length ∧
      (textOf us ++ x).length < (textOf us).length + t.text.length := by
    rw [hxy]
    simp only [List.length_append, length_literalText]
    omega
  exact .inl ⟨q, hq, token_unique (hsplit.symm.trans hsplit') hinside hplace⟩

/-! ## Back again -/

theorem expandLiteral_of_none {value : List Char} (h : Qualified.parse? value = none) :
    expandLiteral value = literalText value := by
  rw [expandLiteral, h]

theorem pair?_bothOf {q : Qualified} (hq : q.IsProper) : (bothOf q).pair? = some q :=
  bothSpellings?_spell hq

theorem pair?_of_unqualified {t : Token} (h : ∀ value ∈ t.values, Qualified.parse? value = none) :
    t.pair? = none := by
  cases t with
  | plain | literal => rfl
  | disjunction first before after second =>
    have hfirst : Qualified.parse? first = none := h first (by simp [Token.values])
    simp [Token.pair?, bothSpellings?, hfirst]

/-- What was collapsed expands to what it was. -/
theorem expand_collapsedApart {t : Token} (h : t.Expanded) :
    t.collapsed.apart.flatMap Token.expand = t.text := by
  rcases h with ⟨q, hq, rfl⟩ | hnone
  · have hparse : Qualified.parse? q.canonical = some (q, .qualifierFirst) :=
      Qualified.parse?_spell hq .qualifierFirst
    rw [Token.collapsed, pair?_bothOf hq]
    simp [Token.apart, Token.expand, expandLiteral, hparse, bothOf]
  · rw [Token.collapsed, pair?_of_unqualified hnone]
    cases t with
    | plain => rfl
    | literal value =>
      have hvalue : Qualified.parse? value = none := hnone value (List.mem_singleton_self value)
      simp [Token.apart, Token.expand, expandLiteral_of_none hvalue, Token.text]
    | disjunction first before after second =>
      have hfirst : Qualified.parse? first = none := hnone first (by simp [Token.values])
      have hsecond : Qualified.parse? second = none := hnone second (by simp [Token.values])
      simp [Token.apart, Token.expand, expandLiteral_of_none hfirst, expandLiteral_of_none hsecond,
        Token.text, List.flatMap_map]

/-- Collapsing leaves no target in the spelling that puts the environment first. -/
theorem spelling_of_collapsed {t : Token} (h : t.Expanded) {value : List Char}
    (hvalue : value ∈ t.collapsed.values) {q : Qualified} {spelling : Spelling}
    (hparse : Qualified.parse? value = some (q, spelling)) : spelling = .qualifierFirst := by
  rcases h with ⟨p, hp, rfl⟩ | hnone
  · rw [Token.collapsed, pair?_bothOf hp, Token.values, List.mem_singleton] at hvalue
    rw [hvalue, Qualified.canonical, Qualified.parse?_spell hp] at hparse
    exact (Prod.mk.inj (Option.some.inj hparse)).2.symm
  · rw [Token.collapsed, pair?_of_unqualified hnone] at hvalue
    rw [hnone value hvalue] at hparse
    cases hparse

theorem expand_collapse {rule : List Char} (hc : LiteralsComplete rule) (h : FullyExpanded rule) :
    expand (collapse rule) = rule := by
  have htokens := h.token hc
  have hpairless : ∀ t ∈ scan pattern? (collapse rule), t.pair? = none := by
    intro t ht
    have harms : ∀ value ∈ t.values, ∀ q spelling,
        Qualified.parse? value = some (q, spelling) → spelling = .qualifierFirst := by
      intro value hvalue q spelling hparse
      obtain ⟨old, hold, hvalue⟩ := value_of_collapse hc ht hvalue
      exact spelling_of_collapsed (htokens old hold) hvalue hparse
    cases hpair : t.pair? with
    | none => rfl
    | some q =>
      cases t with
      | plain | literal => cases hpair
      | disjunction first before after second =>
        obtain ⟨hq, one, other, hne, rfl, rfl⟩ := bothSpellings?_eq_some_iff.mp hpair
        have hone := harms _ (by simp [Token.values]) q one (Qualified.parse?_spell hq one)
        have hother := harms _ (by simp [Token.values]) q other (Qualified.parse?_spell hq other)
        exact absurd (hone.trans hother.symm) hne
  calc expand (collapse rule)
      = (collapsedApart (scan pattern? rule)).flatMap Token.expand := by
        rw [expand_eq_apart hpairless, scan_literal_collapse hc]
    _ = (scan pattern? rule).flatMap Token.text := by
        rw [collapsedApart, List.flatMap_assoc, List.flatMap_def, List.flatMap_def]
        congr 1
        exact List.map_congr_left fun t ht => expand_collapsedApart (htokens t ht)
    _ = rule := (reading_scan pattern?_recognizes rule).2

/-- Expanding undoes collapsing on a rule that is expanded all through. -/
theorem expandEndpointPattern_collapse {rule : String} (hc : LiteralsComplete rule.toList)
    (h : FullyExpanded rule.toList) :
    expandEndpointPattern (collapseEndpointPattern rule) = rule := by
  rw [expandEndpointPattern, collapseEndpointPattern, String.toList_ofList, expand_collapse hc h,
    String.ofList_toList]

/-- Two targets that collapse to the arms of one disjunction, and a literal without qualifier. -/
def nestedRule : String :=
  "((endpoint==\"a/q#e\" || endpoint==\"a#e/q\")||(endpoint==\"b/q#e\" || endpoint==\"b#e/q\")) " ++
    "and endpoint==\"c\""

theorem expandEndpointPattern_collapse_nestedRule :
    LiteralsComplete nestedRule.toList ∧ FullyExpanded nestedRule.toList ∧
      collapseEndpointPattern nestedRule =
        "(endpoint==\"a/q#e\"||endpoint==\"b/q#e\") and endpoint==\"c\"" ∧
      expandEndpointPattern (collapseEndpointPattern nestedRule) = nestedRule := by
  have hc : LiteralsComplete nestedRule.toList := by decide +kernel
  have h : FullyExpanded nestedRule.toList := by decide +kernel
  exact ⟨hc, h, by decide +kernel, expandEndpointPattern_collapse hc h⟩

end RouteMigration.Rule
