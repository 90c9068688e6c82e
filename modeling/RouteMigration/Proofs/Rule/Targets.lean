import RouteMigration.Proofs.Rule.Literals

/-! The targets of a rule before and after the two passes. Where all literals are complete,
expanding and collapsing name the same targets as before and keep the literals without a
qualifier one by one; an expanded rule has each target in both spellings. -/

namespace RouteMigration.Rule

open RouteMigration.Text RouteMigration.Target

/-! ## What a list of literals names -/

/-- The targets that the qualified ones among the literals spell. -/
def targets (values : List (List Char)) : List Qualified :=
  values.filterMap fun value => (Qualified.parse? value).map Prod.fst

def unqualified (values : List (List Char)) : List (List Char) :=
  values.filter fun value => (Qualified.parse? value).isNone

theorem mem_targets {q : Qualified} {values : List (List Char)} :
    q ∈ targets values ↔ q.IsProper ∧ ∃ spelling, q.spell spelling ∈ values := by
  simp only [targets, List.mem_filterMap, Option.map_eq_some_iff, Prod.exists, exists_and_right,
    exists_eq_right]
  constructor
  · rintro ⟨value, hmem, spelling, hparse⟩
    obtain ⟨hq, rfl⟩ := Qualified.parse?_eq_some_iff.mp hparse
    exact ⟨hq, spelling, hmem⟩
  · rintro ⟨hq, spelling, hmem⟩
    exact ⟨_, hmem, spelling, Qualified.parse?_spell hq spelling⟩

/-- The same set of targets, and the same literals without a qualifier in the same order. -/
structure SameTargets (old new : List (List Char)) : Prop where
  targets (q : Qualified) : q ∈ targets new ↔ q ∈ targets old
  unqualified : unqualified new = unqualified old

namespace SameTargets

theorem refl (values : List (List Char)) : SameTargets values values := ⟨fun _ => Iff.rfl, rfl⟩

theorem append {a b c d : List (List Char)} (hab : SameTargets a b) (hcd : SameTargets c d) :
    SameTargets (a ++ c) (b ++ d) where
  targets q := by
    have := hab.targets q
    have := hcd.targets q
    simp_all [Rule.targets]
  unqualified := by
    have := hab.unqualified
    have := hcd.unqualified
    simp_all [Rule.unqualified]

theorem flatMap {f g : Token → List (List Char)} (h : ∀ t, SameTargets (f t) (g t))
    (ts : List Token) : SameTargets (ts.flatMap f) (ts.flatMap g) := by
  induction ts with
  | nil => exact refl []
  | cons t ts ih => exact (h t).append ih

/-- Spellings of one target stand for each other, each at least once. -/
theorem spellings {q : Qualified} (hq : q.IsProper) {old new : List (List Char)}
    (hold : old ≠ [] ∧ ∀ v ∈ old, ∃ s, v = q.spell s)
    (hnew : new ≠ [] ∧ ∀ v ∈ new, ∃ s, v = q.spell s) : SameTargets old new := by
  have hnone : ∀ {vs : List (List Char)}, (∀ v ∈ vs, ∃ s, v = q.spell s) →
      Rule.unqualified vs = [] := by
    intro vs hvs
    rw [Rule.unqualified, List.filter_eq_nil_iff]
    intro v hv
    obtain ⟨s, rfl⟩ := hvs v hv
    simp [Qualified.parse?_spell hq]
  have hsingle : ∀ {vs : List (List Char)}, (vs ≠ [] ∧ ∀ v ∈ vs, ∃ s, v = q.spell s) →
      ∀ r, r ∈ Rule.targets vs ↔ r = q := by
    rintro vs ⟨hne, hvs⟩ r
    rw [mem_targets]
    constructor
    · rintro ⟨hr, s, hmem⟩
      obtain ⟨t, heq⟩ := hvs _ hmem
      exact (Qualified.spell_injective hr hq heq).1
    · rintro rfl
      obtain ⟨v, hv⟩ := List.exists_mem_of_ne_nil vs hne
      obtain ⟨s, rfl⟩ := hvs v hv
      exact ⟨hq, s, hv⟩
  exact ⟨fun r => (hsingle hnew r).trans (hsingle hold r).symm,
    (hnone hnew.2).trans (hnone hold.2).symm⟩

end SameTargets

/-! ## Values that spell a target -/

theorem literalWord_infix_spell {q : Qualified} (s : Spelling) :
    literalWord <:+: q.spell s ↔
      literalWord <:+: q.system ∨ literalWord <:+: q.environment ∨
        literalWord <:+: q.qualifier := by
  have hhash : '#' ∉ literalWord := by decide
  have hslash : '/' ∉ literalWord := by decide
  cases s <;>
    simp only [Qualified.spell, infix_append_cons_iff hhash, infix_append_cons_iff hslash]
  tauto

theorem quote_mem_spell {q : Qualified} (s : Spelling) :
    '"' ∈ q.spell s ↔ '"' ∈ q.system ∨ '"' ∈ q.environment ∨ '"' ∈ q.qualifier := by
  cases s <;> simp [Qualified.spell]
  tauto

/-- Whether a spelling is the value of a literal depends on the target alone. -/
theorem IsValue.respell {q : Qualified} {s : Spelling} (h : IsValue (q.spell s)) (t : Spelling) :
    IsValue (q.spell t) where
  quote hq := h.quote ((quote_mem_spell s).mpr ((quote_mem_spell t).mp hq))
  word hw := h.word ((literalWord_infix_spell s).mpr ((literalWord_infix_spell t).mp hw))

/-! ## The values after each pass -/

/-- The values that expanding writes for a value. -/
def spellingsOf (value : List Char) : List (List Char) :=
  match Qualified.parse? value with
  | some (q, _) => [q.spell .qualifierFirst, q.spell .environmentFirst]
  | none => [value]

namespace Token

def expandedValues : Token → List (List Char)
  | plain _ => []
  | literal value => spellingsOf value
  | disjunction first _ _ second =>
    if (bothSpellings? first second).isSome then [first, second]
    else spellingsOf first ++ spellingsOf second

def collapsedValues : Token → List (List Char)
  | plain _ => []
  | literal value => [value]
  | disjunction first _ _ second =>
    match bothSpellings? first second with
    | some q => [q.canonical]
    | none => [first, second]

end Token

theorem isValue_arms {first before after second : List Char}
    (h : ∀ value ∈ (Token.disjunction first before after second).values, IsValue value) :
    IsValue first ∧ IsValue second := by
  simpa [Token.values] using h

theorem yields_expandLiteral {value : List Char} (h : IsValue value) :
    Yields (expandLiteral value) (spellingsOf value) := by
  unfold expandLiteral spellingsOf
  cases hp : Qualified.parse? value with
  | none => exact yields_literal h
  | some p =>
    obtain ⟨q, spelling⟩ := p
    obtain ⟨-, rfl⟩ := Qualified.parse?_eq_some_iff.mp hp
    exact yields_disjunction (yields_literal (h.respell .qualifierFirst)) allBlank_space
      allBlank_space (yields_literal (h.respell .environmentFirst))

theorem respells_text : Respells Token.text Token.values where
  plain _ := ⟨rfl, rfl⟩
  front := pattern_head
  yields {t} ht hv := by
    cases t with
    | plain => exact ht.elim
    | literal value => exact yields_literal (hv value (List.mem_singleton_self value))
    | disjunction first before after second =>
      have hd : IsDisjunction first before after second := ht
      obtain ⟨hfirst, hsecond⟩ := isValue_arms hv
      exact yields_disjunction (yields_literal hfirst) hd.before hd.after (yields_literal hsecond)

theorem respells_expand : Respells Token.expand Token.expandedValues where
  plain _ := ⟨rfl, rfl⟩
  front {t} ht := by
    rw [← expansion_text]
    exact expansion_head ht
  yields {t} ht hv := by
    cases t with
    | plain => exact ht.elim
    | literal value => exact yields_expandLiteral (hv value (List.mem_singleton_self value))
    | disjunction first before after second =>
      have hd : IsDisjunction first before after second := ht
      obtain ⟨hfirst, hsecond⟩ := isValue_arms hv
      rw [Token.expand, Token.expandedValues]
      split
      · exact respells_text.yields ht hv
      · exact yields_disjunction (yields_expandLiteral hfirst) hd.before hd.after
          (yields_expandLiteral hsecond)

theorem respells_collapse : Respells Token.collapse Token.collapsedValues where
  plain _ := ⟨rfl, rfl⟩
  front {t} ht := by
    cases t with
    | plain => exact ht.elim
    | literal value => exact ⟨_, .inr rfl⟩
    | disjunction first before after second =>
      rw [Token.collapse]
      split
      · exact ⟨_, .inr rfl⟩
      · exact ⟨_, .inl rfl⟩
  yields {t} ht hv := by
    cases t with
    | plain => exact ht.elim
    | literal value => exact yields_literal (hv value (List.mem_singleton_self value))
    | disjunction first before after second =>
      obtain ⟨hfirst, -⟩ := isValue_arms hv
      rw [Token.collapse, Token.collapsedValues]
      cases hboth : bothSpellings? first second with
      | none => exact respells_text.yields ht hv
      | some q =>
        obtain ⟨-, one, -, -, rfl, -⟩ := bothSpellings?_eq_some_iff.mp hboth
        exact yields_literal (hfirst.respell .qualifierFirst)

/-! ## What each pass does to the targets -/

theorem sameTargets_spellingsOf (value : List Char) :
    SameTargets [value] (spellingsOf value) := by
  unfold spellingsOf
  cases hp : Qualified.parse? value with
  | none => exact .refl _
  | some p =>
    obtain ⟨q, spelling⟩ := p
    obtain ⟨hq, rfl⟩ := Qualified.parse?_eq_some_iff.mp hp
    exact .spellings hq (by simp) (by simp)

theorem sameTargets_expandedValues (t : Token) : SameTargets t.values t.expandedValues := by
  cases t with
  | plain => exact .refl _
  | literal value => exact sameTargets_spellingsOf value
  | disjunction first before after second =>
    rw [Token.expandedValues]
    split
    · exact .refl _
    · exact (sameTargets_spellingsOf first).append (sameTargets_spellingsOf second)

theorem sameTargets_collapsedValues (t : Token) : SameTargets t.values t.collapsedValues := by
  cases t with
  | plain | literal => exact .refl _
  | disjunction first before after second =>
    rw [Token.collapsedValues]
    split
    · rename_i q hboth
      obtain ⟨hq, one, other, -, rfl, rfl⟩ := bothSpellings?_eq_some_iff.mp hboth
      exact .spellings hq (by simp [Token.values]) (by simp [Qualified.canonical])
    · exact .refl _

theorem spell_mem_spellingsOf {q : Qualified} (hq : q.IsProper) (s t : Spelling) :
    q.spell t ∈ spellingsOf (q.spell s) := by
  rw [spellingsOf, Qualified.parse?_spell hq]
  cases t <;> simp

theorem spell_mem_expandedValues {q : Qualified} {t : Token} (h : q ∈ targets t.values)
    (spelling : Spelling) : q.spell spelling ∈ t.expandedValues := by
  obtain ⟨hq, s, hmem⟩ := mem_targets.mp h
  cases t with
  | plain => cases hmem
  | literal value =>
    rw [← List.mem_singleton.mp hmem]
    exact spell_mem_spellingsOf hq s spelling
  | disjunction first before after second =>
    rw [Token.expandedValues]
    split
    · rename_i hboth
      obtain ⟨p, hp⟩ := Option.isSome_iff_exists.mp hboth
      obtain ⟨hproper, one, other, hne, rfl, rfl⟩ := bothSpellings?_eq_some_iff.mp hp
      obtain rfl : q = p := by
        rcases List.mem_cons.mp hmem with heq | hmem
        · exact (Qualified.spell_injective hq hproper heq).1
        · exact (Qualified.spell_injective hq hproper (List.mem_singleton.mp hmem)).1
      cases spelling <;> cases one <;> cases other <;> simp at hne ⊢
    · rw [List.mem_append]
      rcases List.mem_cons.mp hmem with rfl | hmem
      · exact .inl (spell_mem_spellingsOf hq s spelling)
      · rw [← List.mem_singleton.mp hmem]
        exact .inr (spell_mem_spellingsOf hq s spelling)

theorem mem_targets_flatMap {f : Token → List (List Char)} {q : Qualified} {ts : List Token} :
    q ∈ targets (ts.flatMap f) ↔ ∃ t ∈ ts, q ∈ targets (f t) := by
  simp only [mem_targets, List.mem_flatMap]
  constructor
  · rintro ⟨hq, s, t, ht, hmem⟩
    exact ⟨t, ht, hq, s, hmem⟩
  · rintro ⟨t, ht, hq, s, hmem⟩
    exact ⟨hq, s, t, ht, hmem⟩

/-- Neither pass loses, invents or confuses a target, nor touches a literal without qualifier,
and expanding leaves each target in both spellings. -/
theorem endpointPattern_targets {rule : String} (h : LiteralsComplete rule.toList) :
    SameTargets (literals rule.toList) (literals (expandEndpointPattern rule).toList) ∧
      SameTargets (literals rule.toList) (literals (collapseEndpointPattern rule).toList) ∧
      ∀ q ∈ targets (literals rule.toList), ∀ spelling,
        q.spell spelling ∈ literals (expandEndpointPattern rule).toList := by
  obtain ⟨hread, htext⟩ := reading_scan pattern?_recognizes rule.toList
  have hc : LiteralsComplete (textOf (scan pattern? rule.toList)) := by rwa [htext]
  have hvalues := values_of_reading hread hc
  have hbefore : literals rule.toList = (scan pattern? rule.toList).flatMap Token.values := by
    rw [← respells_text.literals_flatMap hread hc]
    exact congrArg literals htext.symm
  have hexpanded : literals (expandEndpointPattern rule).toList =
      (scan pattern? rule.toList).flatMap Token.expandedValues := by
    rw [← respells_expand.literals_flatMap hread hc, expandEndpointPattern, String.toList_ofList,
      expand]
  have hcollapsed : literals (collapseEndpointPattern rule).toList =
      (scan pattern? rule.toList).flatMap Token.collapsedValues := by
    rw [← respells_collapse.literals_flatMap hread hc, collapseEndpointPattern,
      String.toList_ofList, ← collapse_textOf hread fun value hmem =>
        hvalues _ hmem value (by simp [Token.values]), htext]
  rw [hbefore, hexpanded, hcollapsed]
  refine ⟨.flatMap sameTargets_expandedValues _, .flatMap sameTargets_collapsedValues _, ?_⟩
  intro q hq spelling
  obtain ⟨t, ht, hq⟩ := mem_targets_flatMap.mp hq
  exact List.mem_flatMap.mpr ⟨t, ht, spell_mem_expandedValues hq spelling⟩

/-- A rule with one target in a disjunction that names another besides, and again behind it. -/
def mixedRule : String := "(endpoint==\"a#e/q\"||endpoint==\"b\") and endpoint==\"a/q#e\""

theorem endpointPattern_targets_mixedRule :
    LiteralsComplete mixedRule.toList ∧
      SameTargets (literals mixedRule.toList) (literals (expandEndpointPattern mixedRule).toList) ∧
      SameTargets (literals mixedRule.toList)
        (literals (collapseEndpointPattern mixedRule).toList) ∧
      "a#e/q".toList ∈ literals (expandEndpointPattern mixedRule).toList ∧
      "a/q#e".toList ∈ literals (expandEndpointPattern mixedRule).toList := by
  have hc : LiteralsComplete mixedRule.toList := by decide +kernel
  have hmem : ⟨['a'], ['e'], ['q']⟩ ∈ targets (literals mixedRule.toList) := by decide +kernel
  obtain ⟨hexpand, hcollapse, hboth⟩ := endpointPattern_targets hc
  exact ⟨hc, hexpand, hcollapse, hboth _ hmem .environmentFirst, hboth _ hmem .qualifierFirst⟩

end RouteMigration.Rule
