import Mathlib.Data.List.DropRight
import RouteMigration.Proofs.Rule.Nesting

/-! Collapsing twice, whatever the rule looks like. A second pass can find a pair only where the
first one put a literal in the place of an arm: behind a parenthesis and before the sign, or
behind the sign and before a closing parenthesis. -/

namespace RouteMigration.Rule

open RouteMigration.Text RouteMigration.Target

/-! ## Where a collapsed pair comes to stand -/

/-- Something between the two texts would be an arm of a disjunction. -/
def IsArm (before after : List Char) : Prop :=
  (['('] <:+ before ∧ orSign <+: after.dropWhile isBlank) ∨
    (orSign <:+ before.rdropWhile isBlank ∧ [')'] <+: after)

instance (before after : List Char) : Decidable (IsArm before after) :=
  inferInstanceAs (Decidable (_ ∨ _))

/-- No pair that collapsing reads stands where an arm would, nor has it an environment that ends
in the opening of a disjunction. -/
def Detached (rule : List Char) : Prop :=
  ∀ us t vs q, scan disjunction? rule = us ++ t :: vs → t.pair? = some q →
    ¬ IsArm (textOf us) (textOf vs) ∧ ¬ '(' :: literalWord <:+ q.environment

theorem detached_iff {rule : List Char} :
    Detached rule ↔ ∀ n ∈ List.range (scan disjunction? rule).length,
      ∀ t ∈ (scan disjunction? rule)[n]?, ∀ q ∈ t.pair?,
        ¬ IsArm (textOf ((scan disjunction? rule).take n))
            (textOf ((scan disjunction? rule).drop (n + 1))) ∧
          ¬ '(' :: literalWord <:+ q.environment := by
  constructor
  · intro h n hn t ht q hq
    obtain ⟨hlt, rfl⟩ := List.getElem?_eq_some_iff.mp ht
    refine h _ _ _ q ?_ hq
    rw [← List.drop_eq_getElem_cons hlt, List.take_append_drop]
  · intro h us t vs q hsplit hq
    have := h us.length (by simp [hsplit]) t (by simp [hsplit]) q hq
    simpa [hsplit] using this

instance (rule : List Char) : Decidable (Detached rule) := decidable_of_iff _ detached_iff.symm

/-- Text that collapsing wrote either stood there before or runs into the literal of a pair. -/
theorem first_pair {ts : List Token} {x rest : List Char}
    (heq : ts.flatMap Token.collapse = x ++ rest) :
    x <+: textOf ts ∨ ∃ ws t zs q y, ts = ws ++ t :: zs ∧ t.pair? = some q ∧ y ≠ [] ∧
      x = textOf ws ++ y ∧ y ++ rest = literalText q.canonical ++ zs.flatMap Token.collapse := by
  induction ts generalizing x with
  | nil =>
    rw [(List.append_eq_nil_iff.mp heq.symm).1]
    exact .inl List.nil_prefix
  | cons t ts ih =>
    by_cases hx : x = []
    · rw [hx]
      exact .inl List.nil_prefix
    rw [List.flatMap_cons] at heq
    cases hp : t.pair? with
    | some q =>
      rw [collapse_of_pair? hp] at heq
      exact .inr ⟨[], t, ts, q, x, rfl, hp, hx, rfl, heq.symm⟩
    | none =>
      rw [collapse_of_no_pair hp] at heq
      rcases List.append_eq_append_iff.mp heq with ⟨y, rfl, htail⟩ | ⟨y, htext, -⟩
      · rcases ih htail with hpre | ⟨ws, t', zs, q, z, rfl, hq, hz, rfl, hrest⟩
        · exact .inl ((List.prefix_append_right_inj _).mpr hpre)
        · exact .inr ⟨t :: ws, t', zs, q, z, rfl, hq, hz, by simp, hrest⟩
      · refine .inl ⟨y ++ textOf ts, ?_⟩
        rw [textOf_cons, htext, List.append_assoc]

/-- A literal that begins where another one stands is that one, or begins with the end of its
value: the quote that closes the outer literal then opens the inner one. -/
theorem literal_in_literal {value v x k inner rest : List Char} (hquote : '"' ∉ value)
    (hinner : '"' ∉ inner) (htext : literalText value = v ++ x) (hx : x ≠ [])
    (heq : x ++ k = literalText inner ++ rest) :
    (v = [] ∧ k = rest) ∨
      ∃ start, value = start ++ literalWord ∧ v = literalStart ++ start ∧
        k = inner ++ '"' :: rest := by
  cases v with
  | nil =>
    rw [← htext.trans (List.nil_append x)] at heq
    exact .inl ⟨rfl, (literal_unique hquote hinner heq).2⟩
  | cons d v =>
    have hcons := literalText_cons value []
    rw [List.append_nil, htext] at hcons
    obtain ⟨rfl, htail⟩ := List.cons.inj hcons
    obtain ⟨start, rfl, hvalue⟩ : ∃ start, v = "ndpoint==\"".toList ++ start ∧
        value ++ ['"'] = start ++ x := by
      rcases List.append_eq_append_iff.mp htail with ⟨y, hy, hx'⟩ | ⟨y, hy, hx'⟩
      · cases y with
        | nil => exact ⟨[], by simpa using hy.symm, hx'.symm⟩
        | cons c y =>
          -- the inner literal begins with a letter that no other place of the word holds
          rw [hx', literalText_cons] at heq
          obtain ⟨rfl, -⟩ := List.cons.inj heq
          have : 'e' ∈ "ndpoint==\"".toList := hy ▸ List.mem_append_right _ List.mem_cons_self
          exact absurd this (by decide)
      · exact ⟨y, hy, hx'⟩
    obtain ⟨z, l, rfl⟩ := (List.eq_nil_or_concat' x).resolve_left hx
    rw [← List.append_assoc] at hvalue
    obtain ⟨rfl, hl⟩ := List.append_inj' hvalue rfl
    obtain rfl := (List.cons.inj hl).1
    rw [literalText_word, List.append_assoc] at heq
    have hz : '"' ∉ z := fun h => hquote (List.mem_append_right _ h)
    obtain ⟨rfl, hk⟩ := cut_unique hz (by decide) heq
    exact .inr ⟨start, rfl, rfl, hk⟩

theorem IsDisjunction.not_mem_between {first before after second : List Char}
    (h : IsDisjunction first before after second) {c : Char} (hblank : isBlank c = false)
    (hbar : c ≠ '|') : c ∉ before ++ (orSign ++ after) := by
  have hnot : ∀ {s}, AllBlank s → c ∉ s := fun hs hc => by
    rw [hs c hc] at hblank
    cases hblank
  simp [orSign, hnot h.before, hnot h.after, hbar]

/-- No literal begins with what is left of a text that holds none of its first letter. -/
theorem literal_not_within {a x k inner rest : List Char} (ha : 'e' ∉ a ++ x)
    (heq : x ++ k = literalText inner ++ rest) : x = [] := by
  rw [literalText_cons] at heq
  cases x with
  | nil => rfl
  | cons c x =>
    obtain ⟨rfl, -⟩ := List.cons.inj heq
    simp at ha

/-- A literal of a target that begins in what follows the parenthesis of a disjunction is one of
its arms, or begins with the end of the second one. -/
theorem literal_in_disjunction {first before after second c v y rest tail : List Char}
    (hd : IsDisjunction first before after second) (hquote : '"' ∉ c) (hslash : '/' ∈ c)
    (hy : y ≠ [])
    (hsplit : literalText first ++ ((before ++ (orSign ++ after)) ++
      (literalText second ++ [')'])) = v ++ y)
    (heq : y ++ rest = literalText c ++ tail) :
    (v = [] ∧ (before ++ (orSign ++ after)) ++ (literalText second ++ ')' :: rest) = tail) ∨
      (v = literalText first ++ (before ++ (orSign ++ after)) ∧ ')' :: rest = tail) ∨
      ∃ start, second = start ++ literalWord ∧ ')' :: rest = c ++ '"' :: tail ∧
        v = literalText first ++ ((before ++ (orSign ++ after)) ++ (literalStart ++ start)) := by
  have he := not_mem_e_between hd
  have hunquoted : '"' ∉ before ++ (orSign ++ after) := hd.not_mem_between (by decide) (by decide)
  have hunslashed : '/' ∉ before ++ (orSign ++ after) := hd.not_mem_between (by decide) (by decide)
  have hne : before ++ (orSign ++ after) ≠ [] := by simp [orSign]
  have hclose : y ≠ [')'] := by
    rintro rfl
    rw [literalText_cons] at heq
    cases heq
  generalize before ++ (orSign ++ after) = between at *
  rcases List.append_eq_append_iff.mp hsplit with ⟨p, rfl, hrest⟩ | ⟨p, hfirst, rfl⟩
  · right
    -- it does not begin between the arms
    obtain ⟨p, rfl, hsecond⟩ : ∃ z, p = between ++ z ∧ literalText second ++ [')'] = z ++ y := by
      rcases List.append_eq_append_iff.mp hrest with ⟨z, hz, hsecond⟩ | ⟨z, rfl, rfl⟩
      · exact ⟨z, hz, hsecond⟩
      · rw [List.append_assoc] at heq
        obtain rfl := literal_not_within he heq
        exact ⟨[], by simp, rfl⟩
    rcases List.append_eq_append_iff.mp hsecond with ⟨z, -, hz⟩ | ⟨z, hz, rfl⟩
    · rcases List.append_eq_cons_iff.mp hz.symm with ⟨-, h⟩ | ⟨z', -, h⟩
      · exact absurd h hclose
      · exact absurd (List.append_eq_nil_iff.mp h.symm).2 hy
    · rw [List.append_assoc] at heq
      have hz' : z ≠ [] := fun h => hclose (by rw [h, List.nil_append])
      rcases literal_in_literal hd.second hquote hz hz' heq with ⟨rfl, hk⟩ | ⟨start, rfl, rfl, hk⟩
      · exact .inl ⟨by simp, hk⟩
      · exact .inr ⟨start, rfl, hk, rfl⟩
  · left
    rw [List.append_assoc] at heq
    have hp : p ≠ [] := by
      rintro rfl
      rw [List.nil_append, List.append_assoc] at heq
      exact hne (literal_not_within (a := []) he heq)
    rcases literal_in_literal hd.first hquote hfirst hp heq with ⟨rfl, hk⟩ | ⟨start, -, -, hk⟩
    · exact ⟨rfl, by simpa using hk⟩
    · -- its value would be what stands between the arms and the word after that
      have hword : '"' ∉ between ++ literalWord := by
        rw [List.mem_append]
        exact not_or.mpr ⟨hunquoted, by decide⟩
      rw [List.append_assoc, List.append_assoc, literalText_word, ← List.append_assoc between] at hk
      obtain ⟨rfl, -⟩ := cut_unique hword hquote hk
      simp [hunslashed] at hslash
      exact absurd hslash (by decide)

theorem isArm_front (u rest : List Char) {before after : List Char} (hbefore : AllBlank before) :
    IsArm (u ++ ['(']) ((before ++ (orSign ++ after)) ++ rest) := by
  refine .inl ⟨List.suffix_append u _, ?_⟩
  obtain ⟨-, hdrop⟩ := span_append hbefore isBlank_bar ('|' :: (after ++ rest))
  have htext : (before ++ (orSign ++ after)) ++ rest = before ++ '|' :: '|' :: (after ++ rest) := by
    simp [orSign]
  rw [htext, hdrop]
  exact ⟨after ++ rest, rfl⟩

theorem isArm_back (u rest : List Char) {after : List Char} (hafter : AllBlank after) :
    IsArm (u ++ (orSign ++ after)) (')' :: rest) := by
  refine .inr ⟨?_, List.prefix_append [')'] rest⟩
  have hreverse : AllBlank after.reverse := fun c hc => hafter c (List.mem_reverse.mp hc)
  obtain ⟨-, hdrop⟩ := span_append hreverse isBlank_bar ('|' :: u.reverse)
  have htext : (u ++ (orSign ++ after)).reverse = after.reverse ++ '|' :: '|' :: u.reverse := by
    simp [orSign]
  rw [List.rdropWhile, htext, hdrop]
  exact ⟨u, by simp [orSign]⟩

theorem system_prefix_spell (q : Qualified) (s : Spelling) : q.system <+: q.spell s := by
  cases s <;> exact List.prefix_append _ _

/-- The text of a pair up to the system of its target, which comes first in either spelling. -/
theorem pair_front {t : Token} {q : Qualified} (h : t.pair? = some q) :
    ∃ rest, t.text = '(' :: (literalWord ++ '"' :: (q.system ++ rest)) := by
  cases t with
  | plain | literal => cases h
  | disjunction first before after second =>
    obtain ⟨-, one, -, -, rfl, -⟩ := bothSpellings?_eq_some_iff.mp h
    obtain ⟨r, hr⟩ := system_prefix_spell q one
    rw [disjunction_text, literalText_word, ← hr]
    exact ⟨_, by rw [List.append_assoc]⟩

/-- Where no disjunction began, one begins after collapsing only if it has a pair for an arm. -/
theorem arm_of_disjunction {ts : List Token} (hread : Reading Token.IsArmed ts)
    (hnone : NoneAt Token.IsArmed ('(' :: textOf ts)) {first before after second rest : List Char}
    (hd : IsDisjunction first before after second)
    (heq : ts.flatMap Token.collapse = literalText first ++ ((before ++ (orSign ++ after)) ++
      (literalText second ++ ')' :: rest))) :
    ∃ ws t zs q, ts = ws ++ t :: zs ∧ t.pair? = some q ∧
      ∀ u, IsArm (u ++ '(' :: textOf ws) (textOf zs) := by
  have heq : ts.flatMap Token.collapse = (literalText first ++ ((before ++ (orSign ++ after)) ++
      (literalText second ++ [')']))) ++ rest := by
    rw [heq]
    simp
  rcases first_pair heq with hpre | ⟨ws, t, zs, q, y, rfl, hq, hy, hsplit, hrest⟩
  · have hpre : (Token.disjunction first before after second).text <+: '(' :: textOf ts := by
      rw [disjunction_text]
      exact List.cons_prefix_cons.mpr ⟨rfl, hpre⟩
    exact absurd hpre (hnone _ hd)
  refine ⟨ws, t, zs, q, rfl, hq, fun u => ?_⟩
  have harmed : t.IsArmed := by
    refine (hread.mem t (by simp)).resolve_right ?_
    rintro ⟨c, rfl⟩
    cases hq
  have hzs : Reading Token.IsArmed zs := hread.drop.tail
  have hslash : '/' ∈ q.canonical := by simp [Qualified.canonical, Qualified.spell]
  have hquote := quote_of_pair? harmed.isPattern hq .qualifierFirst
  rcases literal_in_disjunction hd hquote hslash hy hsplit hrest
    with ⟨hws, htail⟩ | ⟨hws, htail⟩ | ⟨start, rfl, htail, hws⟩
  · obtain ⟨zs, rfl, -, -⟩ :=
      respells_collapse.run Token.IsArmed.isPattern hzs (not_opening_between hd) htail.symm
    rw [hws, textOf_append, textOf_plains]
    exact isArm_front u (textOf zs) hd.before
  · obtain ⟨zs, rfl, -, -⟩ :=
      respells_collapse.run Token.IsArmed.isPattern hzs not_opening_close htail.symm
    rw [hws]
    have := isArm_back (u ++ '(' :: (literalText first ++ before)) (textOf zs) hd.after
    simpa using this
  · -- the disjunction was there already, with a second arm that ends in the opening of the pair
    exfalso
    obtain ⟨r, hr⟩ := pair_front hq
    obtain ⟨d, system, hsystem⟩ := List.exists_cons_of_ne_nil (proper_of_pair? hq).system.1
    obtain rfl : d = ')' := by
      obtain ⟨r, hcanonical⟩ := system_prefix_spell q .qualifierFirst
      rw [← hcanonical, hsystem] at htail
      exact (List.cons.inj htail).1.symm
    have hsecond : '"' ∉ start ++ '(' :: literalWord := by
      have := hd.second
      simp only [List.mem_append, List.mem_cons, not_or] at this ⊢
      exact ⟨this.1, by decide, this.2⟩
    refine hnone (.disjunction first before after (start ++ '(' :: literalWord))
      ⟨hd.first, hd.before, hd.after, hsecond⟩ ⟨system ++ r ++ textOf zs, ?_⟩
    rw [disjunction_text, textOf_append, textOf_cons, hws, hr, hsystem]
    simp [literalText]

/-! ## Two passes -/

/-- The tokens of a rule as a second pass reads them. -/
def collapsedSpread (ts : List Token) : List Token := ts.flatMap fun t => t.collapsed.spread

theorem collapsedSpread_text (ts : List Token) :
    textOf (collapsedSpread ts) = ts.flatMap Token.collapse := by
  rw [textOf, collapsedSpread, List.flatMap_assoc]
  refine congrArg (List.flatMap · ts) (funext fun t => ?_)
  rw [← collapsed_text, ← spread_text, textOf]

theorem not_opening_canonical {q : Qualified} (h : ¬ '(' :: literalWord <:+ q.environment) :
    ¬ '(' :: literalWord <:+ q.canonical := by
  have hhash : '#' ∉ '(' :: literalWord := by decide
  have hcanonical : q.canonical = (q.system ++ '/' :: q.qualifier) ++ '#' :: q.environment := by
    simp [Qualified.canonical, Qualified.spell]
  rwa [hcanonical, suffix_append_cons_iff hhash]

theorem Detached.reading (us : List Token) {ts : List Token} (h : Reading Token.IsArmed ts)
    (hdetached : ∀ ws t zs q, us ++ ts = ws ++ t :: zs → t.pair? = some q →
      ¬ IsArm (textOf ws) (textOf zs) ∧ ¬ '(' :: literalWord <:+ q.environment) :
    Reading Token.IsArmed (collapsedSpread ts) := by
  induction h generalizing us with
  | nil => exact .nil
  | @found t ts ht hts ih =>
    have hrest : Reading Token.IsArmed (collapsedSpread ts) :=
      ih (us ++ [t]) (by simpa using hdetached)
    rw [collapsedSpread, List.flatMap_cons, Token.collapsed]
    cases hp : t.pair? with
    | some q =>
      have hopening := not_opening_canonical (hdetached us t ts q rfl hp).2
      exact hrest.spreadLiteral (quote_of_pair? ht.isPattern hp .qualifierFirst) hopening
    | none =>
      cases t with
      | plain | literal => exact ht.elim
      | disjunction => exact .found ht hrest
  | @plain c ts hnone hts ih =>
    have hrest : Reading Token.IsArmed (collapsedSpread ts) :=
      ih (us ++ [.plain c]) (by simpa using hdetached)
    refine .plain ?_ hrest
    change NoneAt Token.IsArmed (c :: textOf (collapsedSpread ts))
    rw [collapsedSpread_text]
    by_cases hc : c = '('
    · subst hc
      rintro d hd ⟨rest, heq⟩
      cases d with
      | plain | literal => exact hd
      | disjunction first before after second =>
        have hd : IsDisjunction first before after second := hd
        have heq : ts.flatMap Token.collapse = literalText first ++
            ((before ++ (orSign ++ after)) ++ (literalText second ++ ')' :: rest)) := by
          rw [disjunction_text] at heq
          rw [← (List.cons.inj heq).2]
          simp
        obtain ⟨ws, t, zs, q, rfl, hp, harm⟩ := arm_of_disjunction hts hnone hd heq
        have := (hdetached (us ++ .plain '(' :: ws) t zs q (by simp) hp).1
        rw [textOf_append, textOf_cons] at this
        exact this (harm (textOf us))
    · exact noneAt_armed_cons hc _

theorem pair?_collapsedSpread {ts : List Token} : ∀ t ∈ collapsedSpread ts, t.pair? = none := by
  intro t ht
  obtain ⟨old, -, ht⟩ := List.mem_flatMap.mp ht
  have hold := pair?_collapsed old
  cases hc : old.collapsed with
  | literal value =>
    rw [hc] at ht
    obtain ⟨c, -, rfl⟩ := List.mem_map.mp ht
    rfl
  | plain | disjunction =>
    rw [hc] at ht hold
    rwa [List.mem_singleton.mp ht]

/-- What one pass makes of detached pairs is left as it is by another. -/
theorem collapse_twice {rule : List Char} (h : Detached rule) :
    collapse (collapse rule) = collapse rule := by
  have hread : Reading Token.IsArmed (collapsedSpread (scan disjunction? rule)) :=
    Detached.reading [] (reading_scan disjunction?_recognizes rule).1 h
  have hscan := scan_textOf disjunction?_recognizes hread
  rw [collapsedSpread_text] at hscan
  rw [collapse_eq_self_iff, collapse, hscan]
  exact pair?_collapsedSpread

/-- A second pass changes nothing where no collapsed pair takes the place of an arm. Where all
literals are complete, it changes something just where a pair and its target with the
environment first are the arms of a further disjunction. -/
theorem collapseEndpointPattern_twice (rule : String) :
    (Detached rule.toList → collapseEndpointPattern (collapseEndpointPattern rule) =
        collapseEndpointPattern rule) ∧
      (LiteralsComplete rule.toList → (collapseEndpointPattern (collapseEndpointPattern rule) =
        collapseEndpointPattern rule ↔ ¬ NestsPair rule.toList)) := by
  have hlist : collapseEndpointPattern (collapseEndpointPattern rule) =
      collapseEndpointPattern rule ↔ collapse (collapse rule.toList) = collapse rule.toList := by
    simp [collapseEndpointPattern, ← String.toList_inj]
  refine ⟨fun h => hlist.mpr (collapse_twice h), fun hc => ?_⟩
  rw [hlist, collapse_twice_iff hc]
  constructor
  · intro hnone hnest
    obtain ⟨d, hd, hpair⟩ := hnest.pair hc
    exact hpair (hnone d hd)
  · intro hnest d hd
    rw [Option.eq_none_iff_forall_ne_some]
    exact fun p hp => hnest (.of_pair hc hd hp)

/-- A pair as one arm, another target as the other. -/
def armedRule : String := "((endpoint==\"a/q#e\"||endpoint==\"a#e/q\") || endpoint==\"b#e/q\")"

/-- A pair as one arm, its own target as the other. -/
def nestedPair : String := "((endpoint==\"a/q#e\" || endpoint==\"a#e/q\") || endpoint==\"a#e/q\")"

theorem collapseEndpointPattern_twice_armedRule :
    Detached "(endpoint==\"a#e/q\"||endpoint==\"a/q#e\") and x".toList ∧
      collapseEndpointPattern
          (collapseEndpointPattern "(endpoint==\"a#e/q\"||endpoint==\"a/q#e\") and x") =
        collapseEndpointPattern "(endpoint==\"a#e/q\"||endpoint==\"a/q#e\") and x" ∧
      LiteralsComplete armedRule.toList ∧ ¬ Detached armedRule.toList ∧
      ¬ NestsPair armedRule.toList ∧
      LiteralsComplete nestedPair.toList ∧ NestsPair nestedPair.toList := by
  have hdetached : Detached "(endpoint==\"a#e/q\"||endpoint==\"a/q#e\") and x".toList := by
    decide +kernel
  have harmed : LiteralsComplete armedRule.toList := by decide +kernel
  have hnested : LiteralsComplete nestedPair.toList := by decide +kernel
  have hsame : collapseEndpointPattern (collapseEndpointPattern armedRule) =
      collapseEndpointPattern armedRule := by
    decide +kernel
  have hchanged : collapseEndpointPattern (collapseEndpointPattern nestedPair) ≠
      collapseEndpointPattern nestedPair := by
    decide +kernel
  refine ⟨hdetached, (collapseEndpointPattern_twice _).1 hdetached, harmed, by decide +kernel,
    ((collapseEndpointPattern_twice _).2 harmed).mp hsame, hnested, ?_⟩
  exact not_not.mp fun h => hchanged (((collapseEndpointPattern_twice _).2 hnested).mpr h)

/-- The literal that the first pass writes and the arm beside it are a pair for the second. -/
theorem nestedPair_collapses_again :
    collapseEndpointPattern nestedPair = "(endpoint==\"a/q#e\" || endpoint==\"a#e/q\")" ∧
      collapseEndpointPattern (collapseEndpointPattern nestedPair) = "endpoint==\"a/q#e\"" ∧
      collapseEndpointPattern (collapseEndpointPattern nestedPair) ≠
        collapseEndpointPattern nestedPair := by
  have hone : collapseEndpointPattern nestedPair =
      "(endpoint==\"a/q#e\" || endpoint==\"a#e/q\")" := by
    decide +kernel
  have htwo : collapseEndpointPattern "(endpoint==\"a/q#e\" || endpoint==\"a#e/q\")" =
      "endpoint==\"a/q#e\"" := by
    decide +kernel
  refine ⟨hone, by rw [hone, htwo], ?_⟩
  rw [hone, htwo]
  decide

end RouteMigration.Rule
