import Mathlib.Data.List.Infix
import RouteMigration.Proofs.Rule.Expansion

/-! Collapsing what expanding wrote. In a rule whose literals are all complete, the two passes
together respell each qualified target in its canonical literal, a disjunction of its two
spellings included, and touch nothing else. -/

namespace RouteMigration.Rule

open RouteMigration.Text RouteMigration.Target

/-! ## Rules with complete literals -/

def literalWord : List Char := "endpoint==".toList

/-- A literal stands at the front, and its value does not hold the word a literal starts with. -/
def CompleteAt (s : List Char) : Prop :=
  ∃ value rest, s = literalText value ++ rest ∧ '"' ∉ value ∧ ¬ literalWord <:+: value

/-- Wherever the word occurs, it starts a complete literal. -/
def LiteralsComplete (rule : List Char) : Prop :=
  ∀ s, s <:+ rule → literalWord <+: s → CompleteAt s

theorem completeAt_iff {s : List Char} :
    CompleteAt s ↔ ∃ p ∈ readLiteral? s, ¬ literalWord <:+: p.1 := by
  constructor
  · rintro ⟨value, rest, hs, hv, hword⟩
    exact ⟨(value, rest), readLiteral?_eq_some_iff.mpr ⟨hv, hs⟩, hword⟩
  · rintro ⟨⟨value, rest⟩, hread, hword⟩
    obtain ⟨hv, hs⟩ := readLiteral?_eq_some_iff.mp hread
    exact ⟨value, rest, hs, hv, hword⟩

instance (s : List Char) : Decidable (CompleteAt s) := decidable_of_iff _ completeAt_iff.symm

instance (rule : List Char) : Decidable (LiteralsComplete rule) :=
  decidable_of_iff (∀ s ∈ rule.tails, literalWord <+: s → CompleteAt s)
    ⟨fun h s hs => h s ((List.mem_tails s rule).mpr hs),
      fun h s hs => h s ((List.mem_tails s rule).mp hs)⟩

theorem LiteralsComplete.suffix {rule s : List Char} (h : LiteralsComplete rule) (hs : s <:+ rule) :
    LiteralsComplete s := fun u hu => h u (hu.trans hs)

theorem literalText_word (value rest : List Char) :
    literalText value ++ rest = literalWord ++ '"' :: (value ++ '"' :: rest) := by
  rw [literalText_append]
  rfl

/-- The value of a literal in such a rule. -/
structure IsValue (value : List Char) : Prop where
  quote : '"' ∉ value
  word : ¬ literalWord <:+: value

theorem LiteralsComplete.value {value rest : List Char} (hv : '"' ∉ value)
    (h : LiteralsComplete (literalText value ++ rest)) : IsValue value := by
  have hword : literalWord <+: literalText value ++ rest := by
    rw [literalText_word]
    exact List.prefix_append _ _
  obtain ⟨w, r, heq, hw, hnone⟩ := h _ (List.suffix_refl _) hword
  obtain ⟨rfl, -⟩ := literal_unique hv hw heq
  exact ⟨hv, hnone⟩

theorem IsValue.tail {c : Char} {value : List Char} (h : IsValue (c :: value)) : IsValue value :=
  ⟨fun hq => h.quote (List.mem_cons_of_mem _ hq), fun hw => h.word (hw.trans (List.infix_cons_iff.mpr
    (.inr (List.infix_refl _))))⟩

/-! ## Canonical spelling -/

/-- The two spellings of one target stand at the front as the arms of a disjunction. -/
def PairAt (q : Qualified) (s rest : List Char) : Prop :=
  q.IsProper ∧ ∃ one other before after, one ≠ other ∧
    IsDisjunction (q.spell one) before after (q.spell other) ∧
      s = (Token.disjunction (q.spell one) before after (q.spell other)).text ++ rest

/-- A literal that spells the target stands at the front. -/
def LiteralAt (q : Qualified) (s rest : List Char) : Prop :=
  q.IsProper ∧ ∃ spelling, '"' ∉ q.spell spelling ∧ s = literalText (q.spell spelling) ++ rest

/-- One rule is the other with each pair, and each qualified literal outside of pairs, replaced
by the canonical literal of its target. -/
inductive Canonicalized : List Char → List Char → Prop
  | nil : Canonicalized [] []
  | pair {q s rest out} : PairAt q s rest → Canonicalized rest out →
      Canonicalized s (literalText q.canonical ++ out)
  | literal {q s rest out} : LiteralAt q s rest → Canonicalized rest out →
      Canonicalized s (literalText q.canonical ++ out)
  | other {c rest out} : (∀ q r, ¬ PairAt q (c :: rest) r) → (∀ q r, ¬ LiteralAt q (c :: rest) r) →
      Canonicalized rest out → Canonicalized (c :: rest) (c :: out)

theorem PairAt.unique {q r : Qualified} {s a b : List Char} (h : PairAt q s a)
    (h' : PairAt r s b) : q = r ∧ a = b := by
  obtain ⟨hq, one, other, before, after, -, hd, rfl⟩ := h
  obtain ⟨hr, one', other', before', after', -, hd', heq⟩ := h'
  rw [disjunctionText_append, disjunctionText_append] at heq
  obtain ⟨hfirst, heq⟩ := literal_unique hd.first hd'.first (List.cons.inj heq).2
  obtain ⟨-, heq⟩ := span_unique hd.before hd'.before isBlank_bar isBlank_bar heq
  simp only [List.cons.injEq, true_and] at heq
  rw [literalText_cons, literalText_cons] at heq
  obtain ⟨-, heq⟩ := span_unique hd.after hd'.after isBlank_e isBlank_e heq
  rw [← literalText_cons, ← literalText_cons] at heq
  obtain ⟨-, heq⟩ := literal_unique hd.second hd'.second heq
  exact ⟨(Qualified.spell_injective hq hr hfirst).1, (List.cons.inj heq).2⟩

theorem LiteralAt.unique {q r : Qualified} {s a b : List Char} (h : LiteralAt q s a)
    (h' : LiteralAt r s b) : q = r ∧ a = b := by
  obtain ⟨hq, spelling, hquote, rfl⟩ := h
  obtain ⟨hr, spelling', hquote', heq⟩ := h'
  obtain ⟨hvalue, hrest⟩ := literal_unique hquote hquote' heq
  exact ⟨(Qualified.spell_injective hq hr hvalue).1, hrest⟩

theorem PairAt.not_literalAt {q r : Qualified} {s a b : List Char} (h : PairAt q s a) :
    ¬ LiteralAt r s b := by
  obtain ⟨-, one, other, before, after, -, -, rfl⟩ := h
  rintro ⟨-, spelling, -, heq⟩
  rw [disjunctionText_append, literalText_cons] at heq
  cases heq

theorem not_pairAt_nil (q : Qualified) (rest : List Char) : ¬ PairAt q [] rest := by
  rintro ⟨-, one, other, before, after, -, -, heq⟩
  rw [disjunctionText_append] at heq
  cases heq

theorem not_literalAt_nil (q : Qualified) (rest : List Char) : ¬ LiteralAt q [] rest := by
  rintro ⟨-, spelling, -, heq⟩
  rw [literalText_cons] at heq
  cases heq

/-- A rule has one canonical form. -/
theorem Canonicalized.unique {s a b : List Char} (ha : Canonicalized s a)
    (hb : Canonicalized s b) : a = b := by
  induction ha generalizing b with
  | nil =>
    cases hb with
    | nil => rfl
    | pair hp _ => exact absurd hp (not_pairAt_nil _ _)
    | literal hl _ => exact absurd hl (not_literalAt_nil _ _)
  | pair hp _ ih =>
    cases hb with
    | nil => exact absurd hp (not_pairAt_nil _ _)
    | pair hp' h' =>
      obtain ⟨rfl, rfl⟩ := hp.unique hp'
      rw [ih h']
    | literal hl _ => exact absurd hl hp.not_literalAt
    | other hnot _ _ => exact absurd hp (hnot _ _)
  | literal hl _ ih =>
    cases hb with
    | nil => exact absurd hl (not_literalAt_nil _ _)
    | pair hp _ => exact absurd hl hp.not_literalAt
    | literal hl' h' =>
      obtain ⟨rfl, rfl⟩ := hl.unique hl'
      rw [ih h']
    | other _ hnot _ => exact absurd hl (hnot _ _)
  | other hnotp hnotl _ ih =>
    cases hb with
    | pair hp _ => exact absurd hp (hnotp _ _)
    | literal hl _ => exact absurd hl (hnotl _ _)
    | other _ _ h' => rw [ih h']

/-! ## The canonical form, token by token -/

def Token.values : Token → List (List Char)
  | plain _ => []
  | literal value => [value]
  | disjunction first _ _ second => [first, second]

theorem LiteralsComplete.values {t : Token} {rest : List Char} (ht : t.IsPattern)
    (h : LiteralsComplete (t.text ++ rest)) : ∀ value ∈ t.values, IsValue value := by
  cases t with
  | plain => exact ht.elim
  | literal value =>
    intro v hv
    rw [List.mem_singleton.mp hv]
    exact h.value ht
  | disjunction first before after second =>
    have ht : IsDisjunction first before after second := ht
    rw [disjunctionText_append] at h
    have hfirst := h.suffix (List.suffix_cons _ _)
    have hsecond : LiteralsComplete (literalText second ++ ')' :: rest) := by
      refine hfirst.suffix ⟨literalText first ++ (before ++ '|' :: '|' :: after), ?_⟩
      simp
    intro v hv
    rcases List.mem_cons.mp hv with rfl | hv
    · exact hfirst.value ht.first
    · rw [List.mem_singleton.mp hv]
      exact hsecond.value ht.second

/-- No token begins inside of a value: the word it would need is not there, and cannot end
beyond the quote. -/
theorem noneAt_value {c : Char} {value : List Char} (h : IsValue (c :: value)) (rest : List Char) :
    NoneAt Token.IsPattern (c :: (value ++ '"' :: rest)) := by
  have hword : '"' ∉ literalWord := by decide
  rintro t ht ⟨tail, heq⟩
  cases t with
  | plain => exact ht
  | literal w =>
    have heq : literalText w ++ tail = (c :: value) ++ '"' :: rest := heq
    rw [literalText_word] at heq
    obtain ⟨hw, -⟩ := cut_unique hword h.quote heq
    exact h.word (hw ▸ List.infix_refl _)
  | disjunction first before after second =>
    rw [disjunctionText_append, literalText_word] at heq
    obtain ⟨hw, -⟩ := cut_unique hword h.tail.quote (List.cons.inj heq).2
    exact h.tail.word (hw ▸ List.infix_refl _)

theorem PairAt.pattern {q : Qualified} {s rest : List Char} (h : PairAt q s rest) :
    ∃ t : Token, t.IsArmed ∧ t.text <+: s := by
  obtain ⟨-, one, other, before, after, -, hd, rfl⟩ := h
  exact ⟨.disjunction _ _ _ _, hd, List.prefix_append _ _⟩

theorem Canonicalized.plain {c : Char} {s out : List Char}
    (hnone : NoneAt Token.IsPattern (c :: s)) (h : Canonicalized s out) :
    Canonicalized (c :: s) (c :: out) := by
  refine .other (fun q r hp => ?_) (fun q r hl => ?_) h
  · obtain ⟨t, ht, hp⟩ := hp.pattern
    exact hnone t ht.isPattern hp
  · obtain ⟨-, spelling, hquote, heq⟩ := hl
    exact hnone (.literal (q.spell spelling)) hquote ⟨r, heq.symm⟩

theorem Canonicalized.run {run s out : List Char} (hrun : ∀ c ∈ run, c ≠ '(' ∧ c ≠ 'e')
    (h : Canonicalized s out) : Canonicalized (run ++ s) (run ++ out) := by
  induction run with
  | nil => exact h
  | cons c run ih =>
    exact .plain (noneAt_of_not_opening (hrun c (by simp)) _)
      (ih fun x hx => hrun x (List.mem_cons_of_mem _ hx))

theorem Canonicalized.value {value s out : List Char} (hv : IsValue value)
    (h : Canonicalized s out) : Canonicalized (value ++ '"' :: s) (value ++ '"' :: out) := by
  induction value with
  | nil => exact .plain (noneAt_of_not_opening (by decide) _) h
  | cons c value ih => exact .plain (noneAt_value hv s) (ih hv.tail)

theorem bothOf_collapse {q : Qualified} (hq : q.IsProper) :
    (bothOf q).collapse = literalText q.canonical := by
  simp [bothOf, Token.collapse, bothSpellings?_spell hq]

theorem Canonicalized.arm {value s out : List Char} (hv : IsValue value)
    (h : Canonicalized s out) :
    Canonicalized (literalText value ++ s) ((armOf value).collapse ++ out) := by
  cases hp : Qualified.parse? value with
  | some p =>
    obtain ⟨q, spelling⟩ := p
    obtain ⟨hq, rfl⟩ := Qualified.parse?_eq_some_iff.mp hp
    have harm : armOf (q.spell spelling) = bothOf q := by simp [armOf, hp]
    rw [harm, bothOf_collapse hq]
    exact .literal ⟨hq, spelling, hv.quote, rfl⟩ h
  | none =>
    rw [armOf_of_none hp, Token.collapse, Token.text, literalText_cons, literalText_cons]
    · refine .other (fun q r hpair => ?_) (fun q r hl => ?_) (.run (by simp) (h.value hv))
      · obtain ⟨-, one, other, before, after, -, -, heq⟩ := hpair
        rw [disjunctionText_append] at heq
        cases heq
      · obtain ⟨hq, spelling, hquote, heq⟩ := hl
        rw [← literalText_cons] at heq
        obtain ⟨rfl, -⟩ := literal_unique hv.quote hquote heq
        rw [Qualified.parse?_spell hq] at hp
        cases hp
    · intro first before after second heq
      cases heq

theorem bothSpellings?_eq_some_iff {first second : List Char} {q : Qualified} :
    bothSpellings? first second = some q ↔
      q.IsProper ∧ ∃ one other, one ≠ other ∧ first = q.spell one ∧ second = q.spell other := by
  unfold bothSpellings?
  constructor
  · intro h
    split at h
    · rename_i p s r t hp hr
      split at h
      · rename_i hsame
        obtain ⟨rfl, hne⟩ := hsame
        cases h
        obtain ⟨hq, rfl⟩ := Qualified.parse?_eq_some_iff.mp hp
        exact ⟨hq, s, t, hne, rfl, (Qualified.parse?_eq_some_iff.mp hr).2⟩
      · cases h
    · cases h
  · rintro ⟨hq, one, other, hne, rfl, rfl⟩
    simp [Qualified.parse?_spell hq, hne]

theorem pairAt_iff {q : Qualified} {first before after second rest : List Char}
    (hd : IsDisjunction first before after second) :
    (∃ r, PairAt q ((Token.disjunction first before after second).text ++ rest) r) ↔
      bothSpellings? first second = some q := by
  rw [bothSpellings?_eq_some_iff]
  constructor
  · rintro ⟨r, hq, one, other, b, a, hne, hd', heq⟩
    have hsame := (disjunction?_text hd rest).symm
    rw [heq, disjunction?_text hd'] at hsame
    simp only [Option.some.injEq, Token.disjunction.injEq] at hsame
    exact ⟨hq, one, other, hne, hsame.1, hsame.2.2.2⟩
  · rintro ⟨hq, one, other, hne, rfl, rfl⟩
    exact ⟨rest, hq, one, other, before, after, hne, hd, rfl⟩

theorem Canonicalized.disjunction {first before after second s out : List Char}
    (hd : IsDisjunction first before after second) (hfirst : IsValue first)
    (hsecond : IsValue second) (hnone : bothSpellings? first second = none)
    (h : Canonicalized s out) :
    Canonicalized ((Token.disjunction first before after second).text ++ s)
      ('(' :: ((armOf first).collapse ++ (before ++ '|' :: '|' :: (after ++
        ((armOf second).collapse ++ ')' :: out))))) := by
  have hnot : ∀ q r, ¬ PairAt q ((Token.disjunction first before after second).text ++ s) r := by
    intro q r hp
    rw [(pairAt_iff hd).mp ⟨r, hp⟩] at hnone
    cases hnone
  have hclose : Canonicalized (')' :: s) (')' :: out) :=
    .plain (noneAt_of_not_opening (by decide) _) h
  have hbetween := (hclose.arm hsecond).run (not_opening_between hd)
  simp only [orSign, List.append_assoc, List.cons_append, List.nil_append] at hbetween
  rw [disjunctionText_append] at hnot ⊢
  refine .other hnot (fun q r hl => ?_) (hbetween.arm hfirst)
  obtain ⟨-, spelling, -, heq⟩ := hl
  cases heq

theorem Canonicalized.token {t : Token} {s out : List Char} (ht : t.IsPattern)
    (hv : ∀ value ∈ t.values, IsValue value) (h : Canonicalized s out) :
    Canonicalized (t.text ++ s) (t.expansion.flatMap Token.collapse ++ out) := by
  cases t with
  | plain => exact ht.elim
  | literal value =>
    have := h.arm (hv value (by simp [Token.values]))
    simpa [Token.expansion, Token.text] using this
  | disjunction first before after second =>
    have hd : IsDisjunction first before after second := ht
    cases hboth : bothSpellings? first second with
    | some q =>
      obtain ⟨hq, one, other, hne, rfl, rfl⟩ := bothSpellings?_eq_some_iff.mp hboth
      have hpair := Canonicalized.pair ⟨hq, one, other, before, after, hne, hd, rfl⟩ h
      simpa [Token.expansion, hboth, Token.collapse] using hpair
    | none =>
      have := h.disjunction hd (hv first (by simp [Token.values]))
        (hv second (by simp [Token.values])) hboth
      rw [Token.expansion]
      split
      · rename_i hkept
        obtain ⟨hf, hs⟩ := hkept.resolve_left (by simp [hboth])
        simpa [hboth, Token.collapse, armOf_of_none hf, armOf_of_none hs, Token.text, orSign] using this
      · simpa [Token.collapse, orSign, List.flatMap_map] using this

theorem canonicalized_expansions {ts : List Token} (h : Reading Token.IsPattern ts)
    (hc : LiteralsComplete (textOf ts)) :
    Canonicalized (textOf ts) ((expansions ts).flatMap Token.collapse) := by
  induction h with
  | nil => exact .nil
  | @found t ts ht _ ih =>
    have hrest := ih (hc.suffix (List.suffix_append _ _))
    rw [textOf_cons, expansions, List.flatMap_cons, List.flatMap_append]
    exact hrest.token ht (hc.values ht)
  | plain hnone _ ih => exact (ih (hc.suffix (List.suffix_cons _ _))).plain hnone

/-! ## What collapsing reads -/

/-- A token as a reader of disjunctions alone takes it. -/
def Token.spread : Token → List Token
  | literal value => (literalText value).map plain
  | t => [t]

theorem spread_text (t : Token) : textOf t.spread = t.text := by
  cases t with
  | literal value => rw [Token.spread, textOf_plains]; rfl
  | plain | disjunction => simp [Token.spread]

theorem spreads_text (ts : List Token) : textOf (ts.flatMap Token.spread) = textOf ts := by
  rw [textOf, List.flatMap_assoc]
  exact congrArg (List.flatMap · ts) (funext spread_text)

theorem spread_collapse (t : Token) : t.spread.flatMap Token.collapse = t.collapse := by
  cases t with
  | literal value => simp [Token.spread, Token.collapse, Token.text, List.flatMap_map]
  | plain | disjunction => simp [Token.spread]

theorem NoneAt.armed {s : List Char} (h : NoneAt Token.IsPattern s) : NoneAt Token.IsArmed s :=
  fun t ht => h t ht.isPattern

theorem noneAt_armed_cons {c : Char} (h : c ≠ '(') (s : List Char) :
    NoneAt Token.IsArmed (c :: s) := by
  rintro t ht ⟨rest, heq⟩
  cases t with
  | plain | literal => exact ht.elim
  | disjunction => exact h (List.cons.inj heq).1.symm

theorem Reading.spreadRun {ts : List Token} (h : Reading Token.IsArmed ts) {run : List Char}
    (hrun : '(' ∉ run) : Reading Token.IsArmed (run.map Token.plain ++ ts) := by
  induction run with
  | nil => exact h
  | cons c run ih =>
    simp only [List.mem_cons, not_or] at hrun
    exact .plain (noneAt_armed_cons (Ne.symm hrun.1) _) (ih hrun.2)

/-- Inside of a value a disjunction could begin only with its last characters, the quote that
closes the value then being the one that opens an arm. -/
theorem noneAt_armed_value {c : Char} {value : List Char} (hquote : '"' ∉ value)
    (hopen : c :: value ≠ '(' :: literalWord) (rest : List Char) :
    NoneAt Token.IsArmed (c :: (value ++ '"' :: rest)) := by
  have hword : '"' ∉ literalWord := by decide
  rintro t ht ⟨tail, heq⟩
  cases t with
  | plain | literal => exact ht
  | disjunction first before after second =>
    rw [disjunctionText_append, literalText_word] at heq
    obtain ⟨hc, heq⟩ := List.cons.inj heq
    obtain ⟨hw, -⟩ := cut_unique hword hquote heq
    exact hopen (by rw [← hc, ← hw])

theorem IsValue.not_opening {value : List Char} (h : IsValue value) :
    ¬ '(' :: literalWord <:+ value := fun hs =>
  h.word ((List.suffix_cons _ _).trans hs).isInfix

theorem Reading.spreadValue {ts : List Token} (h : Reading Token.IsArmed ts) {value : List Char}
    (hquote : '"' ∉ value) (hopen : ¬ '(' :: literalWord <:+ value) :
    Reading Token.IsArmed (value.map Token.plain ++ .plain '"' :: ts) := by
  induction value with
  | nil => exact .plain (noneAt_armed_cons (by decide) _) h
  | cons c value ih =>
    simp only [List.mem_cons, not_or] at hquote
    refine .plain ?_ (ih hquote.2 fun hs => hopen (hs.trans (List.suffix_cons _ _)))
    have hnone := noneAt_armed_value hquote.2 (fun heq => hopen (heq ▸ List.suffix_refl _)) (textOf ts)
    simpa using hnone

theorem Reading.spreadLiteral {ts : List Token} (h : Reading Token.IsArmed ts) {value : List Char}
    (hquote : '"' ∉ value) (hopen : ¬ '(' :: literalWord <:+ value) :
    Reading Token.IsArmed ((literalText value).map Token.plain ++ ts) := by
  have hstart : '(' ∉ literalStart := by decide
  simpa [literalText] using (h.spreadValue hquote hopen).spreadRun hstart

/-- Values are read character by character, and no disjunction begins inside of one. -/
theorem reading_spread {ts : List Token} (h : Reading Token.IsPattern ts)
    (hv : ∀ value, .literal value ∈ ts → IsValue value) :
    Reading Token.IsArmed (ts.flatMap Token.spread) := by
  induction h with
  | nil => exact .nil
  | @found t ts ht _ ih =>
    have hrest := ih fun value hmem => hv value (List.mem_cons_of_mem _ hmem)
    rw [List.flatMap_cons]
    cases t with
    | plain => exact ht.elim
    | literal value =>
      have hvalue := hv value (by simp)
      exact hrest.spreadLiteral hvalue.quote hvalue.not_opening
    | disjunction first before after second => exact .found ht hrest
  | @plain c ts hnone _ ih =>
    have hrest := ih fun value hmem => hv value (List.mem_cons_of_mem _ hmem)
    have hnone : NoneAt Token.IsArmed (c :: textOf (ts.flatMap Token.spread)) := by
      rw [spreads_text]
      exact hnone.armed
    exact .plain hnone hrest

theorem literal_mem_expansion {t : Token} {value : List Char} (h : .literal value ∈ t.expansion) :
    value ∈ t.values := by
  have harm : ∀ v, .literal value = armOf v → value = v := by
    intro v hv
    cases hp : Qualified.parse? v with
    | none =>
      rw [armOf_of_none hp] at hv
      exact Token.literal.inj hv
    | some p =>
      rw [armOf, hp] at hv
      cases hv
  cases t with
  | plain => simp [Token.expansion] at h
  | literal v =>
    rw [harm v (List.mem_singleton.mp h)]
    exact List.mem_singleton_self v
  | disjunction first before after second =>
    rw [Token.expansion] at h
    split at h
    · simp at h
    · simp only [List.mem_cons, List.mem_append, List.mem_map, List.not_mem_nil, or_false,
        reduceCtorEq, false_or, and_false, exists_false] at h
      rcases h with h | h
      · simp [Token.values, harm first h]
      · simp [Token.values, harm second h]

theorem values_of_reading {ts : List Token} (h : Reading Token.IsPattern ts)
    (hc : LiteralsComplete (textOf ts)) : ∀ t ∈ ts, ∀ value ∈ t.values, IsValue value := by
  induction h with
  | nil => simp
  | found ht _ ih =>
    intro u hu
    rcases List.mem_cons.mp hu with rfl | hu
    · exact hc.values ht
    · exact ih (hc.suffix (List.suffix_append _ _)) u hu
  | plain _ _ ih =>
    intro u hu
    rcases List.mem_cons.mp hu with rfl | hu
    · simp [Token.values]
    · exact ih (hc.suffix (List.suffix_cons _ _)) u hu

theorem literal_mem_expansions {ts : List Token} (h : Reading Token.IsPattern ts)
    (hc : LiteralsComplete (textOf ts)) :
    ∀ value, .literal value ∈ expansions ts → IsValue value := by
  intro value hmem
  obtain ⟨t, ht, hmem⟩ := List.mem_flatMap.mp hmem
  exact values_of_reading h hc t ht value (literal_mem_expansion hmem)

/-- Collapsing goes by the tokens of its text, although it reads disjunctions only. -/
theorem collapse_textOf {ts : List Token} (h : Reading Token.IsPattern ts)
    (hv : ∀ value, .literal value ∈ ts → IsValue value) :
    collapse (textOf ts) = ts.flatMap Token.collapse := by
  rw [collapse, ← spreads_text, scan_textOf disjunction?_recognizes (reading_spread h hv),
    List.flatMap_assoc]
  exact congrArg (List.flatMap · _) (funext spread_collapse)

/-- Collapsing reads an expanded rule as expansion wrote it. -/
theorem collapse_expand_eq {rule : List Char} (h : LiteralsComplete rule) :
    collapse (expand rule) = (expansions (scan pattern? rule)).flatMap Token.collapse := by
  obtain ⟨hread, htext⟩ := reading_scan pattern?_recognizes rule
  have hliteral := literal_mem_expansions hread (by rwa [htext])
  rw [expand_eq, collapse_textOf (reading_expansions hread) hliteral]

/-! ## There and back -/

/-- Every literal that spells a target spells it in the canonical way. -/
def AllCanonical (rule : List Char) : Prop :=
  ∀ (s : List Char) (q : Qualified) (spelling : Spelling) (rest : List Char),
    s <:+ rule → q.IsProper → '"' ∉ q.spell spelling →
      s = literalText (q.spell spelling) ++ rest → spelling = .qualifierFirst

theorem allCanonical_iff {rule : List Char} :
    AllCanonical rule ↔ ∀ s ∈ rule.tails, ∀ p ∈ readLiteral? s, ∀ x ∈ Qualified.parse? p.1,
      x.2 = .qualifierFirst := by
  constructor
  · rintro h s hs ⟨value, rest⟩ hread ⟨q, spelling⟩ hparse
    obtain ⟨hv, hs'⟩ := readLiteral?_eq_some_iff.mp hread
    obtain ⟨hq, rfl⟩ := Qualified.parse?_eq_some_iff.mp hparse
    exact h s q spelling rest ((List.mem_tails s rule).mp hs) hq hv hs'
  · intro h s q spelling rest hs hq hv hs'
    exact h s ((List.mem_tails s rule).mpr hs) _ (readLiteral?_eq_some_iff.mpr ⟨hv, hs'⟩) _
      (Qualified.parse?_spell hq spelling)

instance (rule : List Char) : Decidable (AllCanonical rule) :=
  decidable_of_iff _ allCanonical_iff.symm

theorem Canonicalized.eq_self {s out : List Char} (h : Canonicalized s out)
    (hall : AllCanonical s) : out = s := by
  induction h with
  | nil => rfl
  | @pair q s rest out hp _ _ =>
    obtain ⟨hq, one, other, before, after, hne, hd, rfl⟩ := hp
    rw [disjunctionText_append] at hall
    have hone := hall _ q one _ (List.suffix_cons _ _) hq hd.first rfl
    have hother : other = .qualifierFirst := by
      refine hall _ q other (')' :: rest)
        ⟨'(' :: (literalText (q.spell one) ++ (before ++ '|' :: '|' :: after)), ?_⟩ hq hd.second rfl
      simp
    exact absurd (hone.trans hother.symm) hne
  | @literal q s rest out hl _ ih =>
    obtain ⟨hq, spelling, hquote, rfl⟩ := hl
    obtain rfl := hall _ q spelling rest (List.suffix_refl _) hq hquote rfl
    rw [ih fun s q' spelling' r hs => hall s q' spelling' r (hs.trans (List.suffix_append _ _))]
    rfl
  | @other c rest out _ _ _ ih =>
    rw [ih fun s q' spelling' r hs => hall s q' spelling' r (hs.trans (List.suffix_cons _ _))]

/-- Expanding and collapsing a rule with complete literals gives its canonical form; a rule
whose qualified literals are all canonical comes back as it was. -/
theorem collapse_expandEndpointPattern {rule : String} (h : LiteralsComplete rule.toList) :
    Canonicalized rule.toList
        (collapseEndpointPattern (expandEndpointPattern rule)).toList ∧
      (AllCanonical rule.toList →
        collapseEndpointPattern (expandEndpointPattern rule) = rule) := by
  have hcanon : Canonicalized rule.toList
      (collapseEndpointPattern (expandEndpointPattern rule)).toList := by
    obtain ⟨hread, htext⟩ := reading_scan pattern?_recognizes rule.toList
    have := canonicalized_expansions hread (by rwa [htext])
    rw [htext, ← collapse_expand_eq h] at this
    simpa [collapseEndpointPattern, expandEndpointPattern] using this
  exact ⟨hcanon, fun hall => String.toList_inj.mp (hcanon.eq_self hall)⟩

theorem collapse_expandEndpointPattern_pair :
    LiteralsComplete "(endpoint==\"a#e/q\"||endpoint==\"a/q#e\") and x".toList ∧
      Canonicalized "(endpoint==\"a#e/q\"||endpoint==\"a/q#e\") and x".toList
        "endpoint==\"a/q#e\" and x".toList ∧
      LiteralsComplete "endpoint==\"a/q#e\" and x".toList ∧
      AllCanonical "endpoint==\"a/q#e\" and x".toList ∧
      collapseEndpointPattern (expandEndpointPattern "endpoint==\"a/q#e\" and x") =
        "endpoint==\"a/q#e\" and x" := by
  have hpair : LiteralsComplete "(endpoint==\"a#e/q\"||endpoint==\"a/q#e\") and x".toList := by
    decide +kernel
  have hone : LiteralsComplete "endpoint==\"a/q#e\" and x".toList := by decide +kernel
  have hall : AllCanonical "endpoint==\"a/q#e\" and x".toList := by decide +kernel
  have hresult : collapseEndpointPattern
      (expandEndpointPattern "(endpoint==\"a#e/q\"||endpoint==\"a/q#e\") and x") =
        "endpoint==\"a/q#e\" and x" := by
    decide +kernel
  refine ⟨hpair, ?_, hone, hall, (collapse_expandEndpointPattern hone).2 hall⟩
  rw [← hresult]
  exact (collapse_expandEndpointPattern hpair).1

end RouteMigration.Rule
