import RouteMigration.Proofs.Rule.Tokens
import RouteMigration.Proofs.Target.Spelling

/-! Expanding a rule twice is expanding it once. Expansion turns each token into tokens again,
and what it writes is read back as those very tokens: a literal or a disjunction that a second
reading found elsewhere would have been there for the first. -/

namespace RouteMigration.Rule

open RouteMigration.Text RouteMigration.Target

/-! ## Expansion as tokens -/

/-- The disjunction of both spellings that expanding writes. -/
def bothOf (q : Qualified) : Token :=
  .disjunction (q.spell .qualifierFirst) [' '] [' '] (q.spell .environmentFirst)

/-- What a literal expands to. -/
def armOf (value : List Char) : Token :=
  match Qualified.parse? value with
  | some (q, _) => bothOf q
  | none => .literal value

/-- The tokens of an expanded token. A disjunction with a qualified arm falls apart, unless its
arms are the two spellings of one target. -/
def Token.expansion : Token → List Token
  | plain c => [plain c]
  | literal value => [armOf value]
  | disjunction first before after second =>
    if (bothSpellings? first second).isSome ∨
        (Qualified.parse? first = none ∧ Qualified.parse? second = none) then
      [disjunction first before after second]
    else
      plain '(' :: armOf first :: ((before ++ (orSign ++ after)).map plain ++
        [armOf second, plain ')'])

def expansions (ts : List Token) : List Token := ts.flatMap Token.expansion

theorem armOf_text (value : List Char) : (armOf value).text = expandLiteral value := by
  unfold armOf expandLiteral
  cases Qualified.parse? value <;> rfl

theorem expansion_text (t : Token) : textOf t.expansion = t.expand := by
  cases t with
  | plain c => rfl
  | literal value => simp [Token.expansion, Token.expand, armOf_text]
  | disjunction first before after second =>
    rw [Token.expansion, Token.expand]
    by_cases hboth : (bothSpellings? first second).isSome
    · rw [if_pos (.inl hboth), if_pos hboth]
      simp
    rw [if_neg hboth]
    by_cases hnone : Qualified.parse? first = none ∧ Qualified.parse? second = none
    · rw [if_pos (.inr hnone)]
      simp [expandLiteral, hnone, Token.text]
    · rw [if_neg (not_or.mpr ⟨hboth, hnone⟩)]
      simp [armOf_text]

theorem expansions_text (ts : List Token) : textOf (expansions ts) = ts.flatMap Token.expand := by
  rw [textOf, expansions, List.flatMap_assoc]
  exact congrArg (List.flatMap · ts) (funext expansion_text)

theorem bothSpellings?_spell {q : Qualified} (h : q.IsProper) :
    bothSpellings? (q.spell .qualifierFirst) (q.spell .environmentFirst) = some q := by
  simp [bothSpellings?, Qualified.parse?_spell h]

/-- Nothing expanded expands any further. -/
theorem expand_of_mem_expansion {t u : Token} (h : u ∈ t.expansion) : u.expand = u.text := by
  have harm : ∀ value, (armOf value).expand = (armOf value).text := by
    intro value
    unfold armOf
    cases hp : Qualified.parse? value with
    | none => simp [Token.expand, Token.text, expandLiteral, hp]
    | some p =>
      obtain ⟨q, s⟩ := p
      have hq := (Qualified.parse?_eq_some_iff.mp hp).1
      simp [bothOf, Token.expand, bothSpellings?_spell hq]
  cases t with
  | plain c =>
    rw [List.mem_singleton.mp h]
    rfl
  | literal value =>
    rw [List.mem_singleton.mp h]
    exact harm value
  | disjunction first before after second =>
    rw [Token.expansion] at h
    split at h
    · rename_i hkept
      rw [List.mem_singleton.mp h, Token.expand]
      split
      · rfl
      · rename_i hboth
        obtain ⟨hfirst, hsecond⟩ := hkept.resolve_left hboth
        simp [expandLiteral, hfirst, hsecond, Token.text]
    · simp only [List.mem_cons, List.mem_append, List.mem_map, List.not_mem_nil, or_false] at h
      rcases h with rfl | rfl | ⟨c, -, rfl⟩ | rfl | rfl
      · rfl
      · exact harm first
      · rfl
      · exact harm second
      · rfl

/-! ## What the text of an expansion begins with -/

theorem armOf_isPattern {value : List Char} (h : '"' ∉ value) : (armOf value).IsPattern := by
  unfold armOf
  cases hp : Qualified.parse? value with
  | none => exact h
  | some p =>
    obtain ⟨q, s⟩ := p
    have hv := (Qualified.parse?_eq_some_iff.mp hp).2
    have hquote : ∀ t, '"' ∉ q.spell t := by
      intro t ht
      rw [hv] at h
      cases s <;> cases t <;> simp_all [Qualified.spell]
    exact ⟨hquote _, allBlank_space, allBlank_space, hquote _⟩

theorem pattern_head {t : Token} (h : t.IsPattern) :
    ∃ s, t.text = '(' :: s ∨ t.text = 'e' :: s := by
  cases t with
  | plain => exact h.elim
  | literal value => exact ⟨_, .inr rfl⟩
  | disjunction => exact ⟨_, .inl rfl⟩

theorem expansion_head {t : Token} (h : t.IsPattern) :
    ∃ s, textOf t.expansion = '(' :: s ∨ textOf t.expansion = 'e' :: s := by
  cases t with
  | plain => exact h.elim
  | literal value =>
    obtain ⟨s, hs⟩ := pattern_head (armOf_isPattern h)
    exact ⟨s, by simpa [Token.expansion] using hs⟩
  | disjunction first before after second =>
    rw [Token.expansion]
    split
    · exact ⟨_, .inl rfl⟩
    · exact ⟨_, .inl rfl⟩

theorem quote_mem_text {t : Token} (h : t.IsPattern) : '"' ∈ t.text := by
  cases t with
  | plain => exact h.elim
  | literal => simp [Token.text, literalText]
  | disjunction => simp [Token.text, literalText]

/-- Expansion brings no quotes to a text without them. -/
theorem quote_mem_textOf {ts : List Token} (h : Reading Token.IsPattern ts)
    (hq : '"' ∈ textOf (expansions ts)) : '"' ∈ textOf ts := by
  induction h with
  | nil => exact hq
  | found ht _ _ =>
    rw [textOf_cons, List.mem_append]
    exact .inl (quote_mem_text ht)
  | @plain c ts _ _ ih =>
    have hq : '"' ∈ c :: textOf (expansions ts) := hq
    rcases List.mem_cons.mp hq with rfl | hq
    · simp
    · exact List.mem_cons_of_mem _ (ih hq)

/-- A run of characters that begin neither literal nor disjunction has been there before. -/
theorem plain_run {ts : List Token} (h : Reading Token.IsPattern ts) {run rest : List Char}
    (hrun : ∀ c ∈ run, c ≠ '(' ∧ c ≠ 'e') (heq : textOf (expansions ts) = run ++ rest) :
    ∃ us, ts = run.map Token.plain ++ us ∧ Reading Token.IsPattern us ∧
      textOf (expansions us) = rest := by
  induction run generalizing ts with
  | nil => exact ⟨ts, rfl, h, heq⟩
  | cons c run ih =>
    obtain ⟨hpar, he⟩ := hrun c (by simp)
    cases h with
    | nil => cases heq
    | @found t ts ht hts =>
      obtain ⟨s, hs⟩ := expansion_head ht
      rw [expansions, List.flatMap_cons, textOf_append] at heq
      rcases hs with hs | hs <;> rw [hs] at heq
      · exact absurd (List.cons.inj heq).1.symm hpar
      · exact absurd (List.cons.inj heq).1.symm he
    | @plain d ts hnone hts =>
      have heq : d :: textOf (expansions ts) = c :: (run ++ rest) := heq
      obtain ⟨rfl, htail⟩ := List.cons.inj heq
      obtain ⟨us, rfl, hus, hrest⟩ := ih hts (fun x hx => hrun x (List.mem_cons_of_mem _ hx)) htail
      exact ⟨us, rfl, hus, hrest⟩

/-! ## Nothing new is found -/

/-- Where no token began, no literal begins after expansion: its start has been there before,
and so has a quote that ends it. -/
theorem no_new_literal {c : Char} {ts : List Token} (h : Reading Token.IsPattern ts)
    (hnone : NoneAt Token.IsPattern (c :: textOf ts)) (value : List Char) :
    ¬ literalText value <+: c :: textOf (expansions ts) := by
  rintro ⟨rest, heq⟩
  rw [literalText_cons] at heq
  obtain ⟨rfl, htail⟩ := List.cons.inj heq
  obtain ⟨us, rfl, hus, hrest⟩ := plain_run h (by simp) htail.symm
  have hquote : '"' ∈ textOf us := quote_mem_textOf hus (by simp [hrest])
  cases hcut : cutFirst '"' (textOf us) with
  | none => exact cutFirst_eq_none_iff.mp hcut hquote
  | some p =>
    obtain ⟨old, rest'⟩ := p
    obtain ⟨hus', hold⟩ := cutFirst_eq_some_iff.mp hcut
    refine hnone (.literal old) hold ⟨rest', ?_⟩
    rw [Token.text, literalText_cons, textOf_append, textOf_plains, hus']

/-- A literal that is not expanded further has been a literal before. -/
theorem literal_front {ts : List Token} (h : Reading Token.IsPattern ts) {value rest : List Char}
    (hv : '"' ∉ value) (heq : textOf (expansions ts) = literalText value ++ rest) :
    ∃ us, ts = .literal value :: us ∧ Reading Token.IsPattern us ∧
      textOf (expansions us) = rest := by
  cases h with
  | nil =>
    rw [literalText_cons] at heq
    cases heq
  | @plain c ts hnone hts => exact absurd ⟨rest, heq.symm⟩ (no_new_literal hts hnone value)
  | @found t ts ht hts =>
    rw [expansions, List.flatMap_cons, textOf_append] at heq
    cases t with
    | plain => exact ht.elim
    | literal old =>
      cases hp : Qualified.parse? old with
      | some p =>
        rw [literalText_cons] at heq
        simp [Token.expansion, armOf, hp, bothOf, Token.text] at heq
      | none =>
        simp only [Token.expansion, armOf, hp, textOf_cons, textOf_nil, List.append_nil,
          Token.text] at heq
        obtain ⟨rfl, hrest⟩ := literal_unique ht hv heq
        exact ⟨ts, rfl, hts, hrest⟩
    | disjunction first before after second =>
      rw [literalText_cons, Token.expansion] at heq
      split at heq <;> cases heq

theorem not_opening_of_allBlank {s : List Char} (h : AllBlank s) : ∀ c ∈ s, c ≠ '(' ∧ c ≠ 'e' := by
  intro c hc
  have hb := h c hc
  constructor <;> rintro rfl <;> exact absurd hb (by decide)

/-- What stands between the literals of a disjunction begins no token. -/
theorem not_opening_between {first before after second : List Char}
    (h : IsDisjunction first before after second) :
    ∀ c ∈ before ++ (orSign ++ after), c ≠ '(' ∧ c ≠ 'e' := by
  intro c hc
  rcases List.mem_append.mp hc with hc | hc
  · exact not_opening_of_allBlank h.before c hc
  rcases List.mem_append.mp hc with hc | hc
  · have : ∀ c ∈ orSign, c ≠ '(' ∧ c ≠ 'e' := by simp [orSign]
    exact this c hc
  · exact not_opening_of_allBlank h.after c hc

theorem no_new_disjunction {c : Char} {ts : List Token} (h : Reading Token.IsPattern ts)
    (hnone : NoneAt Token.IsPattern (c :: textOf ts)) {first before after second : List Char}
    (hd : IsDisjunction first before after second) :
    ¬ (Token.disjunction first before after second).text <+: c :: textOf (expansions ts) := by
  rintro ⟨rest, heq⟩
  rw [disjunctionText_append] at heq
  obtain ⟨rfl, htail⟩ := List.cons.inj heq
  obtain ⟨us, rfl, hus, hbetween⟩ := literal_front h hd.first htail.symm
  have hbetween : textOf (expansions us) =
      (before ++ (orSign ++ after)) ++ (literalText second ++ ')' :: rest) := by
    simp [hbetween, orSign]
  obtain ⟨ws, rfl, hws, hsecond⟩ := plain_run hus (not_opening_between hd) hbetween
  obtain ⟨xs, rfl, hxs, hclose⟩ := literal_front hws hd.second hsecond
  have hclose : textOf (expansions xs) = [')'] ++ rest := hclose
  obtain ⟨ys, rfl, -, -⟩ := plain_run hxs (by simp) hclose
  refine hnone (.disjunction first before after second) hd ⟨textOf ys, ?_⟩
  rw [disjunctionText_append]
  simp [Token.text, orSign]

theorem noneAt_expansions {c : Char} {ts : List Token} (h : Reading Token.IsPattern ts)
    (hnone : NoneAt Token.IsPattern (c :: textOf ts)) :
    NoneAt Token.IsPattern (c :: textOf (expansions ts)) := by
  intro t ht
  cases t with
  | plain => exact ht.elim
  | literal value => exact no_new_literal h hnone value
  | disjunction => exact no_new_disjunction h hnone ht

/-! ## Reading an expansion -/

theorem noneAt_of_not_opening {c : Char} (h : c ≠ '(' ∧ c ≠ 'e') (s : List Char) :
    NoneAt Token.IsPattern (c :: s) := by
  rintro t ht ⟨rest, heq⟩
  obtain ⟨u, hu⟩ := pattern_head ht
  rcases hu with hu | hu <;> rw [hu] at heq
  · exact h.1 (List.cons.inj heq).1.symm
  · exact h.2 (List.cons.inj heq).1.symm

theorem Reading.plains {ts : List Token} (h : Reading Token.IsPattern ts) {run : List Char}
    (hrun : ∀ c ∈ run, c ≠ '(' ∧ c ≠ 'e') :
    Reading Token.IsPattern (run.map Token.plain ++ ts) := by
  induction run with
  | nil => exact h
  | cons c run ih =>
    exact .plain (noneAt_of_not_opening (hrun c (by simp)) _)
      (ih fun x hx => hrun x (List.mem_cons_of_mem _ hx))

theorem armOf_of_none {value : List Char} (h : Qualified.parse? value = none) :
    armOf value = .literal value := by
  simp [armOf, h]

theorem armOf_of_some {value : List Char} (h : Qualified.parse? value ≠ none) :
    ∃ q, armOf value = bothOf q := by
  unfold armOf
  cases hp : Qualified.parse? value with
  | none => exact absurd hp h
  | some p => exact ⟨p.1, rfl⟩

/-- The parenthesis of a disjunction that fell apart opens none: one of the arms behind it
begins with a parenthesis of its own. -/
theorem noneAt_fallen {first before after second : List Char}
    (hd : IsDisjunction first before after second)
    (hq : ¬ (Qualified.parse? first = none ∧ Qualified.parse? second = none)) (rest : List Char) :
    NoneAt Token.IsPattern ('(' :: ((armOf first).text ++ (before ++ '|' :: '|' ::
      (after ++ ((armOf second).text ++ rest))))) := by
  rintro t ht ⟨tail, heq⟩
  cases t with
  | plain => exact ht
  | literal value => cases heq
  | disjunction f b a g =>
    have ht : IsDisjunction f b a g := ht
    rw [disjunctionText_append] at heq
    have heq := (List.cons.inj heq).2
    by_cases hf : Qualified.parse? first = none
    · obtain ⟨q, hsecond⟩ := armOf_of_some fun hs => hq ⟨hf, hs⟩
      rw [armOf_of_none hf, Token.text] at heq
      obtain ⟨-, heq⟩ := literal_unique ht.first hd.first heq
      obtain ⟨-, heq⟩ := span_unique ht.before hd.before isBlank_bar isBlank_bar heq
      simp only [List.cons.injEq, true_and] at heq
      rw [literalText_cons, hsecond] at heq
      obtain ⟨-, heq⟩ := span_unique ht.after hd.after isBlank_e (by decide) heq
      cases heq
    · obtain ⟨q, hfirst⟩ := armOf_of_some hf
      rw [hfirst, literalText_cons] at heq
      cases heq

theorem reading_expansion {t : Token} {ts : List Token} (ht : t.IsPattern)
    (h : Reading Token.IsPattern ts) : Reading Token.IsPattern (t.expansion ++ ts) := by
  cases t with
  | plain => exact ht.elim
  | literal value => exact .found (armOf_isPattern ht) h
  | disjunction first before after second =>
    rw [Token.expansion]
    split
    · exact .found ht h
    · rename_i hkept
      have ht : IsDisjunction first before after second := ht
      have hclose : Reading Token.IsPattern (.plain ')' :: ts) :=
        .plain (noneAt_of_not_opening (by decide) _) h
      have hsecond := Reading.found (armOf_isPattern ht.second) hclose
      have hfirst := Reading.found (armOf_isPattern ht.first)
        (hsecond.plains (not_opening_between ht))
      have hopen : NoneAt Token.IsPattern ('(' :: textOf (armOf first ::
          ((before ++ (orSign ++ after)).map Token.plain ++
            armOf second :: Token.plain ')' :: ts))) := by
        have := noneAt_fallen ht (not_or.mp hkept).2 (')' :: textOf ts)
        simpa [orSign] using this
      simpa using Reading.plain hopen hfirst

theorem reading_expansions {ts : List Token} (h : Reading Token.IsPattern ts) :
    Reading Token.IsPattern (expansions ts) := by
  induction h with
  | nil => exact .nil
  | found ht _ ih => exact reading_expansion ht ih
  | plain hnone hts ih => exact .plain (noneAt_expansions hts hnone) ih

theorem expand_eq (rule : List Char) : expand rule = textOf (expansions (scan pattern? rule)) :=
  (expansions_text _).symm

theorem scan_expand (rule : List Char) :
    scan pattern? (expand rule) = expansions (scan pattern? rule) := by
  rw [expand_eq]
  exact scan_textOf pattern?_recognizes
    (reading_expansions (reading_scan pattern?_recognizes rule).1)

theorem expand_expand (rule : List Char) : expand (expand rule) = expand rule := by
  have hfixed : ∀ u ∈ expansions (scan pattern? rule), u.expand = u.text := by
    intro u hu
    obtain ⟨t, -, hu⟩ := List.mem_flatMap.mp hu
    exact expand_of_mem_expansion hu
  calc expand (expand rule)
      = (expansions (scan pattern? rule)).flatMap Token.expand := by rw [expand, scan_expand]
    _ = textOf (expansions (scan pattern? rule)) := by
        rw [textOf, List.flatMap_def, List.flatMap_def, List.map_congr_left hfixed]
    _ = expand rule := (expand_eq rule).symm

/-- A second expansion finds nothing to do, whatever the rule looks like. -/
theorem expandEndpointPattern_twice (rule : String) :
    expandEndpointPattern (expandEndpointPattern rule) = expandEndpointPattern rule := by
  simp only [expandEndpointPattern, String.toList_ofList, expand_expand]

end RouteMigration.Rule
