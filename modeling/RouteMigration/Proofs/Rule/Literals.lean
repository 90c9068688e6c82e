import RouteMigration.Proofs.Rule.Collapse

/-! The literals that stand in a rule, and how they fare when it is rewritten token by token. A
rewriting that opens every literal and disjunction as before, and lets all other characters
stand, brings in no literals but those it writes for the tokens. -/

namespace RouteMigration.Rule

open RouteMigration.Text RouteMigration.Target

/-! ## The literals of a text -/

/-- The values of all literals of a text, in the order in which they begin. -/
def literals : List Char → List (List Char)
  | [] => []
  | c :: s =>
    match readLiteral? (c :: s) with
    | some (value, _) => value :: literals s
    | none => literals s

theorem literals_cons_of_none {c : Char} {s : List Char} (h : readLiteral? (c :: s) = none) :
    literals (c :: s) = literals s := by
  rw [literals, h]

theorem readLiteral?_eq_none {s : List Char} (h : NoneAt Token.IsPattern s) :
    readLiteral? s = none := by
  rw [Option.eq_none_iff_forall_ne_some]
  rintro ⟨value, rest⟩ hread
  obtain ⟨hv, rfl⟩ := readLiteral?_eq_some_iff.mp hread
  exact h (.literal value) hv (List.prefix_append _ _)

/-- A piece of text with these literals in it, whatever follows it. -/
def Yields (piece : List Char) (values : List (List Char)) : Prop :=
  ∀ rest, literals (piece ++ rest) = values ++ literals rest

theorem Yields.append {a b : List Char} {vs ws : List (List Char)} (ha : Yields a vs)
    (hb : Yields b ws) : Yields (a ++ b) (vs ++ ws) := by
  intro rest
  rw [List.append_assoc, ha, hb, List.append_assoc]

theorem yields_run {run : List Char} (h : 'e' ∉ run) : Yields run [] := by
  intro rest
  induction run with
  | nil => rfl
  | cons c run ih =>
    simp only [List.mem_cons, not_or] at h
    have hnone : readLiteral? (c :: (run ++ rest)) = none := by
      rw [Option.eq_none_iff_forall_ne_some]
      rintro ⟨value, tail⟩ hread
      have heq := (readLiteral?_eq_some_iff.mp hread).2
      rw [literalText_cons] at heq
      exact h.1 (List.cons.inj heq).1.symm
    rw [List.cons_append, literals_cons_of_none hnone, ih h.2]

theorem literals_value {value : List Char} (h : IsValue value) (rest : List Char) :
    literals (value ++ '"' :: rest) = literals rest := by
  have hquote : Yields ['"'] [] := yields_run (by decide)
  induction value with
  | nil => exact hquote rest
  | cons c value ih =>
    rw [List.cons_append, literals_cons_of_none (readLiteral?_eq_none (noneAt_value h rest)),
      ih h.tail]

theorem yields_literal {value : List Char} (h : IsValue value) :
    Yields (literalText value) [value] := by
  intro rest
  have hread : readLiteral? (literalText value ++ rest) = some (value, rest) :=
    readLiteral?_eq_some_iff.mpr ⟨h.quote, rfl⟩
  rw [literalText_cons] at hread ⊢
  rw [literals, hread]
  exact congrArg (value :: ·) ((yields_run (by decide) _).trans (literals_value h rest))

theorem not_mem_e_of_allBlank {s : List Char} (h : AllBlank s) : 'e' ∉ s := fun hmem =>
  absurd (h 'e' hmem) (by decide)

/-- Two pieces put together as a disjunction is. -/
theorem yields_disjunction {a b before after : List Char} {vs ws : List (List Char)}
    (ha : Yields a vs) (hbefore : AllBlank before) (hafter : AllBlank after) (hb : Yields b ws) :
    Yields ('(' :: (a ++ (before ++ (orSign ++ (after ++ (b ++ [')'])))))) (vs ++ ws) := by
  have hbetween : Yields (before ++ (orSign ++ after)) [] :=
    (yields_run (not_mem_e_of_allBlank hbefore)).append
      ((yields_run (by decide)).append (yields_run (not_mem_e_of_allBlank hafter)))
  have hopen : Yields ['('] [] := yields_run (by decide)
  have hclose : Yields [')'] [] := yields_run (by decide)
  have := hopen.append (ha.append (hbetween.append (hb.append hclose)))
  simpa using this

/-! ## Rewriting token by token -/

/-- A rewriting of tokens that brings in no new opening, and what becomes of the values. -/
structure Respells (f : Token → List Char) (values : Token → List (List Char)) : Prop where
  plain (c : Char) : f (.plain c) = [c] ∧ values (.plain c) = []
  front {t : Token} : t.IsPattern → ∃ s, f t = '(' :: s ∨ f t = 'e' :: s
  yields {t : Token} : t.IsPattern → (∀ value ∈ t.values, IsValue value) → Yields (f t) (values t)

namespace Respells

variable {f : Token → List Char} {values : Token → List (List Char)}

/-- A run of characters that begin neither literal nor disjunction has been there before. -/
theorem run (hf : Respells f values) {kind : Token → Prop} (hkind : ∀ {t}, kind t → t.IsPattern)
    {ts : List Token} (h : Reading kind ts) {run rest : List Char}
    (hrun : ∀ c ∈ run, c ≠ '(' ∧ c ≠ 'e') (heq : ts.flatMap f = run ++ rest) :
    ∃ us, ts = run.map Token.plain ++ us ∧ Reading kind us ∧ us.flatMap f = rest := by
  induction run generalizing ts with
  | nil => exact ⟨ts, rfl, h, heq⟩
  | cons c run ih =>
    obtain ⟨⟨hpar, he⟩, hrest⟩ := List.forall_mem_cons.mp hrun
    cases h with
    | nil => cases heq
    | @found t ts ht _ =>
      obtain ⟨s, hs | hs⟩ := hf.front (hkind ht)
      · rw [List.flatMap_cons, hs] at heq
        exact absurd (List.cons.inj heq).1.symm hpar
      · rw [List.flatMap_cons, hs] at heq
        exact absurd (List.cons.inj heq).1.symm he
    | @plain d ts _ hts =>
      rw [List.flatMap_cons, (hf.plain d).1, List.singleton_append] at heq
      obtain ⟨rfl, htail⟩ := List.cons.inj heq
      obtain ⟨us, rfl, hus, hrest⟩ := ih hts hrest htail
      exact ⟨us, rfl, hus, hrest⟩

/-- Where no token began, no literal begins after rewriting: the word that starts one would
have been there before, and have started a complete literal. -/
theorem readLiteral?_plain (hf : Respells f values) {c : Char} {ts : List Token}
    (hnone : NoneAt Token.IsPattern (c :: textOf ts)) (h : Reading Token.IsPattern ts)
    (hc : LiteralsComplete (c :: textOf ts)) : readLiteral? (c :: ts.flatMap f) = none := by
  rw [Option.eq_none_iff_forall_ne_some]
  rintro ⟨value, rest⟩ hread
  have heq := (readLiteral?_eq_some_iff.mp hread).2
  rw [literalText_word] at heq
  obtain ⟨rfl, htail⟩ := List.cons.inj heq
  have hrun : ∀ c ∈ "ndpoint==".toList, c ≠ '(' ∧ c ≠ 'e' := by simp
  obtain ⟨us, rfl, -, -⟩ := hf.run id h hrun htail
  have hword : literalWord <+: 'e' :: textOf ("ndpoint==".toList.map Token.plain ++ us) := by
    rw [textOf_append, textOf_plains]
    exact List.prefix_append literalWord _
  obtain ⟨old, after, hold, hquote, -⟩ := hc _ (List.suffix_refl _) hword
  exact hnone (.literal old) hquote ⟨after, hold.symm⟩

theorem literals_flatMap (hf : Respells f values) {ts : List Token}
    (h : Reading Token.IsPattern ts) (hc : LiteralsComplete (textOf ts)) :
    literals (ts.flatMap f) = ts.flatMap values := by
  induction h with
  | nil => rfl
  | @found t ts ht _ ih =>
    rw [List.flatMap_cons, List.flatMap_cons, hf.yields ht (hc.values ht),
      ih (hc.suffix (List.suffix_append _ _))]
  | @plain c ts hnone hts ih =>
    have hfront := hf.readLiteral?_plain hnone hts hc
    rw [List.flatMap_cons, List.flatMap_cons, (hf.plain c).1, (hf.plain c).2,
      List.singleton_append, literals_cons_of_none hfront, ih (hc.suffix (List.suffix_cons _ _)),
      List.nil_append]

end Respells

end RouteMigration.Rule
