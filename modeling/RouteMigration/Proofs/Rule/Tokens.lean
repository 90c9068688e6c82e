import Mathlib.Data.List.TakeWhile
import RouteMigration.Proofs.Text.Cut
import RouteMigration.Rule.Endpoint

/-! Reading a rule as tokens. Whether a literal or a disjunction is found somewhere depends on
nothing after its own text, so a list of tokens is the reading of its text as soon as each
literal and disjunction in it is well formed and none begins at a character that stands by
itself. -/

namespace RouteMigration.Rule

open RouteMigration.Text RouteMigration.Target

/-! ## What is found at the front of a text -/

def AllBlank (s : List Char) : Prop := ∀ c ∈ s, isBlank c = true

theorem allBlank_space : AllBlank [' '] := by
  intro c hc
  rw [List.mem_singleton.mp hc]
  decide

/-- A disjunction as it is written: no quotes in the values, and only white space beside the
sign between them. -/
structure IsDisjunction (first before after second : List Char) : Prop where
  first : '"' ∉ first
  before : AllBlank before
  after : AllBlank after
  second : '"' ∉ second

namespace Token

def IsArmed : Token → Prop
  | plain _ | literal _ => False
  | disjunction first before after second => IsDisjunction first before after second

def IsPattern : Token → Prop
  | plain _ => False
  | literal value => '"' ∉ value
  | disjunction first before after second => IsDisjunction first before after second

theorem IsArmed.isPattern {t : Token} (h : t.IsArmed) : t.IsPattern := by
  cases t with
  | plain | literal => exact h.elim
  | disjunction => exact h

end Token

theorem literalText_append (value rest : List Char) :
    literalText value ++ rest = literalStart ++ (value ++ '"' :: rest) := by
  simp [literalText]

theorem literalText_cons (value rest : List Char) :
    literalText value ++ rest = 'e' :: ("ndpoint==\"".toList ++ (value ++ '"' :: rest)) := by
  rw [literalText_append]
  rfl

theorem literal_unique {v w r s : List Char} (hv : '"' ∉ v) (hw : '"' ∉ w)
    (h : literalText v ++ r = literalText w ++ s) : v = w ∧ r = s := by
  rw [literalText_append, literalText_append] at h
  exact cut_unique hv hw (List.append_cancel_left h)

theorem readLiteral?_eq_some_iff {s value rest : List Char} :
    readLiteral? s = some (value, rest) ↔ '"' ∉ value ∧ s = literalText value ++ rest := by
  rw [readLiteral?, literalText_append]
  cases h : dropWord literalStart s with
  | none =>
    simp only [reduceCtorEq, false_iff, not_and]
    rintro - rfl
    simp [dropWord_eq_some_iff.mpr rfl] at h
  | some t =>
    obtain rfl := dropWord_eq_some_iff.mp h
    simp [cutFirst_eq_some_iff, and_comm]

theorem literal?_eq_some_iff {s : List Char} {t : Token} :
    literal? s = some t ↔ ∃ value, t = .literal value ∧ '"' ∉ value ∧ literalText value <+: s := by
  rw [literal?]
  constructor
  · intro h
    split at h
    · rename_i value rest hread
      obtain ⟨hv, rfl⟩ := readLiteral?_eq_some_iff.mp hread
      exact ⟨value, (Option.some.inj h).symm, hv, List.prefix_append _ _⟩
    · cases h
  · rintro ⟨value, rfl, hv, rest, rfl⟩
    rw [readLiteral?_eq_some_iff.mpr ⟨hv, rfl⟩]

theorem isBlank_bar : isBlank '|' = false := by decide

theorem isBlank_e : isBlank 'e' = false := by decide

/-- The text of a disjunction with something after it, opened up to its parts. -/
theorem disjunctionText_append (first before after second rest : List Char) :
    (Token.disjunction first before after second).text ++ rest =
      '(' :: (literalText first ++ (before ++ '|' :: '|' :: (after ++
        (literalText second ++ ')' :: rest)))) := by
  simp [Token.text, orSign]

theorem disjunction?_text {first before after second : List Char}
    (h : IsDisjunction first before after second) (rest : List Char) :
    disjunction? ((Token.disjunction first before after second).text ++ rest) =
      some (.disjunction first before after second) := by
  obtain ⟨hbt, hbd⟩ := span_append h.before isBlank_bar
    ('|' :: (after ++ (literalText second ++ ')' :: rest)))
  rw [disjunctionText_append, disjunction?]
  simp only [readLiteral?_eq_some_iff.mpr ⟨h.first, rfl⟩, hbt, hbd]
  have hor : dropWord orSign ('|' :: '|' :: (after ++ (literalText second ++ ')' :: rest))) =
      some (after ++ (literalText second ++ ')' :: rest)) := dropWord_eq_some_iff.mpr rfl
  simp only [hor]
  obtain ⟨hat, had⟩ := span_append h.after isBlank_e
    ("ndpoint==\"".toList ++ (second ++ '"' :: ')' :: rest))
  rw [← literalText_cons] at hat had
  simp only [hat, had, readLiteral?_eq_some_iff.mpr ⟨h.second, rfl⟩]

theorem allBlank_takeWhile (s : List Char) : AllBlank (s.takeWhile isBlank) :=
  fun _ hc => List.mem_takeWhile_imp hc

theorem disjunction?_eq_some_iff {s : List Char} {t : Token} :
    disjunction? s = some t ↔ t.IsArmed ∧ t.text <+: s := by
  constructor
  · intro h
    unfold disjunction? at h
    split at h
    · rename_i s₀
      split at h
      · rename_i first s₁ hfirst
        obtain ⟨hf, rfl⟩ := readLiteral?_eq_some_iff.mp hfirst
        split at h
        · rename_i s₂ hor
          split at h
          · rename_i second s₃ hsecond
            obtain ⟨hs, hs₂⟩ := readLiteral?_eq_some_iff.mp hsecond
            cases h
            refine ⟨⟨hf, allBlank_takeWhile _, allBlank_takeWhile _, hs⟩, s₃, ?_⟩
            rw [disjunctionText_append, ← hs₂, List.takeWhile_append_dropWhile]
            have hs₁ := dropWord_eq_some_iff.mp hor
            rw [show '|' :: '|' :: s₂ = orSign ++ s₂ from rfl, ← hs₁,
              List.takeWhile_append_dropWhile]
          · cases h
        · cases h
      · cases h
    · cases h
  · rintro ⟨ht, rest, rfl⟩
    cases t with
    | plain | literal => exact ht.elim
    | disjunction first before after second => exact disjunction?_text ht rest

theorem pattern?_eq_some_iff {s : List Char} {t : Token} :
    pattern? s = some t ↔ t.IsPattern ∧ t.text <+: s := by
  rw [pattern?]
  constructor
  · intro h
    split at h
    · rename_i t' hd
      obtain rfl := Option.some.inj h
      obtain ⟨ht, hp⟩ := disjunction?_eq_some_iff.mp hd
      exact ⟨ht.isPattern, hp⟩
    · obtain ⟨value, rfl, hv, hp⟩ := literal?_eq_some_iff.mp h
      exact ⟨hv, hp⟩
  · rintro ⟨ht, hp⟩
    cases t with
    | plain => exact ht.elim
    | disjunction first before after second =>
      have ht : (Token.disjunction first before after second).IsArmed := ht
      rw [disjunction?_eq_some_iff.mpr ⟨ht, hp⟩]
    | literal value =>
      have hnone : disjunction? s = none := by
        obtain ⟨rest, rfl⟩ := hp
        rfl
      rw [hnone]
      exact literal?_eq_some_iff.mpr ⟨value, rfl, ht, hp⟩

/-! ## Whole rules -/

def textOf (ts : List Token) : List Char := ts.flatMap Token.text

@[simp] theorem Token.text_plain (c : Char) : (plain c).text = [c] := rfl

@[simp] theorem textOf_nil : textOf [] = [] := rfl

@[simp] theorem textOf_cons (t : Token) (ts : List Token) : textOf (t :: ts) = t.text ++ textOf ts :=
  rfl

@[simp] theorem textOf_append (ts us : List Token) : textOf (ts ++ us) = textOf ts ++ textOf us := by
  simp [textOf]

@[simp] theorem textOf_plains (s : List Char) : textOf (s.map Token.plain) = s := by
  induction s with
  | nil => rfl
  | cons c s ih => rw [List.map_cons, textOf_cons, ih]; rfl

theorem Token.text_ne_nil (t : Token) : t.text ≠ [] := by
  cases t with
  | plain => simp [Token.text]
  | literal value =>
    rw [Token.text, ← List.append_nil (literalText value), literalText_cons]
    simp
  | disjunction => simp [Token.text]

/-- A reader of tokens of one kind: it finds those whose text is at the front. -/
def Recognizes (read? : List Char → Option Token) (kind : Token → Prop) : Prop :=
  ∀ {s t}, read? s = some t ↔ kind t ∧ t.text <+: s

theorem pattern?_recognizes : Recognizes pattern? Token.IsPattern := pattern?_eq_some_iff

theorem disjunction?_recognizes : Recognizes disjunction? Token.IsArmed := disjunction?_eq_some_iff

/-- No token of the kind starts a text. -/
def NoneAt (kind : Token → Prop) (s : List Char) : Prop := ∀ t, kind t → ¬ t.text <+: s

/-- The tokens are what a reader of the kind makes of their text. -/
inductive Reading (kind : Token → Prop) : List Token → Prop
  | nil : Reading kind []
  | found {t ts} : kind t → Reading kind ts → Reading kind (t :: ts)
  | plain {c ts} : NoneAt kind (c :: textOf ts) → Reading kind ts → Reading kind (.plain c :: ts)

theorem scanFrom_eq_drop (read? : List Char → Option Token) (n : Nat) (s : List Char) :
    scanFrom read? n s = scan read? (s.drop n) := by
  induction s generalizing n with
  | nil => cases n <;> rfl
  | cons c s ih =>
    cases n with
    | zero => rfl
    | succ n => simpa [scanFrom] using ih n

section
variable {read? : List Char → Option Token} {kind : Token → Prop}

theorem scan_found {t : Token} {rest : List Char} (h : read? (t.text ++ rest) = some t) :
    scan read? (t.text ++ rest) = t :: scan read? rest := by
  cases ht : t.text with
  | nil => exact absurd ht t.text_ne_nil
  | cons c cs =>
    rw [ht, List.cons_append] at h
    rw [List.cons_append, scan, scanFrom, h]
    simp only [ht, scanFrom_eq_drop, List.length_cons, Nat.add_sub_cancel, List.drop_left]

theorem scan_plain {c : Char} {s : List Char} (h : read? (c :: s) = none) :
    scan read? (c :: s) = .plain c :: scan read? s := by
  rw [scan, scanFrom, h]
  rfl

theorem Recognizes.eq_none_iff (hr : Recognizes read? kind) {s : List Char} :
    read? s = none ↔ NoneAt kind s := by
  constructor
  · intro h t ht hp
    rw [hr.mpr ⟨ht, hp⟩] at h
    cases h
  · intro h
    cases hs : read? s with
    | none => rfl
    | some t => exact absurd (hr.mp hs).2 (h t (hr.mp hs).1)

theorem scan_textOf (hr : Recognizes read? kind) {ts : List Token} (h : Reading kind ts) :
    scan read? (textOf ts) = ts := by
  induction h with
  | nil => rfl
  | found ht _ ih =>
    rw [textOf_cons, scan_found (hr.mpr ⟨ht, List.prefix_append _ _⟩), ih]
  | plain hnone _ ih =>
    rw [textOf_cons, Token.text_plain, List.singleton_append, scan_plain (hr.eq_none_iff.mpr hnone), ih]

/-- Scanning loses nothing, and finds what is there. -/
theorem reading_scan (hr : Recognizes read? kind) (s : List Char) :
    Reading kind (scan read? s) ∧ textOf (scan read? s) = s := by
  induction hn : s.length using Nat.strongRecOn generalizing s with
  | ind n ih =>
    subst hn
    cases s with
    | nil => exact ⟨.nil, rfl⟩
    | cons c s =>
      cases hs : read? (c :: s) with
      | none =>
        obtain ⟨hread, htext⟩ := ih s.length (by simp) s rfl
        rw [scan_plain hs]
        refine ⟨.plain ?_ hread, by simp [htext, Token.text]⟩
        rw [htext]
        exact hr.eq_none_iff.mp hs
      | some t =>
        obtain ⟨ht, rest, hrest⟩ := hr.mp hs
        rw [← hrest] at hs ⊢
        have hlt : rest.length < (c :: s).length := by
          have := List.length_pos_iff.mpr t.text_ne_nil
          rw [← hrest, List.length_append]
          omega
        obtain ⟨hread, htext⟩ := ih rest.length hlt rest rfl
        rw [scan_found hs]
        exact ⟨.found ht hread, by rw [textOf_cons, htext]⟩

/-! ## What a reading consists of -/

theorem Reading.mem {ts : List Token} (h : Reading kind ts) :
    ∀ t ∈ ts, kind t ∨ ∃ c, t = .plain c := by
  induction h with
  | nil => simp
  | found ht _ ih => exact List.forall_mem_cons.mpr ⟨.inl ht, ih⟩
  | plain _ _ ih => exact List.forall_mem_cons.mpr ⟨.inr ⟨_, rfl⟩, ih⟩

theorem Reading.tail {t : Token} {ts : List Token} (h : Reading kind (t :: ts)) :
    Reading kind ts := by
  cases h with
  | found _ hrest | plain _ hrest => exact hrest

theorem Reading.drop {us vs : List Token} (h : Reading kind (us ++ vs)) : Reading kind vs := by
  induction us with
  | nil => exact h
  | cons u us ih => exact ih h.tail

/-- A token that stands at the front is the first one read. -/
theorem Reading.front (hr : Recognizes read? kind) {ts : List Token} (h : Reading kind ts)
    {d : Token} (hd : kind d) {rest : List Char} (heq : textOf ts = d.text ++ rest) :
    ∃ us, ts = d :: us ∧ Reading kind us ∧ textOf us = rest := by
  cases h with
  | nil => exact absurd (List.append_eq_nil_iff.mp heq.symm).1 d.text_ne_nil
  | plain hnone _ => exact absurd ⟨rest, heq.symm⟩ (hnone d hd)
  | @found t us ht hus =>
    have hfront : read? (textOf (t :: us)) = some t := hr.mpr ⟨ht, List.prefix_append _ _⟩
    obtain rfl := Option.some.inj (hfront.symm.trans (hr.mpr ⟨hd, rest, heq.symm⟩))
    exact ⟨us, rfl, hus, List.append_cancel_left heq⟩

end

end RouteMigration.Rule
