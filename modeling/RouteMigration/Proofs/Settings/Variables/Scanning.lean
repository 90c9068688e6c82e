import Mathlib.Data.List.TakeWhile
import RouteMigration.Proofs.Settings.Variables.Grammar
import RouteMigration.Proofs.Text.Cut

/-! The parts of a value, each read exactly as the grammar writes it: blanks, texts in quotes, items
and entries between brackets. -/

namespace RouteMigration.Settings.Variables

open RouteMigration.Text

variable {s p rest more : List Char}

/-! ## Blanks -/

theorem skipBlank_append {b : List Char} (hb : Blanks b) (s : List Char) :
    skipBlank (b ++ s) = skipBlank s := List.dropWhile_append_of_pos hb

theorem skipBlank_eq_self (h : ∀ c ∈ s.head?, isAsciiBlank c = false) : skipBlank s = s := by
  cases s with
  | nil => rfl
  | cons c s => simp [skipBlank, h c rfl]

theorem exists_skipBlank (s : List Char) : ∃ b, Blanks b ∧ s = b ++ skipBlank s :=
  ⟨s.takeWhile isAsciiBlank, fun _ hc => List.mem_takeWhile_imp hc,
    (List.takeWhile_append_dropWhile ..).symm⟩

theorem head_skipBlank (s : List Char) : ∀ c ∈ (skipBlank s).head?, isAsciiBlank c = false := by
  intro c hc
  have h := List.head?_dropWhile_not isAsciiBlank s
  rw [← skipBlank, Option.mem_def.mp hc] at h
  simpa using h

theorem blanks_nil : Blanks [] := fun _ hc => nomatch hc

/-- What follows a value, if anything, is a comma or the end of a list or table. -/
def Stops (rest : List Char) : Prop := ∀ c ∈ rest.head?, c ∈ [',', ']', '\x7d']

/-- There are five blanks. -/
theorem forall_blank {P : Char → Prop} (h : P ' ' ∧ P '\t' ∧ P '\n' ∧ P '\x0c' ∧ P '\r')
    {c : Char} (hc : isAsciiBlank c = true) : P c := by
  obtain ⟨hspace, htab, hline, hpage, hreturn⟩ := h
  simp only [isAsciiBlank, Bool.or_eq_true, beq_iff_eq] at hc
  rcases hc with (((rfl | rfl) | rfl) | rfl) | rfl
  · exact hspace
  · exact htab
  · exact hline
  · exact hpage
  · exact hreturn

theorem not_separator_of_blank {c : Char} (h : isAsciiBlank c = true) : isSeparator c = false :=
  forall_blank (P := fun d => isSeparator d = false) (by decide) h

theorem stops_cons {c : Char} (h : c ∈ [',', ']', '\x7d']) (rest : List Char) :
    Stops (c :: rest) := by
  intro d hd
  cases hd
  exact h

theorem Stops.front (h : Stops rest) :
    ∀ c ∈ rest.head?, isSeparator c = true ∧ isAsciiBlank c = false := by
  intro c hc
  have hmem := h c hc
  simp only [List.mem_cons, List.not_mem_nil, or_false] at hmem
  rcases hmem with rfl | rfl | rfl <;> decide

theorem Stops.skipBlank_blanks (h : Stops rest) {b : List Char} (hb : Blanks b) :
    skipBlank (b ++ rest) = rest := by
  rw [skipBlank_append hb]
  exact skipBlank_eq_self fun c hc => (h.front c hc).2

/-! ## Texts -/

theorem escapedCode_eq_some_iff {length n : Nat} {c : Char} :
    escapedCode length s = some (c, n) ↔ ∃ digits rest m, s = digits ++ rest ∧
      digits.length = length ∧ hexNumber? digits = some m ∧ m.isValidChar ∧ c = Char.ofNat m ∧
      n = length + 1 := by
  unfold escapedCode
  constructor
  · intro h
    dsimp only at h
    split at h
    · cases h
    · next hlength =>
      obtain ⟨m, hm, h⟩ := Option.bind_eq_some_iff.mp h
      split at h
      · next hvalid =>
        cases h
        have htake := List.length_take_le length s
        exact ⟨s.take length, s.drop length, m, (List.take_append_drop ..).symm, by omega, hm,
          hvalid, rfl, rfl⟩
      · cases h
  · rintro ⟨digits, rest, m, rfl, rfl, hm, hvalid, rfl, rfl⟩
    simp [hm, hvalid]

theorem escape?_append {e : List Char} {c : Char} (h : Escape e c) (rest : List Char) :
    escape? (e ++ rest) = some (c, e.length) := by
  cases h with
  | short hletter =>
    simp only [shortEscapes, List.mem_cons, Prod.mk.injEq, List.not_mem_nil, or_false] at hletter
    rcases hletter with ⟨rfl, rfl⟩ | ⟨rfl, rfl⟩ | ⟨rfl, rfl⟩ | ⟨rfl, rfl⟩ | ⟨rfl, rfl⟩ |
      ⟨rfl, rfl⟩ | ⟨rfl, rfl⟩ <;> rfl
  | @code letter digits n hletter hn hvalid =>
    have hcode : ∀ length, digits.length = length →
        escapedCode length (digits ++ rest) = some (Char.ofNat n, digits.length + 1) := by
      intro length hlength
      exact escapedCode_eq_some_iff.mpr
        ⟨digits, rest, n, rfl, hlength, hn, hvalid, rfl, by rw [hlength]⟩
    simp only [List.mem_cons, Prod.mk.injEq, List.not_mem_nil, or_false] at hletter
    rcases hletter with ⟨rfl, hlength⟩ | ⟨rfl, hlength⟩
    · exact hcode 4 hlength
    · exact hcode 8 hlength

theorem of_escape? {c : Char} {n : Nat} (h : escape? s = some (c, n)) :
    ∃ e rest, s = e ++ rest ∧ Escape e c ∧ n = e.length := by
  unfold escape? at h
  split at h
  · obtain ⟨digits, rest, m, rfl, hlength, hm, hvalid, rfl, rfl⟩ := escapedCode_eq_some_iff.mp h
    refine ⟨'u' :: digits, rest, rfl, .code ?_ hm hvalid, by simp [hlength]⟩
    simp [hlength]
  · obtain ⟨digits, rest, m, rfl, hlength, hm, hvalid, rfl, rfl⟩ := escapedCode_eq_some_iff.mp h
    refine ⟨'U' :: digits, rest, rfl, .code ?_ hm hvalid, by simp [hlength]⟩
    simp [hlength]
  · next letter rest _ _ =>
    obtain ⟨d, hd, h⟩ := Option.map_eq_some_iff.mp h
    cases h
    obtain ⟨before, after, hcut, -⟩ := List.lookup_eq_some_iff.mp hd
    refine ⟨[letter], rest, rfl, .short ?_, rfl⟩
    rw [shortEscapes, hcut]
    simp
  · cases h

/-- The characters an escape has taken up are passed over. -/
theorem textFrom_eq_drop (skip : Nat) (s : List Char) :
    textFrom skip s = textFrom 0 (s.drop skip) := by
  induction s generalizing skip with
  | nil => cases skip <;> rfl
  | cons c s ih =>
    cases skip with
    | zero => rfl
    | succ skip => exact ih skip

theorem textFrom_append {t : List Char} (h : Letters s t) (rest : List Char) :
    textFrom 0 (s ++ '"' :: rest) = some (t, rest) := by
  induction h with
  | none => rfl
  | @plain c s t hc hquote hslash _ ih =>
    rw [List.cons_append, textFrom, if_neg hquote, if_neg hslash, if_pos hc, ih]
    rfl
  | @escape e s t c he _ ih =>
    have hslash : ('\\' : Char) ≠ '"' := by decide
    rw [List.cons_append, List.append_assoc, textFrom, if_neg hslash, if_pos rfl,
      escape?_append he]
    show (textFrom e.length (e ++ (s ++ '"' :: rest))).bind _ = _
    rw [textFrom_eq_drop, List.drop_left, ih]
    rfl

theorem of_textFrom {t : List Char} (h : textFrom 0 s = some (t, rest)) :
    ∃ inner, s = inner ++ '"' :: rest ∧ Letters inner t := by
  induction hn : s.length using Nat.strongRecOn generalizing s t with
  | ind n ih =>
    subst hn
    cases s with
    | nil => cases h
    | cons c s =>
      rw [textFrom] at h
      split at h
      · next hquote =>
        cases h
        exact ⟨[], by rw [hquote]; rfl, .none⟩
      · next hquote =>
        split at h
        · next hslash =>
          obtain ⟨⟨d, taken⟩, he, h⟩ := Option.bind_eq_some_iff.mp h
          obtain ⟨⟨t', rest'⟩, ht, h⟩ := Option.bind_eq_some_iff.mp h
          cases h
          obtain ⟨e, more, rfl, hescape, rfl⟩ := of_escape? he
          rw [textFrom_eq_drop, List.drop_left] at ht
          have hshorter : more.length < (c :: (e ++ more)).length := by
            simp only [List.length_cons, List.length_append]
            omega
          obtain ⟨inner, rfl, hinner⟩ := ih _ hshorter ht rfl
          refine ⟨'\\' :: (e ++ inner), ?_, .escape hescape hinner⟩
          rw [hslash, List.cons_append, List.append_assoc]
        · next hslash =>
          split at h
          · next hc =>
            obtain ⟨⟨t', rest'⟩, ht, h⟩ := Option.bind_eq_some_iff.mp h
            cases h
            obtain ⟨inner, rfl, hinner⟩ := ih s.length (by simp) ht rfl
            exact ⟨c :: inner, rfl, .plain hc hquote hslash hinner⟩
          · cases h

theorem quotedText_append {t : String} (h : Quoted s t) (rest : List Char) :
    quotedText (s ++ rest) = some (t, rest) := by
  obtain ⟨h⟩ := h
  rw [List.cons_append, List.append_assoc]
  show (textFrom 0 (_ ++ '"' :: rest)).map _ = _
  rw [textFrom_append h]
  rfl

theorem of_quotedText {t : String} (h : quotedText s = some (t, rest)) :
    ∃ q, s = q ++ rest ∧ Quoted q t := by
  unfold quotedText at h
  split at h
  · obtain ⟨⟨letters, rest'⟩, ht, h⟩ := Option.map_eq_some_iff.mp h
    cases h
    obtain ⟨inner, rfl, hinner⟩ := of_textFrom ht
    refine ⟨'"' :: (inner ++ ['"']), ?_, .mk hinner⟩
    rw [List.cons_append, List.append_assoc]
    rfl
  · cases h

/-! ## Brackets -/

section

variable {α : Type} {item : Scanner α} {Item : List Char → α → Prop} {close : Char}

theorem itemsFrom_append (hclose : close ∈ [']', '\x7d']) {xs : List α} (h : Items Item close s xs)
    (hitem : ∀ p x, Item p x → p.length < s.length → ∀ rest, Stops rest →
      item (p ++ rest) = some (x, rest)) (rest : List Char) :
    itemsFrom item close (s ++ rest) = some (xs, rest) := by
  have hcomma : close ≠ ',' := by
    rintro rfl
    simp at hclose
  induction h with
  | none =>
    rw [List.cons_append, itemsFrom, if_pos rfl]
    rfl
  | @last c p x hc hx =>
    have hread : item (c :: (p ++ close :: rest)) = some (x, close :: rest) :=
      hitem (c :: p) x hx (by simp) _ (stops_cons (List.mem_cons_of_mem _ hclose) rest)
    rw [List.append_assoc, List.cons_append, itemsFrom, if_neg hc]
    simp [hread]
  | @more p t x xs hfront hx _ ih =>
    have hread : item (p ++ ',' :: (t ++ rest)) = some (x, ',' :: (t ++ rest)) :=
      hitem p x hx (by simp) _ (stops_cons (List.mem_cons_self ..) _)
    have hlonger : t.length < (p ++ ',' :: t).length := by
      simp only [List.length_append, List.length_cons]
      omega
    have hmore := ih fun q y hy hlength => hitem q y hy (hlength.trans hlonger)
    rw [List.append_assoc, List.cons_append]
    cases p with
    | nil =>
      rw [List.nil_append] at hread ⊢
      rw [itemsFrom, if_neg hcomma.symm]
      simp [hread, hmore]
    | cons c p =>
      have hc : c ≠ close := fun hc => hfront (congrArg some hc)
      rw [List.cons_append] at hread ⊢
      rw [itemsFrom, if_neg hc]
      have hlength : (t ++ rest).length ≤ (p ++ ',' :: (t ++ rest)).length := by
        simp only [List.length_append, List.length_cons]
        omega
      rw [hread]
      show (if (t ++ rest).length ≤ _ then _ else _) = _
      rw [if_pos hlength, hmore]
      rfl

theorem of_itemsFrom {xs : List α} (h : itemsFrom item close s = some (xs, rest))
    (hitem : ∀ s x rest, item s = some (x, rest) → ∃ p, s = p ++ rest ∧ Item p x) :
    ∃ q, s = q ++ rest ∧ Items Item close q xs := by
  induction hn : s.length using Nat.strongRecOn generalizing s xs with
  | ind n ih =>
    subst hn
    cases s with
    | nil =>
      rw [itemsFrom] at h
      cases h
    | cons c s =>
      rw [itemsFrom] at h
      split at h
      · next hc =>
        cases h
        exact ⟨[close], by rw [hc]; rfl, .none⟩
      · next hc =>
        split at h
        · next x more hread =>
          split at h
          · next hlength =>
            obtain ⟨⟨ys, rest'⟩, hys, h⟩ := Option.map_eq_some_iff.mp h
            cases h
            obtain ⟨p, hp, hx⟩ := hitem _ _ _ hread
            obtain ⟨q, rfl, hq⟩ := ih more.length (by simp only [List.length_cons]; omega) hys rfl
            refine ⟨p ++ ',' :: q, by rw [hp]; simp, .more ?_ hx hq⟩
            intro hfront
            cases p with
            | nil => cases hfront
            | cons d p =>
              cases hfront
              exact hc (List.cons.inj hp).1
          · cases h
        · next x d rest' _ hread =>
          split at h
          · next hd =>
            cases h
            obtain ⟨p, hp, hx⟩ := hitem _ _ _ hread
            cases p with
            | nil => exact absurd ((List.cons.inj hp).1.trans hd) hc
            | cons c' p =>
              obtain ⟨rfl, rfl⟩ := List.cons.inj hp
              exact ⟨c :: p ++ [close], by rw [hd]; simp, .last hc hx⟩
          · cases h
        · cases h

end

theorem not_keyChar_of_blank {c : Char} (h : isAsciiBlank c = true) : isKeyChar c = false :=
  forall_blank (P := fun d => isKeyChar d = false) (by decide) h

theorem skipBlank_equals {b : List Char} (hb : Blanks b) (rest : List Char) :
    skipBlank (b ++ '=' :: rest) = '=' :: rest := by
  rw [skipBlank_append hb]
  rfl

theorem not_blank_of_keyChar {c : Char} (h : isKeyChar c = true) : isAsciiBlank c = false := by
  cases hc : isAsciiBlank c with
  | false => rfl
  | true =>
    rw [not_keyChar_of_blank hc] at h
    cases h

/-- A key ends at the blanks after it or at the equals sign. -/
theorem key_stops {b : List Char} (hb : Blanks b) (rest : List Char) :
    ∃ c more, b ++ '=' :: rest = c :: more ∧ isKeyChar c = false := by
  cases b with
  | nil => exact ⟨'=', rest, rfl, by decide⟩
  | cons c b =>
    exact ⟨c, b ++ '=' :: rest, rfl, not_keyChar_of_blank (hb c (List.mem_cons_self ..))⟩

theorem key_append {name : String} (h : Key s name) (rest : List Char) :
    key (s ++ '=' :: rest) = some (name, '=' :: rest) := by
  cases h with
  | @bare before after k hbefore hk hkey hafter =>
    obtain ⟨d, more, hmore, hd⟩ := key_stops hafter rest
    have hskip : skipBlank (before ++ (k ++ after) ++ '=' :: rest) = k ++ d :: more := by
      rw [List.append_assoc, skipBlank_append hbefore, List.append_assoc, hmore]
      refine skipBlank_eq_self fun c hc => not_blank_of_keyChar (hkey c ?_)
      exact List.mem_of_mem_head? (by rwa [List.head?_append_of_ne_nil _ hk] at hc)
    obtain ⟨htake, hdrop⟩ := span_append hkey hd more
    unfold key
    rw [hskip]
    split
    · next hquote =>
      obtain ⟨c, k, rfl⟩ := List.exists_cons_of_ne_nil hk
      cases hquote
      exact absurd (hkey '"' (List.mem_cons_self ..)) (by decide)
    · rw [htake, hdrop, ← hmore, skipBlank_equals hafter]
      simp [hk]
  | @quoted before after q _ hbefore hq hafter =>
    obtain @⟨inner, letters, hinner⟩ := hq
    have hskip : skipBlank (before ++ ('"' :: (inner ++ ['"']) ++ after) ++ '=' :: rest) =
        '"' :: (inner ++ ['"'] ++ (after ++ '=' :: rest)) := by
      rw [List.append_assoc, skipBlank_append hbefore, List.append_assoc]
      rfl
    have hread : quotedText ('"' :: (inner ++ ['"'] ++ (after ++ '=' :: rest))) =
        some (String.ofList letters, after ++ '=' :: rest) := quotedText_append (.mk hinner) _
    unfold key
    rw [hskip]
    show (quotedText _).bind _ = _
    rw [hread]
    show some (_, skipBlank (after ++ '=' :: rest)) = _
    rw [skipBlank_equals hafter]

theorem of_key {name : String} (h : key s = some (name, rest)) :
    ∃ k, s = k ++ rest ∧ Key k name := by
  obtain ⟨before, hbefore, hs⟩ := exists_skipBlank s
  unfold key at h
  split at h
  · next inner hinner =>
    obtain ⟨⟨t, more⟩, hread, h⟩ := Option.bind_eq_some_iff.mp h
    cases h
    obtain ⟨q, hq, hquoted⟩ := of_quotedText hread
    obtain ⟨after, hafter, hmore⟩ := exists_skipBlank more
    refine ⟨before ++ (q ++ after), ?_, .quoted hbefore hquoted hafter⟩
    rw [hs, hinner, hq, List.append_assoc, List.append_assoc, ← hmore]
  · dsimp only at h
    split at h
    · cases h
    · next hk =>
      cases h
      obtain ⟨after, hafter, hmore⟩ := exists_skipBlank ((skipBlank s).dropWhile isKeyChar)
      refine ⟨before ++ ((skipBlank s).takeWhile isKeyChar ++ after), ?_,
        .bare hbefore ?_ ?_ hafter⟩
      · rw [List.append_assoc, List.append_assoc, ← hmore, List.takeWhile_append_dropWhile, ← hs]
      · simpa using hk
      · intro c hc
        exact List.mem_takeWhile_imp hc

section

variable {read : Scanner Value} {Spelled : List Char → Value → Prop} {e : String × Value}

theorem entry_append (h : Entry Spelled s e)
    (hread : ∀ p v, Spelled p v → p.length < s.length → read (p ++ rest) = some (v, rest)) :
    entry read (s ++ rest) = some (e, rest) := by
  cases h with
  | @mk k p name v hk hp =>
    have hvalue := hread p v hp (by simp only [List.length_cons, List.length_append]; omega)
    rw [List.append_assoc, List.cons_append]
    show (key (k ++ '=' :: (p ++ rest))).bind _ = _
    rw [key_append hk]
    show (read (p ++ rest)).bind _ = _
    rw [hvalue]
    rfl

theorem of_entry (h : entry read s = some (e, rest))
    (hread : ∀ s v, read s = some (v, rest) → ∃ p, s = p ++ rest ∧ Spelled p v) :
    ∃ p, s = p ++ rest ∧ Entry Spelled p e := by
  obtain ⟨⟨name, more⟩, hname, h⟩ := Option.bind_eq_some_iff.mp h
  obtain ⟨⟨_, afterSign⟩, hsign, h⟩ := Option.bind_eq_some_iff.mp h
  obtain ⟨⟨v, rest'⟩, hv, h⟩ := Option.bind_eq_some_iff.mp h
  cases h
  obtain ⟨k, rfl, hk⟩ := of_key hname
  obtain ⟨p, rfl, hp⟩ := hread _ _ hv
  refine ⟨k ++ '=' :: p, ?_, .mk hk hp⟩
  unfold expect at hsign
  split at hsign
  · split at hsign
    · next hc =>
      cases hsign
      rw [hc, List.append_assoc]
      rfl
    · cases hsign
  · cases hsign

end

end RouteMigration.Settings.Variables
