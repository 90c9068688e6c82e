import RouteMigration.Proofs.Settings.Tree
import RouteMigration.Proofs.Settings.Variables.Scanning
import RouteMigration.Proofs.Text.Blank

/-! What the reader makes of the text of a variable is exactly what the grammar says: every
spelling of a value is read as that value, and nothing else is. -/

namespace RouteMigration.Settings.Variables

open RouteMigration.Text

variable {s rest : List Char}

/-! ## Values -/

/-- What the reader does between the blanks before a value and the blanks after it. -/
def unpadded (fuel : Nat) : Scanner Value := fun s =>
  match dropWord "true".toList s, dropWord "false".toList s, s with
  | some rest, _, _ => some (.bool true, rest)
  | _, some rest, _ => some (.bool false, rest)
  | _, _, '[' :: s => (itemsFrom (value fuel) ']' s).map fun (vs, rest) => (.list vs, rest)
  | _, _, '\x7b' :: s =>
    (itemsFrom (entry (value fuel)) '\x7d' s).map fun (entries, rest) =>
      (.table (tableOf entries), rest)
  | _, _, '"' :: s => (quotedText ('"' :: s)).map fun (text, rest) => (.text text, rest)
  | _, _, '\'' :: s => charValue s
  | _, _, s => plain s

theorem value_succ (fuel : Nat) (s : List Char) :
    value (fuel + 1) s =
      (unpadded fuel (skipBlank s)).map fun (v, rest) => (v, skipBlank rest) := by
  rw [value]
  unfold unpadded
  dsimp only
  generalize skipBlank s = t
  cases hyes : dropWord "true".toList t with
  | some rest => rfl
  | none =>
    cases hno : dropWord "false".toList t with
    | some rest => rfl
    | none =>
      rcases t with _ | ⟨c, t⟩
      · rfl
      rw [Option.map_eq_bind]
      split <;> simp_all only [reduceCtorEq] <;> rfl

theorem dropWord_eq_none_iff {word : List Char} : dropWord word s = none ↔ ¬ word <+: s := by
  rw [Option.eq_none_iff_forall_ne_some]
  constructor
  · rintro h ⟨rest, hrest⟩
    exact h rest (dropWord_eq_some_iff.mpr hrest.symm)
  · rintro h rest hrest
    exact h ⟨rest, (dropWord_eq_some_iff.mp hrest).symm⟩

/-- A word at the front of a text ends before the first character that is not in it. -/
theorem prefix_of_prefix_append {word t : List Char} (ht : ∀ c ∈ t.head?, c ∉ word)
    (h : word <+: s ++ t) : word <+: s := by
  induction s generalizing word with
  | nil =>
    cases word with
    | nil => exact List.nil_prefix
    | cons w word =>
      obtain ⟨rest, hrest⟩ := h
      have hfront : w ∈ t.head? := by
        rw [List.nil_append] at hrest
        rw [← hrest]
        rfl
      exact absurd (List.mem_cons_self ..) (ht w hfront)
  | cons c s ih =>
    cases word with
    | nil => exact List.nil_prefix
    | cons w word =>
      obtain ⟨hw, hword⟩ := List.cons_prefix_cons.mp h
      exact List.cons_prefix_cons.mpr
        ⟨hw, ih (fun c hc hmem => ht c hc (List.mem_cons_of_mem _ hmem)) hword⟩

theorem unpadded_plain (fuel : Nat) (hyes : ¬ "true".toList <+: s) (hno : ¬ "false".toList <+: s)
    (hfront : ∀ c ∈ s.head?, c ∉ ['[', '\x7b', '"', '\'']) : unpadded fuel s = plain s := by
  unfold unpadded
  rw [dropWord_eq_none_iff.mpr hyes, dropWord_eq_none_iff.mpr hno]
  cases s with
  | nil => rfl
  | cons c s =>
    have hc := hfront c rfl
    split <;> simp_all

theorem plain_append (h : ∀ c ∈ s, isSeparator c = false) (hstops : Stops rest) :
    plain (s ++ rest) = some (plainValue s, rest) := by
  have hrun : ∀ c ∈ s, (!isSeparator c) = true := fun c hc => by rw [h c hc]; rfl
  unfold plain
  rw [List.takeWhile_append_of_pos hrun, List.dropWhile_append_of_pos hrun]
  cases rest with
  | nil => simp [plainValue]
  | cons c rest =>
    have hc := (hstops.front c rfl).1
    simp [plainValue, hc]

theorem isBlank_of_isAsciiBlank {c : Char} (h : isAsciiBlank c = true) : isBlank c = true :=
  forall_blank (P := fun d => isBlank d = true) (by decide) h

theorem trim_append_blanks {b : List Char} (hb : Blanks b) (s : List Char) :
    trim (s ++ b) = trim s :=
  trimBy_append_right (fun c hc => isBlank_of_isAsciiBlank (hb c hc)) s

theorem plainValue_append_blanks {b : List Char} (hb : Blanks b) (s : List Char) :
    plainValue (s ++ b) = plainValue s := by
  rw [plainValue, trim_append_blanks hb, plainValue]

/-- It neither begins a value in brackets or quotes nor belongs to one of the words. -/
def Apart (c : Char) : Prop :=
  c ∉ ['[', '\x7b', '"', '\''] ∧ c ∉ "true".toList ∧ c ∉ "false".toList

instance (c : Char) : Decidable (Apart c) := inferInstanceAs (Decidable (_ ∧ _ ∧ _))

theorem apart_of_follows {after : List Char} (hafter : Blanks after) (hstops : Stops rest) :
    ∀ c ∈ (after ++ rest).head?, Apart c := by
  intro c hc
  cases after with
  | nil =>
    have hstop := hstops c hc
    simp only [List.mem_cons, List.not_mem_nil, or_false] at hstop
    rcases hstop with rfl | rfl | rfl <;> decide
  | cons d after =>
    cases hc
    exact forall_blank (P := Apart) (by decide) (hafter c (List.mem_cons_self ..))

section

variable {fuel : Nat} {v : Value}

theorem unpadded_append {after : List Char} (h : Unpadded Spelling s v) (hafter : Blanks after)
    (hstops : Stops rest)
    (hread : ∀ p w, Spelling p w → p.length + 1 < s.length → ∀ rest, Stops rest →
      value fuel (p ++ rest) = some (w, rest)) :
    ∃ more, unpadded fuel (s ++ (after ++ rest)) = some (v, more) ∧ skipBlank more = rest := by
  have hskip : skipBlank (after ++ rest) = rest := hstops.skipBlank_blanks hafter
  cases h with
  | yes => exact ⟨after ++ rest, rfl, hskip⟩
  | no => exact ⟨after ++ rest, rfl, hskip⟩
  | @list t vs hitems =>
    have hitem : itemsFrom (value fuel) ']' (t ++ (after ++ rest)) = some (vs, after ++ rest) :=
      itemsFrom_append (by decide) hitems
        (fun p w hp hlength => hread p w hp (by simpa using hlength)) (after ++ rest)
    refine ⟨after ++ rest, ?_, hskip⟩
    show (itemsFrom (value fuel) ']' (t ++ (after ++ rest))).map _ = _
    rw [hitem]
    rfl
  | @table t entries hitems =>
    have hitem : itemsFrom (entry (value fuel)) '\x7d' (t ++ (after ++ rest)) =
        some (entries, after ++ rest) :=
      itemsFrom_append (by decide) hitems
        (fun p e hp hlength rest hstops => entry_append hp fun q w hq hshort =>
          hread q w hq (by simp only [List.length_cons]; omega) rest hstops) (after ++ rest)
    refine ⟨after ++ rest, ?_, hskip⟩
    show (itemsFrom (entry (value fuel)) '\x7d' (t ++ (after ++ rest))).map _ = _
    rw [hitem]
    rfl
  | text hquoted =>
    obtain @⟨inner, letters, hinner⟩ := hquoted
    have htext := quotedText_append (.mk hinner) (after ++ rest)
    refine ⟨after ++ rest, ?_, hskip⟩
    show (quotedText ('"' :: (inner ++ ['"']) ++ (after ++ rest))).map _ = _
    rw [htext]
    rfl
  | char c => exact ⟨after ++ rest, rfl, hskip⟩
  | plain hplain =>
    have hapart := apart_of_follows hafter hstops
    have hseparator : ∀ c ∈ s ++ after, isSeparator c = false := by
      intro c hc
      rcases List.mem_append.mp hc with hc | hc
      · exact hplain.separator c hc
      · exact not_separator_of_blank (hafter c hc)
    refine ⟨rest, ?_, skipBlank_eq_self fun c hc => (hstops.front c hc).2⟩
    rw [unpadded_plain, ← List.append_assoc, plain_append hseparator hstops,
      plainValue_append_blanks hafter]
    · exact fun h => hplain.noTrue (prefix_of_prefix_append (fun c hc => (hapart c hc).2.1) h)
    · exact fun h => hplain.noFalse (prefix_of_prefix_append (fun c hc => (hapart c hc).2.2) h)
    · intro c hc
      rw [List.head?_append] at hc
      cases s with
      | nil => exact (hapart c hc).1
      | cons d s =>
        cases hc
        have hopening := hplain.separator c (List.mem_cons_self ..)
        simp only [List.mem_cons, List.not_mem_nil, or_false]
        rintro (rfl | rfl | rfl | rfl)
        · exact absurd hopening (by decide)
        · exact absurd hopening (by decide)
        · exact hplain.quote rfl
        · exact hplain.apostrophe rfl

theorem Unpadded.front {Spelled : List Char → Value → Prop} (h : Unpadded Spelled s v) :
    ∀ c ∈ s.head?, isAsciiBlank c = false := by
  intro c hc
  cases h with
  | text hquoted =>
    obtain ⟨_⟩ := hquoted
    cases hc
    decide
  | plain hplain => exact hplain.blank c hc
  | _ =>
    cases hc
    decide

/-- Without anything between them, the blanks after a value go with those before it. -/
theorem skipBlank_padded {before after : List Char} {Spelled : List Char → Value → Prop}
    (hbefore : Blanks before) (h : Unpadded Spelled s v) (hafter : Blanks after)
    (hstops : Stops rest) :
    ∃ after', Blanks after' ∧
      skipBlank (before ++ (s ++ after) ++ rest) = s ++ (after' ++ rest) := by
  rw [List.append_assoc, skipBlank_append hbefore, List.append_assoc]
  cases s with
  | nil => exact ⟨[], blanks_nil, hstops.skipBlank_blanks hafter⟩
  | cons c s => exact ⟨after, hafter, skipBlank_eq_self fun d hd => h.front d (by simpa using hd)⟩

/-- Whatever is a spelling of a value is read as that value, before a comma, a closing bracket or
the end. -/
theorem value_append (h : Spelling s v) (hfuel : s.length < fuel) (hstops : Stops rest) :
    value fuel (s ++ rest) = some (v, rest) := by
  induction fuel generalizing s v rest with
  | zero => cases hfuel
  | succ fuel ih =>
    obtain @⟨before, s, after, v, hbefore, hs, hafter⟩ := h
    simp only [List.length_append] at hfuel
    obtain ⟨after', hafter', hskip⟩ := skipBlank_padded hbefore hs hafter hstops
    obtain ⟨more, hread, hmore⟩ : ∃ more,
        unpadded fuel (s ++ (after' ++ rest)) = some (v, more) ∧ skipBlank more = rest :=
      unpadded_append hs hafter' hstops fun p w hp hlength rest hstops => ih hp (by omega) hstops
    rw [value_succ, hskip, hread]
    show some (v, skipBlank more) = _
    rw [hmore]

theorem head?_takeWhile {p : Char → Bool} {c : Char} (h : c ∈ (s.takeWhile p).head?) :
    c ∈ s.head? := by
  cases s with
  | nil => cases h
  | cons d s =>
    rw [List.takeWhile_cons] at h
    split at h
    · exact h
    · cases h

theorem isPlain_takeWhile (hfront : ∀ c ∈ s.head?, isAsciiBlank c = false)
    (hquote : '"' ∉ s.head?) (hapostrophe : '\'' ∉ s.head?) (hyes : ¬ "true".toList <+: s)
    (hno : ¬ "false".toList <+: s) : IsPlain (s.takeWhile (!isSeparator ·)) where
  separator := by
    intro c hc
    simpa using List.mem_takeWhile_imp hc
  blank := fun c hc => hfront c (head?_takeWhile hc)
  quote := fun hc => hquote (head?_takeWhile hc)
  apostrophe := fun hc => hapostrophe (head?_takeWhile hc)
  noTrue := fun h => hyes (h.trans (List.takeWhile_prefix _))
  noFalse := fun h => hno (h.trans (List.takeWhile_prefix _))

theorem of_unpadded (h : unpadded fuel s = some (v, rest))
    (hfront : ∀ c ∈ s.head?, isAsciiBlank c = false)
    (hread : ∀ s v rest, value fuel s = some (v, rest) → ∃ p, s = p ++ rest ∧ Spelling p v) :
    ∃ p, s = p ++ rest ∧ Unpadded Spelling p v := by
  unfold unpadded at h
  split at h
  · next hyes =>
    cases h
    exact ⟨_, dropWord_eq_some_iff.mp hyes, .yes⟩
  · next hno _ =>
    cases h
    exact ⟨_, dropWord_eq_some_iff.mp hno, .no⟩
  · obtain ⟨⟨vs, rest'⟩, hitems, h⟩ := Option.map_eq_some_iff.mp h
    cases h
    obtain ⟨q, rfl, hq⟩ := of_itemsFrom hitems hread
    exact ⟨'[' :: q, rfl, .list hq⟩
  · obtain ⟨⟨entries, rest'⟩, hitems, h⟩ := Option.map_eq_some_iff.mp h
    cases h
    obtain ⟨q, rfl, hq⟩ := of_itemsFrom hitems fun _ _ _ he =>
      of_entry he fun s w hw => hread s w _ hw
    exact ⟨'\x7b' :: q, rfl, .table hq⟩
  · obtain ⟨⟨t, rest'⟩, hquoted, h⟩ := Option.map_eq_some_iff.mp h
    cases h
    obtain ⟨q, hq, hquoted⟩ := of_quotedText hquoted
    exact ⟨q, hq, .text hquoted⟩
  · unfold charValue at h
    split at h
    · cases h
      exact ⟨_, rfl, .char _⟩
    · cases h
  · next _ _ hquote hapostrophe hyes hno =>
    obtain ⟨rfl, rfl⟩ := Prod.mk.inj (Option.some.inj h)
    refine ⟨_, (List.takeWhile_append_dropWhile ..).symm,
      .plain (isPlain_takeWhile hfront ?_ ?_ ?_ ?_)⟩
    · intro hc
      obtain ⟨t, ht⟩ := List.head?_eq_some_iff.mp hc
      exact hquote t ht
    · intro hc
      obtain ⟨t, ht⟩ := List.head?_eq_some_iff.mp hc
      exact hapostrophe t ht
    · rintro ⟨t, ht⟩
      exact hyes t (dropWord_eq_some_iff.mpr ht.symm)
    · rintro ⟨t, ht⟩
      exact hno t (dropWord_eq_some_iff.mpr ht.symm)

theorem of_value (h : value fuel s = some (v, rest)) : ∃ p, s = p ++ rest ∧ Spelling p v := by
  induction fuel generalizing s v rest with
  | zero => cases h
  | succ fuel ih =>
    rw [value_succ] at h
    obtain ⟨⟨w, more⟩, hread, h⟩ := Option.map_eq_some_iff.mp h
    cases h
    obtain ⟨p, hp, hunpadded⟩ := of_unpadded hread (head_skipBlank s) fun _ _ _ => ih
    obtain ⟨before, hbefore, hs⟩ := exists_skipBlank s
    obtain ⟨after, hafter, hmore⟩ := exists_skipBlank more
    refine ⟨before ++ (p ++ after), ?_, .mk hbefore hunpadded hafter⟩
    rw [hs, hp, List.append_assoc, List.append_assoc, ← hmore]

end

/-! ## Whole texts -/

variable {text : String} {v : Value}

theorem value_of_spelling (h : Spelling text.toList v) :
    value (text.length + 1) text.toList = some (v, []) := by
  have hread : value (text.length + 1) (text.toList ++ []) = some (v, []) := by
    refine value_append h ?_ fun _ hc => nomatch hc
    rw [String.length_toList]
    exact Nat.lt_succ_self _
  rwa [List.append_nil] at hread

theorem parseValue_of_spelling (h : Spelling text.toList v) : parseValue text = v := by
  rw [parseValue, value_of_spelling h]

/-- A text is one of the spellings of what it is read as, or it is the spelling of nothing and
stands for itself. -/
theorem parseValue_cases (text : String) :
    Spelling text.toList (parseValue text) ∨
      parseValue text = .text text ∧ ∀ v, ¬ Spelling text.toList v := by
  unfold parseValue
  split
  · next v hread =>
    obtain ⟨p, hp, hspelling⟩ := of_value hread
    rw [List.append_nil] at hp
    rw [hp]
    exact .inl hspelling
  · next hread => exact .inr ⟨rfl, fun v h => hread v (value_of_spelling h)⟩

theorem parseValue_eq_text_iff :
    parseValue text = .text text ↔ ∀ v, Spelling text.toList v → v = .text text := by
  constructor
  · intro h v hv
    rw [← h, parseValue_of_spelling hv]
  · intro h
    rcases parseValue_cases text with hspelling | ⟨hitself, -⟩
    · exact h _ hspelling
    · exact hitself

/-! ## Tables -/

theorem Items.mem {α : Type} {Item : List Char → α → Prop} {close : Char} {xs : List α}
    (h : Items Item close s xs) {x : α} (hx : x ∈ xs) : ∃ p, p.length < s.length ∧ Item p x := by
  induction h with
  | none => cases hx
  | @last c t y _ hy =>
    obtain rfl := List.mem_singleton.mp hx
    exact ⟨c :: t, by simp, hy⟩
  | @more t u y ys _ hy _ ih =>
    rcases List.mem_cons.mp hx with rfl | hx
    · exact ⟨t, by simp, hy⟩
    · obtain ⟨p, hp, hpx⟩ := ih hx
      exact ⟨p, by simp only [List.length_append, List.length_cons]; omega, hpx⟩

theorem wellFormed_foldl_put {entries : List (String × Value)} {t : Table}
    (ht : (Value.table t).WellFormed) (h : ∀ e ∈ entries, e.2.WellFormed) :
    (Value.table (entries.foldl (fun t e => Table.put e.1 e.2 t) t)).WellFormed := by
  induction entries generalizing t with
  | nil => exact ht
  | cons e entries ih =>
    refine ih (ht.put (h e (List.mem_cons_self ..)) e.1) ?_
    exact fun e' he' => h e' (List.mem_cons_of_mem _ he')

theorem wellFormed_tableOf {entries : List (String × Value)}
    (h : ∀ e ∈ entries, e.2.WellFormed) : (Value.table (tableOf entries)).WellFormed :=
  wellFormed_foldl_put Value.wellFormed_empty h

theorem of_number? (h : number? s = some v) :
    (∃ x, v = .float x) ∨ (∃ n, v = .signed n) ∨ ∃ n, v = .unsigned n := by
  unfold number? at h
  dsimp only at h
  split at h
  · cases h
    exact .inl ⟨_, rfl⟩
  · split at h
    · cases h
      exact .inr (.inl ⟨_, rfl⟩)
    · cases h
  · split at h
    · cases h
      exact .inr (.inr ⟨_, rfl⟩)
    · cases h

theorem plainValue_cases (s : List Char) : plainValue s = .text (String.ofList (trim s)) ∨
    (∃ x, plainValue s = .float x) ∨ (∃ n, plainValue s = .signed n) ∨
      ∃ n, plainValue s = .unsigned n := by
  unfold plainValue
  cases h : number? (trim s) with
  | none => exact .inl rfl
  | some v => exact .inr (of_number? h)

theorem plainValue_not_table (s : List Char) : (plainValue s).isTable = false := by
  rcases plainValue_cases s with h | ⟨_, h⟩ | ⟨_, h⟩ | ⟨_, h⟩ <;> rw [h] <;> rfl

theorem Spelling.wellFormed (h : Spelling s v) : v.WellFormed := by
  induction hn : s.length using Nat.strongRecOn generalizing s v with
  | ind n ih =>
    subst hn
    obtain @⟨before, s, after, v, -, hs, -⟩ := h
    cases hs with
    | table hitems =>
      refine wellFormed_tableOf fun e he => ?_
      obtain ⟨p, hp, hentry⟩ := hitems.mem he
      obtain @⟨k, q, name, w, -, hq⟩ := hentry
      refine ih q.length ?_ hq rfl
      simp only [List.length_append, List.length_cons] at hp ⊢
      omega
    | plain _ => exact .of_not_table (plainValue_not_table _)
    | _ => exact .of_not_table rfl

/-- A character is written in quotes. -/
theorem Spelling.char_length {c : Char} (h : Spelling s v) (hv : v = .char c) : 3 ≤ s.length := by
  obtain @⟨before, s, after, v, -, hs, -⟩ := h
  cases hs with
  | char => simp only [List.length_append, List.length_cons]; omega
  | @plain s =>
    rcases plainValue_cases s with h | ⟨_, h⟩ | ⟨_, h⟩ | ⟨_, h⟩ <;> rw [h] at hv <;> cases hv
  | _ => cases hv

theorem wellFormed_parseValue (text : String) : (parseValue text).WellFormed := by
  rcases parseValue_cases text with hspelling | ⟨hitself, -⟩
  · exact hspelling.wellFormed
  · rw [hitself]
    exact .of_not_table rfl

end RouteMigration.Settings.Variables
