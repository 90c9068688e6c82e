import RouteMigration.Document.Reader
import RouteMigration.Proofs.Document.Skipping

/-! What the readers of a document take. A reader reads a text if it takes exactly that text
whatever follows it; what the elements of a sequence or the members of an object read as
settles what the whole of it reads as. -/

namespace RouteMigration.Document

open RouteMigration.Text

/-- Whatever follows, the reader takes this text and makes `x` of it. -/
def Reads {α : Type} (read : Reader α) (t : List Char) (x : α) : Prop :=
  ∀ rest, read (t ++ rest) = .ok (x, rest)

theorem Reader.bind_of_ok {α β : Type} {a : Reader α} {f : α → Reader β} {s s' : List Char} {x : α}
    (h : a s = .ok (x, s')) : (a >>= f) s = f x s' := by
  change (a s >>= fun p => f p.1 p.2) = _
  rw [h]
  rfl

theorem Reads.map {α β : Type} {a : Reader α} {t : List Char} {x : α} (ha : Reads a t x)
    (f : α → β) : Reads (a >>= fun x => pure (f x)) t (f x) := by
  intro rest
  exact Reader.bind_of_ok (ha rest)

/-- Blanks in front of a text make no difference to the reader. -/
def PassesBlanks {α : Type} (read : Reader α) : Prop :=
  ∀ b s, Blanks b → read (b ++ s) = read s

theorem Reads.after_blanks {α : Type} {read : Reader α} {t : List Char} {x : α}
    (h : Reads read t x) (hpasses : PassesBlanks read) {b : List Char} (hb : Blanks b) :
    Reads read (b ++ t) x := by
  intro rest
  rw [List.append_assoc, hpasses b _ hb]
  exact h rest

/-! ## Scalars -/

theorem StringText.solid {s : String} {t : List Char} (h : StringText s t) : Solid t := by
  obtain ⟨us, -, rfl⟩ := h
  exact ⟨'"', _, rfl, rfl, by decide, by decide⟩

theorem reads_text {s : String} {t : List Char} (h : StringText s t) : Reads text t s := by
  obtain ⟨u, rfl, hbody⟩ := h.textBody
  intro rest
  rw [List.cons_append, text, skipBlank_cons rfl]
  exact hbody rest

theorem text_passesBlanks : PassesBlanks text := by
  intro b s hb
  rw [text, text, skipBlank_append hb]

theorem reads_boolean (b : Bool) : Reads boolean (boolText b) b := by
  intro rest
  cases b <;> rfl

theorem boolean_passesBlanks : PassesBlanks boolean := by
  intro b s hb
  rw [boolean, boolean, skipBlank_append hb]

theorem reads_null {α : Type} (default : α) (read : Reader α) :
    Reads (orNull default read) nullText default := fun _ => rfl

/-- A value that is there is read as it is where null would do as well. -/
theorem Reads.orNull {α : Type} {read : Reader α} {t : List Char} {x : α} (h : Reads read t x)
    (hsolid : Solid t) (hnull : t.head? ≠ some 'n') (default : α) :
    Reads (orNull default read) t x := by
  intro rest
  obtain ⟨c, s, rfl, hblank, -⟩ := hsolid
  rw [Document.orNull, List.cons_append, skipBlank_cons hblank]
  split
  · next heq =>
    cases heq
    exact absurd rfl hnull
  · exact h rest

theorem PassesBlanks.orNull {α : Type} {read : Reader α} (h : PassesBlanks read) (default : α) :
    PassesBlanks (orNull default read) := by
  intro b s hb
  rw [Document.orNull, Document.orNull, skipBlank_append hb, h b s hb]

/-! ## Sequences -/

section
variable {α : Type} {item : Reader α} {x : α} {xs : List α} {us : List (List Char)}
  {b t u front : List Char} { isFirst : Bool}

theorem hasItem_close (hb : Blanks b) ( isFirst : Bool) (rest : List Char) :
    hasItem isFirst (b ++ ']' :: rest) = .ok (false, ']' :: rest) := by
  rw [hasItem, skipBlank_append_cons hb rfl]
  rfl

/-- What comes before an item: nothing before the first one, and a comma before any other. -/
inductive Front : Bool → List Char → Prop
  | first : Front true []
  | next {b : List Char} : Blanks b → Front false (b ++ [','])

theorem Front.hasItem (h : Front isFirst front) (hb : Blanks b) (hu : Solid u) :
    hasItem isFirst (front ++ (b ++ u)) = .ok (true, u) := by
  obtain ⟨c, s, rfl, hblank, hclose, -⟩ := hu
  cases h with
  | first =>
    rw [List.nil_append, Document.hasItem, skipBlank_append_cons hb hblank]
    split
    · next heq => cases heq
    · next heq =>
      cases heq
      exact absurd rfl hclose
    · next heq =>
      cases heq
      rfl
    · rfl
  | @next b' hb' =>
    have hassoc : b' ++ [','] ++ (b ++ c :: s) = b' ++ ',' :: (b ++ c :: s) := by simp
    rw [hassoc, Document.hasItem, skipBlank_append_cons hb' rfl]
    simp only [Bool.false_eq_true, if_false, skipBlank_append_cons hb hblank]
    split
    · next heq => cases heq
    · next heq =>
      cases heq
      exact absurd rfl hclose
    · rfl

/-- A text the item reader takes, and by which a sequence goes on. -/
structure ReadsItem (item : Reader α) (x : α) (u : List Char) : Prop where
  solid : Solid u
  reads : Reads item u x

theorem itemsFrom_close (hb : Blanks b) ( isFirst : Bool) (rest : List Char) :
    itemsFrom item isFirst (b ++ ']' :: rest) = .ok ([], ']' :: rest) := by
  rw [itemsFrom, hasItem_close hb]

theorem itemsFrom_item {rest rest' : List Char} (hfront : Front isFirst front) (hb : Blanks b)
    (hu : ReadsItem item x u) (hrest : itemsFrom item false rest = .ok (xs, rest')) :
    itemsFrom item isFirst (front ++ (b ++ (u ++ rest))) = .ok (x :: xs, rest') := by
  have hless : rest.length < (front ++ (b ++ (u ++ rest))).length := by
    have hpos := hu.solid.length_pos
    simp only [List.length_append]
    omega
  rw [itemsFrom, hfront.hasItem hb (hu.solid.append rest)]
  simp only [hu.reads rest, hless, if_true, hrest]

theorem Commas.itemsFrom (h : Commas us t) (hitems : List.Forall₂ (ReadsItem item) xs us)
    (hfront : Front isFirst front) (rest : List Char) :
    itemsFrom item isFirst (front ++ (t ++ ']' :: rest)) = .ok (xs, ']' :: rest) := by
  induction h generalizing xs isFirst front with
  | @one u t hpadded =>
    cases hpadded with
    | @mk b u b' hb hb' =>
      cases hitems with
      | cons hu hnone =>
        cases hnone
        have hassoc : front ++ (b ++ (u ++ b') ++ ']' :: rest) =
            front ++ (b ++ (u ++ (b' ++ ']' :: rest))) := by simp
        rw [hassoc]
        exact itemsFrom_item hfront hb hu (itemsFrom_close hb' false rest)
  | @more u p t us hpadded _ ih =>
    cases hpadded with
    | @mk b u b' hb hb' =>
      cases hitems with
      | cons hu hitems =>
        have hrest := ih hitems (.next hb')
        have hassoc : front ++ (b ++ (u ++ b') ++ ',' :: t ++ ']' :: rest) =
            front ++ (b ++ (u ++ (b' ++ [','] ++ (t ++ ']' :: rest)))) := by simp
        rw [hassoc]
        exact itemsFrom_item hfront hb hu hrest

theorem list_passesBlanks (item : Reader α) : PassesBlanks (list item) := by
  intro b s hb
  rw [list, list, skipBlank_append hb]

theorem reads_list (h : Enclosed '[' ']' us t) (hitems : List.Forall₂ (ReadsItem item) xs us) :
    Reads (list item) t xs := by
  intro rest
  have hclose : ∀ s : List Char, itemsFrom item true s = .ok (xs, ']' :: rest) →
      list item ('[' :: s) = .ok (xs, rest) := by
    intro s hs
    rw [list, skipBlank_cons rfl]
    simp only [hs, bind, Except.bind]
    rfl
  cases h with
  | @empty b hb =>
    cases hitems
    have hassoc : '[' :: (b ++ [']']) ++ rest = '[' :: (b ++ ']' :: rest) := by simp
    rw [hassoc]
    exact hclose _ (itemsFrom_close hb true rest)
  | @elements us t hcommas =>
    have hassoc : '[' :: (t ++ [']']) ++ rest = '[' :: ([] ++ (t ++ ']' :: rest)) := by simp
    rw [hassoc]
    exact hclose _ (hcommas.itemsFrom hitems .first rest)

end

/-! ## Objects -/

section
variable {δ : Type} {member : String → δ → Reader δ} {d d' : δ}
  {ms : List (String × List Char)} {us : List (List Char)} {t : List Char}

/-- With this value after its key, a member makes `d'` of what was read before it. -/
def TakesMember (member : String → δ → Reader δ) (d : δ) (m : String × List Char) (d' : δ) :
    Prop :=
  ∀ b b' rest, Blanks b → Blanks b' → Ends rest →
    member m.1 d (b ++ ':' :: (b' ++ (m.2 ++ rest))) = .ok (d', rest)

/-- The members one after the other, and what they make of what was read before. -/
inductive Fills (member : String → δ → Reader δ) : δ → List (String × List Char) → δ → Prop
  | done {d : δ} : Fills member d [] d
  | more {d d₁ d' : δ} {m : String × List Char} {ms : List (String × List Char)} :
      TakesMember member d m d₁ → Fills member d₁ ms d' → Fills member d (m :: ms) d'

theorem colon_apply {b : List Char} (hb : Blanks b) (s : List Char) :
    colon (b ++ ':' :: s) = .ok ((), s) := by
  rw [colon, skipBlank_append_cons hb rfl]
  rfl

/-- One member, up to where its value ends. -/
theorem membersFrom_keyed {m : String × List Char} {u b rest : List Char} {d₁ : δ}
    (hu : KeyedText m u) (hb : Blanks b) (hmember : TakesMember member d m d₁)
    (hrest : Ends rest) :
    ∃ s, skipBlank (b ++ (u ++ rest)) = '"' :: s ∧ rest.length < ('"' :: s).length ∧
      ∃ after, key ('"' :: s) = .ok (m.1, after) ∧ member m.1 d after = .ok (d₁, rest) := by
  obtain ⟨quotedKey, hkey, hmemberText⟩ := hu
  obtain ⟨k, rfl, hbody⟩ := hkey.textBody
  cases hmemberText with
  | @mk b₁ b₂ hb₁ hb₂ =>
    have hassoc : b ++ ('"' :: k ++ (b₁ ++ ':' :: (b₂ ++ m.2)) ++ rest) =
        b ++ '"' :: (k ++ (b₁ ++ ':' :: (b₂ ++ (m.2 ++ rest)))) := by simp
    refine ⟨k ++ (b₁ ++ ':' :: (b₂ ++ (m.2 ++ rest))), ?_, ?_, _, hbody _,
      hmember b₁ b₂ rest hb₁ hb₂ hrest⟩
    · rw [hassoc, skipBlank_append_cons hb rfl]
    · simp only [List.length_append, List.length_cons]
      omega

theorem Commas.membersFrom (h : Commas us t) (hkeyed : List.Forall₂ KeyedText ms us)
    (hfills : Fills member d ms d') (rest : List Char) :
    ∃ s, skipBlank (t ++ '}' :: rest) = '"' :: s ∧
      membersFrom member d ('"' :: s) = .ok (d', rest) := by
  induction h generalizing ms d with
  | @one u t hpadded =>
    cases hpadded with
    | @mk b u b' hb hb' =>
      cases hkeyed with
      | cons hu hnone =>
        cases hnone
        cases hfills with
        | more hmember hdone =>
          cases hdone
          have hends : Ends (b' ++ '}' :: rest) := (ends_closing .curly rest).append hb'
          have hassoc : b ++ (u ++ b') ++ '}' :: rest = b ++ (u ++ (b' ++ '}' :: rest)) := by simp
          obtain ⟨s, hs, -, after, hkey, hvalue⟩ := membersFrom_keyed hu hb hmember hends
          have hclose : skipBlank (b' ++ '}' :: rest) = '}' :: rest :=
            skipBlank_append_cons hb' rfl rest
          refine ⟨s, by rw [hassoc, hs], ?_⟩
          rw [Document.membersFrom]
          simp only [hkey, hvalue, hclose]
  | @more u p t us hpadded _ ih =>
    cases hpadded with
    | @mk b u b' hb hb' =>
      cases hkeyed with
      | cons hu hkeyed =>
        cases hfills with
        | more hmember hfills =>
          have hends : Ends (b' ++ ',' :: (t ++ '}' :: rest)) := (ends_comma _).append hb'
          have hassoc : b ++ (u ++ b') ++ ',' :: t ++ '}' :: rest =
              b ++ (u ++ (b' ++ ',' :: (t ++ '}' :: rest))) := by simp
          obtain ⟨s, hs, hlonger, after, hkey, hvalue⟩ := membersFrom_keyed hu hb hmember hends
          obtain ⟨next, hnext, hrest⟩ := ih hkeyed hfills
          have hcomma : skipBlank (b' ++ ',' :: (t ++ '}' :: rest)) = ',' :: (t ++ '}' :: rest) :=
            skipBlank_append_cons hb' rfl _
          have hless : ('"' :: next).length < ('"' :: s).length := by
            have hle := length_skipBlank_le (t ++ '}' :: rest)
            rw [hnext] at hle
            simp only [List.length_append, List.length_cons] at hlonger hle ⊢
            omega
          refine ⟨s, by rw [hassoc, hs], ?_⟩
          rw [Document.membersFrom]
          simp only [hkey, hvalue, hcomma, hnext, hless, if_true]
          exact hrest

/-- An object after its opening bracket. -/
theorem reads_members (h : Enclosed '{' '}' us t) (hkeyed : List.Forall₂ KeyedText ms us)
    (hfills : Fills member d ms d') :
    ∃ inner, t = '{' :: inner ∧ Reads (members member d) inner d' := by
  cases h with
  | @empty b hb =>
    cases hkeyed
    cases hfills
    refine ⟨_, rfl, fun rest => ?_⟩
    rw [List.append_assoc, List.singleton_append, members, skipBlank_append_cons hb rfl]
    rfl
  | @elements us t hcommas =>
    refine ⟨_, rfl, fun rest => ?_⟩
    obtain ⟨s, hs, hmembers⟩ := hcommas.membersFrom hkeyed hfills rest
    rw [List.append_assoc, List.singleton_append, members, hs]
    exact hmembers

end

end RouteMigration.Document
