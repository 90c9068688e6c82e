import RouteMigration.Proofs.Text.Replace
import RouteMigration.Rule.Fields

/-! Rules whose field names stand apart. Where nothing next to a name could belong to one, a
name is found where it stands and nowhere else, so renaming the fields is one substitution of
all names at once, and it makes no difference which field goes first. -/

namespace RouteMigration.Rule

open RouteMigration.Text

/-! ## Names -/

inductive Field where
  | system
  | environment
  deriving DecidableEq, Repr

def Field.pair : Field → FieldPair
  | system => systemField
  | environment => environmentField

inductive Dialect where
  | legacy
  | structured
  deriving DecidableEq, Repr

structure FieldName where
  field : Field
  dialect : Dialect
  deriving DecidableEq, Repr

namespace FieldName

def all : List FieldName :=
  [⟨.system, .legacy⟩, ⟨.system, .structured⟩, ⟨.environment, .legacy⟩,
   ⟨.environment, .structured⟩]

theorem mem_all (n : FieldName) : n ∈ all := by
  obtain ⟨field, dialect⟩ := n
  cases field <;> cases dialect <;> decide

def text (n : FieldName) : List Char :=
  match n.dialect with
  | .legacy => n.field.pair.legacy
  | .structured => n.field.pair.structured

/-- The name of the same field in a dialect. -/
def inDialect (d : Dialect) (n : FieldName) : FieldName := { n with dialect := d }

/-- `m` in the place of `n`, and every other name as it is. -/
def substitute (n m : FieldName) (k : FieldName) : FieldName := if k = n then m else k

end FieldName

/-- What a name of a field, of these or of any others, is made of. -/
def isNameChar (c : Char) : Bool := c.isAlphanum || c == '_' || c == '.'

theorem FieldName.text_ne_nil (n : FieldName) : n.text ≠ [] := by
  obtain ⟨field, dialect⟩ := n
  cases field <;> cases dialect <;> decide +kernel

theorem FieldName.isNameChar_of_mem (n : FieldName) : ∀ c ∈ n.text, isNameChar c = true := by
  refine List.all_eq_true.mp ?_
  obtain ⟨field, dialect⟩ := n
  cases field <;> cases dialect <;> decide +kernel

/-- No name is part of another one. -/
theorem FieldName.not_infix {n m : FieldName} (h : n ≠ m) : ¬ n.text <:+: m.text := by
  obtain ⟨field, dialect⟩ := n
  obtain ⟨field', dialect'⟩ := m
  cases field <;> cases dialect <;> cases field' <;> cases dialect' <;>
    first | exact absurd rfl h | decide +kernel

/-! ## Rules in pieces -/

inductive Piece where
  | name (n : FieldName)
  | filler (text : List Char)

namespace Piece

def text : Piece → List Char
  | name n => n.text
  | filler s => s

def rename (f : FieldName → FieldName) : Piece → Piece
  | name n => name (f n)
  | filler s => filler s

end Piece

/-- The text of a rule. -/
def joined (pieces : List Piece) : List Char := pieces.flatMap Piece.text

def ruleOf (pieces : List Piece) : String := String.ofList (joined pieces)

def renamed (f : FieldName → FieldName) (pieces : List Piece) : List Piece :=
  pieces.map (Piece.rename f)

theorem joined_cons (p : Piece) (pieces : List Piece) :
    joined (p :: pieces) = p.text ++ joined pieces := rfl

/-- What may stand before, between and after names: something that holds none. -/
def IsFiller (s : List Char) : Prop := s ≠ [] ∧ ∀ n ∈ FieldName.all, ¬ n.text <:+: s

instance (s : List Char) : Decidable (IsFiller s) := inferInstanceAs (Decidable (_ ∧ _))

theorem IsFiller.not_infix {s : List Char} (h : IsFiller s) (n : FieldName) :
    ¬ n.text <:+: s := h.2 n n.mem_all

/-- Names and fillers by turns. Where a filler meets a name, its character there is none that
names are made of. -/
inductive Delimited : List Piece → Prop
  | nothing : Delimited []
  | filler {s : List Char} : IsFiller s → Delimited [.filler s]
  | name (n : FieldName) : Delimited [.name n]
  | beforeName {s : List Char} {n : FieldName} {rest : List Piece} : IsFiller s →
      (∀ c ∈ s.getLast?, isNameChar c = false) → Delimited (.name n :: rest) →
      Delimited (.filler s :: .name n :: rest)
  | afterName {n : FieldName} {s : List Char} {rest : List Piece} :
      (∀ c ∈ s.head?, isNameChar c = false) → Delimited (.filler s :: rest) →
      Delimited (.name n :: .filler s :: rest)

theorem Delimited.isFiller {s : List Char} {rest : List Piece}
    (h : Delimited (.filler s :: rest)) : IsFiller s := by
  cases h with
  | filler hs => exact hs
  | beforeName hs => exact hs

/-- Which names stand in a rule makes no difference to how it is delimited. -/
theorem Delimited.renamed {pieces : List Piece} (h : Delimited pieces)
    (f : FieldName → FieldName) : Delimited (renamed f pieces) := by
  induction h with
  | nothing => exact .nothing
  | filler hs => exact .filler hs
  | name n => exact .name (f n)
  | beforeName hs hlast _ ih => exact .beforeName hs hlast ih
  | afterName hhead _ ih => exact .afterName hhead ih

/-! ## One name replaced -/

section
variable {a b : List Char}

/-- No name stands across the place where the two texts meet. -/
def Apart (a b : List Char) : Prop :=
  ∀ c ∈ a.getLast?, ∀ d ∈ b.head?, isNameChar c = true → isNameChar d = false

theorem Apart.tail {c : Char} (h : Apart (c :: a) b) : Apart a b := by
  intro x hx
  refine h x ?_
  rw [List.getLast?_cons, Option.mem_def.mp hx]
  rfl

theorem Apart.not_prefix {word : List Char} (h : Apart a b) (ha : a ≠ [])
    (hword : ∀ c ∈ word, isNameChar c = true) (hnot : ¬ word <+: a) : ¬ word <+: a ++ b := by
  intro hp
  rcases List.prefix_or_prefix_of_prefix hp (List.prefix_append a b) with hin | ⟨p, rfl⟩
  · exact hnot hin
  · -- the word goes on behind `a`, so it has a character on either side
    cases p with
    | nil =>
      rw [List.append_nil] at hnot
      exact hnot (List.prefix_refl a)
    | cons d p =>
      obtain ⟨s, rfl⟩ := (List.prefix_append_right_inj a).mp hp
      have hlast := hword _ (List.mem_append_left (d :: p) (List.getLast_mem ha))
      have hhead := hword d (List.mem_append_right a List.mem_cons_self)
      rw [h _ (List.getLast?_eq_some_getLast ha) d rfl hlast] at hhead
      cases hhead

theorem replaceAll_apart {word : List Char} (hword : ∀ c ∈ word, isNameChar c = true)
    (hnot : ¬ word <:+: a) (h : Apart a b) (sub : List Char) :
    replaceAll word sub (a ++ b) = a ++ replaceAll word sub b := by
  induction a with
  | nil => rfl
  | cons c a ih =>
    rw [List.infix_cons_iff, not_or] at hnot
    have hfront : ¬ word <+: c :: (a ++ b) :=
      h.not_prefix (List.cons_ne_nil c a) hword hnot.1
    rw [List.cons_append, replaceAll_cons hfront, ih hnot.2 h.tail, List.cons_append]

end

/-- A name before something that cannot be a part of one. -/
theorem replaceAll_name (n m k : FieldName) {b : List Char}
    (hb : ∀ c ∈ b.head?, isNameChar c = false) :
    replaceAll n.text m.text (k.text ++ b) =
      (n.substitute m k).text ++ replaceAll n.text m.text b := by
  unfold FieldName.substitute
  by_cases hk : k = n
  · rw [if_pos hk, hk, replaceAll_word n.text_ne_nil]
  · rw [if_neg hk]
    exact replaceAll_apart n.isNameChar_of_mem (FieldName.not_infix (Ne.symm hk))
      (fun _ _ d hd _ => hb d hd) _

theorem replaceAll_joined (n m : FieldName) {pieces : List Piece} (h : Delimited pieces) :
    replaceAll n.text m.text (joined pieces) = joined (renamed (n.substitute m) pieces) := by
  have hend : ∀ c ∈ ([] : List Char).head?, isNameChar c = false := fun c hc => by cases hc
  induction h with
  | nothing => rfl
  | @filler s hs =>
    exact replaceAll_apart n.isNameChar_of_mem (hs.not_infix n) (fun _ _ d hd => by cases hd) _
  | name k => exact replaceAll_name n m k hend
  | @beforeName s k rest hs hlast _ ih =>
    have hapart : Apart s (joined (.name k :: rest)) := by
      intro c hc d _ hname
      rw [hlast c hc] at hname
      cases hname
    rw [joined_cons, Piece.text, replaceAll_apart n.isNameChar_of_mem (hs.not_infix n) hapart, ih]
    rfl
  | @afterName k s rest hhead hrest ih =>
    have hfront : ∀ c ∈ (joined (.filler s :: rest)).head?, isNameChar c = false := by
      obtain ⟨c, s, rfl⟩ := List.exists_cons_of_ne_nil hrest.isFiller.1
      exact hhead
    rw [joined_cons, Piece.text, replaceAll_name n m k hfront, ih]
    rfl

/-! ## All names replaced -/

theorem renamed_renamed (f g : FieldName → FieldName) (pieces : List Piece) :
    renamed g (renamed f pieces) = renamed (fun n => g (f n)) pieces := by
  rw [renamed, renamed, List.map_map]
  refine List.map_congr_left fun p _ => ?_
  cases p <;> rfl

/-- One field after the other, in either order, leaves every name in the dialect. -/
theorem substitute_substitute {first second : Field} (h : first ≠ second) {d e : Dialect}
    (hd : d ≠ e) :
    (fun n => FieldName.substitute ⟨second, d⟩ ⟨second, e⟩
      (FieldName.substitute ⟨first, d⟩ ⟨first, e⟩ n)) = FieldName.inDialect e := by
  funext n
  obtain ⟨field, dialect⟩ := n
  cases first <;> cases second <;> cases d <;> cases e <;>
    first
    | exact absurd rfl h
    | exact absurd rfl hd
    | (cases field <;> cases dialect <;> rfl)

section
variable {pieces : List Piece} {first second : Field}

theorem replaceAll_both (h : Delimited pieces) (hboth : first ≠ second) {d e : Dialect}
    (hd : d ≠ e) :
    replaceAll (FieldName.text ⟨second, d⟩) (FieldName.text ⟨second, e⟩)
        (replaceAll (FieldName.text ⟨first, d⟩) (FieldName.text ⟨first, e⟩) (joined pieces)) =
      joined (renamed (.inDialect e) pieces) := by
  rw [replaceAll_joined _ _ h, replaceAll_joined _ _ (h.renamed _), renamed_renamed,
    substitute_substitute hboth hd]

theorem toStructured_both (h : Delimited pieces) (hboth : first ≠ second) :
    second.pair.toStructured (first.pair.toStructured (joined pieces)) =
      joined (renamed (.inDialect .structured) pieces) := by
  have hdialects : Dialect.legacy ≠ .structured := by decide
  exact replaceAll_both h hboth hdialects

theorem toLegacy_both (h : Delimited pieces) (hboth : first ≠ second) :
    second.pair.toLegacy (first.pair.toLegacy (joined pieces)) =
      joined (renamed (.inDialect .legacy) pieces) := by
  have hdialects : Dialect.structured ≠ .legacy := by decide
  exact replaceAll_both h hboth hdialects

/-- In a rule whose names are delimited, exactly the legacy names become structured ones, or
exactly the structured names legacy ones. Every filler and every other name stays as it is,
whichever field is replaced first. -/
theorem fields_substituted (h : Delimited pieces) (hboth : first ≠ second) :
    toStructuredFields (ruleOf pieces) = ruleOf (renamed (.inDialect .structured) pieces) ∧
      toLegacyFields (ruleOf pieces) = ruleOf (renamed (.inDialect .legacy) pieces) ∧
      second.pair.toStructured (first.pair.toStructured (ruleOf pieces).toList) =
        (ruleOf (renamed (.inDialect .structured) pieces)).toList ∧
      second.pair.toLegacy (first.pair.toLegacy (ruleOf pieces).toList) =
        (ruleOf (renamed (.inDialect .legacy) pieces)).toList := by
  have hmodel : Field.system ≠ .environment := by decide
  simp only [toStructuredFields, toLegacyFields, ruleOf, String.toList_ofList]
  refine ⟨?_, ?_, toStructured_both h hboth, toLegacy_both h hboth⟩
  · exact congrArg String.ofList (toStructured_both h hmodel)
  · exact congrArg String.ofList (toLegacy_both h hmodel)

end

/-- A rule that speaks both dialects. -/
def bothDialects : List Piece :=
  [.filler "(".toList, .name ⟨.system, .legacy⟩, .filler "==\"a\" || ".toList,
   .name ⟨.system, .structured⟩, .filler "==\"b\")\n && ".toList, .name ⟨.environment, .legacy⟩]

theorem fields_substituted_bothDialects :
    Delimited bothDialects ∧ Field.environment ≠ .system ∧
      toStructuredFields
          "(emxSourceSystem==\"a\" || endpoint.system==\"b\")\n && emxSourceEnvironment" =
        "(endpoint.system==\"a\" || endpoint.system==\"b\")\n && endpoint.env" ∧
      toLegacyFields
          "(emxSourceSystem==\"a\" || endpoint.system==\"b\")\n && emxSourceEnvironment" =
        "(emxSourceSystem==\"a\" || emxSourceSystem==\"b\")\n && emxSourceEnvironment" := by
  have hdelimited : Delimited bothDialects := by
    refine .beforeName (by decide +kernel) (by rintro c ⟨⟩; rfl) ?_
    refine .afterName (by rintro c ⟨⟩; rfl) ?_
    refine .beforeName (by decide +kernel) (by rintro c ⟨⟩; rfl) ?_
    refine .afterName (by rintro c ⟨⟩; rfl) ?_
    exact .beforeName (by decide +kernel) (by rintro c ⟨⟩; rfl) (.name _)
  have hboth : Field.environment ≠ .system := by decide
  obtain ⟨hstructured, hlegacy, -⟩ := fields_substituted hdelimited hboth
  exact ⟨hdelimited, hboth, hstructured, hlegacy⟩

end RouteMigration.Rule
