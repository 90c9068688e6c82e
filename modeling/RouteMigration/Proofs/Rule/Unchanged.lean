import RouteMigration.Proofs.Rule.Collapse
import RouteMigration.Proofs.Rule.Delimited

/-! Rules that a pass leaves as they are. Expanding never shortens a token and collapsing never
lengthens one, so a rule stays just where each of its tokens does. The name of a field that ends
in the searched word is no exception to expanding: a qualified literal is rewritten there too. -/

namespace RouteMigration.Rule

open RouteMigration.Text RouteMigration.Target

/-! ## Token by token -/

section
variable {α β : Type} {f g : α → List β} {xs : List α}

theorem length_flatMap_le (h : ∀ x ∈ xs, (f x).length ≤ (g x).length) :
    (xs.flatMap f).length ≤ (xs.flatMap g).length := by
  induction xs with
  | nil => exact Nat.le_refl _
  | cons x xs ih =>
    obtain ⟨hx, hxs⟩ := List.forall_mem_cons.mp h
    rw [List.flatMap_cons, List.flatMap_cons, List.length_append, List.length_append]
    exact Nat.add_le_add hx (ih hxs)

/-- Where no piece gets longer, the whole is the same only if each piece is. -/
theorem flatMap_eq_flatMap_iff (h : ∀ x ∈ xs, (f x).length ≤ (g x).length) :
    xs.flatMap f = xs.flatMap g ↔ ∀ x ∈ xs, f x = g x := by
  induction xs with
  | nil => simp
  | cons x xs ih =>
    obtain ⟨hx, hxs⟩ := List.forall_mem_cons.mp h
    rw [List.forall_mem_cons, ← ih hxs, List.flatMap_cons, List.flatMap_cons]
    constructor
    · intro heq
      have htotal := congrArg List.length heq
      have hrest := length_flatMap_le hxs
      simp only [List.length_append] at htotal
      exact List.append_inj heq (by omega)
    · rintro ⟨hhead, htail⟩
      rw [hhead, htail]

end

theorem length_spell (q : Qualified) (s t : Spelling) :
    (q.spell s).length = (q.spell t).length := by
  have hboth : (q.spell .qualifierFirst).length = (q.spell .environmentFirst).length := by
    simp only [Qualified.spell, List.length_append, List.length_cons]
    omega
  cases s <;> cases t <;> first | rfl | exact hboth | exact hboth.symm

theorem length_literalText (value : List Char) :
    (literalText value).length = value.length + 12 := by
  simp only [literalText, List.length_append]
  rw [show literalStart.length = 11 from rfl]
  simp
  omega

/-! ## Expanding -/

namespace Token

/-- A token that expanding leaves as it is. -/
def Settled : Token → Prop
  | plain _ => True
  | literal value => Qualified.parse? value = none
  | disjunction first _ _ second =>
    (bothSpellings? first second).isSome ∨
      (Qualified.parse? first = none ∧ Qualified.parse? second = none)

end Token

theorem length_expandLiteral (value : List Char) :
    Qualified.parse? value = none ∧ expandLiteral value = literalText value ∨
      (literalText value).length < (expandLiteral value).length := by
  unfold expandLiteral
  cases hp : Qualified.parse? value with
  | none => exact .inl ⟨rfl, rfl⟩
  | some p =>
    obtain ⟨q, s⟩ := p
    obtain ⟨-, rfl⟩ := Qualified.parse?_eq_some_iff.mp hp
    have hlength := length_spell q s .environmentFirst
    refine .inr ?_
    simp only [Token.text, List.length_cons, List.length_append, length_literalText]
    omega

theorem literalText_le_expandLiteral (value : List Char) :
    (literalText value).length ≤ (expandLiteral value).length := by
  rcases length_expandLiteral value with ⟨-, h⟩ | h
  · rw [h]
  · exact h.le

theorem expandLiteral_eq_iff {value : List Char} :
    literalText value = expandLiteral value ↔ Qualified.parse? value = none := by
  rcases length_expandLiteral value with ⟨hp, h⟩ | h
  · simp [hp, h]
  · constructor
    · intro heq
      rw [← heq] at h
      exact absurd h (Nat.lt_irrefl _)
    · intro hp
      rw [expandLiteral, hp]

theorem text_le_expand (t : Token) : t.text.length ≤ t.expand.length := by
  cases t with
  | plain => exact Nat.le_refl _
  | literal value => exact literalText_le_expandLiteral value
  | disjunction first before after second =>
    have hfirst := literalText_le_expandLiteral first
    have hsecond := literalText_le_expandLiteral second
    rw [Token.expand]
    split
    · exact Nat.le_refl _
    · simp only [Token.text, List.length_cons, List.length_append]
      omega

theorem text_eq_expand_iff {t : Token} : t.text = t.expand ↔ t.Settled := by
  cases t with
  | plain => simp [Token.text, Token.expand, Token.Settled]
  | literal value => exact expandLiteral_eq_iff
  | disjunction first before after second =>
    rw [Token.expand, Token.Settled]
    split
    · rename_i hboth
      simp [hboth]
    · rename_i hboth
      have hfirst := literalText_le_expandLiteral first
      have hsecond := literalText_le_expandLiteral second
      rw [or_iff_right hboth, ← expandLiteral_eq_iff, ← expandLiteral_eq_iff, Token.text]
      constructor
      · intro heq
        have htotal := congrArg List.length heq
        simp only [List.length_cons, List.length_append] at htotal
        obtain ⟨hone, hrest⟩ := List.append_inj (List.cons.inj heq).2 (by omega)
        have hrest := List.append_cancel_left hrest
        have hrest := List.append_cancel_left (List.append_cancel_left hrest)
        exact ⟨hone, List.append_cancel_right hrest⟩
      · rintro ⟨hone, htwo⟩
        rw [hone, htwo]

/-- Expanding leaves just those rules as they are in which every token is settled. -/
theorem expand_eq_self_iff {rule : List Char} :
    expand rule = rule ↔ ∀ t ∈ scan pattern? rule, t.Settled := by
  have htext := (reading_scan pattern?_recognizes rule).2
  rw [eq_comm]
  conv_lhs => lhs; rw [← htext]
  rw [textOf, expand, flatMap_eq_flatMap_iff fun t _ => text_le_expand t]
  exact forall₂_congr fun _ _ => text_eq_expand_iff

/-! ## Collapsing -/

namespace Token

/-- The target whose two spellings are the arms. -/
def pair? : Token → Option Qualified
  | disjunction first _ _ second => bothSpellings? first second
  | plain _ | literal _ => none

end Token

theorem collapse_of_pair? {t : Token} {q : Qualified} (h : t.pair? = some q) :
    t.collapse = literalText q.canonical := by
  cases t with
  | plain | literal => cases h
  | disjunction first before after second =>
    rw [Token.pair?] at h
    rw [Token.collapse, h]

theorem collapse_of_no_pair {t : Token} (h : t.pair? = none) : t.collapse = t.text := by
  cases t with
  | plain | literal => rfl
  | disjunction first before after second =>
    rw [Token.pair?] at h
    rw [Token.collapse, h]

theorem collapse_shorter {t : Token} {q : Qualified} (h : t.pair? = some q) :
    t.collapse.length < t.text.length := by
  cases t with
  | plain | literal => cases h
  | disjunction first before after second =>
    obtain ⟨-, one, other, -, rfl, rfl⟩ := bothSpellings?_eq_some_iff.mp h
    have hlength := length_spell q .qualifierFirst one
    rw [collapse_of_pair? h, Qualified.canonical]
    simp only [Token.text, List.length_cons, List.length_append, length_literalText]
    omega

theorem collapse_eq_text_iff {t : Token} : t.collapse = t.text ↔ t.pair? = none := by
  refine ⟨fun heq => ?_, collapse_of_no_pair⟩
  cases h : t.pair? with
  | none => rfl
  | some q =>
    have := collapse_shorter h
    rw [heq] at this
    exact absurd this (Nat.lt_irrefl _)

theorem collapse_le_text (t : Token) : t.collapse.length ≤ t.text.length := by
  cases h : t.pair? with
  | none => rw [collapse_of_no_pair h]
  | some q => exact (collapse_shorter h).le

/-- Tokens come out as they are just where none of them pairs two spellings. -/
theorem flatMap_collapse_eq_iff {ts : List Token} :
    ts.flatMap Token.collapse = textOf ts ↔ ∀ t ∈ ts, t.pair? = none := by
  rw [textOf, flatMap_eq_flatMap_iff fun t _ => collapse_le_text t]
  exact forall₂_congr fun _ _ => collapse_eq_text_iff

/-- Collapsing leaves just those rules as they are in which it reads no two spellings of one
target. -/
theorem collapse_eq_self_iff {rule : List Char} :
    collapse rule = rule ↔ ∀ t ∈ scan disjunction? rule, t.pair? = none := by
  have htext := (reading_scan disjunction?_recognizes rule).2
  conv_lhs => rhs; rw [← htext]
  exact flatMap_collapse_eq_iff

/-! ## Names that end in the searched word -/

/-- Each occurrence of the word is the tail of a longer name. -/
def OnlyInNames (rule : List Char) : Prop :=
  ∀ before after, rule = before ++ (literalWord ++ after) →
    ∃ c ∈ before.getLast?, isNameChar c = true

theorem onlyInNames_iff {rule : List Char} :
    OnlyInNames rule ↔ ∀ n ∈ List.range (rule.length + 1), literalWord <+: rule.drop n →
      (rule.take n).getLast?.any isNameChar = true := by
  constructor
  · rintro h n - ⟨after, hafter⟩
    have := h (rule.take n) after (by rw [hafter, List.take_append_drop])
    rwa [Option.any_eq_true]
  · rintro h before after rfl
    have hrange : before.length ∈ List.range ((before ++ (literalWord ++ after)).length + 1) := by
      rw [List.mem_range, List.length_append]
      omega
    have := h before.length hrange (by simp)
    rwa [List.take_left, Option.any_eq_true] at this

instance (rule : List Char) : Decidable (OnlyInNames rule) :=
  decidable_of_iff _ onlyInNames_iff.symm

/-- Behind a character of a name no disjunction begins. -/
theorem OnlyInNames.not_disjunction {rule : List Char} (h : OnlyInNames rule)
    (first before after second : List Char) :
    .disjunction first before after second ∉ scan pattern? rule := by
  intro hmem
  obtain ⟨us, vs, hsplit⟩ := List.append_of_mem hmem
  have htext := (reading_scan pattern?_recognizes rule).2
  rw [hsplit, textOf_append, textOf_cons, disjunctionText_append, literalText_word] at htext
  obtain ⟨c, hc, hname⟩ := h (textOf us ++ ['(']) _ (by rw [← htext, List.append_cons])
  rw [List.getLast?_concat, Option.mem_some_iff] at hc
  exact absurd hname (hc ▸ by decide)

/-- The values of the literals that expanding reads, from the left and without overlap. -/
def readValues (rule : List Char) : List (List Char) := (scan pattern? rule).flatMap Token.values

/-- A rule whose only predicates are over fields that end in the word stays as it is just where
none of their literals is qualified: expanding does not look at what stands before the word. -/
theorem expandEndpointPattern_onlyInNames {rule : String} (h : OnlyInNames rule.toList) :
    expandEndpointPattern rule = rule ↔
      ∀ value ∈ readValues rule.toList, Qualified.parse? value = none := by
  rw [expandEndpointPattern, ← String.toList_inj, String.toList_ofList, expand_eq_self_iff]
  constructor
  · intro hsettled value hvalue
    obtain ⟨t, ht, hvalue⟩ := List.mem_flatMap.mp hvalue
    cases t with
    | plain => cases hvalue
    | literal v =>
      rw [List.mem_singleton.mp hvalue]
      exact hsettled _ ht
    | disjunction => exact absurd ht (h.not_disjunction _ _ _ _)
  · intro hvalues t ht
    cases t with
    | plain => trivial
    | literal value =>
      exact hvalues value (List.mem_flatMap.mpr ⟨_, ht, List.mem_singleton_self value⟩)
    | disjunction => exact absurd ht (h.not_disjunction _ _ _ _)

theorem expandEndpointPattern_onlyInNames_unqualified :
    OnlyInNames "my_endpoint==\"scms#stage\" and my.endpoint==\"a\"".toList ∧
      (∀ value ∈ readValues "my_endpoint==\"scms#stage\" and my.endpoint==\"a\"".toList,
        Qualified.parse? value = none) ∧
      expandEndpointPattern "my_endpoint==\"scms#stage\" and my.endpoint==\"a\"" =
        "my_endpoint==\"scms#stage\" and my.endpoint==\"a\"" := by
  have hnames : OnlyInNames "my_endpoint==\"scms#stage\" and my.endpoint==\"a\"".toList := by
    decide +kernel
  have hvalues : ∀ value ∈ readValues "my_endpoint==\"scms#stage\" and my.endpoint==\"a\"".toList,
      Qualified.parse? value = none := by
    decide +kernel
  exact ⟨hnames, hvalues, (expandEndpointPattern_onlyInNames hnames).mpr hvalues⟩

/-- A parenthesis is put into the name of another field. -/
theorem otherField_not_left_alone :
    OnlyInNames "myendpoint==\"cars#stage/vendor\"".toList ∧
      expandEndpointPattern "myendpoint==\"cars#stage/vendor\"" =
        "my(endpoint==\"cars/vendor#stage\" || endpoint==\"cars#stage/vendor\")" ∧
      expandEndpointPattern "myendpoint==\"cars#stage/vendor\"" ≠
        "myendpoint==\"cars#stage/vendor\"" := by
  have hnames : OnlyInNames "myendpoint==\"cars#stage/vendor\"".toList := by decide +kernel
  have hexpanded : expandEndpointPattern "myendpoint==\"cars#stage/vendor\"" =
      "my(endpoint==\"cars/vendor#stage\" || endpoint==\"cars#stage/vendor\")" := by
    decide +kernel
  refine ⟨hnames, hexpanded, ?_⟩
  rw [hexpanded]
  decide

end RouteMigration.Rule
