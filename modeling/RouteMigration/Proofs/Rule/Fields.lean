import RouteMigration.Proofs.Text.Replace
import RouteMigration.Rule.Fields

/-! When renaming the fields of a rule is settled by one pass, and when it can be undone. Both
names of the system field end in the two characters that both legacy names begin with, so two
names can overlap in a rule, and a name that was written can become the end of another. These
overlaps are the only exceptions: each law is stated with those that break it. -/

namespace RouteMigration.Rule

open RouteMigration.Text

/-! ## The names -/

/-- A legacy name without its first two characters, which may belong to a system name. -/
def FieldPair.legacyRest (p : FieldPair) : List Char := p.legacy.drop 2

/-- The structured system name without its last two characters, which may belong to a legacy
name. -/
def systemStem : List Char := "endpoint.syst".toList

/-- What both legacy names begin with. -/
def legacyStart : List Char := "emx".toList

/-- What both structured names begin with. -/
def structuredStart : List Char := "end".toList

theorem legacyStart_system : legacyStart <+: systemField.legacy := by decide

theorem legacyStart_environment : legacyStart <+: environmentField.legacy := by decide

theorem structuredStart_system : structuredStart <+: systemField.structured := by decide

theorem structuredStart_environment : structuredStart <+: environmentField.structured := by decide

theorem structured_system : systemField.structured = systemStem ++ ['e', 'm'] := rfl

theorem structured_system_append (s : List Char) :
    systemField.structured ++ s = systemStem ++ (['e', 'm'] ++ s) := rfl

theorem legacy_system_append (s : List Char) :
    systemField.legacy ++ s = ['e', 'm'] ++ (systemField.legacyRest ++ s) := rfl

theorem legacy_environment_append (s : List Char) :
    environmentField.legacy ++ s = ['e', 'm'] ++ (environmentField.legacyRest ++ s) := rfl

theorem legacy_system_ne_nil : systemField.legacy ≠ [] := by decide

theorem legacy_environment_ne_nil : environmentField.legacy ≠ [] := by decide

theorem structured_system_ne_nil : systemField.structured ≠ [] := by decide

theorem structured_environment_ne_nil : environmentField.structured ≠ [] := by decide

/-! ## Both fields at once -/

def structuredText (rule : List Char) : List Char :=
  environmentField.toStructured (systemField.toStructured rule)

def legacyText (rule : List Char) : List Char :=
  environmentField.toLegacy (systemField.toLegacy rule)

theorem structuredText_eq (s : List Char) :
    structuredText s = replaceAll environmentField.legacy environmentField.structured
      (replaceAll systemField.legacy systemField.structured s) := rfl

theorem legacyText_eq (s : List Char) :
    legacyText s = replaceAll environmentField.structured environmentField.legacy
      (replaceAll systemField.structured systemField.legacy s) := rfl

@[simp] theorem structuredText_nil : structuredText [] = [] := rfl

@[simp] theorem legacyText_nil : legacyText [] = [] := rfl

theorem toList_toStructuredFields (rule : String) :
    (toStructuredFields rule).toList = structuredText rule.toList := String.toList_ofList

theorem toList_toLegacyFields (rule : String) :
    (toLegacyFields rule).toList = legacyText rule.toList := String.toList_ofList

section
variable {a : List Char}

theorem structuredText_append (h : Avoids a legacyStart) (s : List Char) :
    structuredText (a ++ s) = a ++ structuredText s := by
  have hs := h.of_prefix legacyStart_system
  have he := h.of_prefix legacyStart_environment
  rw [structuredText_eq, replaceAll_append hs, replaceAll_append he, ← structuredText_eq]

theorem legacyText_append (h : Avoids a structuredStart) (s : List Char) :
    legacyText (a ++ s) = a ++ legacyText s := by
  have hs := h.of_prefix structuredStart_system
  have he := h.of_prefix structuredStart_environment
  rw [legacyText_eq, replaceAll_append hs, replaceAll_append he, ← legacyText_eq]

theorem prefix_of_prefix_structuredText {s : List Char} (h : Avoids a structuredStart)
    (ha : a <+: structuredText s) : a <+: s := by
  have hs := h.of_prefix structuredStart_system
  have he := h.of_prefix structuredStart_environment
  have hmiddle := prefix_of_prefix_replaceAll legacy_environment_ne_nil he ha
  exact prefix_of_prefix_replaceAll legacy_system_ne_nil hs hmiddle

theorem prefix_of_prefix_legacyText {s : List Char} (h : Avoids a legacyStart)
    (ha : a <+: legacyText s) : a <+: s := by
  have hs := h.of_prefix legacyStart_system
  have he := h.of_prefix legacyStart_environment
  have hmiddle := prefix_of_prefix_replaceAll structured_environment_ne_nil he ha
  exact prefix_of_prefix_replaceAll structured_system_ne_nil hs hmiddle

theorem not_prefix_cons_structuredText {c : Char} {s : List Char} (hne : a ≠ [])
    (h : Avoids a.tail structuredStart) (hnot : ¬ a <+: c :: s) :
    ¬ a <+: c :: structuredText s := by
  have hs := h.of_prefix structuredStart_system
  have he := h.of_prefix structuredStart_environment
  have hmiddle := not_prefix_cons_replaceAll legacy_system_ne_nil hne hs hnot
  exact not_prefix_cons_replaceAll legacy_environment_ne_nil hne he hmiddle

theorem not_prefix_cons_legacyText {c : Char} {s : List Char} (hne : a ≠ [])
    (h : Avoids a.tail legacyStart) (hnot : ¬ a <+: c :: s) : ¬ a <+: c :: legacyText s := by
  have hs := h.of_prefix legacyStart_system
  have he := h.of_prefix legacyStart_environment
  have hmiddle := not_prefix_cons_replaceAll structured_system_ne_nil hne hs hnot
  exact not_prefix_cons_replaceAll structured_environment_ne_nil hne he hmiddle

end

/-! One step of each direction, for each thing a rule can go on with. -/

theorem structuredText_environment (s : List Char) :
    structuredText (environmentField.legacy ++ s) =
      environmentField.structured ++ structuredText s := by
  rw [structuredText_eq, replaceAll_append (by decide),
    replaceAll_word legacy_environment_ne_nil, ← structuredText_eq]

/-- The system name is replaced first, and what was written for it ends as it did. -/
theorem structuredText_legacy_system (s : List Char) :
    structuredText (systemField.legacy ++ s) =
      systemStem ++ replaceAll environmentField.legacy environmentField.structured
        (['e', 'm'] ++ replaceAll systemField.legacy systemField.structured s) := by
  rw [structuredText_eq, replaceAll_word legacy_system_ne_nil, structured_system_append,
    replaceAll_append (by decide)]

/-- A system name that goes on into the environment name: the two are taken apart where they
overlap. -/
theorem structuredText_overlap (s : List Char) :
    structuredText (systemField.legacy ++ (environmentField.legacyRest ++ s)) =
      systemStem ++ (environmentField.structured ++ structuredText s) := by
  rw [structuredText_legacy_system,
    replaceAll_append (a := environmentField.legacyRest) (by decide), ← legacy_environment_append,
    replaceAll_word legacy_environment_ne_nil, ← structuredText_eq]

theorem structuredText_system {s : List Char} (h : ¬ environmentField.legacyRest <+: s) :
    structuredText (systemField.legacy ++ s) = systemField.structured ++ structuredText s := by
  have hnot : ¬ environmentField.legacy <+:
      'e' :: (['m'] ++ replaceAll systemField.legacy systemField.structured s) := by
    intro hp
    have hrest := (List.prefix_append_right_inj ['e', 'm']).mp hp
    exact h (prefix_of_prefix_replaceAll legacy_system_ne_nil (by decide) hrest)
  rw [structuredText_legacy_system, List.cons_append, replaceAll_cons hnot,
    replaceAll_append (by decide), ← structuredText_eq, structured_system_append]
  rfl

theorem structuredText_cons {c : Char} {s : List Char} (hs : ¬ systemField.legacy <+: c :: s)
    (he : ¬ environmentField.legacy <+: c :: s) :
    structuredText (c :: s) = c :: structuredText s := by
  have hnot : ¬ environmentField.legacy <+:
      c :: replaceAll systemField.legacy systemField.structured s :=
    not_prefix_cons_replaceAll legacy_system_ne_nil legacy_environment_ne_nil (by decide) he
  rw [structuredText_eq, replaceAll_cons hs, replaceAll_cons hnot, ← structuredText_eq]

theorem legacyText_system (s : List Char) :
    legacyText (systemField.structured ++ s) = systemField.legacy ++ legacyText s := by
  rw [legacyText_eq, replaceAll_word structured_system_ne_nil, replaceAll_append (by decide),
    ← legacyText_eq]

theorem legacyText_environment (s : List Char) :
    legacyText (environmentField.structured ++ s) =
      environmentField.legacy ++ legacyText s := by
  rw [legacyText_eq, replaceAll_append (by decide),
    replaceAll_word structured_environment_ne_nil, ← legacyText_eq]

theorem legacyText_cons {c : Char} {s : List Char} (hs : ¬ systemField.structured <+: c :: s)
    (he : ¬ environmentField.structured <+: c :: s) : legacyText (c :: s) = c :: legacyText s := by
  have hnot : ¬ environmentField.structured <+:
      c :: replaceAll systemField.structured systemField.legacy s :=
    not_prefix_cons_replaceAll structured_system_ne_nil structured_environment_ne_nil (by decide) he
  rw [legacyText_eq, replaceAll_cons hs, replaceAll_cons hnot, ← legacyText_eq]

/-- What ends in the stem of the system name stays, unless the name is completed. -/
theorem legacyText_stem {s : List Char} (h : ¬ ['e', 'm'] <+: s) :
    legacyText (systemStem ++ s) = systemStem ++ legacyText s := by
  have hs : ¬ systemField.structured <+: 'e' :: (systemStem.tail ++ s) := fun hp =>
    h ((List.prefix_append_right_inj systemStem).mp hp)
  have he : ¬ environmentField.structured <+: 'e' :: (systemStem.tail ++ s) :=
    Avoids.not_prefix (by decide) s
  calc legacyText (systemStem ++ s)
      = 'e' :: legacyText (systemStem.tail ++ s) := legacyText_cons hs he
    _ = 'e' :: (systemStem.tail ++ legacyText s) := by
        rw [legacyText_append (by decide)]
    _ = systemStem ++ legacyText s := rfl

/-! ## One pass is enough -/

/-- A pass that moves what begins with one of two words, and keeps every other character,
changes nothing just where neither word stands. -/
theorem pass_eq_self_iff {pass : List Char → List Char} {v w : List Char} (hnil : pass [] = [])
    (hcons : ∀ {c s}, ¬ v <+: c :: s → ¬ w <+: c :: s → pass (c :: s) = c :: pass s)
    (hmoved : ∀ {s}, v <+: s ∨ w <+: s → pass s ≠ s) (s : List Char) :
    pass s = s ↔ ¬ v <:+: s ∧ ¬ w <:+: s := by
  induction s with
  | nil =>
    refine iff_of_true hnil ⟨fun h => ?_, fun h => ?_⟩
    · exact hmoved (.inl (List.infix_nil.mp h ▸ List.prefix_refl [])) hnil
    · exact hmoved (.inr (List.infix_nil.mp h ▸ List.prefix_refl [])) hnil
  | cons c s ih =>
    rw [List.infix_cons_iff, List.infix_cons_iff, not_or, not_or]
    by_cases hv : v <+: c :: s
    · exact iff_of_false (hmoved (.inl hv)) fun h => h.1.1 hv
    by_cases hw : w <+: c :: s
    · exact iff_of_false (hmoved (.inr hw)) fun h => h.2.1 hw
    rw [hcons hv hw, List.cons.injEq, ih]
    simp [hv, hw]

theorem structuredText_eq_self_iff (s : List Char) :
    structuredText s = s ↔
      ¬ systemField.legacy <:+: s ∧ ¬ environmentField.legacy <:+: s := by
  refine pass_eq_self_iff rfl structuredText_cons ?_ s
  rintro _ (⟨s, rfl⟩ | ⟨s, rfl⟩)
  · by_cases h : environmentField.legacyRest <+: s
    · obtain ⟨s, rfl⟩ := h
      rw [structuredText_overlap]
      exact Differ.append_ne (by decide) _ _
    · rw [structuredText_system h]
      exact Differ.append_ne (by decide) _ _
  · rw [structuredText_environment]
    exact Differ.append_ne (by decide) _ _

theorem legacyText_eq_self_iff (s : List Char) :
    legacyText s = s ↔
      ¬ systemField.structured <:+: s ∧ ¬ environmentField.structured <:+: s := by
  refine pass_eq_self_iff rfl legacyText_cons ?_ s
  rintro _ (⟨s, rfl⟩ | ⟨s, rfl⟩)
  · rw [legacyText_system]
    exact Differ.append_ne (by decide) _ _
  · rw [legacyText_environment]
    exact Differ.append_ne (by decide) _ _

/-! ## What one pass leaves behind -/

theorem environment_not_infix_structuredText (s : List Char) :
    ¬ environmentField.legacy <:+: structuredText s :=
  not_infix_replaceAll legacy_environment_ne_nil (by decide) (by decide) _

theorem environment_not_infix_legacyText (s : List Char) :
    ¬ environmentField.structured <:+: legacyText s :=
  not_infix_replaceAll structured_environment_ne_nil (by decide) (by decide) _

/-- A system name replaced right before this text leaves another one behind: the text goes on
with the rest of a second, of which no third takes the end away. -/
def LeavesName (after : List Char) : Prop :=
  systemField.legacyRest <+: after ∧
    ¬ systemField.legacyRest ++ systemField.legacyRest <+: after ∧
    ¬ systemField.legacyRest ++ environmentField.legacyRest <+: after

instance (after : List Char) : Decidable (LeavesName after) :=
  inferInstanceAs (Decidable (_ ∧ _ ∧ _))

theorem em_prefix_structuredText_iff {s : List Char} :
    ['e', 'm'] <+: structuredText (['e', 'm'] ++ s) ↔
      ¬ systemField.legacyRest <+: s ∧ ¬ environmentField.legacyRest <+: s := by
  by_cases hs : systemField.legacyRest <+: s
  · obtain ⟨r, rfl⟩ := hs
    refine iff_of_false ?_ fun h => h.1 (List.prefix_append _ _)
    rw [← legacy_system_append]
    by_cases he : environmentField.legacyRest <+: r
    · obtain ⟨r, rfl⟩ := he
      rw [structuredText_overlap]
      exact Differ.not_prefix_append (by decide) _
    · rw [structuredText_system he]
      exact Differ.not_prefix_append (by decide) _
  by_cases he : environmentField.legacyRest <+: s
  · obtain ⟨r, rfl⟩ := he
    refine iff_of_false ?_ fun h => h.2 (List.prefix_append _ _)
    rw [← legacy_environment_append, structuredText_environment]
    exact Differ.not_prefix_append (by decide) _
  · refine iff_of_true ?_ ⟨hs, he⟩
    have hs' : ¬ systemField.legacy <+: 'e' :: (['m'] ++ s) := fun hp =>
      hs ((List.prefix_append_right_inj ['e', 'm']).mp hp)
    have he' : ¬ environmentField.legacy <+: 'e' :: (['m'] ++ s) := fun hp =>
      he ((List.prefix_append_right_inj ['e', 'm']).mp hp)
    rw [List.cons_append, structuredText_cons hs' he',
      structuredText_append (by decide)]
    exact ⟨structuredText s, rfl⟩

theorem legacyRest_prefix_structuredText_iff {s : List Char} :
    systemField.legacyRest <+: structuredText s ↔ LeavesName s := by
  have hsplit : systemField.legacyRest = "xSourceSyst".toList ++ ['e', 'm'] := rfl
  have hiff : ∀ r, systemField.legacyRest <+: structuredText (systemField.legacyRest ++ r) ↔
      LeavesName (systemField.legacyRest ++ r) := by
    intro r
    rw [LeavesName, List.prefix_append_right_inj, List.prefix_append_right_inj,
      and_iff_right (List.prefix_append _ _), ← em_prefix_structuredText_iff, hsplit,
      List.append_assoc, structuredText_append (by decide),
      List.prefix_append_right_inj]
  constructor
  · intro h
    obtain ⟨r, rfl⟩ := prefix_of_prefix_structuredText (by decide) h
    exact (hiff r).mp h
  · intro h
    obtain ⟨r, rfl⟩ := h.1
    exact (hiff r).mpr h

theorem system_infix_structuredText_iff (s : List Char) :
    systemField.legacy <:+: structuredText s ↔
      ∃ after ∈ found systemField.legacy s, LeavesName after := by
  induction s using two_words_induction legacy_system_ne_nil legacy_environment_ne_nil with
  | nil => simp [found, foundFrom, legacy_system_ne_nil]
  | first s ih =>
    rw [found_word legacy_system_ne_nil, List.exists_mem_cons_iff, ← ih]
    -- A name left behind begins in the last two characters of what was written, unless these
    -- went into the environment name.
    by_cases he : environmentField.legacyRest <+: s
    · obtain ⟨r, rfl⟩ := he
      have hnot : ¬ LeavesName (environmentField.legacyRest ++ r) := fun h =>
        Differ.not_prefix_append (by decide) r h.1
      rw [structuredText_overlap, or_iff_right hnot, Avoids.infix_append (by decide),
        Avoids.infix_append (by decide), structuredText_append (by decide),
        Avoids.infix_append (by decide)]
    · rw [structuredText_system he, structured_system_append,
        Avoids.infix_append (by decide), List.cons_append, List.infix_cons_iff,
        Avoids.infix_append (by decide), ← legacyRest_prefix_structuredText_iff]
      exact or_congr_left (List.prefix_append_right_inj ['e', 'm'])
  | second s ih =>
    rw [structuredText_environment, Avoids.infix_append (by decide), ih,
      found_append (by decide)]
  | other c s hs he ih =>
    have hnot := not_prefix_cons_structuredText legacy_system_ne_nil (by decide) hs
    rw [structuredText_cons hs he, found_cons hs, List.infix_cons_iff, or_iff_right hnot, ih]

theorem em_prefix_legacyText_iff {s : List Char} (h : ¬ ['e', 'm'] <+: s) :
    ['e', 'm'] <+: legacyText s ↔
      systemField.structured <+: s ∨ environmentField.structured <+: s := by
  by_cases hs : systemField.structured <+: s
  · refine iff_of_true ?_ (.inl hs)
    obtain ⟨r, rfl⟩ := hs
    rw [legacyText_system]
    exact ⟨systemField.legacyRest ++ legacyText r, rfl⟩
  by_cases he : environmentField.structured <+: s
  · refine iff_of_true ?_ (.inr he)
    obtain ⟨r, rfl⟩ := he
    rw [legacyText_environment]
    exact ⟨environmentField.legacyRest ++ legacyText r, rfl⟩
  refine iff_of_false (fun hp => ?_) (not_or.mpr ⟨hs, he⟩)
  cases s with
  | nil => exact absurd hp (by decide)
  | cons c s =>
    rw [legacyText_cons hs he] at hp
    exact not_prefix_cons_legacyText (by decide) (by decide) h hp

/-- Where no structured system name stood, one stands after the pass just where its stem was
followed by a name, which brought its end along. -/
theorem system_prefix_legacyText_iff {s : List Char} (h : ¬ systemField.structured <+: s) :
    systemField.structured <+: legacyText s ↔
      systemStem ++ systemField.structured <+: s ∨
        systemStem ++ environmentField.structured <+: s := by
  have hiff : ∀ r, ¬ ['e', 'm'] <+: r →
      (systemField.structured <+: legacyText (systemStem ++ r) ↔
        systemStem ++ systemField.structured <+: systemStem ++ r ∨
          systemStem ++ environmentField.structured <+: systemStem ++ r) := by
    intro r hr
    rw [legacyText_stem hr, List.prefix_append_right_inj, List.prefix_append_right_inj,
      structured_system, List.prefix_append_right_inj, ← structured_system,
      em_prefix_legacyText_iff hr]
  have hstem : systemStem <+: s → (systemField.structured <+: legacyText s ↔
      systemStem ++ systemField.structured <+: s ∨
        systemStem ++ environmentField.structured <+: s) := by
    rintro ⟨r, rfl⟩
    exact hiff r fun hr => h ((List.prefix_append_right_inj systemStem).mpr hr)
  constructor
  · intro hp
    have hpre : systemStem <+: legacyText s := (List.prefix_append _ ['e', 'm']).trans hp
    exact (hstem (prefix_of_prefix_legacyText (by decide) hpre)).mp hp
  · intro hp
    refine (hstem ?_).mpr hp
    exact hp.elim (List.prefix_append _ _).trans (List.prefix_append _ _).trans

theorem system_infix_legacyText_iff (s : List Char) :
    systemField.structured <:+: legacyText s ↔
      systemStem ++ systemField.structured <:+: s ∨
        systemStem ++ environmentField.structured <:+: s := by
  induction s using two_words_induction structured_system_ne_nil
    structured_environment_ne_nil with
  | nil => decide
  | first s ih =>
    rw [legacyText_system, Avoids.infix_append (by decide), Avoids.infix_append (by decide),
      Avoids.infix_append (by decide), ih]
  | second s ih =>
    rw [legacyText_environment, Avoids.infix_append (by decide), Avoids.infix_append (by decide),
      Avoids.infix_append (by decide), ih]
  | other c s hs he ih =>
    have hfront := system_prefix_legacyText_iff hs
    rw [legacyText_cons hs he] at hfront ⊢
    rw [List.infix_cons_iff, List.infix_cons_iff, List.infix_cons_iff, hfront, ih]
    exact or_or_or_comm

/-! ## There and back -/

theorem legacyText_structuredText_iff {s : List Char} (hs : ¬ systemField.structured <:+: s)
    (he : ¬ environmentField.structured <:+: s) :
    legacyText (structuredText s) = s ↔
      ∀ after ∈ found systemField.legacy s, ¬ environmentField.legacyRest <+: after := by
  induction s using two_words_induction legacy_system_ne_nil legacy_environment_ne_nil with
  | nil => simp [found, foundFrom]
  | first s ih =>
    have hrest := ih (fun h => hs (h.trans (List.suffix_append _ _).isInfix))
      (fun h => he (h.trans (List.suffix_append _ _).isInfix))
    rw [found_word legacy_system_ne_nil, List.forall_mem_cons]
    -- Of two names that overlapped only the environment name comes back whole.
    by_cases hover : environmentField.legacyRest <+: s
    · refine iff_of_false ?_ fun h => h.1 hover
      obtain ⟨r, rfl⟩ := hover
      rw [structuredText_overlap, legacyText_stem (Differ.not_prefix_append (by decide) _)]
      exact Differ.append_ne (by decide) _ _
    · rw [structuredText_system hover, legacyText_system, List.append_cancel_left_eq,
        and_iff_right hover]
      exact hrest
  | second s ih =>
    rw [structuredText_environment, legacyText_environment, List.append_cancel_left_eq,
      found_append (by decide)]
    exact ih (fun h => hs (h.trans (List.suffix_append _ _).isInfix))
      (fun h => he (h.trans (List.suffix_append _ _).isInfix))
  | other c s hsys henv ih =>
    have hfront := not_prefix_cons_structuredText structured_system_ne_nil (by decide)
      fun h => hs h.isInfix
    have hfront' := not_prefix_cons_structuredText structured_environment_ne_nil (by decide)
      fun h => he h.isInfix
    rw [structuredText_cons hsys henv, legacyText_cons hfront hfront', List.cons.injEq,
      and_iff_right rfl, found_cons hsys]
    exact ih (fun h => hs (h.trans (List.suffix_cons _ _).isInfix))
      (fun h => he (h.trans (List.suffix_cons _ _).isInfix))

theorem toStructuredFields_twice_iff (rule : String) :
    toStructuredFields (toStructuredFields rule) = toStructuredFields rule ↔
      ∀ after ∈ found systemField.legacy rule.toList, ¬ LeavesName after := by
  rw [← String.toList_inj, toList_toStructuredFields, toList_toStructuredFields,
    structuredText_eq_self_iff, and_iff_left (environment_not_infix_structuredText _),
    system_infix_structuredText_iff]
  simp

theorem toLegacyFields_twice_iff (rule : String) :
    toLegacyFields (toLegacyFields rule) = toLegacyFields rule ↔
      ¬ systemStem ++ systemField.structured <:+: rule.toList ∧
        ¬ systemStem ++ environmentField.structured <:+: rule.toList := by
  rw [← String.toList_inj, toList_toLegacyFields, toList_toLegacyFields, legacyText_eq_self_iff,
    and_iff_left (environment_not_infix_legacyText _), system_infix_legacyText_iff, not_or]

theorem toLegacyFields_toStructuredFields_iff {rule : String}
    (hs : ¬ systemField.structured <:+: rule.toList)
    (he : ¬ environmentField.structured <:+: rule.toList) :
    toLegacyFields (toStructuredFields rule) = rule ↔
      ∀ after ∈ found systemField.legacy rule.toList, ¬ environmentField.legacyRest <+: after := by
  rw [← String.toList_inj, toList_toLegacyFields, toList_toStructuredFields,
    legacyText_structuredText_iff hs he]

/-- A second pass changes nothing, and the pass back restores a rule without structured names,
except where names overlap: a legacy system name that runs into a further one or into the
environment name, or a structured name right behind the stem of the system name. -/
theorem fields_settled (rule : String) :
    (toStructuredFields (toStructuredFields rule) = toStructuredFields rule ↔
      ∀ after ∈ found systemField.legacy rule.toList, ¬ LeavesName after) ∧
    (toLegacyFields (toLegacyFields rule) = toLegacyFields rule ↔
      ¬ systemStem ++ systemField.structured <:+: rule.toList ∧
        ¬ systemStem ++ environmentField.structured <:+: rule.toList) ∧
    (¬ systemField.structured <:+: rule.toList → ¬ environmentField.structured <:+: rule.toList →
      (toLegacyFields (toStructuredFields rule) = rule ↔
        ∀ after ∈ found systemField.legacy rule.toList,
          ¬ environmentField.legacyRest <+: after)) :=
  ⟨toStructuredFields_twice_iff rule, toLegacyFields_twice_iff rule,
    toLegacyFields_toStructuredFields_iff⟩

theorem fields_settled_bothFields :
    ¬ systemField.structured <:+: "emxSourceSystem==1 && emxSourceEnvironment==2".toList ∧
      ¬ environmentField.structured <:+: "emxSourceSystem==1 && emxSourceEnvironment==2".toList ∧
      toLegacyFields (toStructuredFields "emxSourceSystem==1 && emxSourceEnvironment==2") =
        "emxSourceSystem==1 && emxSourceEnvironment==2" := by
  have hs : ¬ systemField.structured <:+:
      "emxSourceSystem==1 && emxSourceEnvironment==2".toList := by
    decide +kernel
  have he : ¬ environmentField.structured <:+:
      "emxSourceSystem==1 && emxSourceEnvironment==2".toList := by
    decide +kernel
  refine ⟨hs, he, ((fields_settled _).2.2 hs he).mpr ?_⟩
  decide +kernel

/-- Each of the three laws fails where names overlap. -/
theorem overlappingNames_not_settled :
    toStructuredFields (toStructuredFields "emxSourceSystemxSourceSystem") ≠
        toStructuredFields "emxSourceSystemxSourceSystem" ∧
      toLegacyFields (toLegacyFields "endpoint.systendpoint.system") ≠
        toLegacyFields "endpoint.systendpoint.system" ∧
      ¬ systemField.structured <:+: "emxSourceSystemxSourceEnvironment".toList ∧
      ¬ environmentField.structured <:+: "emxSourceSystemxSourceEnvironment".toList ∧
      toLegacyFields (toStructuredFields "emxSourceSystemxSourceEnvironment") ≠
        "emxSourceSystemxSourceEnvironment" := by
  decide +kernel

end RouteMigration.Rule
