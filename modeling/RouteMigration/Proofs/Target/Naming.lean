import RouteMigration.Proofs.Target.Inversion

/-! The texts that name a qualified target. The normaliser writes all names of one target alike
and those of two targets differently, and it leaves every other text as it is. A rule reads two
of the three spellings; where it reads one, it finds the target that the normaliser finds. -/

namespace RouteMigration.Target

namespace Qualified

/-- The texts that name a target. With a hyphen in place of the number sign, the environment
begins behind the last hyphen before the slash. -/
inductive Names (q : Qualified) : List Char → Prop
  | environmentFirst : q.IsProper → Names q (q.spell .environmentFirst)
  | qualifierFirst : q.IsProper → Names q (q.spell .qualifierFirst)
  | hyphenated : q.IsProper → '-' ∉ q.environment → Names q q.hyphenated

/-- A name is one of the texts that the normaliser respells, or it is canonical. -/
theorem names_iff {q : Qualified} {target : List Char} : q.Names target ↔
    ofEnvironmentFirst? target = some q ∨ parse? target = some (q, .qualifierFirst) := by
  rw [ofEnvironmentFirst?_eq_some_iff_spelled, parse?_eq_some_iff]
  constructor
  · intro h
    cases h with
    | environmentFirst hproper => exact .inl ⟨hproper, .inl rfl⟩
    | qualifierFirst hproper => exact .inr ⟨hproper, rfl⟩
    | hyphenated hproper hyphen => exact .inl ⟨hproper, .inr ⟨rfl, hyphen⟩⟩
  · rintro (⟨hproper, rfl | ⟨rfl, hyphen⟩⟩ | ⟨hproper, rfl⟩)
    · exact .environmentFirst hproper
    · exact .hyphenated hproper hyphen
    · exact .qualifierFirst hproper

namespace Names

variable {q : Qualified} {target : List Char}

theorem isProper (h : q.Names target) : q.IsProper := by
  cases h <;> assumption

theorem of_parse? {s : Spelling} (h : parse? target = some (q, s)) : q.Names target := by
  obtain ⟨hproper, rfl⟩ := parse?_eq_some_iff.mp h
  cases s with
  | qualifierFirst => exact .qualifierFirst hproper
  | environmentFirst => exact .environmentFirst hproper

theorem normalize_eq (h : q.Names target) : normalize target = q.canonical := by
  rcases names_iff.mp h with hread | hread
  · exact normalize_of_some hread
  · obtain ⟨hproper, rfl⟩ := parse?_eq_some_iff.mp hread
    exact normalize_canonical hproper

end Names

theorem canonical_inj {q r : Qualified} (hq : q.IsProper) (hr : r.IsProper) :
    q.canonical = r.canonical ↔ q = r :=
  ⟨fun h => (spell_injective hq hr h).1, congrArg canonical⟩

/-- Only a name is ever respelled. -/
theorem names_of_normalize_ne {target : List Char} (h : normalize target ≠ target) :
    ∃ q : Qualified, q.Names target := by
  obtain ⟨q, hread⟩ := Option.ne_none_iff_exists'.mp (mt normalize_eq_self_iff.mpr h)
  exact ⟨q, names_iff.mpr (.inl hread)⟩

theorem toList_normalizeQualifier (target : String) :
    (normalizeQualifier target).toList = normalize target.toList := by
  rw [normalizeQualifier, String.toList_ofList]

theorem normalizeQualifier_eq_self_iff {target : String} :
    normalizeQualifier target = target ↔ normalize target.toList = target.toList := by
  rw [← String.toList_inj, toList_normalizeQualifier]

end Qualified

open Qualified

/-- Two names of targets are normalised alike if and only if they name the same target, and what
names no target stays as it is. -/
theorem normalizeQualifier_eq_iff :
    (∀ {x y : String} {q r : Qualified}, q.Names x.toList → r.Names y.toList →
      (normalizeQualifier x = normalizeQualifier y ↔ q = r)) ∧
    ∀ x : String, (∀ q : Qualified, ¬ q.Names x.toList) → normalizeQualifier x = x := by
  constructor
  · intro x y q r hx hy
    rw [← String.toList_inj, toList_normalizeQualifier, toList_normalizeQualifier, hx.normalize_eq,
      hy.normalize_eq, canonical_inj hx.isProper hy.isProper]
  · intro x hnone
    rw [normalizeQualifier_eq_self_iff]
    by_contra hne
    obtain ⟨q, hq⟩ := names_of_normalize_ne hne
    exact hnone q hq

/-- The same letters as in `crmAveng`, cut elsewhere. -/
def crmAlone : Qualified := ⟨"crm".toList, "aveng-stage".toList, "cmiss".toList⟩

theorem normalizeQualifier_eq_iff_crmAveng :
    (crmAveng.Names "crm-aveng#stage/cmiss".toList ∧ crmAveng.Names "crm-aveng-stage/cmiss".toList ∧
      normalizeQualifier "crm-aveng#stage/cmiss" = normalizeQualifier "crm-aveng-stage/cmiss") ∧
    (crmAlone.Names "crm#aveng-stage/cmiss".toList ∧
      normalizeQualifier "crm#aveng-stage/cmiss" ≠ normalizeQualifier "crm-aveng-stage/cmiss") ∧
    (∀ q : Qualified, ¬ q.Names "crm#aveng#stage/cmiss".toList) ∧
      normalizeQualifier "crm#aveng#stage/cmiss" = "crm#aveng#stage/cmiss" := by
  obtain ⟨hsame, hother⟩ := normalizeQualifier_eq_iff
  have hash : crmAveng.Names "crm-aveng#stage/cmiss".toList := .environmentFirst (by decide)
  have hyphen : crmAveng.Names "crm-aveng-stage/cmiss".toList :=
    .hyphenated (by decide) (by decide)
  have hlonger : crmAlone.Names "crm#aveng-stage/cmiss".toList := .environmentFirst (by decide)
  have hnone : ∀ q : Qualified, ¬ q.Names "crm#aveng#stage/cmiss".toList := by
    intro q hq
    have hread : ofEnvironmentFirst? "crm#aveng#stage/cmiss".toList = none := by decide
    have hparse : parse? "crm#aveng#stage/cmiss".toList = none := by decide
    rw [names_iff, hread, hparse] at hq
    simp at hq
  exact ⟨⟨hash, hyphen, (hsame hash hyphen).mpr rfl⟩,
    ⟨hlonger, mt (hsame hlonger hyphen).mp (by decide)⟩, hnone, hother _ hnone⟩

/-- Rules and queue lists agree on targets: a literal that a rule reads as one is normalised to
its canonical spelling, and what the normaliser makes of a name it changes is read as the target
named, the qualifier first. -/
theorem normalizeQualifier_parse? (target : String) :
    (∀ (q : Qualified) (s : Spelling), parse? target.toList = some (q, s) →
      normalizeQualifier target = String.ofList q.canonical) ∧
    (normalizeQualifier target ≠ target → ∃ q : Qualified, q.Names target.toList ∧
      parse? (normalizeQualifier target).toList = some (q, .qualifierFirst)) := by
  constructor
  · intro q s hparse
    rw [normalizeQualifier, (Names.of_parse? hparse).normalize_eq]
  · intro hchanged
    obtain ⟨q, hq⟩ := names_of_normalize_ne (mt normalizeQualifier_eq_self_iff.mpr hchanged)
    refine ⟨q, hq, ?_⟩
    rw [toList_normalizeQualifier, hq.normalize_eq]
    exact parse?_spell hq.isProper .qualifierFirst

theorem normalizeQualifier_parse?_crmAveng :
    parse? "crm-aveng#stage/cmiss".toList = some (crmAveng, .environmentFirst) ∧
      normalizeQualifier "crm-aveng#stage/cmiss" = "crm-aveng/cmiss#stage" ∧
    normalizeQualifier "crm-aveng-stage/cmiss" ≠ "crm-aveng-stage/cmiss" ∧
      ∃ q : Qualified, q.Names "crm-aveng-stage/cmiss".toList ∧
        parse? (normalizeQualifier "crm-aveng-stage/cmiss").toList = some (q, .qualifierFirst) := by
  have hparse : parse? "crm-aveng#stage/cmiss".toList = some (crmAveng, .environmentFirst) := by
    decide
  have hchanged : normalizeQualifier "crm-aveng-stage/cmiss" ≠ "crm-aveng-stage/cmiss" := by decide
  exact ⟨hparse, (normalizeQualifier_parse? _).1 crmAveng .environmentFirst hparse, hchanged,
    (normalizeQualifier_parse? _).2 hchanged⟩

end RouteMigration.Target
