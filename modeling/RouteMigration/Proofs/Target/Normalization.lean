import RouteMigration.Proofs.Target.RoundTrip
import RouteMigration.Proofs.Target.Spelling

/-! Which queue targets the normaliser respells. It takes any text with one slash, and before
that a number sign or else a hyphen, for a target that puts its environment first; a queue name
with a slash in it is such a text. -/

namespace RouteMigration.Target

open RouteMigration.Text

namespace Qualified

/-- The spelling that only queue lists know. -/
def hyphenated (q : Qualified) : List Char :=
  q.system ++ '-' :: (q.environment ++ '/' :: q.qualifier)

theorem cutHead?_eq_some_iff {head system environment : List Char} :
    cutHead? head = some (system, environment) ↔
      head = system ++ '#' :: environment ∧ '#' ∉ system ∨
        head = system ++ '-' :: environment ∧ '-' ∉ environment ∧ '#' ∉ head := by
  rw [cutHead?]
  split
  · rename_i hash
    rw [cutFirst_eq_some_iff]
    simp [hash]
  · rename_i hash
    rw [cutLast_eq_some_iff]
    constructor
    · exact fun h => .inr ⟨h.1, h.2, hash⟩
    · rintro (⟨rfl, -⟩ | h)
      · simp at hash
      · exact ⟨h.1, h.2.1⟩

theorem isComplete_iff {q : Qualified} :
    q.isComplete = true ↔ q.system ≠ [] ∧ q.environment ≠ [] ∧ q.qualifier ≠ [] := by
  simp [isComplete, and_assoc]

/-- The normaliser's cut: at the first slash, and what is before it once more. -/
theorem ofEnvironmentFirst?_eq_some_iff {target : List Char} {q : Qualified} :
    ofEnvironmentFirst? target = some q ↔
      ∃ head, target = head ++ '/' :: q.qualifier ∧ '/' ∉ head ∧
        cutHead? head = some (q.system, q.environment) ∧ q.isComplete = true ∧
        '#' ∉ q.environment ∧ '/' ∉ q.qualifier ∧ '#' ∉ q.qualifier := by
  constructor
  · intro h
    unfold ofEnvironmentFirst? at h
    split at h
    · cases h
    rename_i head qualifier hcut
    obtain ⟨rfl, hslash⟩ := cutFirst_eq_some_iff.mp hcut
    split at h
    · cases h
    rename_i system environment hhead
    dsimp only at h
    split at h
    · rename_i hgood
      cases h
      simp only [Bool.and_eq_true, decide_eq_true_eq] at hgood
      obtain ⟨⟨⟨hcomplete, henv⟩, hqual⟩, hqual'⟩ := hgood
      exact ⟨head, rfl, hslash, hhead, hcomplete, henv, hqual, hqual'⟩
    · cases h
  · rintro ⟨head, rfl, hslash, hhead, hcomplete, henv, hqual, hqual'⟩
    rw [ofEnvironmentFirst?, cutFirst_append hslash]
    simp only [hhead]
    simp [hcomplete, henv, hqual, hqual']

/-- The targets that the normaliser respells are two spellings of proper targets. In the one
with a hyphen, the environment begins at the last hyphen before the slash. -/
theorem ofEnvironmentFirst?_eq_some_iff_spelled {target : List Char} {q : Qualified} :
    ofEnvironmentFirst? target = some q ↔ q.IsProper ∧
      (target = q.spell .environmentFirst ∨ target = q.hyphenated ∧ '-' ∉ q.environment) := by
  rw [ofEnvironmentFirst?_eq_some_iff]
  constructor
  · rintro ⟨head, rfl, hslash, hhead, hcomplete, henv, hqual, hqual'⟩
    obtain ⟨hs, he, hq⟩ := isComplete_iff.mp hcomplete
    rcases cutHead?_eq_some_iff.mp hhead with ⟨rfl, hash⟩ | ⟨rfl, hyphen, hash⟩
    · simp only [List.mem_append, List.mem_cons, not_or] at hslash
      exact ⟨⟨⟨hs, hash, hslash.1⟩, ⟨he, henv, hslash.2.2⟩, ⟨hq, hqual', hqual⟩⟩,
        .inl (by simp [spell])⟩
    · simp only [List.mem_append, List.mem_cons, not_or] at hslash hash
      exact ⟨⟨⟨hs, hash.1, hslash.1⟩, ⟨he, henv, hslash.2.2⟩, ⟨hq, hqual', hqual⟩⟩,
        .inr ⟨by simp [hyphenated], hyphen⟩⟩
  · rintro ⟨⟨⟨hs, hsh, hss⟩, ⟨he, heh, hes⟩, ⟨hq, hqh, hqs⟩⟩, hspelled⟩
    have hcomplete := isComplete_iff.mpr ⟨hs, he, hq⟩
    rcases hspelled with rfl | ⟨rfl, hyphen⟩
    · refine ⟨q.system ++ '#' :: q.environment, by simp [spell], by simp [hss, hes],
        cutHead?_eq_some_iff.mpr (.inl ⟨rfl, hsh⟩), hcomplete, heh, hqs, hqh⟩
    · refine ⟨q.system ++ '-' :: q.environment, by simp [hyphenated], by simp [hss, hes],
        cutHead?_eq_some_iff.mpr (.inr ⟨rfl, hyphen, by simp [hsh, heh]⟩), hcomplete, heh, hqs, hqh⟩

theorem hash_mem_canonical (q : Qualified) : '#' ∈ q.canonical := by
  simp [canonical, spell]

theorem hash_not_mem_hyphenated {q : Qualified} (h : q.IsProper) : '#' ∉ q.hyphenated := by
  simp [hyphenated, h.system.2.1, h.environment.2.1, h.qualifier.2.1]

/-- Respelling always makes a difference. -/
theorem normalize_eq_self_iff {target : List Char} :
    normalize target = target ↔ ofEnvironmentFirst? target = none := by
  rw [normalize]
  cases h : ofEnvironmentFirst? target with
  | none => simp
  | some q =>
    obtain ⟨hproper, rfl | ⟨rfl, -⟩⟩ := ofEnvironmentFirst?_eq_some_iff_spelled.mp h
    · have hne : q.canonical ≠ q.spell .environmentFirst := fun heq =>
        absurd (spell_injective hproper hproper heq).2 (by decide)
      simp [hne]
    · have hne : q.canonical ≠ q.hyphenated := fun heq =>
        hash_not_mem_hyphenated hproper (heq ▸ q.hash_mem_canonical)
      simp [hne]

theorem normalize_of_some {target : List Char} {q : Qualified}
    (h : ofEnvironmentFirst? target = some q) : normalize target = q.canonical := by
  rw [normalize, h]

/-- Without a number sign only the spelling with a hyphen is left. -/
theorem ofEnvironmentFirst?_eq_some_iff_hyphenated {target : List Char} {q : Qualified}
    (hash : '#' ∉ target) :
    ofEnvironmentFirst? target = some q ↔
      q.IsProper ∧ '-' ∉ q.environment ∧ target = q.hyphenated := by
  have hspell : target ≠ q.spell .environmentFirst := by
    rintro rfl
    simp [spell] at hash
  rw [ofEnvironmentFirst?_eq_some_iff_spelled]
  simp only [hspell, false_or, and_comm]

end Qualified

/-- What the normaliser makes of queue names. Each name with the usual start is what some key is
decoded to, if only itself. It stays as it is unless it spells a proper target with a hyphen;
then what stands between the last hyphen before the slash and the slash becomes the
environment, wherever the codec reads it. -/
theorem normalizeQualifier_queueName (env : String) {queue : String}
    (hstart : queueStart <+: queue.toList) (hash : '#' ∉ queue.toList) :
    toQueueName env queue = .ok queue ∧
      (normalizeQualifier queue = queue ↔
        ¬ ∃ q : Qualified, q.IsProper ∧ '-' ∉ q.environment ∧ queue.toList = q.hyphenated) ∧
      ∀ q : Qualified, q.IsProper → '-' ∉ q.environment → queue.toList = q.hyphenated →
        normalizeQualifier queue = String.ofList q.canonical := by
  refine ⟨onText_eq_ok_iff.mpr (queueOfKey_of_start env.toList hstart), ?_, ?_⟩
  · have hsame : normalizeQualifier queue = queue ↔
        Qualified.normalize queue.toList = queue.toList := by
      rw [normalizeQualifier, ← String.toList_inj, String.toList_ofList]
    rw [hsame, Qualified.normalize_eq_self_iff, Option.eq_none_iff_forall_ne_some, not_exists]
    exact forall_congr' fun q =>
      not_congr (Qualified.ofEnvironmentFirst?_eq_some_iff_hyphenated hash)
  · intro q hproper hyphen hname
    have hread := (Qualified.ofEnvironmentFirst?_eq_some_iff_hyphenated hash).mpr
      ⟨hproper, hyphen, hname⟩
    rw [normalizeQualifier, Qualified.normalize_of_some hread]

/-- The name that `crm-aveng/cmiss#stage` is decoded to, as the normaliser reads it. -/
def cmissStage : Qualified := ⟨"emx-to-crm".toList, "aveng".toList, "cmiss-stage".toList⟩

theorem normalizeQualifier_queueName_cmissStage :
    queueStart <+: "emx-to-crm-aveng/cmiss-stage".toList ∧
      '#' ∉ "emx-to-crm-aveng/cmiss-stage".toList ∧ cmissStage.IsProper ∧
      '-' ∉ cmissStage.environment ∧
      "emx-to-crm-aveng/cmiss-stage".toList = cmissStage.hyphenated ∧
      normalizeQualifier "emx-to-crm-aveng/cmiss-stage" = "emx-to-crm/cmiss-stage#aveng" := by
  have hstart : queueStart <+: "emx-to-crm-aveng/cmiss-stage".toList := by decide
  have hash : '#' ∉ "emx-to-crm-aveng/cmiss-stage".toList := by decide
  have hproper : cmissStage.IsProper := by decide
  have hyphen : '-' ∉ cmissStage.environment := by decide
  obtain ⟨-, -, hrespelled⟩ := normalizeQualifier_queueName "dev" hstart hash
  exact ⟨hstart, hash, hproper, hyphen, rfl, hrespelled cmissStage hproper hyphen rfl⟩

/-- The normaliser does touch a decoded name. -/
theorem cmissStage_not_left_alone :
    toQueueName "dev" "crm-aveng/cmiss#stage" = .ok "emx-to-crm-aveng/cmiss-stage" ∧
      queueStart <+: "emx-to-crm-aveng/cmiss-stage".toList ∧
      '#' ∉ "emx-to-crm-aveng/cmiss-stage".toList ∧
      normalizeQualifier "emx-to-crm-aveng/cmiss-stage" ≠ "emx-to-crm-aveng/cmiss-stage" :=
  ⟨rfl, by decide, by decide, by decide⟩

end RouteMigration.Target
