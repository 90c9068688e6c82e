import RouteMigration.Proofs.Target.Normalization
import RouteMigration.Proofs.Target.Return

/-! What a converted target was made from. Each conversion has its own kinds of result, and by
each of these the same conversion knows a target that it leaves as it is. -/

namespace RouteMigration.Target

open RouteMigration.Text

/-! ## Endpoint keys -/

theorem keyOfQueue_of_hash (env : List Char) {target : List Char} (hash : '#' ∈ target) :
    keyOfQueue env target = .ok target := by
  rw [keyOfQueue, specialOfQueue?_of_hash hash]
  exact if_pos hash

/-- A key is special, was one already, or encodes a system and an environment. -/
theorem of_keyOfQueue {env queue key : List Char} (h : keyOfQueue env queue = .ok key) :
    (∃ s ∈ specials, key = s.key env) ∨ ('#' ∈ queue ∧ key = queue) ∨
      ∃ system environment, key = encodedKey system environment := by
  by_cases hash : '#' ∈ queue
  · rw [keyOfQueue_of_hash env hash] at h
    exact .inr (.inl ⟨hash, (Except.ok.inj h).symm⟩)
  · rcases keyOfQueue_cases hash h with ⟨s, hs, -, hkey⟩ | ⟨-, henc⟩
    · exact .inl ⟨s, hs, hkey⟩
    · obtain ⟨-, -, system, environment, -, -, -, hkey⟩ := encodeQueue_eq_ok_iff.mp henc
      exact .inr (.inr ⟨system, environment, hkey⟩)

theorem hash_mem_of_keyOfQueue {env queue key : List Char} (h : keyOfQueue env queue = .ok key) :
    '#' ∈ key := by
  rcases of_keyOfQueue h with ⟨s, -, rfl⟩ | ⟨hash, rfl⟩ | ⟨system, environment, rfl⟩
  · simp [Special.key]
  · exact hash
  · exact hash_mem_key system environment

theorem keyOfQueue_twice {env queue key : List Char} (h : keyOfQueue env queue = .ok key) :
    keyOfQueue env key = .ok key :=
  keyOfQueue_of_hash env (hash_mem_of_keyOfQueue h)

/-! ## Queue names -/

/-- A queue name, by the tests that decoding has for one. -/
def IsQueueName (name : List Char) : Prop := queueStart <+: name ∨ ∃ s ∈ specials, name = s.queue

theorem isQueueName_iff {name : List Char} :
    IsQueueName name ↔ (queueStart.isPrefixOf name || (specialOfQueue? name).isSome) = true := by
  have hspecial : (specialOfQueue? name).isSome = true ↔ ∃ s ∈ specials, name = s.queue := by
    simp only [specialOfQueue?, List.find?_isSome, decide_eq_true_eq]
    exact exists_congr fun s => and_congr_right fun _ => eq_comm
  rw [Bool.or_eq_true, hspecial, List.isPrefixOf_iff_prefix, IsQueueName]

instance (name : List Char) : Decidable (IsQueueName name) :=
  decidable_of_iff _ isQueueName_iff.symm

/-- A key that decoding takes apart: it is not special in this environment, and no queue name. -/
structure IsDecoded (env key : List Char) : Prop where
  special : ∀ s ∈ specials, key ≠ s.key env
  name : ¬ IsQueueName key

instance (env key : List Char) : Decidable (IsDecoded env key) :=
  decidable_of_iff ((∀ s ∈ specials, key ≠ s.key env) ∧ ¬ IsQueueName key)
    ⟨fun ⟨hs, hn⟩ => ⟨hs, hn⟩, fun ⟨hs, hn⟩ => ⟨hs, hn⟩⟩

theorem queueOfKey_of_isDecoded {env key : List Char} (h : IsDecoded env key) :
    queueOfKey env key = decodeKey key := by
  rw [queueOfKey, specialOfKey?_eq_none_iff.mpr h.special]
  exact if_neg (mt isQueueName_iff.mpr h.name)

theorem queueOfKey_of_isQueueName (env : List Char) {name : List Char} (h : IsQueueName name) :
    queueOfKey env name = .ok name := by
  rcases h with hstart | ⟨s, hs, rfl⟩
  · exact queueOfKey_of_start env hstart
  · have hnone : specialOfKey? env s.queue = none := by
      rw [specialOfKey?_eq_none_iff]
      intro t _ hkey
      have hash : '#' ∈ t.key env := by simp [Special.key]
      exact (hash_not_mem_special s hs).1 (hkey ▸ hash)
    rw [queueOfKey, hnone]
    exact if_pos (isQueueName_iff.mp (.inr ⟨s, hs, rfl⟩))

/-- A queue name is special, was one already, or comes out of a key that was taken apart. -/
theorem of_queueOfKey {env key queue : List Char} (h : queueOfKey env key = .ok queue) :
    (∃ s ∈ specials, key = s.key env ∧ queue = s.queue) ∨ (IsQueueName key ∧ queue = key) ∨
      (IsDecoded env key ∧ decodeKey key = .ok queue) := by
  cases hspecial : specialOfKey? env key with
  | some s =>
    have hkey : s.key env = key := by simpa using List.find?_some hspecial
    have hs : s ∈ specials := List.mem_of_find?_eq_some hspecial
    rw [← hkey, queueOfKey_key hs] at h
    exact .inl ⟨s, hs, hkey.symm, (Except.ok.inj h).symm⟩
  | none =>
    by_cases hname : IsQueueName key
    · rw [queueOfKey_of_isQueueName env hname] at h
      exact .inr (.inl ⟨hname, (Except.ok.inj h).symm⟩)
    · have hdecoded : IsDecoded env key := ⟨specialOfKey?_eq_none_iff.mp hspecial, hname⟩
      rw [queueOfKey_of_isDecoded hdecoded] at h
      exact .inr (.inr ⟨hdecoded, h⟩)

/-- A key with one number sign, and something on both sides of it. -/
structure Keyed (key system environment : List Char) : Prop where
  eq : key = system ++ '#' :: environment
  given : system ≠ [] ∧ environment ≠ []
  hash : '#' ∉ system ∧ '#' ∉ environment

theorem decodeKey_eq_ok_iff {key queue : List Char} :
    decodeKey key = .ok queue ↔ ∃ system environment, Keyed key system environment ∧
      queue = conventional (Form.decode system) (Form.decode environment) := by
  constructor
  · intro h
    unfold decodeKey at h
    split at h
    · cases h
    · rename_i system environment hcut
      obtain ⟨hkey, hash⟩ := cutKey?_eq_some_iff.mp hcut
      split at h
      · cases h
      · rename_i hgiven
        simp only [Bool.or_eq_true, List.isEmpty_iff, not_or] at hgiven
        exact ⟨system, environment, ⟨hkey, hgiven, hash⟩, by simpa [conventional, eq_comm] using h⟩
  · rintro ⟨system, environment, ⟨rfl, hgiven, hash⟩, rfl⟩
    exact decodeKey_append hgiven.1 hgiven.2 hash.1 hash.2

theorem of_decodeKey {key queue : List Char} (h : decodeKey key = .ok queue) :
    ∃ system environment, key = system ++ '#' :: environment ∧
      queue = conventional (Form.decode system) (Form.decode environment) := by
  obtain ⟨system, environment, hkeyed, hqueue⟩ := decodeKey_eq_ok_iff.mp h
  exact ⟨system, environment, hkeyed.eq, hqueue⟩

theorem isQueueName_of_queueOfKey {env key queue : List Char} (h : queueOfKey env key = .ok queue) :
    IsQueueName queue := by
  rcases of_queueOfKey h with ⟨s, hs, -, rfl⟩ | ⟨hname, rfl⟩ | ⟨-, hdecode⟩
  · exact .inr ⟨s, hs, rfl⟩
  · exact hname
  · obtain ⟨system, environment, -, rfl⟩ := of_decodeKey hdecode
    exact .inl (List.prefix_append _ _)

theorem queueOfKey_twice {env key queue : List Char} (h : queueOfKey env key = .ok queue) :
    queueOfKey env queue = .ok queue :=
  queueOfKey_of_isQueueName env (isQueueName_of_queueOfKey h)

/-! ## Canonical targets -/

namespace Qualified

theorem normalize_canonical {q : Qualified} (h : q.IsProper) : normalize q.canonical = q.canonical := by
  rw [normalize_eq_self_iff, Option.eq_none_iff_forall_ne_some]
  intro r hr
  obtain ⟨hproper, heq | ⟨heq, -⟩⟩ := ofEnvironmentFirst?_eq_some_iff_spelled.mp hr
  · exact absurd (spell_injective h hproper heq).2 (by decide)
  · exact hash_not_mem_hyphenated hproper (heq ▸ q.hash_mem_canonical)

theorem normalize_twice (target : List Char) : normalize (normalize target) = normalize target := by
  cases h : ofEnvironmentFirst? target with
  | none =>
    have hsame : normalize target = target := normalize_eq_self_iff.mpr h
    rw [hsame, hsame]
  | some q =>
    obtain ⟨hproper, -⟩ := ofEnvironmentFirst?_eq_some_iff_spelled.mp h
    rw [normalize_of_some h, normalize_canonical hproper]

end Qualified

end RouteMigration.Target
