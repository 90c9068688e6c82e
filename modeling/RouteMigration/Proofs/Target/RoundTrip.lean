import RouteMigration.Proofs.Target.Segments
import RouteMigration.Proofs.Text.Cut

/-! From a queue name to its endpoint key and back. The way back always exists. It ends where
it began for the special queues, and for the conventional names whose system is neither taken
for a queue name nor makes the key of a special queue. -/

namespace RouteMigration.Target

open RouteMigration.Text

/-! ## Special queues -/

theorem forall_specials {P : Special → Prop} :
    (∀ s ∈ specials, P s) ↔
      P ⟨"emx-trash".toList, "emx-core-trash".toList⟩ ∧
      P ⟨"emx-to-archive-core".toList, "emx-core-archive".toList⟩ ∧
      P ⟨"emx-to-emx-healthcheck".toList, "emx-core-healthcheck".toList⟩ := by
  simp [specials]

theorem hash_not_mem_special : ∀ s ∈ specials, '#' ∉ s.queue ∧ '#' ∉ s.system := by
  rw [forall_specials]
  decide

theorem specialOfQueue?_eq_none_iff {queue : List Char} :
    specialOfQueue? queue = none ↔ ∀ s ∈ specials, queue ≠ s.queue := by
  rw [specialOfQueue?, List.find?_eq_none]
  simp only [decide_eq_true_eq, ne_comm]

theorem specialOfKey?_eq_none_iff {env key : List Char} :
    specialOfKey? env key = none ↔ ∀ s ∈ specials, key ≠ s.key env := by
  rw [specialOfKey?, List.find?_eq_none]
  simp only [decide_eq_true_eq, ne_comm]

/-- The system of a special key is spelled alike in plain and encoded form. -/
theorem encode_special_system : ∀ s ∈ specials, Form.encode s.system = s.system := by
  rw [forall_specials]
  exact ⟨rfl, rfl, rfl⟩

theorem special_queue_of_system :
    ∀ s ∈ specials, ∀ t ∈ specials, s.system = t.system → s.queue = t.queue := by
  simp only [forall_specials]
  decide

theorem special_queue_of_key {env : List Char} {s t : Special} (hs : s ∈ specials)
    (ht : t ∈ specials) (h : s.key env = t.key env) : s.queue = t.queue :=
  special_queue_of_system s hs t ht
    (cut_unique (hash_not_mem_special s hs).2 (hash_not_mem_special t ht).2 h).1

theorem queueOfKey_key {env : List Char} {s : Special} (hs : s ∈ specials) :
    queueOfKey env (s.key env) = .ok s.queue := by
  unfold queueOfKey
  cases h : specialOfKey? env (s.key env) with
  | none =>
    have := List.find?_eq_none.mp h s hs
    simp at this
  | some t =>
    have hkey : t.key env = s.key env := by simpa using List.find?_some h
    exact congrArg Except.ok (special_queue_of_key (List.mem_of_find?_eq_some h) hs hkey)

theorem key_eq_append_iff {env system environment : List Char} {s : Special} (hs : s ∈ specials)
    (hash : '#' ∉ system) :
    s.key env = system ++ '#' :: environment ↔ system = s.system ∧ environment = env := by
  constructor
  · intro h
    obtain ⟨hsys, henv⟩ := cut_unique (hash_not_mem_special s hs).2 hash h
    exact ⟨hsys.symm, henv.symm⟩
  · rintro ⟨rfl, rfl⟩
    rfl

/-- A special key is read as one exactly where system and environment agree. -/
theorem key_eq_encoded_iff {env system environment : List Char} {s : Special}
    (hs : s ∈ specials) :
    s.key env = Form.encode system ++ '#' :: Form.encode environment ↔
      system = s.system ∧ Form.encode environment = env := by
  have hsystem : Form.encode system = s.system ↔ system = s.system := by
    conv_lhs => rw [← encode_special_system s hs]
    exact ⟨fun h => Form.encode_injective h, congrArg Form.encode⟩
  rw [key_eq_append_iff hs (Form.hash_not_mem_encode system), hsystem]

/-! ## Keys -/

theorem isPlainText_queueStart : Form.IsPlainText queueStart := by decide

theorem hash_not_mem_queueStart : '#' ∉ queueStart := by decide

theorem specialOfQueue?_of_hash {target : List Char} (hash : '#' ∈ target) :
    specialOfQueue? target = none := by
  rw [specialOfQueue?_eq_none_iff]
  rintro s hs rfl
  exact (hash_not_mem_special s hs).1 hash

theorem cutKey?_eq_some_iff {key system environment : List Char} :
    cutKey? key = some (system, environment) ↔
      key = system ++ '#' :: environment ∧ '#' ∉ system ∧ '#' ∉ environment := by
  unfold cutKey?
  constructor
  · intro h
    cases hcut : cutFirst '#' key with
    | none =>
      rw [hcut] at h
      cases h
    | some parts =>
      simp only [hcut, Option.ite_none_left_eq_some, Option.some.injEq, Prod.mk.injEq] at h
      obtain ⟨hash, rfl, rfl⟩ := h
      obtain ⟨hkey, hash'⟩ := cutFirst_eq_some_iff.mp hcut
      exact ⟨hkey, hash', hash⟩
  · rintro ⟨rfl, hash, hash'⟩
    rw [cutFirst_append hash]
    exact if_neg hash'

theorem decodeKey_append {system environment : List Char} (hs : system ≠ [])
    (he : environment ≠ []) (hash : '#' ∉ system) (hash' : '#' ∉ environment) :
    decodeKey (system ++ '#' :: environment) =
      .ok (queueStart ++ (Form.decode system ++ '-' :: Form.decode environment)) := by
  have hcut : cutKey? (system ++ '#' :: environment) = some (system, environment) :=
    cutKey?_eq_some_iff.mpr ⟨rfl, hash, hash'⟩
  simp [decodeKey, hcut, hs, he]

/-- Where a key with one number sign leads, apart from the special keys: to itself where its
system is taken for a queue name, and else to what system and environment decode to, behind
the usual start. -/
theorem queueOfKey_append {env system environment : List Char} (hs : system ≠ [])
    (he : environment ≠ []) (hash : '#' ∉ system) (hash' : '#' ∉ environment)
    (hspecial : ∀ s ∈ specials, ¬ (system = s.system ∧ environment = env)) :
    queueOfKey env (system ++ '#' :: environment) =
      if queueStart <+: system then .ok (system ++ '#' :: environment)
      else .ok (queueStart ++ (Form.decode system ++ '-' :: Form.decode environment)) := by
  have hnone : specialOfKey? env (system ++ '#' :: environment) = none := by
    rw [specialOfKey?_eq_none_iff]
    intro s hsp hkey
    exact hspecial s hsp ((key_eq_append_iff hsp hash).mp hkey.symm)
  rw [queueOfKey, hnone]
  simp only [specialOfQueue?_of_hash (List.mem_append_right _ List.mem_cons_self),
    Option.isSome_none, Bool.or_false, List.isPrefixOf_iff_prefix,
    prefix_append_cons_iff hash_not_mem_queueStart]
  rw [decodeKey_append hs he hash hash']

/-- What starts as a queue name does is one already. -/
theorem queueOfKey_of_start (env : List Char) {queue : List Char} (hstart : queueStart <+: queue) :
    queueOfKey env queue = .ok queue := by
  have hsystem : ∀ s ∈ specials, ¬ queueStart <+: s.system := by
    rw [forall_specials]
    decide
  have hnone : specialOfKey? env queue = none := by
    rw [specialOfKey?_eq_none_iff]
    intro s hs hkey
    rw [hkey, Special.key, prefix_append_cons_iff hash_not_mem_queueStart] at hstart
    exact hsystem s hs hstart
  simp [queueOfKey, hnone, hstart]

/-! ## Conventional names -/

theorem prefix_encode_queueStart_iff (system : List Char) :
    queueStart <+: Form.encode system ↔ queueStart <+: system := by
  rw [← prefix_append_cons_iff hash_not_mem_queueStart (Form.encode system) [],
    Form.prefix_encode_iff isPlainText_queueStart]

/-- The key of a conventional name leads to its system and environment. -/
theorem queueOfKey_encoded {env system environment : List Char} (hs : system ≠ [])
    (he : environment ≠ [])
    (hspecial : ∀ s ∈ specials, ¬ (system = s.system ∧ Form.encode environment = env)) :
    queueOfKey env (Form.encode system ++ '#' :: Form.encode environment) =
      if queueStart <+: system then .ok (Form.encode system ++ '#' :: Form.encode environment)
      else .ok (queueStart ++ (system ++ '-' :: environment)) := by
  have hnokey : ∀ s ∈ specials,
      ¬ (Form.encode system = s.system ∧ Form.encode environment = env) := fun s hsp hsame =>
    hspecial s hsp ((key_eq_encoded_iff hsp).mp
      ((key_eq_append_iff hsp (Form.hash_not_mem_encode system)).mpr hsame))
  rw [queueOfKey_append (mt Form.encode_eq_nil_iff.mp hs) (mt Form.encode_eq_nil_iff.mp he)
    (Form.hash_not_mem_encode system) (Form.hash_not_mem_encode environment) hnokey,
    Form.decode_encode, Form.decode_encode]
  simp only [prefix_encode_queueStart_iff]

theorem hash_mem_key (system environment : List Char) :
    '#' ∈ Form.encode system ++ '#' :: Form.encode environment := by simp

/-- A name with the usual start has its system and environment after that start. -/
theorem Segmented.eq_of_start {queue first second system environment : List Char}
    (h : Segmented queue first second system environment) (hstart : queueStart <+: queue) :
    queue = queueStart ++ (system ++ '-' :: environment) := by
  obtain ⟨rest, hrest⟩ := hstart
  have hq : "emx".toList ++ '-' :: ("to".toList ++ '-' :: rest) =
      first ++ '-' :: (second ++ '-' :: (system ++ '-' :: environment)) := by
    rw [← h.eq, ← hrest]
    rfl
  obtain ⟨-, hq⟩ := cut_unique (by decide) h.first hq
  obtain ⟨-, hq⟩ := cut_unique (by decide) h.second hq
  rw [← hrest, hq]

/-! ## There and back -/

theorem keyOfQueue_of_ordinary (env : List Char) {queue : List Char}
    (hordinary : ∀ s ∈ specials, queue ≠ s.queue) (hash : '#' ∉ queue) :
    keyOfQueue env queue = encodeQueue queue := by
  rw [keyOfQueue, specialOfQueue?_eq_none_iff.mpr hordinary]
  exact if_neg hash

theorem keyOfQueue_cases {env queue key : List Char} (hash : '#' ∉ queue)
    (h : keyOfQueue env queue = .ok key) :
    (∃ s ∈ specials, queue = s.queue ∧ key = s.key env) ∨
      (∀ s ∈ specials, queue ≠ s.queue) ∧ encodeQueue queue = .ok key := by
  unfold keyOfQueue at h
  split at h
  · rename_i s hs
    cases h
    have hq : s.queue = queue := by simpa using List.find?_some hs
    exact .inl ⟨s, List.mem_of_find?_eq_some hs, hq.symm, rfl⟩
  · rename_i hnone
    rw [if_neg hash] at h
    exact .inr ⟨specialOfQueue?_eq_none_iff.mp hnone, h⟩

/-- What it takes, besides the usual start, for a conventional name to come back from its key:
its system is not taken for a queue name, and its key is not that of a special queue. -/
def ComesBack (env system environment : List Char) : Prop :=
  ¬ queueStart <+: system ∧
    ∀ s ∈ specials, ¬ (system = s.system ∧ Form.encode environment = env)

theorem queueOfKey_segmented (env : List Char) {queue first second system environment : List Char}
    (hash : '#' ∉ queue) (hordinary : ∀ s ∈ specials, queue ≠ s.queue)
    (hseg : Segmented queue first second system environment) (hs : system ≠ [])
    (he : environment ≠ []) :
    ∃ back, queueOfKey env (Form.encode system ++ '#' :: Form.encode environment) = .ok back ∧
      (back = queue ↔ queueStart <+: queue ∧ ComesBack env system environment) := by
  by_cases hkey : ∃ s ∈ specials, system = s.system ∧ Form.encode environment = env
  · obtain ⟨s, hsp, hsame⟩ := hkey
    refine ⟨s.queue, ?_, ?_⟩
    · rw [← (key_eq_encoded_iff hsp).mpr hsame, queueOfKey_key hsp]
    · constructor
      · exact fun hq => absurd hq.symm (hordinary s hsp)
      · exact fun hback => absurd hsame (hback.2.2 s hsp)
  have hspecial : ∀ s ∈ specials, ¬ (system = s.system ∧ Form.encode environment = env) :=
    fun s hsp hsame => hkey ⟨s, hsp, hsame⟩
  rw [queueOfKey_encoded hs he hspecial]
  by_cases hstart : queueStart <+: system
  · refine ⟨_, if_pos hstart, ?_⟩
    constructor
    · exact fun hq => absurd (hq ▸ hash_mem_key system environment) hash
    · exact fun hback => absurd hstart hback.2.1
  · refine ⟨_, if_neg hstart, ?_⟩
    constructor
    · exact fun hq => ⟨⟨_, hq⟩, hstart, hspecial⟩
    · exact fun hback => (hseg.eq_of_start hback.1).symm

theorem queueOfKey_keyOfQueue {env queue key : List Char} (hash : '#' ∉ queue)
    (h : keyOfQueue env queue = .ok key) :
    ∃ back, queueOfKey env key = .ok back ∧
      (back = queue ↔ (∃ s ∈ specials, queue = s.queue) ∨
        ∃ system environment, queue = queueStart ++ (system ++ '-' :: environment) ∧
          '-' ∉ environment ∧ ComesBack env system environment) := by
  rcases keyOfQueue_cases hash h with ⟨s, hs, rfl, rfl⟩ | ⟨hordinary, henc⟩
  · exact ⟨s.queue, queueOfKey_key hs, fun _ => .inl ⟨s, hs, rfl⟩, fun _ => rfl⟩
  obtain ⟨first, second, system, environment, hseg, hne, hne', rfl⟩ :=
    encodeQueue_eq_ok_iff.mp henc
  obtain ⟨back, hback, hiff⟩ := queueOfKey_segmented env hash hordinary hseg hne hne'
  refine ⟨back, hback, hiff.trans ?_⟩
  constructor
  · rintro ⟨hstart, hcomes⟩
    exact .inr ⟨system, environment, hseg.eq_of_start hstart, hseg.environment, hcomes⟩
  · rintro (⟨s, hs, hq⟩ | ⟨sys, e, hq, he, hcomes⟩)
    · exact absurd hq (hordinary s hs)
    · -- a name has one system and one environment behind the usual start
      have hstart : queueStart <+: queue := ⟨_, hq.symm⟩
      have hsame := List.append_cancel_left ((hseg.eq_of_start hstart).symm.trans hq)
      obtain ⟨rfl, rfl⟩ := cut_last_unique hseg.environment he hsame
      exact ⟨hstart, hcomes⟩

theorem onText_eq_ok_iff {read : List Char → Except Flaw (List Char)} {target result : String} :
    onText read target = .ok result ↔ read target.toList = .ok result.toList := by
  unfold onText
  cases h : read target.toList with
  | error flaw => simp
  | ok s => simp [← String.toList_inj]

theorem onText_ofList {read : List Char → Except Flaw (List Char)} {target result : List Char}
    (h : read target = .ok result) :
    onText read (String.ofList target) = .ok (String.ofList result) := by
  rw [onText_eq_ok_iff, String.toList_ofList, String.toList_ofList, h]

/-- Encoding a queue name and decoding its key, both in one environment. Decoding never fails,
and it gives the name back for the special queues and for the conventional names that come
back; every other name comes out changed. -/
theorem toQueueName_toEndpointKey {env queue key : String} (hash : '#' ∉ queue.toList)
    (h : toEndpointKey env queue = .ok key) :
    ∃ back, toQueueName env key = .ok back ∧
      (back = queue ↔ (∃ s ∈ specials, queue.toList = s.queue) ∨
        ∃ system environment, queue.toList = queueStart ++ (system ++ '-' :: environment) ∧
          '-' ∉ environment ∧ ComesBack env.toList system environment) := by
  obtain ⟨back, hback, hiff⟩ := queueOfKey_keyOfQueue hash (onText_eq_ok_iff.mp h)
  refine ⟨String.ofList back, onText_eq_ok_iff.mpr (by simpa using hback), ?_⟩
  rw [← hiff, ← String.toList_inj, String.toList_ofList]

theorem toQueueName_scms_stage :
    '#' ∉ "emx-to-scms-stage".toList ∧ toEndpointKey "dev" "emx-to-scms-stage" = .ok "scms#stage" ∧
      ∃ back, toQueueName "dev" "scms#stage" = .ok back ∧
        (back = "emx-to-scms-stage" ↔
          (∃ s ∈ specials, "emx-to-scms-stage".toList = s.queue) ∨
            ∃ system environment,
              "emx-to-scms-stage".toList = queueStart ++ (system ++ '-' :: environment) ∧
                '-' ∉ environment ∧ ComesBack "dev".toList system environment) :=
  ⟨by decide, rfl, toQueueName_toEndpointKey (by decide) rfl⟩

end RouteMigration.Target
