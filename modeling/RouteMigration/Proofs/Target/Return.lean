import RouteMigration.Proofs.Target.RoundTrip
import RouteMigration.Target.Qualified

/-! From an endpoint key to its queue name and back. A key encoded from a system and an
environment comes back, but for the two keys whose queue name is that of a special queue. A
qualifier is decoded as a part of the system, so that its slash comes back escaped. -/

namespace RouteMigration.Target

open RouteMigration.Text

/-! ## Conventional names -/

def conventional (system environment : List Char) : List Char :=
  queueStart ++ (system ++ '-' :: environment)

theorem conventional_inj {system environment system' environment' : List Char}
    (h : '-' ∉ environment) (h' : '-' ∉ environment') :
    conventional system environment = conventional system' environment' ↔
      system = system' ∧ environment = environment' := by
  constructor
  · exact fun heq => cut_last_unique h h' (List.append_cancel_left heq)
  · rintro ⟨rfl, rfl⟩
    rfl

/-- Two of the special queues have the shape of a conventional name. -/
theorem conventional_not_special {system environment : List Char} (h : '-' ∉ environment)
    (harchive : ¬ (system = "archive".toList ∧ environment = "core".toList))
    (hhealth : ¬ (system = "emx".toList ∧ environment = "healthcheck".toList)) :
    ∀ s ∈ specials, s.queue ≠ conventional system environment := by
  rw [forall_specials]
  refine ⟨fun heq => ?_, fun heq => harchive ?_, fun heq => hhealth ?_⟩
  · have hstart : queueStart <+: "emx-trash".toList := ⟨_, heq.symm⟩
    exact absurd hstart (by decide)
  · have hsplit : conventional "archive".toList "core".toList = conventional system environment :=
      heq
    obtain ⟨hs, he⟩ := (conventional_inj (by decide) h).mp hsplit
    exact ⟨hs.symm, he.symm⟩
  · have hsplit : conventional "emx".toList "healthcheck".toList =
        conventional system environment := heq
    obtain ⟨hs, he⟩ := (conventional_inj (by decide) h).mp hsplit
    exact ⟨hs.symm, he.symm⟩

theorem keyOfQueue_special (env : List Char) :
    ∀ s ∈ specials, keyOfQueue env s.queue = .ok (s.key env) := by
  rw [forall_specials]
  exact ⟨rfl, rfl, rfl⟩

/-! ## Encoded keys -/

def encodedKey (system environment : List Char) : List Char :=
  Form.encode system ++ '#' :: Form.encode environment

theorem encodedKey_inj {system environment system' environment' : List Char} :
    encodedKey system environment = encodedKey system' environment' ↔
      system = system' ∧ environment = environment' := by
  constructor
  · intro h
    obtain ⟨hs, he⟩ :=
      cut_unique (Form.hash_not_mem_encode system) (Form.hash_not_mem_encode system') h
    exact ⟨Form.encode_injective hs, Form.encode_injective he⟩
  · rintro ⟨rfl, rfl⟩
    rfl

/-- What comes back for an encoded key. -/
def returned (env key : List Char) : List Char :=
  if key = "archive#core".toList then "emx-core-archive#".toList ++ env
  else if key = "emx#healthcheck".toList then "emx-core-healthcheck#".toList ++ env
  else key

theorem returned_encodedKey (env system environment : List Char) :
    returned env (encodedKey system environment) =
      if system = "archive".toList ∧ environment = "core".toList then
        "emx-core-archive#".toList ++ env
      else if system = "emx".toList ∧ environment = "healthcheck".toList then
        "emx-core-healthcheck#".toList ++ env
      else encodedKey system environment := by
  have harchive : "archive#core".toList = encodedKey "archive".toList "core".toList := rfl
  have hhealth : "emx#healthcheck".toList = encodedKey "emx".toList "healthcheck".toList := rfl
  simp only [returned, harchive, hhealth, encodedKey_inj]

theorem returned_special_system (env environment : List Char) :
    ∀ s ∈ specials, returned env (encodedKey s.system environment) =
      encodedKey s.system environment := by
  have hother : ∀ s ∈ specials, s.system ≠ "archive".toList ∧ s.system ≠ "emx".toList := by
    rw [forall_specials]
    decide
  intro s hs
  obtain ⟨harchive, hhealth⟩ := hother s hs
  rw [returned_encodedKey, if_neg fun h => harchive h.1, if_neg fun h => hhealth h.1]

/-- A system and an environment whose key leads to a queue name from which both can be read. -/
structure Nameable (system environment : List Char) : Prop where
  given : system ≠ [] ∧ environment ≠ []
  hash : '#' ∉ system ∧ '#' ∉ environment
  hyphen : '-' ∉ environment
  start : ¬ queueStart <+: system

instance (system environment : List Char) : Decidable (Nameable system environment) :=
  decidable_of_iff ((system ≠ [] ∧ environment ≠ []) ∧ ('#' ∉ system ∧ '#' ∉ environment) ∧
      '-' ∉ environment ∧ ¬ queueStart <+: system)
    ⟨fun ⟨hg, hh, hy, hs⟩ => ⟨hg, hh, hy, hs⟩, fun ⟨hg, hh, hy, hs⟩ => ⟨hg, hh, hy, hs⟩⟩

namespace Nameable

variable {system environment : List Char}

theorem segmented (h : Nameable system environment) :
    Segmented (conventional system environment) "emx".toList "to".toList system environment :=
  ⟨rfl, by decide, by decide, h.hyphen⟩

theorem hash_not_mem_conventional (h : Nameable system environment) :
    '#' ∉ conventional system environment := by
  simp [conventional, hash_not_mem_queueStart, h.hash]

theorem encodeQueue_conventional (h : Nameable system environment) :
    encodeQueue (conventional system environment) = .ok (encodedKey system environment) :=
  encodeQueue_eq_ok_iff.mpr ⟨_, _, _, _, h.segmented, h.given.1, h.given.2, rfl⟩

theorem keyOfQueue_conventional (env : List Char) (h : Nameable system environment) :
    keyOfQueue env (conventional system environment) =
      .ok (returned env (encodedKey system environment)) := by
  rw [returned_encodedKey]
  split_ifs with harchive hhealth
  · rw [harchive.1, harchive.2]
    rfl
  · rw [hhealth.1, hhealth.2]
    rfl
  · have hordinary : ∀ s ∈ specials, conventional system environment ≠ s.queue :=
      fun s hs hqueue => conventional_not_special h.hyphen harchive hhealth s hs hqueue.symm
    rw [keyOfQueue_of_ordinary env hordinary h.hash_not_mem_conventional]
    exact h.encodeQueue_conventional

/-- A key that is special in this environment leads to its queue, any other one to a
conventional name. -/
theorem queueOfKey_encodedKey (env : List Char) (h : Nameable system environment) :
    (∃ s ∈ specials, system = s.system ∧ s.key env = encodedKey system environment ∧
      queueOfKey env (encodedKey system environment) = .ok s.queue) ∨
    queueOfKey env (encodedKey system environment) = .ok (conventional system environment) := by
  by_cases hkey : ∃ s ∈ specials, system = s.system ∧ Form.encode environment = env
  · obtain ⟨s, hs, hsame⟩ := hkey
    have hencoded : s.key env = encodedKey system environment := (key_eq_encoded_iff hs).mpr hsame
    refine .inl ⟨s, hs, hsame.1, hencoded, ?_⟩
    rw [← hencoded, queueOfKey_key hs]
  · have hspecial : ∀ s ∈ specials, ¬ (system = s.system ∧ Form.encode environment = env) :=
      fun s hs hsame => hkey ⟨s, hs, hsame⟩
    exact .inr ((queueOfKey_encoded h.given.1 h.given.2 hspecial).trans (if_neg h.start))

theorem returns (env : List Char) (h : Nameable system environment) :
    ∃ queue, queueOfKey env (encodedKey system environment) = .ok queue ∧
      keyOfQueue env queue = .ok (returned env (encodedKey system environment)) := by
  rcases h.queueOfKey_encodedKey env with ⟨s, hs, rfl, hkey, hqueue⟩ | hqueue
  · refine ⟨s.queue, hqueue, ?_⟩
    rw [keyOfQueue_special env s hs, returned_special_system env environment s hs, hkey]
  · exact ⟨_, hqueue, h.keyOfQueue_conventional env⟩

end Nameable

/-- Decoding an encoded key and encoding its queue name, both in one environment. Neither step
fails, and the key comes back, unless it is one of two that come back as a special key. -/
theorem toEndpointKey_toQueueName (env : String) {system environment : List Char}
    (h : Nameable system environment) :
    ∃ queue, toQueueName env (String.ofList (encodedKey system environment)) = .ok queue ∧
      toEndpointKey env queue =
        .ok (String.ofList (returned env.toList (encodedKey system environment))) := by
  obtain ⟨queue, hqueue, hback⟩ := h.returns env.toList
  exact ⟨String.ofList queue, onText_ofList hqueue, onText_ofList hback⟩

theorem toEndpointKey_toQueueName_archive_core :
    Nameable "archive".toList "core".toList ∧
      ∃ queue, toQueueName "prod" "archive#core" = .ok queue ∧
        toEndpointKey "prod" queue = .ok "emx-core-archive#prod" :=
  have h : Nameable "archive".toList "core".toList := by decide
  ⟨h, toEndpointKey_toQueueName "prod" h⟩

/-! ## Qualified keys -/

namespace Qualified

/-- A target whose parts form-encoding leaves alone, and whose key is taken for no queue name. -/
structure IsPlain (q : Qualified) : Prop where
  given : q.system ≠ [] ∧ q.qualifier ≠ [] ∧ q.environment ≠ []
  system : Form.IsPlainText q.system
  qualifier : Form.IsPlainText q.qualifier
  environment : Form.IsPlainText q.environment
  hyphen : '-' ∉ q.environment
  start : ¬ queueStart <+: q.system

instance (q : Qualified) : Decidable q.IsPlain :=
  decidable_of_iff ((q.system ≠ [] ∧ q.qualifier ≠ [] ∧ q.environment ≠ []) ∧
      Form.IsPlainText q.system ∧ Form.IsPlainText q.qualifier ∧ Form.IsPlainText q.environment ∧
      '-' ∉ q.environment ∧ ¬ queueStart <+: q.system)
    ⟨fun ⟨hg, hs, hq, he, hy, ht⟩ => ⟨hg, hs, hq, he, hy, ht⟩,
      fun ⟨hg, hs, hq, he, hy, ht⟩ => ⟨hg, hs, hq, he, hy, ht⟩⟩

/-- What a queue name takes for the system: the qualifier stays glued to it. -/
def carrier (q : Qualified) : List Char := q.system ++ '/' :: q.qualifier

theorem canonical_eq_carrier (q : Qualified) : q.canonical = q.carrier ++ '#' :: q.environment := by
  simp [canonical, spell, carrier]

/-- The canonical spelling with its slash escaped. -/
def escaped (q : Qualified) : List Char :=
  q.system ++ ("%2F".toList ++ (q.qualifier ++ '#' :: q.environment))

theorem escaped_ne_canonical (q : Qualified) : q.escaped ≠ q.canonical := by
  intro h
  have hlength := congrArg List.length h
  simp [escaped, canonical, spell] at hlength
  omega

theorem slash_mem_carrier (q : Qualified) : '/' ∈ q.carrier :=
  List.mem_append_right q.system List.mem_cons_self

/-- The slash tells the carrier from the system of a special key. -/
theorem carrier_ne_special (q : Qualified) : ∀ s ∈ specials, q.carrier ≠ s.system := by
  have hslash : ∀ s ∈ specials, '/' ∉ s.system := by
    rw [forall_specials]
    decide
  intro s hs heq
  exact hslash s hs (heq ▸ q.slash_mem_carrier)

namespace IsPlain

variable {q : Qualified}

theorem not_mem_carrier (h : q.IsPlain) {c : Char} (hc : ¬ Form.IsPlainChar c) (hslash : c ≠ '/') :
    c ∉ q.carrier := by
  rw [carrier, List.mem_append, List.mem_cons]
  rintro (hmem | heq | hmem)
  · exact hc (h.system c hmem)
  · exact hslash heq
  · exact hc (h.qualifier c hmem)

theorem not_mem_environment (h : q.IsPlain) {c : Char} (hc : ¬ Form.IsPlainChar c) :
    c ∉ q.environment := fun hmem => hc (h.environment c hmem)

theorem nameable (h : q.IsPlain) : Nameable q.carrier q.environment where
  given := ⟨by simp [carrier], h.given.2.2⟩
  hash := ⟨h.not_mem_carrier (by decide) (by decide), h.not_mem_environment (by decide)⟩
  hyphen := h.hyphen
  start := by
    rw [carrier, prefix_append_cons_iff (by decide)]
    exact h.start

theorem encodedKey_carrier (h : q.IsPlain) : encodedKey q.carrier q.environment = q.escaped := by
  have hslash : Form.encode ('/' :: q.qualifier) = "%2F".toList ++ Form.encode q.qualifier :=
    Form.encode_append ['/'] q.qualifier
  rw [encodedKey, carrier, Form.encode_append, hslash, Form.encode_plain h.system,
    Form.encode_plain h.qualifier, Form.encode_plain h.environment, escaped]
  simp only [List.append_assoc]

theorem queueOfKey_canonical (env : List Char) (h : q.IsPlain) :
    queueOfKey env q.canonical = .ok (conventional q.carrier q.environment) := by
  have hn := h.nameable
  have hspecial : ∀ s ∈ specials, ¬ (q.carrier = s.system ∧ q.environment = env) :=
    fun s hs hsame => q.carrier_ne_special s hs hsame.1
  have hcarrier : Form.decode q.carrier = q.carrier :=
    Form.decode_literal (h.not_mem_carrier (by decide) (by decide))
      (h.not_mem_carrier (by decide) (by decide))
  have henvironment : Form.decode q.environment = q.environment :=
    Form.decode_literal (h.not_mem_environment (by decide)) (h.not_mem_environment (by decide))
  rw [canonical_eq_carrier, queueOfKey_append hn.given.1 hn.given.2 hn.hash.1 hn.hash.2 hspecial,
    if_neg hn.start, hcarrier, henvironment]
  rfl

theorem queueOfKey_escaped (env : List Char) (h : q.IsPlain) :
    queueOfKey env q.escaped = .ok (conventional q.carrier q.environment) := by
  rw [← h.encodedKey_carrier]
  rcases h.nameable.queueOfKey_encodedKey env with ⟨s, hs, hsystem, -, -⟩ | hqueue
  · exact absurd hsystem (q.carrier_ne_special s hs)
  · exact hqueue

theorem keyOfQueue_carrier (env : List Char) (h : q.IsPlain) :
    keyOfQueue env (conventional q.carrier q.environment) = .ok q.escaped := by
  have hordinary {system environment : List Char} (hslash : '/' ∉ system) :
      ¬ (q.carrier = system ∧ q.environment = environment) := fun heq =>
    hslash (heq.1 ▸ q.slash_mem_carrier)
  rw [h.nameable.keyOfQueue_conventional env, returned_encodedKey, if_neg (hordinary (by decide)),
    if_neg (hordinary (by decide)), h.encodedKey_carrier]

end IsPlain

end Qualified

/-- Decoding a canonical key with a qualifier and encoding its queue name, both in one
environment. The key comes back with its slash escaped, so never as it was; from then on it
comes back. -/
theorem toEndpointKey_toQueueName_canonical (env : String) {q : Qualified} (h : q.IsPlain) :
    ∃ queue, toQueueName env (String.ofList q.canonical) = .ok queue ∧
      toEndpointKey env queue = .ok (String.ofList q.escaped) ∧ q.escaped ≠ q.canonical ∧
      toQueueName env (String.ofList q.escaped) = .ok queue := by
  have hname := onText_ofList (h.queueOfKey_canonical env.toList)
  have hback := onText_ofList (h.keyOfQueue_carrier env.toList)
  have hagain := onText_ofList (h.queueOfKey_escaped env.toList)
  exact ⟨_, hname, hback, q.escaped_ne_canonical, hagain⟩

def crmAveng : Qualified := ⟨"crm-aveng".toList, "stage".toList, "cmiss".toList⟩

theorem isPlain_crmAveng : crmAveng.IsPlain := by decide

theorem toEndpointKey_toQueueName_crmAveng :
    crmAveng.IsPlain ∧ ∃ queue, toQueueName "dev" "crm-aveng/cmiss#stage" = .ok queue ∧
      toEndpointKey "dev" queue = .ok "crm-aveng%2Fcmiss#stage" ∧
      "crm-aveng%2Fcmiss#stage".toList ≠ "crm-aveng/cmiss#stage".toList ∧
      toQueueName "dev" "crm-aveng%2Fcmiss#stage" = .ok queue :=
  ⟨isPlain_crmAveng, toEndpointKey_toQueueName_canonical "dev" isPlain_crmAveng⟩

/-- Encoding does not undo decoding on this key. -/
theorem crmAveng_not_returned :
    crmAveng.canonical = "crm-aveng/cmiss#stage".toList ∧
      toQueueName "dev" "crm-aveng/cmiss#stage" = .ok "emx-to-crm-aveng/cmiss-stage" ∧
      toEndpointKey "dev" "emx-to-crm-aveng/cmiss-stage" ≠ .ok "crm-aveng/cmiss#stage" := by
  refine ⟨rfl, rfl, fun h => ?_⟩
  have hkey : toEndpointKey "dev" "emx-to-crm-aveng/cmiss-stage" =
      .ok "crm-aveng%2Fcmiss#stage" := rfl
  exact absurd (Except.ok.inj (hkey.symm.trans h)) (by decide)

end RouteMigration.Target
