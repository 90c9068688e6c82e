import RouteMigration.Proofs.Batch.Accounting
import RouteMigration.Proofs.Form.Separator
import RouteMigration.Proofs.Target.Inversion

/-! Queues as an update sends them, joined by commas. The receiver gets the same queues back as
long as none of them holds a comma. Encoding and normalising write none; decoding writes one
where a key that it takes apart holds an escaped comma. -/

namespace RouteMigration

open RouteMigration.Text

namespace Target

/-! ## Commas in converted targets -/

theorem comma_not_mem_special : ∀ s ∈ specials, ',' ∉ s.queue ∧ ',' ∉ s.system := by
  rw [forall_specials]
  decide

theorem comma_not_mem_keyOfQueue {env queue key : List Char} (henv : ',' ∉ env)
    (hqueue : ',' ∉ queue) (h : keyOfQueue env queue = .ok key) : ',' ∉ key := by
  rcases of_keyOfQueue h with ⟨s, hs, rfl⟩ | ⟨-, rfl⟩ | ⟨system, environment, rfl⟩
  · simp [Special.key, (comma_not_mem_special s hs).2, henv]
  · exact hqueue
  · simp [encodedKey, Form.comma_not_mem_encode]

theorem comma_mem_conventional_iff (system environment : List Char) :
    ',' ∈ conventional system environment ↔ ',' ∈ system ∨ ',' ∈ environment := by
  have hstart : ',' ∉ queueStart := by decide
  simp [conventional, hstart]

theorem escapesComma_key_iff (system environment : List Char) :
    Form.EscapesComma (system ++ '#' :: environment) ↔
      Form.EscapesComma system ∨ Form.EscapesComma environment := by
  unfold Form.EscapesComma
  rw [infix_append_cons_iff (by decide), infix_append_cons_iff (by decide)]
  exact or_or_or_comm

/-- Decoding puts a comma into a name just where it takes a key with an escaped one apart. -/
theorem comma_mem_queueOfKey_iff {env key queue : List Char} (hkey : ',' ∉ key)
    (h : queueOfKey env key = .ok queue) :
    ',' ∈ queue ↔ IsDecoded env key ∧ Form.EscapesComma key := by
  rcases of_queueOfKey h with ⟨s, hs, rfl, rfl⟩ | ⟨hname, rfl⟩ | ⟨hdecoded, hdecode⟩
  · have hnot : ¬ IsDecoded env (s.key env) := fun hd => hd.special s hs rfl
    simp [hnot, (comma_not_mem_special s hs).1]
  · have hnot : ¬ IsDecoded env queue := fun hd => hd.name hname
    simp [hnot, hkey]
  · obtain ⟨system, environment, rfl, rfl⟩ := of_decodeKey hdecode
    simp only [List.mem_append, List.mem_cons, not_or] at hkey
    rw [comma_mem_conventional_iff, Form.comma_mem_decode_iff, Form.comma_mem_decode_iff,
      Form.HoldsComma, Form.HoldsComma, or_iff_right hkey.1, or_iff_right hkey.2.2,
      escapesComma_key_iff, and_iff_right hdecoded]

theorem comma_not_mem_normalize {target : List Char} (h : ',' ∉ target) :
    ',' ∉ Qualified.normalize target := by
  cases hread : Qualified.ofEnvironmentFirst? target with
  | none => rwa [Qualified.normalize_eq_self_iff.mpr hread]
  | some q =>
    rw [Qualified.normalize_of_some hread]
    obtain ⟨-, rfl | ⟨rfl, -⟩⟩ := Qualified.ofEnvironmentFirst?_eq_some_iff_spelled.mp hread
    · simp_all [Qualified.canonical, Qualified.spell]
    · simp_all [Qualified.canonical, Qualified.spell, Qualified.hyphenated]

end Target

namespace Route

/-! ## Joining and splitting -/

def queuesText (r : Route) : String := ",".intercalate r.queues

theorem lookup_queues (r : Route) : r.formParams.lookup "queues" = some r.queuesText := rfl

/-- Splitting the joined queues gives them back exactly if none of them holds a comma. -/
theorem splitOn_queuesText_iff {r : Route} (h : r.queues ≠ []) :
    r.queuesText.toList.splitOn ',' = r.queues.map String.toList ↔
      ∀ q ∈ r.queues, ',' ∉ q.toList := by
  have htext : r.queuesText.toList = [','].intercalate (r.queues.map String.toList) :=
    String.toList_intercalate
  rw [htext]
  constructor
  · intro hsplit q hq
    exact not_mem_of_mem_splitOn (hsplit ▸ List.mem_map_of_mem hq)
  · intro hqueues
    exact List.splitOn_intercalate ',' (by simpa using hqueues) (by simpa using h)

end Route

namespace Operation

/-- Of a queue without comma an operation makes one without, unless it decodes an escaped one. -/
theorem onQueue_comma_iff {op : Operation} (hpart : op.part = .queues) {env q q' : String}
    (henv : ',' ∉ env.toList) (hq : ',' ∉ q.toList) (h : op.onQueue env q = .ok q') :
    (op = .decodeQueues → Target.IsDecoded env.toList q.toList → ¬ Form.EscapesComma q.toList) ↔
      ',' ∉ q'.toList := by
  cases op with
  | encodeQueues =>
    have hkey := Target.comma_not_mem_keyOfQueue henv hq (Target.onText_eq_ok_iff.mp h)
    simp [hkey]
  | decodeQueues =>
    have hname := Target.comma_mem_queueOfKey_iff hq (Target.onText_eq_ok_iff.mp h)
    rw [hname, not_and]
    exact ⟨fun hnone => hnone rfl, fun hnone _ => hnone⟩
  | normalizeQualifiers =>
    obtain rfl := Except.ok.inj h
    have htarget : ',' ∉ (Target.normalizeQualifier q).toList := by
      rw [Target.normalizeQualifier, String.toList_ofList]
      exact Target.comma_not_mem_normalize hq
    simp [htarget]
  | headersToStructured | headersToLegacy | expandEndpointPattern | collapseEndpointPattern =>
    cases hpart

/-- What an update sends for the queues of a rewritten route. Splitting it at the commas gives
back just these queues if and only if the operation takes no key with an escaped comma apart:
encoding and normalising never do, and decoding does not for the special keys of its environment
and for what is a queue name already. -/
theorem splitOn_queues {op : Operation} (hpart : op.part = .queues) {env : String}
    (henv : ',' ∉ env.toList) {r r' : Route} (hqueues : ∀ q ∈ r.queues, ',' ∉ q.toList)
    (happly : op.apply env r = .ok r') (hne : r'.queues ≠ []) :
    ∃ text, r'.formParams.lookup "queues" = some text ∧
      (text.toList.splitOn ',' = r'.queues.map String.toList ↔
        ∀ q ∈ r.queues, op = .decodeQueues → Target.IsDecoded env.toList q.toList →
          ¬ Form.EscapesComma q.toList) := by
  refine ⟨r'.queuesText, r'.lookup_queues, ?_⟩
  rw [apply_of_queues hpart] at happly
  obtain ⟨queues, hrewritten, rfl⟩ := withQueuesBy_eq_ok_iff.mp happly
  rw [Route.splitOn_queuesText_iff hne]
  exact (forall_iff_of_forall₂ hrewritten fun q hq q' hq' =>
    onQueue_comma_iff hpart henv (hqueues q hq) hq').symm

/-- Escaped commas in an environment and in names, and a key with another escape. -/
def escapedRoute : Route :=
  { uuid := "1", name := "a", rule := "",
    queues := ["emx-to-%2C-x", "emx-core-trash#%2C", "a%3Ab#c"] }

theorem splitOn_queues_escapedRoute :
    ',' ∉ "%2C".toList ∧ (∀ q ∈ escapedRoute.queues, ',' ∉ q.toList) ∧
      decodeQueues.apply "%2C" escapedRoute =
        .ok (escapedRoute.withQueues ["emx-to-%2C-x", "emx-trash", "emx-to-a:b-c"]) ∧
      ∃ text, (escapedRoute.withQueues ["emx-to-%2C-x", "emx-trash", "emx-to-a:b-c"]).formParams.lookup
          "queues" = some text ∧
        text.toList.splitOn ',' = ["emx-to-%2C-x", "emx-trash", "emx-to-a:b-c"].map String.toList := by
  have henv : ',' ∉ "%2C".toList := by decide
  have hqueues : ∀ q ∈ escapedRoute.queues, ',' ∉ q.toList := by decide
  have happly : decodeQueues.apply "%2C" escapedRoute =
      .ok (escapedRoute.withQueues ["emx-to-%2C-x", "emx-trash", "emx-to-a:b-c"]) := by
    decide +kernel
  obtain ⟨text, htext, hsplit⟩ := splitOn_queues rfl henv hqueues happly (by decide)
  exact ⟨henv, hqueues, happly, text, htext, hsplit.mpr (by decide +kernel)⟩

/-- One key with an escaped comma in it. -/
def commaRoute : Route := { uuid := "1", name := "a", rule := "", queues := ["a%2Cb#c"] }

/-- Decoded, the one queue of this route is sent as two. -/
theorem commaRoute_queues_torn :
    ',' ∉ "dev".toList ∧ (∀ q ∈ commaRoute.queues, ',' ∉ q.toList) ∧
      decodeQueues.apply "dev" commaRoute = .ok (commaRoute.withQueues ["emx-to-a,b-c"]) ∧
      (commaRoute.withQueues ["emx-to-a,b-c"]).formParams.lookup "queues" =
        some "emx-to-a,b-c" ∧
      "emx-to-a,b-c".toList.splitOn ',' = ["emx-to-a".toList, "b-c".toList] ∧
      "emx-to-a,b-c".toList.splitOn ',' ≠ ["emx-to-a,b-c"].map String.toList := by
  decide +kernel

end Operation

end RouteMigration
