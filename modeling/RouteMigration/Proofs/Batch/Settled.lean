import RouteMigration.Proofs.Batch.Accounting
import RouteMigration.Proofs.Target.Inversion

/-! A batch of queue rewriting is settled after one run. Whatever an operation makes of a queue
it makes of that again, so the routes that one run retains go through a second one as they are,
and none of them is lost on the way. -/

namespace RouteMigration

namespace Target

theorem toEndpointKey_twice {env queue key : String} (h : toEndpointKey env queue = .ok key) :
    toEndpointKey env key = .ok key :=
  onText_eq_ok_iff.mpr (keyOfQueue_twice (onText_eq_ok_iff.mp h))

theorem toQueueName_twice {env key queue : String} (h : toQueueName env key = .ok queue) :
    toQueueName env queue = .ok queue :=
  onText_eq_ok_iff.mpr (queueOfKey_twice (onText_eq_ok_iff.mp h))

theorem normalizeQualifier_twice (target : String) :
    normalizeQualifier (normalizeQualifier target) = normalizeQualifier target := by
  simp only [normalizeQualifier, String.toList_ofList, Qualified.normalize_twice]

end Target

namespace Operation

theorem onQueue_twice {op : Operation} (hpart : op.part = .queues) {env queue result : String}
    (h : op.onQueue env queue = .ok result) : op.onQueue env result = .ok result := by
  cases op with
  | encodeQueues => exact Target.toEndpointKey_twice h
  | decodeQueues => exact Target.toQueueName_twice h
  | normalizeQualifiers =>
    obtain rfl := Except.ok.inj h
    exact congrArg Except.ok (Target.normalizeQualifier_twice queue)
  | headersToStructured | headersToLegacy | expandEndpointPattern | collapseEndpointPattern =>
    cases hpart

theorem apply_twice {op : Operation} (hpart : op.part = .queues) {env : String} {r r' : Route}
    (h : op.apply env r = .ok r') : op.apply env r' = .ok r' := by
  rw [apply_of_queues hpart] at h ⊢
  obtain ⟨queues, hqueues, rfl⟩ := withQueuesBy_eq_ok_iff.mp h
  have hsettled : ∀ q ∈ queues, op.onQueue env q = .ok q :=
    (forall_iff_of_forall₂ hqueues fun _ _ _ hq =>
      iff_of_true trivial (onQueue_twice hpart hq)).mp fun _ _ => trivial
  exact withQueuesBy_eq_ok_iff.mpr ⟨queues, List.forall₂_same.mpr hsettled, rfl⟩

end Operation

namespace Batch

/-- What a batch retains it has made of some route, and no route without queues is retained. -/
theorem of_mem_routes {op : Operation} {env : String} {routes : List Route} {r' : Route}
    (h : r' ∈ (apply op env routes).routes) :
    (∃ r ∈ routes, op.apply env r = .ok r') ∧ (op.part = .queues → r'.queues ≠ []) := by
  have haccounts := accounts_apply op env routes
  generalize apply op env routes = out at h haccounts
  induction haccounts with
  | done => simp at h
  | failed _ _ ih | dropped _ _ _ ih =>
    obtain ⟨⟨r, hr, happly⟩, hqueues⟩ := ih h
    exact ⟨⟨r, List.mem_cons_of_mem _ hr, happly⟩, hqueues⟩
  | @kept r r'' rest out happly hqueues hcarries _ ih =>
    rcases List.mem_cons.mp h with rfl | h
    · refine ⟨⟨r, List.mem_cons_self, happly⟩, fun hpart hempty => hqueues hpart ?_⟩
      rw [← List.length_eq_zero_iff, ← hcarries.length, hempty, List.length_nil]
    · obtain ⟨⟨r, hr, happly⟩, hqueues⟩ := ih h
      exact ⟨⟨r, List.mem_cons_of_mem _ hr, happly⟩, hqueues⟩

theorem apply_of_fixed {op : Operation} {env : String} {routes : List Route}
    (h : ∀ r ∈ routes, op.apply env r = .ok r ∧ (op.part = .queues → r.queues ≠ [])) :
    apply op env routes = ⟨routes, [], []⟩ := by
  induction routes with
  | nil => rfl
  | cons r rest ih =>
    obtain ⟨⟨happly, hqueues⟩, hrest⟩ := List.forall_mem_cons.mp h
    rw [apply_cons, judge_kept happly hqueues, ih hrest]

/-- Run again over the routes it retained, an operation on queues retains just these, each of
them unchanged; it drops none and fails on none. -/
theorem apply_retained {op : Operation} (hpart : op.part = .queues) (env : String)
    (routes : List Route) :
    apply op env (apply op env routes).routes = ⟨(apply op env routes).routes, [], []⟩ := by
  refine apply_of_fixed fun r' hr' => ?_
  obtain ⟨⟨r, -, happly⟩, hqueues⟩ := of_mem_routes hr'
  exact ⟨Operation.apply_twice hpart happly, hqueues⟩

/-- A special key, a key that decodes to a name with a number sign in it, and a name already. -/
def keysAndName : Route :=
  { uuid := "1", name := "a", rule := "", queues := ["emx-core-trash#dev", "a%23b#c", "emx-trash"] }

theorem apply_retained_keysAndName :
    Operation.decodeQueues.part = .queues ∧
      apply .decodeQueues "dev" (apply .decodeQueues "dev" [keysAndName]).routes =
        ⟨[keysAndName.withQueues ["emx-trash", "emx-to-a#b-c", "emx-trash"]], [], []⟩ := by
  refine ⟨rfl, ?_⟩
  rw [apply_retained rfl]
  decide +kernel

end Batch

end RouteMigration
