import RouteMigration.Proofs.Batch.Accounting
import RouteMigration.Proofs.Target.Refusal

/-! Which routes an operation refuses. Only the two conversions between queue names and endpoint
keys ever refuse one, and they do for each route with a queue that cannot be converted; the error
names the first of these queues. -/

namespace RouteMigration.Operation

/-! ## Lists -/

/-- The error of a list is that of its first item with one. -/
theorem of_mapM_error {α β ε : Type} {f : α → Except ε β} {xs : List α} {e : ε}
    (h : xs.mapM f = .error e) : ∃ before x after, xs = before ++ x :: after ∧
      f x = .error e ∧ ∀ y ∈ before, ∃ z, f y = .ok z := by
  induction xs with
  | nil => cases h
  | cons x xs ih =>
    rw [List.mapM_cons] at h
    cases hx : f x with
    | error found =>
      -- nothing behind the first error is looked at
      rw [hx] at h
      cases h
      exact ⟨[], x, xs, rfl, hx, by simp⟩
    | ok z =>
      cases hxs : xs.mapM f with
      | ok zs =>
        rw [hx, hxs] at h
        cases h
      | error found =>
        rw [hx, hxs] at h
        cases h
        obtain ⟨before, y, after, rfl, hy, hbefore⟩ := ih hxs
        exact ⟨x :: before, y, after, rfl, hy, List.forall_mem_cons.mpr ⟨⟨z, hx⟩, hbefore⟩⟩

theorem of_withQueuesBy_error {f : String → Except Target.Malformed String} {r : Route}
    {e : Target.Malformed} (h : withQueuesBy f r = .error e) :
    ∃ before q after, r.queues = before ++ q :: after ∧ f q = .error e ∧
      ∀ p ∈ before, ∃ p', f p = .ok p' := by
  unfold withQueuesBy at h
  cases hqueues : r.queues.mapM f with
  | ok queues =>
    rw [hqueues] at h
    cases h
  | error found =>
    rw [hqueues] at h
    cases h
    exact of_mapM_error hqueues

/-! ## One queue -/

/-- A queue that an operation cannot convert. -/
def Refuses (op : Operation) (env q : String) : Prop :=
  op = encodeQueues ∧ Target.Unencodable q.toList ∨
    op = decodeQueues ∧ Target.Undecodable env.toList q.toList

theorem onQueue_refuses_iff {op : Operation} {env q : String} :
    (∃ e, op.onQueue env q = .error e) ↔ op.Refuses env q := by
  cases op with
  | encodeQueues =>
    simp only [onQueue, Target.toEndpointKey, Target.onText_refuses_iff,
      Target.keyOfQueue_eq_error_iff, Refuses, true_and, reduceCtorEq, false_and, or_false]
  | decodeQueues =>
    simp only [onQueue, Target.toQueueName, Target.onText_refuses_iff,
      Target.queueOfKey_eq_error_iff, Refuses, true_and, reduceCtorEq, false_and, false_or]
  | normalizeQualifiers | headersToStructured | headersToLegacy | expandEndpointPattern
  | collapseEndpointPattern => simp [onQueue, Refuses]

theorem not_refuses_of_ok {op : Operation} {env q q' : String} (h : op.onQueue env q = .ok q') :
    ¬ op.Refuses env q := by
  rw [← onQueue_refuses_iff, Target.exists_error_iff, not_not]
  exact ⟨q', h⟩

theorem target_of_onQueue_error {op : Operation} {env q : String} {e : Target.Malformed}
    (h : op.onQueue env q = .error e) : e.target = q := by
  cases op with
  | encodeQueues | decodeQueues => exact (Target.onText_eq_error_iff.mp h).1
  | normalizeQualifiers | headersToStructured | headersToLegacy | expandEndpointPattern
  | collapseEndpointPattern => cases h

theorem Refuses.part {op : Operation} {env q : String} (h : op.Refuses env q) :
    op.part = .queues := by
  rcases h with ⟨rfl, -⟩ | ⟨rfl, -⟩ <;> rfl

/-! ## One route -/

theorem of_apply_error {op : Operation} {env : String} {r : Route} {e : Target.Malformed}
    (h : op.apply env r = .error e) : ∃ before after, r.queues = before ++ e.target :: after ∧
      op.Refuses env e.target ∧ ∀ q ∈ before, ¬ op.Refuses env q := by
  cases hpart : op.part with
  | rule =>
    rw [apply_of_rule hpart] at h
    cases h
  | queues =>
    rw [apply_of_queues hpart] at h
    obtain ⟨before, q, after, hqueues, hq, hbefore⟩ := of_withQueuesBy_error h
    have htarget := target_of_onQueue_error hq
    subst htarget
    refine ⟨before, after, hqueues, onQueue_refuses_iff.mp ⟨e, hq⟩, fun p hp => ?_⟩
    obtain ⟨p', hp'⟩ := hbefore p hp
    exact not_refuses_of_ok hp'

theorem not_refuses_of_apply_ok {op : Operation} {env : String} {r r' : Route}
    (h : op.apply env r = .ok r') : ∀ q ∈ r.queues, ¬ op.Refuses env q := by
  intro q hq hrefuses
  rw [apply_of_queues hrefuses.part] at h
  obtain ⟨queues, hqueues, -⟩ := withQueuesBy_eq_ok_iff.mp h
  -- every queue of the route has a converted one for its partner
  have hnone : ∀ q ∈ r.queues, ¬ op.Refuses env q :=
    (forall_iff_of_forall₂ hqueues fun q _ q' hq' =>
      iff_of_true (not_refuses_of_ok hq') trivial).mpr fun _ _ => trivial
  exact hnone q hq hrefuses

/-- An operation fails on a route if and only if it cannot convert one of its queues, which takes
an operation that encodes or decodes them. The error names the first such queue as it was. -/
theorem apply_refuses (op : Operation) (env : String) (r : Route) :
    ((∃ e, op.apply env r = .error e) ↔ ∃ q ∈ r.queues, op.Refuses env q) ∧
    ∀ e, op.apply env r = .error e → ∃ before after, r.queues = before ++ e.target :: after ∧
      op.Refuses env e.target ∧ ∀ q ∈ before, ¬ op.Refuses env q := by
  refine ⟨⟨?_, ?_⟩, fun e => of_apply_error⟩
  · intro h
    obtain ⟨e, he⟩ := h
    obtain ⟨before, after, hqueues, hrefuses, -⟩ := of_apply_error he
    exact ⟨e.target, by simp [hqueues], hrefuses⟩
  · intro h
    obtain ⟨q, hq, hrefuses⟩ := h
    rw [Target.exists_error_iff]
    intro hok
    obtain ⟨r', hr'⟩ := hok
    exact not_refuses_of_apply_ok hr' q hq hrefuses

/-- A key without an environment, which only decoding refuses, before names without a system. -/
def halfNamed : Route :=
  { uuid := "1", name := "a", rule := "",
    queues := ["emx-trash", "emx-to--a-b", "scms#", "emx-to-stage", "scms"] }

theorem apply_refuses_halfNamed :
    (encodeQueues.apply "dev" halfNamed = .error ⟨"emx-to-stage", .tooFewSegments 3⟩ ∧
      ∃ before after, halfNamed.queues = before ++ "emx-to-stage" :: after ∧
        encodeQueues.Refuses "dev" "emx-to-stage" ∧
        ∀ q ∈ before, ¬ encodeQueues.Refuses "dev" q) ∧
    decodeQueues.apply "dev" halfNamed = .error ⟨"scms#", .emptyPart⟩ ∧
      ∃ before after, halfNamed.queues = before ++ "scms#" :: after ∧
        decodeQueues.Refuses "dev" "scms#" ∧ ∀ q ∈ before, ¬ decodeQueues.Refuses "dev" q := by
  have hencode : encodeQueues.apply "dev" halfNamed =
      .error ⟨"emx-to-stage", .tooFewSegments 3⟩ := by decide +kernel
  have hdecode : decodeQueues.apply "dev" halfNamed = .error ⟨"scms#", .emptyPart⟩ := by
    decide +kernel
  exact ⟨⟨hencode, (apply_refuses encodeQueues "dev" halfNamed).2 _ hencode⟩, hdecode,
    (apply_refuses decodeQueues "dev" halfNamed).2 _ hdecode⟩

end RouteMigration.Operation
