import RouteMigration.Batch
import Mathlib.Data.List.Forall2

/-! What a batch makes of each route. Every route is kept as the operation rewrites it, dropped
for want of queues or set aside as failed, one after the other and on its own, whatever
routes stand before and after it. -/

namespace RouteMigration

namespace Operation

/-! ## What an operation carries over -/

/-- The second route is the first one with the part an operation rewrites in other words:
everything else is carried over, and there are as many queues as before. -/
structure Carries (op : Operation) (r r' : Route) : Prop where
  uuid : r'.uuid = r.uuid
  name : r'.name = r.name
  description : r'.description = r.description
  enabled : r'.enabled = r.enabled
  createdDate : r'.createdDate = r.createdDate
  modifiedDate : r'.modifiedDate = r.modifiedDate
  rule : op.part = .queues → r'.rule = r.rule
  queues : op.part = .rule → r'.queues = r.queues
  length : r'.queues.length = r.queues.length

theorem mapM_eq_ok_iff {α β ε : Type} {f : α → Except ε β} {xs : List α} {ys : List β} :
    xs.mapM f = .ok ys ↔ List.Forall₂ (fun x y => f x = .ok y) xs ys := by
  induction xs generalizing ys with
  | nil =>
    rw [List.mapM_nil, List.forall₂_nil_left_iff]
    exact ⟨fun h => (Except.ok.inj h).symm, fun h => h ▸ rfl⟩
  | cons x xs ih =>
    rw [List.mapM_cons, List.forall₂_cons_left_iff]
    constructor
    · intro h
      cases hx : f x with
      | error e =>
        rw [hx] at h
        cases h
      | ok y =>
        cases hxs : xs.mapM f with
        | error e =>
          rw [hx, hxs] at h
          cases h
        | ok rest =>
          rw [hx, hxs] at h
          exact ⟨y, rest, rfl, ih.mp hxs, (Except.ok.inj h).symm⟩
    · rintro ⟨y, rest, hx, hrest, rfl⟩
      rw [hx, ih.mpr hrest]
      rfl

/-- What holds of all items holds of all that they are related to, if it goes over from each
to its own. -/
theorem forall_iff_of_forall₂ {α β : Type} {R : α → β → Prop} {P : α → Prop} {Q : β → Prop}
    {xs : List α} {ys : List β} (h : List.Forall₂ R xs ys)
    (hover : ∀ x ∈ xs, ∀ y, R x y → (P x ↔ Q y)) : (∀ x ∈ xs, P x) ↔ ∀ y ∈ ys, Q y := by
  induction h with
  | nil => simp
  | @cons x y xs ys hxy _ ih =>
    obtain ⟨hhead, hrest⟩ := List.forall_mem_cons.mp hover
    rw [List.forall_mem_cons, List.forall_mem_cons, hhead y hxy, ih hrest]

theorem withQueuesBy_eq_ok_iff {f : String → Except Target.Malformed String} {r r' : Route} :
    withQueuesBy f r = .ok r' ↔ ∃ queues,
      List.Forall₂ (fun q q' => f q = .ok q') r.queues queues ∧ r' = r.withQueues queues := by
  unfold withQueuesBy
  constructor
  · intro h
    cases hqueues : r.queues.mapM f with
    | error e =>
      rw [hqueues] at h
      cases h
    | ok queues =>
      rw [hqueues] at h
      exact ⟨queues, mapM_eq_ok_iff.mp hqueues, (Except.ok.inj h).symm⟩
  · rintro ⟨queues, hqueues, rfl⟩
    rw [mapM_eq_ok_iff.mpr hqueues]

/-- What an operation on queues does to each of them. -/
def onQueue (op : Operation) (env : String) : String → Except Target.Malformed String :=
  match op with
  | encodeQueues => Target.toEndpointKey env
  | decodeQueues => Target.toQueueName env
  | normalizeQualifiers => fun q => .ok (Target.normalizeQualifier q)
  | _ => .ok

/-- What an operation on rules does to one. -/
def onRule (op : Operation) : String → String :=
  match op with
  | headersToStructured => Rule.toStructuredFields
  | headersToLegacy => Rule.toLegacyFields
  | expandEndpointPattern => Rule.expandEndpointPattern
  | collapseEndpointPattern => Rule.collapseEndpointPattern
  | _ => id

theorem apply_of_queues {op : Operation} (h : op.part = .queues) (env : String) (r : Route) :
    op.apply env r = withQueuesBy (op.onQueue env) r := by
  cases op <;> first | rfl | cases h

theorem apply_of_rule {op : Operation} (h : op.part = .rule) (env : String) (r : Route) :
    op.apply env r = .ok (r.withRule (op.onRule r.rule)) := by
  cases op <;> first | rfl | cases h

theorem apply_carries {op : Operation} {env : String} {r r' : Route}
    (h : op.apply env r = .ok r') : op.Carries r r' := by
  cases hpart : op.part with
  | rule =>
    rw [apply_of_rule hpart] at h
    cases h
    exact ⟨rfl, rfl, rfl, rfl, rfl, rfl, fun hq => absurd (hpart.symm.trans hq) (by decide),
      fun _ => rfl, rfl⟩
  | queues =>
    rw [apply_of_queues hpart] at h
    obtain ⟨queues, hqueues, rfl⟩ := withQueuesBy_eq_ok_iff.mp h
    exact ⟨rfl, rfl, rfl, rfl, rfl, rfl, fun _ => rfl,
      fun hr => absurd (hpart.symm.trans hr) (by decide), hqueues.length_eq.symm⟩

/-- A route without queues is none that an operation refuses. -/
theorem apply_of_no_queues {r : Route} (h : r.queues = []) (op : Operation) (env : String) :
    ∃ r', op.apply env r = .ok r' := by
  cases hpart : op.part with
  | rule => exact ⟨_, apply_of_rule hpart env r⟩
  | queues =>
    refine ⟨r.withQueues [], ?_⟩
    rw [apply_of_queues hpart, withQueuesBy_eq_ok_iff, h]
    exact ⟨[], .nil, rfl⟩

end Operation

namespace Batch

/-! ## One route -/

theorem judge_failed {op : Operation} {env : String} {r : Route} {e : Target.Malformed}
    (h : op.apply env r = .error e) : judge op env r = .failed ⟨r.uuid, r.name, e⟩ := by
  rw [judge, h]

theorem judge_dropped {op : Operation} {r : Route} (hpart : op.part = .queues)
    (h : r.queues = []) (env : String) : judge op env r = .dropped r.uuid := by
  obtain ⟨r', hr'⟩ := Operation.apply_of_no_queues h op env
  have hempty : r'.queues = [] := by
    rw [← List.length_eq_zero_iff, (Operation.apply_carries hr').length, h]
    rfl
  rw [judge, hr']
  exact if_pos ⟨hpart, hempty⟩

theorem judge_kept {op : Operation} {env : String} {r r' : Route} (h : op.apply env r = .ok r')
    (hqueues : op.part = .queues → r.queues ≠ []) : judge op env r = .kept r' := by
  rw [judge, h]
  refine if_neg fun ⟨hpart, hempty⟩ => hqueues hpart ?_
  rw [← List.length_eq_zero_iff, ← (Operation.apply_carries h).length, hempty]
  rfl

/-! ## All routes -/

/-- What is left of a list of routes, route after route: each of them is in one of the three
lists, behind what was made of those before it. -/
inductive Accounts (op : Operation) (env : String) : List Route → Outcome → Prop
  | done : Accounts op env [] ⟨[], [], []⟩
  | failed {r : Route} {rest : List Route} {out : Outcome} {e : Target.Malformed} :
      op.apply env r = .error e → Accounts op env rest out →
      Accounts op env (r :: rest) { out with failed := ⟨r.uuid, r.name, e⟩ :: out.failed }
  | dropped {r : Route} {rest : List Route} {out : Outcome} :
      op.part = .queues → r.queues = [] → Accounts op env rest out →
      Accounts op env (r :: rest) { out with dropped := r.uuid :: out.dropped }
  | kept {r r' : Route} {rest : List Route} {out : Outcome} :
      op.apply env r = .ok r' → (op.part = .queues → r.queues ≠ []) → op.Carries r r' →
      Accounts op env rest out →
      Accounts op env (r :: rest) { out with routes := r' :: out.routes }

theorem apply_cons (op : Operation) (env : String) (r : Route) (rest : List Route) :
    apply op env (r :: rest) = match judge op env r with
      | .kept r' => { apply op env rest with routes := r' :: (apply op env rest).routes }
      | .dropped uuid => { apply op env rest with dropped := uuid :: (apply op env rest).dropped }
      | .failed f => { apply op env rest with failed := f :: (apply op env rest).failed } := by
  unfold apply verdicts
  rw [List.map_cons]
  cases judge op env r <;> rfl

theorem accounts_apply (op : Operation) (env : String) (routes : List Route) :
    Accounts op env routes (apply op env routes) := by
  induction routes with
  | nil => exact .done
  | cons r rest ih =>
    rw [apply_cons]
    cases h : op.apply env r with
    | error e =>
      rw [judge_failed h]
      exact .failed h ih
    | ok r' =>
      by_cases hnone : op.part = .queues ∧ r.queues = []
      · rw [judge_dropped hnone.1 hnone.2]
        exact .dropped hnone.1 hnone.2 ih
      · have hqueues : op.part = .queues → r.queues ≠ [] := fun hpart hempty =>
          hnone ⟨hpart, hempty⟩
        rw [judge_kept h hqueues]
        exact .kept h hqueues (Operation.apply_carries h) ih

theorem Accounts.eq_apply {op : Operation} {env : String} {routes : List Route} {out : Outcome}
    (h : Accounts op env routes out) : out = apply op env routes := by
  induction h with
  | done => rfl
  | failed he _ ih => rw [apply_cons, judge_failed he, ih]
  | dropped hpart hempty _ ih => rw [apply_cons, judge_dropped hpart hempty, ih]
  | kept hr hqueues _ _ ih => rw [apply_cons, judge_kept hr hqueues, ih]

/-- Every route is counted once. -/
theorem Accounts.length {op : Operation} {env : String} {routes : List Route} {out : Outcome}
    (h : Accounts op env routes out) :
    routes.length = out.routes.length + out.dropped.length + out.failed.length := by
  induction h with
  | done => rfl
  | failed _ _ ih =>
    simp only [List.length_cons]
    omega
  | dropped _ _ _ ih =>
    simp only [List.length_cons]
    omega
  | kept _ _ _ _ ih =>
    simp only [List.length_cons]
    omega

/-- An operation on rules keeps every route. -/
theorem apply_of_rule {op : Operation} (h : op.part = .rule) (env : String)
    (routes : List Route) :
    apply op env routes = ⟨routes.map fun r => r.withRule (op.onRule r.rule), [], []⟩ := by
  induction routes with
  | nil => rfl
  | cons r rest ih =>
    have hqueues : op.part = .queues → r.queues ≠ [] := fun hq =>
      absurd (h.symm.trans hq) (by decide)
    rw [apply_cons, judge_kept (Operation.apply_of_rule h env r) hqueues, ih]
    rfl

/-- A batch is made route by route: of two lists put together comes what comes of each, and
of one list exactly what `Accounts` says. An operation on rules loses no route. -/
theorem apply_accounts (op : Operation) (env : String) :
    (∀ xs ys : List Route,
      (apply op env (xs ++ ys)).routes = (apply op env xs).routes ++ (apply op env ys).routes ∧
      (apply op env (xs ++ ys)).dropped = (apply op env xs).dropped ++ (apply op env ys).dropped ∧
      (apply op env (xs ++ ys)).failed = (apply op env xs).failed ++ (apply op env ys).failed) ∧
    (∀ (routes : List Route) (out : Outcome),
      Accounts op env routes out ↔ out = apply op env routes) ∧
    (op.part = .rule → ∀ routes : List Route,
      (apply op env routes).dropped = [] ∧ (apply op env routes).failed = []) := by
  refine ⟨fun xs ys => ?_, fun routes out => ?_, fun hpart routes => ?_⟩
  · simp only [apply, verdicts, Outcome.ofVerdicts, List.map_append, List.filterMap_append,
      true_and]
  · constructor
    · exact Accounts.eq_apply
    · rintro rfl
      exact accounts_apply op env routes
  · rw [apply_of_rule hpart]
    exact ⟨rfl, rfl⟩

/-- Three routes of one uuid, of which one has no queues and one a queue of no known form. -/
def namesakes : List Route :=
  [{ uuid := "1", name := "a", rule := "emxSourceSystem", queues := ["emx-to-c-d"] },
   { uuid := "1", name := "b", rule := "", queues := [] },
   { uuid := "1", name := "c", rule := "", queues := ["emx-to-c-d", "emx-d"] }]

theorem apply_accounts_namesakes :
    Accounts .encodeQueues "dev" namesakes
      ⟨[{ uuid := "1", name := "a", rule := "emxSourceSystem", queues := ["c#d"] }], ["1"],
        [⟨"1", "c", ⟨"emx-d", .tooFewSegments 2⟩⟩]⟩ ∧
    Operation.headersToStructured.part = .rule ∧
      (apply .headersToStructured "dev" namesakes).dropped = [] ∧
      (apply .headersToStructured "dev" namesakes).failed = [] :=
  ⟨((apply_accounts .encodeQueues "dev").2.1 namesakes _).mpr (by decide +kernel), rfl,
    (apply_accounts .headersToStructured "dev").2.2 rfl namesakes⟩

end Batch

end RouteMigration
