import RouteMigration.Operation

/-! One operation over many routes. A route whose queue list comes out empty is dropped,
a route the operation refuses is set aside as failed, and every other one is kept, all in
the order they came in. -/

namespace RouteMigration

structure RouteFailure where
  uuid : String
  name : String
  error : Target.Malformed
  deriving DecidableEq, Repr

/-- What becomes of one route. -/
inductive Verdict where
  | kept (route : Route)
  | dropped (uuid : String)
  | failed (failure : RouteFailure)
  deriving DecidableEq, Repr

namespace Verdict

def route? : Verdict → Option Route
  | kept r => some r
  | _ => none

def dropped? : Verdict → Option String
  | dropped uuid => some uuid
  | _ => none

def failed? : Verdict → Option RouteFailure
  | failed f => some f
  | _ => none

end Verdict

namespace Batch

structure Outcome where
  routes : List Route := []
  dropped : List String := []
  failed : List RouteFailure := []
  deriving DecidableEq, Repr

/-- What an operation makes of a route. Only an operation on queues drops one. -/
def judge (op : Operation) (env : String) (r : Route) : Verdict :=
  match op.apply env r with
  | .ok r' => if op.part = .queues ∧ r'.queues = [] then .dropped r.uuid else .kept r'
  | .error e => .failed ⟨r.uuid, r.name, e⟩

def verdicts (op : Operation) (env : String) (routes : List Route) : List Verdict :=
  routes.map (judge op env)

def Outcome.ofVerdicts (vs : List Verdict) : Outcome :=
  ⟨vs.filterMap Verdict.route?, vs.filterMap Verdict.dropped?, vs.filterMap Verdict.failed?⟩

def apply (op : Operation) (env : String) (routes : List Route) : Outcome :=
  .ofVerdicts (verdicts op env routes)

/-- The routes as they are: what a restore submits. -/
def Outcome.untouched (routes : List Route) : Outcome := { routes }

end Batch

end RouteMigration
