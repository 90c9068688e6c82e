import RouteMigration.Backend
import RouteMigration.Settings

/-! Submitting routes, several at a time where the sink is remote. They are begun in their
order; how their steps interleave from there on is not up to the run, so each step takes a
turn. -/

namespace RouteMigration

/-- A submission under way. -/
inductive Flight where
  | begun (r : Route)
  /-- The sink has it, and has answered if it is one that does. -/
  | taken (r : Route) (answer? : Option Client.Answer)

namespace Submission

/-- How many submissions may be under way at once. A sink that is not remote gets one at a
time. -/
def limit (sink : Sink) (m : MigrationSettings) : Nat :=
  if sink.isRemote then max m.updateParallelism 1 else 1

/-- Flight number `i`, with those before and those after it. -/
def focus : Nat → List Flight → Option (List Flight × Flight × List Flight)
  | _, [] => none
  | 0, f :: flights => some ([], f, flights)
  | i + 1, f :: flights =>
    match focus i flights with
    | some (before, g, after) => some (f :: before, g, after)
    | none => none

/-- What happens next. -/
inductive Move where
  | begin (r : Route) (waiting : List Route)
  | take (before : List Flight) (r : Route) (after : List Flight)
  | settle (before : List Flight) (r : Route) (answer? : Option Client.Answer)
      (after : List Flight)

def Move.of : List Flight × Flight × List Flight → Move
  | (before, .begun r, after) => .take before r after
  | (before, .taken r answer?, after) => .settle before r answer? after

/-- The move a turn stands for: the flight of that number goes on. Where there is none of that
number and there is room for another one, the next route in line is begun. -/
def move? (limit turn : Nat) (flights : List Flight) (waiting : List Route) : Option Move :=
  match focus turn flights, waiting with
  | some at?, _ => some (.of at?)
  | none, r :: waiting =>
    if flights.length < limit then some (.begin r waiting) else (focus 0 flights).map .of
  | none, [] => (focus 0 flights).map .of

def isBegun : Flight → Bool
  | .begun _ => true
  | .taken _ _ => false

/-- How many steps are left: two of a submission that is begun, one of one that is taken. -/
def workLeft (flights : List Flight) (waiting : List Route) : Nat :=
  flights.length + flights.countP isBegun + 3 * waiting.length

theorem focus_eq_some {i : Nat} {flights before after : List Flight} {f : Flight}
    (h : focus i flights = some (before, f, after)) : flights = before ++ f :: after := by
  induction flights generalizing i before with
  | nil =>
    rw [focus] at h
    cases h
  | cons g flights ih =>
    cases i with
    | zero =>
      cases h
      rfl
    | succ i =>
      rw [focus] at h
      split at h
      · next hrest =>
        cases h
        rw [ih hrest]
        rfl
      · cases h

/-- What a move is a move of. -/
inductive Move.Of (limit : Nat) (flights : List Flight) (waiting : List Route) : Move → Prop
  | begin {r : Route} {rest : List Route} : waiting = r :: rest → flights.length < limit →
      Of limit flights waiting (.begin r rest)
  | take {before after : List Flight} {r : Route} : flights = before ++ .begun r :: after →
      Of limit flights waiting (.take before r after)
  | settle {before after : List Flight} {r : Route} {answer? : Option Client.Answer} :
      flights = before ++ .taken r answer? :: after →
      Of limit flights waiting (.settle before r answer? after)

theorem Move.Of.focused {limit i : Nat} {flights : List Flight} {waiting : List Route}
    {at? : List Flight × Flight × List Flight} (h : focus i flights = some at?) :
    Move.Of limit flights waiting (.of at?) := by
  obtain ⟨before, f, after⟩ := at?
  cases f with
  | begun r => exact .take (focus_eq_some h)
  | taken r answer? => exact .settle (focus_eq_some h)

theorem move?_eq_some {limit turn : Nat} {flights : List Flight} {waiting : List Route}
    {m : Move} (h : move? limit turn flights waiting = some m) :
    Move.Of limit flights waiting m := by
  have first : ∀ {m : Move}, (focus 0 flights).map Move.of = some m →
      Move.Of limit flights waiting m := by
    intro m h
    obtain ⟨at?, hfocus, rfl⟩ := Option.map_eq_some_iff.mp h
    exact .focused hfocus
  unfold move? at h
  split at h
  · next hfocus =>
    cases h
    exact .focused hfocus
  · split at h
    · next hroom =>
      cases h
      exact .begin rfl hroom
    · exact first h
  · exact first h

/-! Every move leaves less to do. -/

theorem workLeft_begin {limit : Nat} {flights : List Flight} {waiting rest : List Route}
    {r : Route} (h : Move.Of limit flights waiting (.begin r rest)) :
    workLeft (flights ++ [.begun r]) rest < workLeft flights waiting := by
  cases h with
  | begin hw _ =>
    simp [workLeft, isBegun, List.countP_cons, hw]
    omega

theorem workLeft_take {limit : Nat} {flights before after : List Flight} {waiting : List Route}
    {r : Route} (h : Move.Of limit flights waiting (.take before r after))
    (answer? : Option Client.Answer) :
    workLeft (before ++ .taken r answer? :: after) waiting < workLeft flights waiting := by
  cases h with
  | take hf => simp [workLeft, isBegun, List.countP_cons, hf]

theorem workLeft_settle {limit : Nat} {flights before after : List Flight}
    {waiting : List Route} {r : Route} {answer? : Option Client.Answer}
    (h : Move.Of limit flights waiting (.settle before r answer? after)) :
    workLeft (before ++ after) waiting < workLeft flights waiting := by
  cases h with
  | settle hf => simp [workLeft, isBegun, hf]

/-- Submits what is under way and what is waiting, at most `limit` routes at a time; `done` of
`total` have gone through already. -/
def runFrom (limit done total : Nat) (sink : Sink) (flights : List Flight)
    (waiting : List Route) : Action Sink := do
  let turn ← Action.turn
  match h : move? limit turn flights waiting with
  | none => return sink
  | some (.begin r rest) =>
    sink.announce r
    runFrom limit done total sink (flights ++ [.begun r]) rest
  | some (.take before r after) =>
    let (sink, answer?) ← Action.within (.stopped sink.describe done total) (sink.take r)
    runFrom limit done total sink (before ++ .taken r answer? :: after) waiting
  | some (.settle before r answer? after) =>
    Action.within (.stopped sink.describe done total) (sink.settle r answer?)
    runFrom limit (done + 1) total sink (before ++ after) waiting
termination_by workLeft flights waiting
decreasing_by
  · exact workLeft_begin (move?_eq_some h)
  · exact workLeft_take (move?_eq_some h) answer?
  · exact workLeft_settle (move?_eq_some h)

def run (limit : Nat) (sink : Sink) (routes : List Route) : Action Sink :=
  runFrom limit 0 routes.length sink [] routes

end Submission

end RouteMigration
