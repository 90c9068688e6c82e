import RouteMigration.Submission
import RouteMigration.Proofs.Exchange.Calls

/-! Submitting routes. Whatever turns its steps take, a submission that is not refused hands
every route over once, and begins them in their order; where no two are under way at a time,
they also arrive in that order. -/

namespace RouteMigration

theorem Flight.forall_focused {P : Flight → Prop} {before after : List Flight} {f : Flight} :
    (∀ g ∈ before ++ f :: after, P g) ↔ P f ∧ ∀ g ∈ before ++ after, P g := by
  simp only [List.forall_mem_append, List.forall_mem_cons]
  exact and_left_comm

namespace Sink

/-! ## What a sink gets -/

/-- The sink once it has received these routes as well. -/
def taken (routes : List Route) : Sink → Sink
  | memory received => memory (received ++ routes)
  | file path received => file path (received ++ routes)
  | routeManager client => routeManager client

/-- What is asked of a route manager for these routes. -/
def updates (routes : List Route) : Sink → List Request
  | routeManager client =>
    match Client.address client.updateUrl with
    | .ok a => routes.map (client.update a)
    | .error _ => []
  | _ => []

/-- The lines that begin these routes. -/
def notices (routes : List Route) : Sink → List LogLine
  | routeManager client => routes.map client.notice
  | _ => []

@[simp] theorem taken_nil (sink : Sink) : sink.taken [] = sink := by
  cases sink <;> simp [taken]

theorem taken_taken (sink : Sink) (routes more : List Route) :
    (sink.taken routes).taken more = sink.taken (routes ++ more) := by
  cases sink <;> simp [taken]

@[simp] theorem describe_taken (sink : Sink) (routes : List Route) :
    (sink.taken routes).describe = sink.describe := by
  cases sink <;> rfl

@[simp] theorem updates_nil (sink : Sink) : sink.updates [] = [] := by
  cases sink with
  | routeManager client =>
    rw [updates]
    split <;> rfl
  | memory | file => rfl

theorem updates_append (sink : Sink) (routes more : List Route) :
    sink.updates (routes ++ more) = sink.updates routes ++ sink.updates more := by
  cases sink with
  | routeManager client =>
    rw [updates, updates, updates]
    split <;> simp
  | memory | file => rfl

@[simp] theorem updates_taken (sink : Sink) (routes more : List Route) :
    (sink.taken routes).updates more = sink.updates more := by
  cases sink <;> rfl

@[simp] theorem notices_taken (sink : Sink) (routes more : List Route) :
    (sink.taken routes).notices more = sink.notices more := by
  cases sink <;> rfl

@[simp] theorem notices_nil (sink : Sink) : sink.notices [] = [] := by
  cases sink <;> rfl

theorem notices_append (sink : Sink) (routes more : List Route) :
    sink.notices (routes ++ more) = sink.notices routes ++ sink.notices more := by
  cases sink with
  | routeManager client => exact List.map_append
  | memory | file => rfl

/-- What arrives in memory when a sink gets these routes. -/
def arrivals (routes : List Route) : Sink → List Route
  | memory _ => routes
  | _ => []

@[simp] theorem arrivals_nil (sink : Sink) : sink.arrivals [] = [] := by
  cases sink <;> rfl

theorem arrivals_append (sink : Sink) (routes more : List Route) :
    sink.arrivals (routes ++ more) = sink.arrivals routes ++ sink.arrivals more := by
  cases sink <;> rfl

@[simp] theorem arrivals_taken (sink : Sink) (routes more : List Route) :
    (sink.taken routes).arrivals more = sink.arrivals more := by
  cases sink <;> rfl

/-! ## What a sink accepts -/

/-- The sink refuses none of the next `n` routes. -/
def Accepts (n : Nat) (w : World) : Sink → Prop
  | routeManager client =>
    0 < n → ∃ a replies, Client.address client.updateUrl = .ok a ∧ w.replies = some replies ∧
      ∀ reply ∈ replies.take n, reply.accepted
  | _ => True

/-- What the sink has answered is no refusal. -/
def Admits (f : Flight) : Sink → Prop
  | routeManager _ =>
    match f with
    | .taken _ (some x) => x.reply.accepted
    | _ => True
  | _ => True

theorem accepts_of_replies {n : Nat} {w w' : World} (h : w'.replies = w.replies) {sink : Sink} :
    sink.Accepts n w' ↔ sink.Accepts n w := by
  cases sink with
  | routeManager client => rw [Accepts, Accepts, h]
  | memory | file => exact Iff.rfl

theorem accepts_zero (sink : Sink) (w : World) : sink.Accepts 0 w := by
  cases sink with
  | routeManager client => exact fun hpos => absurd hpos (Nat.lt_irrefl 0)
  | memory | file => trivial

theorem admits_begun (sink : Sink) (r : Route) : sink.Admits (.begun r) := by
  cases sink <;> trivial

theorem admits_focused {sink : Sink} {before after : List Flight} {f : Flight} :
    (∀ g ∈ before ++ f :: after, sink.Admits g) ↔
      sink.Admits f ∧ ∀ g ∈ before ++ after, sink.Admits g := Flight.forall_focused

@[simp] theorem admits_taken (sink : Sink) (routes : List Route) (f : Flight) :
    (sink.taken routes).Admits f ↔ sink.Admits f := by
  cases sink <;> exact Iff.rfl

theorem accepted_cons_iff {replies : List Reply} {n : Nat} :
    (∀ reply ∈ replies.take (n + 1), reply.accepted) ↔
      (replies.head?.getD .empty).accepted ∧ ∀ reply ∈ replies.tail.take n, reply.accepted := by
  cases replies <;> simp

/-! ## The steps of one submission -/

theorem announce_apply (sink : Sink) (r : Route) (w : World) :
    ∃ w', sink.announce r w = (.ok (), w') ∧ w.Asks (sink.notices [r]) [] w' := by
  cases sink with
  | routeManager client =>
    have hcall : [client.notice r].filter LogLine.isCall = [client.notice r] := rfl
    exact ⟨_, client.announceUpdate_apply r w, hcall ▸ World.Asks.noting w [client.notice r]⟩
  | memory | file => exact ⟨w, rfl, .refl w⟩

theorem of_take_ok {sink s : Sink} {r : Route} {answer? : Option Client.Answer} {w w' : World}
    (h : sink.take r w = (.ok (s, answer?), w')) :
    s = sink.taken [r] ∧ w.Asks [] (sink.updates [r]) w' := by
  cases sink with
  | memory =>
    cases h
    exact ⟨rfl, .arrived w _⟩
  | file =>
    cases h
    exact ⟨rfl, .refl w⟩
  | routeManager client =>
    obtain ⟨x, w₁, hask, h⟩ := Action.bind_eq_ok_iff.mp h
    cases h
    obtain ⟨a, replies, hurl, hw, rfl, rfl⟩ := Client.of_askUpdate_ok hask
    refine ⟨rfl, ?_⟩
    rw [updates, hurl]
    exact .asked hw _

theorem arrived_announce (sink : Sink) (r : Route) (w : World) :
    ((sink.announce r).after w).arrived = w.arrived := by
  cases sink <;> rfl

theorem arrived_take {sink s : Sink} {r : Route} {answer? : Option Client.Answer} {w w' : World}
    (h : sink.take r w = (.ok (s, answer?), w')) : w'.arrived = w.arrived ++ sink.arrivals [r] := by
  cases sink with
  | memory =>
    cases h
    rfl
  | file =>
    cases h
    exact (List.append_nil _).symm
  | routeManager client =>
    obtain ⟨x, w₁, hask, h⟩ := Action.bind_eq_ok_iff.mp h
    cases h
    obtain ⟨a, replies, -, -, rfl, rfl⟩ := Client.of_askUpdate_ok hask
    exact (List.append_nil _).symm

theorem take_of_accepts {sink : Sink} {n : Nat} {w : World} (h : sink.Accepts (n + 1) w)
    (r : Route) : ∃ s answer? w', sink.take r w = (.ok (s, answer?), w') := by
  cases sink with
  | memory | file => exact ⟨_, _, _, rfl⟩
  | routeManager client =>
    obtain ⟨a, replies, hurl, hw, -⟩ := h n.succ_pos
    exact ⟨_, _, _, Action.bind_of_ok (Client.askUpdate_apply hurl hw r)⟩

/-- Whatever comes of it, a sink is asked for this update at most. -/
theorem take_asks (sink : Sink) (r : Route) (w : World) :
    ∃ order, w.Asks [] (sink.updates order) ((sink.take r).after w) := by
  cases htake : sink.take r w with
  | mk result w' =>
    rw [Action.after_eq htake]
    cases result with
    | ok taken =>
      obtain ⟨s, answer?⟩ := taken
      exact ⟨[r], (of_take_ok htake).2⟩
    | error f =>
      refine ⟨[], ?_⟩
      rw [updates_nil]
      cases sink with
      | memory | file => cases htake
      | routeManager client =>
        obtain rfl := Client.of_askUpdate_error (Action.of_bind_pure_error htake)
        exact .refl _

/-- One more route is accepted when its answer is no refusal and the others are accepted. -/
theorem accepts_succ_iff {sink s : Sink} {n : Nat} {r : Route} {answer? : Option Client.Answer}
    {w w' : World} (h : sink.take r w = (.ok (s, answer?), w')) :
    sink.Accepts (n + 1) w ↔ sink.Admits (.taken r answer?) ∧ s.Accepts n w' := by
  cases sink with
  | memory | file =>
    cases h
    exact ⟨fun _ => ⟨trivial, trivial⟩, fun _ => trivial⟩
  | routeManager client =>
    obtain ⟨x, w₁, hask, h⟩ := Action.bind_eq_ok_iff.mp h
    cases h
    obtain ⟨a, replies, hurl, hw, rfl, rfl⟩ := Client.of_askUpdate_ok hask
    constructor
    · intro hall
      obtain ⟨b, all, hb, hall, hacc⟩ := hall n.succ_pos
      cases hw.symm.trans hall
      obtain ⟨hhead, htail⟩ := accepted_cons_iff.mp hacc
      exact ⟨hhead, fun _ => ⟨b, replies.tail, hb, rfl, htail⟩⟩
    · rintro ⟨hhead, hrest⟩ _
      refine ⟨a, replies, hurl, hw, accepted_cons_iff.mpr ⟨hhead, ?_⟩⟩
      cases n with
      | zero => simp
      | succ n =>
        obtain ⟨_, left, _, hleft, hacc⟩ := hrest n.succ_pos
        cases hleft
        exact hacc

/-- Settling only reads what was answered. -/
theorem settle_apply (sink : Sink) (r : Route) (answer? : Option Client.Answer) (w : World) :
    ∃ result lines, sink.settle r answer? w = (result, w.noting lines) ∧
      lines.filter LogLine.isCall = [] ∧ (result = .ok () ↔ sink.Admits (.taken r answer?)) := by
  cases sink with
  | memory | file =>
    refine ⟨.ok (), [], ?_, rfl, fun _ => trivial, fun _ => rfl⟩
    rw [World.noting_nil]
    cases answer? <;> rfl
  | routeManager client =>
    cases answer? with
    | none =>
      refine ⟨.ok (), [], ?_, rfl, fun _ => trivial, fun _ => rfl⟩
      rw [World.noting_nil]
      rfl
    | some x =>
      obtain ⟨lines, hread, hquiet⟩ := client.readUpdate_apply r x w
      exact ⟨_, lines, hread, hquiet, Client.updateOutcome_ok_iff⟩

end Sink

/-! ## The run of all submissions -/

/-- The route of a flight the sink does not have yet. -/
def Flight.pending? : Flight → Option Route
  | begun r => some r
  | taken _ _ => none

namespace Submission

/-- The routes the sink is still to get. -/
def pending (flights : List Flight) (waiting : List Route) : List Route :=
  flights.filterMap Flight.pending? ++ waiting

theorem pending_begin (flights : List Flight) (r : Route) (rest : List Route) :
    pending (flights ++ [.begun r]) rest = pending flights (r :: rest) := by
  simp [pending, Flight.pending?]

theorem pending_take (before after : List Flight) (r : Route) (waiting : List Route) :
    (pending (before ++ .begun r :: after) waiting).Perm (r :: pending (before ++ after) waiting) := by
  simp only [pending, List.filterMap_append, List.filterMap_cons, Flight.pending?,
    List.append_assoc, List.cons_append]
  exact List.perm_middle

theorem pending_settle (before after : List Flight) (r : Route)
    (answer? : Option Client.Answer) (waiting : List Route) :
    pending (before ++ .taken r answer? :: after) waiting = pending (before ++ after) waiting := by
  simp [pending, List.filterMap_cons, Flight.pending?]

theorem focus_zero_eq_none {flights : List Flight} (h : focus 0 flights = none) : flights = [] := by
  cases flights with
  | nil => rfl
  | cons => cases h

/-- There is a move as long as there is anything to do. -/
theorem move?_eq_none {limit turn : Nat} (hlimit : 0 < limit) {flights : List Flight}
    {waiting : List Route} (h : move? limit turn flights waiting = none) :
    flights = [] ∧ waiting = [] := by
  unfold move? at h
  split at h
  · cases h
  · split at h
    · cases h
    · next hroom =>
      obtain rfl := focus_zero_eq_none (Option.map_eq_none_iff.mp h)
      exact absurd hlimit hroom
  · exact ⟨focus_zero_eq_none (Option.map_eq_none_iff.mp h), rfl⟩

/-- What a move does, and what is left to run after it. -/
def moveOn (limit done total : Nat) (sink : Sink) (flights : List Flight)
    (waiting : List Route) : Option Move → Action Sink
  | none => return sink
  | some (.begin r rest) => do
    sink.announce r
    runFrom limit done total sink (flights ++ [.begun r]) rest
  | some (.take before r after) => do
    let (sink, answer?) ← Action.within (.stopped sink.describe done total) (sink.take r)
    runFrom limit done total sink (before ++ .taken r answer? :: after) waiting
  | some (.settle before r answer? after) => do
    Action.within (.stopped sink.describe done total) (sink.settle r answer?)
    runFrom limit (done + 1) total sink (before ++ after) waiting

theorem runFrom_eq (limit done total : Nat) (sink : Sink) (flights : List Flight)
    (waiting : List Route) :
    runFrom limit done total sink flights waiting = Action.turn >>= fun turn =>
      moveOn limit done total sink flights waiting (move? limit turn flights waiting) := by
  rw [runFrom]
  refine congrArg (Action.turn >>= ·) (funext fun turn => ?_)
  split <;> next h => rw [h]; rfl

theorem runFrom_apply (limit done total : Nat) (sink : Sink) (flights : List Flight)
    (waiting : List Route) (w : World) :
    runFrom limit done total sink flights waiting w =
      moveOn limit done total sink flights waiting
        (move? limit (w.turns.headD 0) flights waiting) { w with turns := w.turns.tail } := by
  rw [runFrom_eq]
  exact Action.bind_of_ok rfl

/-- What a run of submissions that are not refused does: the routes are begun in their order,
and `order` is the one they arrive in. -/
structure Delivered (limit : Nat) (sink : Sink) (flights : List Flight) (waiting : List Route)
    (w : World) (order : List Route) (w' : World) : Prop where
  perm : order.Perm (pending flights waiting)
  same : limit = 1 → order = pending flights waiting
  asks : w.Asks (sink.notices waiting) (sink.updates order) w'
  arrived : w'.arrived = w.arrived ++ sink.arrivals order

section
variable {limit : Nat} {sink : Sink} {flights before after : List Flight}
  {waiting order : List Route} {r : Route} {w w₁ w' : World}

theorem Delivered.done (sink : Sink) (h : w.Asks [] [] w') (harrived : w'.arrived = w.arrived) :
    Delivered limit sink [] [] w [] w' := by
  refine ⟨.refl _, fun _ => rfl, ?_, ?_⟩
  · rw [Sink.notices_nil, Sink.updates_nil]
    exact h
  · rw [Sink.arrivals_nil, List.append_nil]
    exact harrived

theorem Delivered.begin (h : w.Asks (sink.notices [r]) [] w₁) (harrived : w₁.arrived = w.arrived)
    (hd : Delivered limit sink (flights ++ [.begun r]) waiting w₁ order w') :
    Delivered limit sink flights (r :: waiting) w order w' := by
  refine ⟨?_, ?_, ?_, harrived ▸ hd.arrived⟩
  · rw [← pending_begin]
    exact hd.perm
  · rw [← pending_begin]
    exact hd.same
  · have hall := h.trans hd.asks
    rwa [← Sink.notices_append, List.nil_append] at hall

theorem Delivered.take {answer? : Option Client.Answer}
    (hroom : (before ++ .begun r :: after).length ≤ limit)
    (h : w.Asks [] (sink.updates [r]) w₁)
    (harrived : w₁.arrived = w.arrived ++ sink.arrivals [r])
    (hd : Delivered limit (sink.taken [r]) (before ++ .taken r answer? :: after) waiting w₁ order
      w') :
    Delivered limit sink (before ++ .begun r :: after) waiting w (r :: order) w' := by
  refine ⟨?_, ?_, ?_, ?_⟩
  · have hperm := hd.perm
    rw [pending_settle] at hperm
    exact (hperm.cons r).trans (pending_take before after r waiting).symm
  · -- alone on its way, the route is the first to arrive
    intro hone
    rw [hd.same hone]
    have hlength : before.length + (after.length + 1) ≤ 1 := by
      simpa [hone] using hroom
    obtain rfl := List.eq_nil_of_length_eq_zero (show before.length = 0 by omega)
    obtain rfl := List.eq_nil_of_length_eq_zero (show after.length = 0 by omega)
    rfl
  · have hall := h.trans hd.asks
    rw [Sink.notices_taken, Sink.updates_taken, ← Sink.updates_append] at hall
    exact hall
  · rw [hd.arrived, harrived, Sink.arrivals_taken, List.append_assoc, ← Sink.arrivals_append]
    rfl

theorem Delivered.settle {answer? : Option Client.Answer} (h : w.Asks [] [] w₁)
    (harrived : w₁.arrived = w.arrived)
    (hd : Delivered limit sink (before ++ after) waiting w₁ order w') :
    Delivered limit sink (before ++ .taken r answer? :: after) waiting w order w' := by
  refine ⟨?_, ?_, ?_, harrived ▸ hd.arrived⟩
  · rw [pending_settle]
    exact hd.perm
  · rw [pending_settle]
    exact hd.same
  · exact h.trans hd.asks

end

/-- The sink refuses nothing of what is under way and of what is waiting. -/
structure Welcome (sink : Sink) (flights : List Flight) (waiting : List Route) (w : World) :
    Prop where
  accepts : sink.Accepts (pending flights waiting).length w
  admits : ∀ f ∈ flights, sink.Admits f

section
variable {sink s : Sink} {flights before after : List Flight} {waiting rest : List Route}
  {r : Route} {answer? : Option Client.Answer} {w w₁ : World}

theorem welcome_of_replies (h : w₁.replies = w.replies) :
    Welcome sink flights waiting w₁ ↔ Welcome sink flights waiting w := by
  have haccepts : sink.Accepts (pending flights waiting).length w₁ ↔
      sink.Accepts (pending flights waiting).length w := Sink.accepts_of_replies h
  exact ⟨fun ⟨ha, hf⟩ => ⟨haccepts.mp ha, hf⟩, fun ⟨ha, hf⟩ => ⟨haccepts.mpr ha, hf⟩⟩

theorem welcome_done (sink : Sink) (w : World) : Welcome sink [] [] w :=
  ⟨sink.accepts_zero w, fun _ hf => absurd hf List.not_mem_nil⟩

theorem welcome_begin :
    Welcome sink (flights ++ [.begun r]) rest w ↔ Welcome sink flights (r :: rest) w := by
  constructor
  · rintro ⟨haccepts, hadmits⟩
    rw [pending_begin] at haccepts
    exact ⟨haccepts, fun f hf => hadmits f (List.mem_append_left _ hf)⟩
  · rintro ⟨haccepts, hadmits⟩
    rw [← pending_begin] at haccepts
    refine ⟨haccepts, Sink.admits_focused.mpr ⟨sink.admits_begun r, ?_⟩⟩
    rwa [List.append_nil]

theorem welcome_take (h : sink.take r w = (.ok (s, answer?), w₁)) :
    Welcome s (before ++ .taken r answer? :: after) waiting w₁ ↔
      Welcome sink (before ++ .begun r :: after) waiting w := by
  have hlength := (pending_take before after r waiting).length_eq
  rw [List.length_cons, ← pending_settle before after r answer?] at hlength
  have haccepts : sink.Accepts (pending (before ++ .begun r :: after) waiting).length w ↔
      sink.Admits (.taken r answer?) ∧
        s.Accepts (pending (before ++ .taken r answer? :: after) waiting).length w₁ := by
    rw [hlength]
    exact Sink.accepts_succ_iff h
  obtain ⟨rfl, -⟩ := Sink.of_take_ok h
  constructor
  · rintro ⟨hrest, hadmits⟩
    simp only [Sink.admits_taken] at hadmits
    obtain ⟨hanswer, hothers⟩ := Sink.admits_focused.mp hadmits
    exact ⟨haccepts.mpr ⟨hanswer, hrest⟩, Sink.admits_focused.mpr ⟨sink.admits_begun r, hothers⟩⟩
  · rintro ⟨hall, hadmits⟩
    obtain ⟨hanswer, hrest⟩ := haccepts.mp hall
    refine ⟨hrest, ?_⟩
    simp only [Sink.admits_taken]
    exact Sink.admits_focused.mpr ⟨hanswer, (Sink.admits_focused.mp hadmits).2⟩

theorem welcome_settle :
    Welcome sink (before ++ .taken r answer? :: after) waiting w ↔
      sink.Admits (.taken r answer?) ∧ Welcome sink (before ++ after) waiting w := by
  constructor
  · rintro ⟨haccepts, hadmits⟩
    rw [pending_settle] at haccepts
    obtain ⟨hanswer, hothers⟩ := Sink.admits_focused.mp hadmits
    exact ⟨hanswer, haccepts, hothers⟩
  · rintro ⟨hanswer, haccepts, hothers⟩
    rw [← pending_settle before after r answer?] at haccepts
    exact ⟨haccepts, Sink.admits_focused.mpr ⟨hanswer, hothers⟩⟩

end

/-- A sink that refuses nothing ends up with every route. -/
theorem runFrom_accepted {limit : Nat} (hlimit : 0 < limit) (total done : Nat) (sink : Sink)
    (flights : List Flight) (waiting : List Route) {w : World}
    (hwelcome : Welcome sink flights waiting w) (hroom : flights.length ≤ limit) :
    ∃ order w', runFrom limit done total sink flights waiting w = (.ok (sink.taken order), w') ∧
      Delivered limit sink flights waiting w order w' := by
  induction done, sink, flights, waiting using runFrom.induct limit generalizing w with
  | case1 done sink flights waiting ihBegin ihTake ihSettle =>
    have hturn : w.Asks [] [] { w with turns := w.turns.tail } := .turned w _
    have hstill : World.arrived { w with turns := w.turns.tail } = w.arrived := rfl
    replace hwelcome := (welcome_of_replies hturn.replies_eq).mpr hwelcome
    rw [runFrom_apply]
    generalize { w with turns := w.turns.tail } = w₀ at hturn hstill hwelcome ⊢
    cases hmove : move? limit (w.turns.headD 0) flights waiting with
    | none =>
      obtain ⟨rfl, rfl⟩ := move?_eq_none hlimit hmove
      refine ⟨[], w₀, ?_, .done sink hturn hstill⟩
      rw [Sink.taken_nil]
      rfl
    | some m =>
      cases move?_eq_some hmove with
      | @begin r rest hwaiting hless =>
        subst hwaiting
        obtain ⟨w₁, hannounce, hnotice⟩ := sink.announce_apply r w₀
        have hwelcome₁ : Welcome sink (flights ++ [.begun r]) rest w₁ :=
          (welcome_of_replies hnotice.replies_eq).mpr (welcome_begin.mpr hwelcome)
        have hroom₁ : (flights ++ [Flight.begun r]).length ≤ limit := by
          rw [List.length_append]
          exact hless
        obtain ⟨order, w₂, hrun, hd⟩ := ihBegin _ r rest hmove hwelcome₁ hroom₁
        have harrived := sink.arrived_announce r w₀
        rw [Action.after_eq hannounce, hstill] at harrived
        exact ⟨order, w₂, (Action.bind_of_ok hannounce).trans hrun,
          hd.begin (hturn.trans hnotice) harrived⟩
      | @take before after r hflights =>
        subst hflights
        have haccepts := hwelcome.accepts
        rw [(pending_take before after r waiting).length_eq, List.length_cons] at haccepts
        obtain ⟨s, answer?, w₁, htake⟩ := Sink.take_of_accepts haccepts r
        have hwelcome₁ := (welcome_take htake).mpr hwelcome
        have harrived := Sink.arrived_take htake
        rw [hstill] at harrived
        obtain ⟨rfl, hasks⟩ := Sink.of_take_ok htake
        have hroom₁ : (before ++ Flight.taken r answer? :: after).length ≤ limit := by
          simpa using hroom
        obtain ⟨order, w₂, hrun, hd⟩ := ihTake _ before r after hmove _ answer? hwelcome₁ hroom₁
        rw [Sink.taken_taken] at hrun
        exact ⟨r :: order, w₂, (Action.bind_of_ok (Action.within_of_ok htake)).trans hrun,
          hd.take hroom (hturn.trans hasks) harrived⟩
      | @settle before after r answer? hflights =>
        subst hflights
        obtain ⟨hanswer, hothers⟩ := welcome_settle.mp hwelcome
        obtain ⟨result, lines, hsettle, hquiet, hresult⟩ := sink.settle_apply r answer? w₀
        obtain rfl := hresult.mpr hanswer
        have hasks : w₀.Asks [] [] (w₀.noting lines) := .quiet w₀ hquiet
        have hwelcome₁ := (welcome_of_replies hasks.replies_eq).mpr hothers
        have hroom₁ : (before ++ after).length ≤ limit := by
          simp only [List.length_append, List.length_cons] at hroom ⊢
          omega
        obtain ⟨order, w₂, hrun, hd⟩ := ihSettle _ before r answer? after hmove hwelcome₁ hroom₁
        exact ⟨order, w₂, (Action.bind_of_ok (Action.within_of_ok hsettle)).trans hrun,
          hd.settle (hturn.trans hasks) hstill⟩

/-- A run that goes through is one in which nothing was refused. -/
theorem of_runFrom_ok {limit : Nat} (hlimit : 0 < limit) (total done : Nat) (sink : Sink)
    (flights : List Flight) (waiting : List Route) {w w' : World} {s : Sink}
    (h : runFrom limit done total sink flights waiting w = (.ok s, w')) :
    Welcome sink flights waiting w := by
  induction done, sink, flights, waiting using runFrom.induct limit generalizing w with
  | case1 done sink flights waiting ihBegin ihTake ihSettle =>
    rw [runFrom_apply] at h
    have hturn : Welcome sink flights waiting { w with turns := w.turns.tail } ↔
        Welcome sink flights waiting w := welcome_of_replies rfl
    rw [← hturn]
    generalize { w with turns := w.turns.tail } = w₀ at h ⊢
    cases hmove : move? limit (w.turns.headD 0) flights waiting with
    | none =>
      obtain ⟨rfl, rfl⟩ := move?_eq_none hlimit hmove
      exact welcome_done sink w₀
    | some m =>
      rw [hmove] at h
      cases move?_eq_some hmove with
      | @begin r rest hwaiting hless =>
        subst hwaiting
        obtain ⟨_, w₁, hannounce, hrest⟩ := Action.bind_eq_ok_iff.mp h
        obtain ⟨w₂, hannounce', hnotice⟩ := sink.announce_apply r w₀
        cases hannounce.symm.trans hannounce'
        have hwelcome := ihBegin _ r rest hmove hrest
        exact welcome_begin.mp ((welcome_of_replies hnotice.replies_eq).mp hwelcome)
      | @take before after r hflights =>
        subst hflights
        obtain ⟨⟨s₁, answer?⟩, w₁, htake, hrest⟩ := Action.bind_eq_ok_iff.mp h
        have hwelcome := ihTake _ before r after hmove s₁ answer? hrest
        exact (welcome_take (Action.within_eq_ok_iff.mp htake)).mp hwelcome
      | @settle before after r answer? hflights =>
        subst hflights
        obtain ⟨_, w₁, hsettle, hrest⟩ := Action.bind_eq_ok_iff.mp h
        obtain ⟨result, lines, hsettle', hquiet, hresult⟩ := sink.settle_apply r answer? w₀
        cases (Action.within_eq_ok_iff.mp hsettle).symm.trans hsettle'
        have hwelcome := ihSettle _ before r answer? after hmove hrest
        have hothers := (welcome_of_replies (World.replies_noting w₀ lines)).mp hwelcome
        exact welcome_settle.mpr ⟨hresult.mp rfl, hothers⟩

/-- Whatever comes of it, a run asks for updates and for nothing else, and leaves files alone. -/
theorem runFrom_asks (limit total done : Nat) (sink : Sink) (flights : List Flight)
    (waiting : List Route) (w : World) :
    ∃ calls order, w.Asks calls (sink.updates order)
      ((runFrom limit done total sink flights waiting).after w) := by
  induction done, sink, flights, waiting using runFrom.induct limit generalizing w with
  | case1 done sink flights waiting ihBegin ihTake ihSettle =>
    have hturn : w.Asks [] [] { w with turns := w.turns.tail } := .turned w _
    rw [Action.after, runFrom_apply, ← Action.after]
    generalize { w with turns := w.turns.tail } = w₀ at hturn ⊢
    cases hmove : move? limit (w.turns.headD 0) flights waiting with
    | none =>
      refine ⟨[], [], ?_⟩
      rw [Sink.updates_nil]
      exact hturn
    | some m =>
      cases m with
      | begin r rest =>
        obtain ⟨w₁, hannounce, hnotice⟩ := sink.announce_apply r w₀
        obtain ⟨calls, order, hrest⟩ := ihBegin _ r rest hmove w₁
        rw [moveOn, Action.after_bind_of_ok hannounce]
        exact ⟨_, order, hturn.trans (hnotice.trans hrest)⟩
      | take before r after =>
        obtain ⟨taken, hasks⟩ := sink.take_asks r w₀
        cases htake : sink.take r w₀ with
        | mk result w₁ =>
          rw [Action.after_eq htake] at hasks
          cases result with
          | error f =>
            rw [moveOn, Action.after_eq (Action.bind_of_error (Action.within_of_error htake))]
            exact ⟨_, taken, hturn.trans hasks⟩
          | ok x =>
            obtain ⟨s, answer?⟩ := x
            obtain ⟨rfl, -⟩ := Sink.of_take_ok htake
            obtain ⟨calls, order, hrest⟩ :=
              ihTake _ before r after hmove (sink.taken [r]) answer? w₁
            rw [moveOn, Action.after_bind_of_ok (Action.within_of_ok htake)]
            rw [Sink.updates_taken] at hrest
            refine ⟨calls, taken ++ order, ?_⟩
            rw [Sink.updates_append]
            exact hturn.trans (hasks.trans hrest)
      | settle before r answer? after =>
        obtain ⟨result, lines, hsettle, hquiet, -⟩ := sink.settle_apply r answer? w₀
        have hasks : w₀.Asks [] [] (w₀.noting lines) := .quiet w₀ hquiet
        cases result with
        | error f =>
          rw [moveOn, Action.after_eq (Action.bind_of_error (Action.within_of_error hsettle))]
          refine ⟨[], [], ?_⟩
          rw [Sink.updates_nil]
          exact hturn.trans hasks
        | ok =>
          obtain ⟨calls, order, hrest⟩ := ihSettle _ before r answer? after hmove (w₀.noting lines)
          rw [moveOn, Action.after_bind_of_ok (Action.within_of_ok hsettle)]
          exact ⟨_, order, hturn.trans (hasks.trans hrest)⟩

/-! ## From the start -/

theorem limit_pos (sink : Sink) (m : MigrationSettings) : 0 < limit sink m := by
  unfold limit
  split <;> omega

theorem run_accepted {limit : Nat} (hlimit : 0 < limit) {sink : Sink} {routes : List Route}
    {w : World} (h : sink.Accepts routes.length w) :
    ∃ order w', run limit sink routes w = (.ok (sink.taken order), w') ∧
      Delivered limit sink [] routes w order w' :=
  runFrom_accepted hlimit routes.length 0 sink [] routes
    ⟨h, fun _ hf => absurd hf List.not_mem_nil⟩ (Nat.zero_le limit)

theorem run_ok_iff {limit : Nat} (hlimit : 0 < limit) {sink : Sink} {routes : List Route}
    {w : World} :
    (∃ s w', run limit sink routes w = (.ok s, w')) ↔ sink.Accepts routes.length w := by
  constructor
  · rintro ⟨s, w', h⟩
    exact (of_runFrom_ok hlimit routes.length 0 sink [] routes h).accepts
  · intro h
    obtain ⟨order, w', hrun, -⟩ := run_accepted hlimit h
    exact ⟨_, w', hrun⟩

theorem of_run_ok {limit : Nat} (hlimit : 0 < limit) {sink s : Sink} {routes : List Route}
    {w w' : World} (h : run limit sink routes w = (.ok s, w')) : ∃ order, s = sink.taken order := by
  obtain ⟨order, w₁, hrun, -⟩ := run_accepted hlimit ((run_ok_iff hlimit).mp ⟨s, w', h⟩)
  cases h.symm.trans hrun
  exact ⟨order, rfl⟩

theorem run_asks (limit : Nat) (sink : Sink) (routes : List Route) (w : World) :
    ∃ calls order, w.Asks calls (sink.updates order) ((run limit sink routes).after w) :=
  runFrom_asks limit routes.length 0 sink [] routes w

end Submission

end RouteMigration
