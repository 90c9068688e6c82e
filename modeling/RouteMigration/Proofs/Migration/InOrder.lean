import RouteMigration.Proofs.Migration.Saving
import RouteMigration.Proofs.Migration.Stages

/-! Updates one at a time. They are asked for in the order of the routes, and the first one that
is not accepted is the last one asked for. -/

namespace RouteMigration

/-- Reply number `i`. When the replies have run out, empty ones follow. -/
def replyAt (replies : List Reply) (i : Nat) : Reply := replies[i]?.getD .empty

theorem replyAt_tail (replies : List Reply) (i : Nat) :
    replyAt replies.tail i = replyAt replies (i + 1) := by
  cases replies <;> rfl

theorem replyAt_zero (replies : List Reply) : replyAt replies 0 = replies.head?.getD .empty := by
  cases replies <;> rfl

namespace Submission

/-! ## One update -/

theorem focus_nil (turn : Nat) : focus turn [] = none := by
  cases turn <;> rfl

/-- Where nothing is under way the next route is begun, whatever the turn. -/
theorem move?_idle (turn : Nat) (r : Route) (rest : List Route) :
    move? 1 turn [] (r :: rest) = some (.begin r rest) := by
  unfold move?
  rw [focus_nil]
  rfl

theorem move?_end (turn : Nat) : move? 1 turn [] [] = none := by
  unfold move?
  rw [focus_nil]
  rfl

/-- A submission that is alone on its way goes on, whatever the turn. -/
theorem move?_busy (turn : Nat) (f : Flight) (waiting : List Route) :
    move? 1 turn [f] waiting = some (.of ([], f, [])) := by
  cases turn with
  | zero => cases waiting <;> rfl
  | succ turn =>
    have hnone : focus (turn + 1) [f] = none := by
      rw [focus, focus_nil]
    unfold move?
    rw [hnone]
    cases waiting <;> rfl

section
variable {client : Client} {a : WebAddress}

theorem runFrom_idle (client : Client) (done total : Nat) (r : Route) (rest : List Route)
    (w : World) :
    ∃ w', w.Asks [client.notice r] [] w' ∧
      runFrom 1 done total (.routeManager client) [] (r :: rest) w =
        runFrom 1 done total (.routeManager client) [.begun r] rest w' := by
  have hnotice := World.Asks.noting { w with turns := w.turns.tail } [client.notice r]
  refine ⟨_, (World.Asks.turned w _).trans hnotice, ?_⟩
  rw [runFrom_apply, move?_idle, moveOn]
  exact Action.bind_of_ok (client.announceUpdate_apply r _)

theorem runFrom_begun (hurl : Client.address client.updateUrl = .ok a) {w : World}
    {replies : List Reply} (hw : w.replies = some replies) (done total : Nat) (r : Route)
    (rest : List Route) :
    ∃ w', w.Asks [] [client.update a r] w' ∧
      runFrom 1 done total (.routeManager client) [.begun r] rest w =
        runFrom 1 done total (.routeManager client)
          [.taken r (some ⟨a, replyAt replies 0⟩)] rest w' := by
  let asking : World := { w with turns := w.turns.tail }
  have hasking : asking.replies = some replies := hw
  have hask := Client.askUpdate_apply hurl hasking r
  rw [← replyAt_zero] at hask
  have htake : (Sink.routeManager client).take r asking = _ := Action.bind_of_ok hask
  refine ⟨_, (World.Asks.turned w _).trans (.asked hasking _), ?_⟩
  rw [runFrom_apply, move?_busy, Move.of, moveOn]
  exact Action.bind_of_ok (Action.within_of_ok htake)

/-- What an answer makes of an update ends the run or is one update more. -/
theorem runFrom_taken (client : Client) (done total : Nat) (r : Route) (x : Client.Answer)
    (rest : List Route) (w : World) :
    ∃ w', w.Asks [] [] w' ∧
      runFrom 1 done total (.routeManager client) [.taken r (some x)] rest w =
        (Action.within (.stopped (Sink.routeManager client).describe done total)
            (Action.attempt (client.updateOutcome r x)) >>= fun _ =>
          runFrom 1 (done + 1) total (.routeManager client) [] rest) w' := by
  let reading : World := { w with turns := w.turns.tail }
  obtain ⟨lines, hread, hquiet⟩ := client.readUpdate_apply r x reading
  have hreading : w.Asks [] [] reading := .turned w w.turns.tail
  refine ⟨reading.noting lines, hreading.trans (.quiet reading hquiet), ?_⟩
  rw [runFrom_apply, move?_busy, Move.of, moveOn]
  exact Action.bind_congr_apply (Action.within_congr_apply hread _) _

/-- One update: it is announced, asked for and answered before the next one begins. -/
theorem runFrom_cons (hurl : Client.address client.updateUrl = .ok a) {w : World}
    {replies : List Reply} (hw : w.replies = some replies) (done total : Nat) (r : Route)
    (rest : List Route) :
    ∃ w', w.Asks [client.notice r] [client.update a r] w' ∧
      runFrom 1 done total (.routeManager client) [] (r :: rest) w =
        (Action.within (.stopped (Sink.routeManager client).describe done total)
            (Action.attempt (client.updateOutcome r ⟨a, replyAt replies 0⟩)) >>= fun _ =>
          runFrom 1 (done + 1) total (.routeManager client) [] rest) w' := by
  obtain ⟨w₁, hnotice, hidle⟩ := runFrom_idle client done total r rest w
  obtain ⟨w₂, hupdate, hbegun⟩ :=
    runFrom_begun hurl (hnotice.replies_eq.trans hw) done total r rest
  obtain ⟨w₃, hquiet, htaken⟩ :=
    runFrom_taken client done total r ⟨a, replyAt replies 0⟩ rest w₂
  exact ⟨w₃, hnotice.trans (hupdate.trans hquiet), hidle.trans (hbegun.trans htaken)⟩

end

/-! ## All updates -/

/-- How it ends when these routes are put to a route manager one at a time, `done` of `total`
having gone through before, and which of them are asked for. All are if every update is
accepted, and then `x` is what comes of it. Otherwise those up to the first one that is not
accepted, and it says how many were before it. -/
inductive Ends {α : Type} (client : Client) (a : WebAddress) (replies : List Reply)
    (done total : Nat) (x : α) (routes : List Route) : Except Failure α → List Route → Prop
  | through : (∀ i < routes.length, (replyAt replies i).accepted) →
      Ends client a replies done total x routes (.ok x) routes
  | stopped {before after : List Route} {r : Route} {f : Failure} :
      routes = before ++ r :: after →
      (∀ i < before.length, (replyAt replies i).accepted) →
      (replyAt replies before.length).accepted = false →
      client.updateOutcome r ⟨a, replyAt replies before.length⟩ = .error f →
      Ends client a replies done total x routes
        (.error (f.within (.stopped (Sink.routeManager client).describe (done + before.length)
          total)))
        (before ++ [r])

section
variable {α : Type} {client : Client} {a : WebAddress} {replies : List Reply}
  {done total : Nat} {x : α} {r : Route} {routes sent : List Route} {result : Except Failure α}

theorem Ends.nil (client : Client) (a : WebAddress) (replies : List Reply) (done total : Nat)
    (x : α) : Ends client a replies done total x [] (.ok x) [] :=
  .through fun i hi => absurd hi (Nat.not_lt_zero i)

theorem Ends.refused {f : Failure} (h : client.updateOutcome r ⟨a, replyAt replies 0⟩ = .error f)
    (done total : Nat) (x : α) (rest : List Route) :
    Ends client a replies done total x (r :: rest)
      (.error (f.within (.stopped (Sink.routeManager client).describe done total))) [r] := by
  have hrefused : (replyAt replies 0).accepted = false := by
    rw [← Bool.not_eq_true]
    intro haccepted
    cases h.symm.trans (Client.updateOutcome_ok_iff.mpr haccepted)
  have hsplit : r :: rest = [] ++ r :: rest := rfl
  exact .stopped hsplit (fun i hi => absurd hi (Nat.not_lt_zero i)) hrefused h

theorem Ends.cons (haccepted : (replyAt replies 0).accepted)
    (h : Ends client a replies.tail (done + 1) total x routes result sent) :
    Ends client a replies done total x (r :: routes) result (r :: sent) := by
  have hshift : ∀ {n : Nat}, (∀ i < n, (replyAt replies.tail i).accepted) →
      ∀ i < n + 1, (replyAt replies i).accepted := by
    intro n hall i hi
    cases i with
    | zero => exact haccepted
    | succ i =>
      rw [← replyAt_tail]
      exact hall i (Nat.lt_of_succ_lt_succ hi)
  cases h with
  | through hall => exact .through (hshift hall)
  | @stopped before after r' f hroutes hall hrefused hfailure =>
    rw [replyAt_tail] at hrefused hfailure
    have hsplit : r :: routes = (r :: before) ++ r' :: after := congrArg (r :: ·) hroutes
    have hcount : done + 1 + before.length = done + (r :: before).length := by
      rw [List.length_cons]
      omega
    rw [hcount]
    exact .stopped hsplit (hshift hall) hrefused hfailure

end

theorem runFrom_in_order {client : Client} {a : WebAddress}
    (hurl : Client.address client.updateUrl = .ok a) (total done : Nat) (routes : List Route)
    {w : World} {replies : List Reply} (hw : w.replies = some replies) :
    ∃ result sent w', runFrom 1 done total (.routeManager client) [] routes w = (result, w') ∧
      Ends client a replies done total (Sink.routeManager client) routes result sent ∧
      ∃ calls, w.Asks calls (sent.map (client.update a)) w' := by
  -- an update takes one reply away and counts as one more that went through
  induction routes generalizing done replies w with
  | nil =>
    refine ⟨_, [], { w with turns := w.turns.tail }, ?_, .nil client a replies done total _, [],
      .turned w _⟩
    rw [runFrom_apply, move?_end]
    rfl
  | cons r rest ih =>
    obtain ⟨w₁, hasks, hrun⟩ := runFrom_cons hurl hw done total r rest
    cases houtcome : client.updateOutcome r ⟨a, replyAt replies 0⟩ with
    | error f =>
      rw [houtcome] at hrun
      exact ⟨_, [r], w₁, hrun.trans (Action.bind_of_error (Action.within_of_error rfl)),
        .refused houtcome done total _ rest, _, hasks⟩
    | ok =>
      rw [houtcome] at hrun
      have hleft : w₁.replies = some replies.tail := by
        rw [hasks.replies, hw]
        simp
      obtain ⟨result, sent, w₂, hrest, hends, calls, hmore⟩ := ih (done + 1) hleft
      exact ⟨result, r :: sent, w₂,
        (hrun.trans (Action.bind_of_ok (Action.within_of_ok rfl))).trans hrest,
        hends.cons (Client.updateOutcome_ok_iff.mp houtcome), _, hasks.trans hmore⟩

end Submission

namespace Migration

/-- What a run makes of `r`, if it submits that route at all. -/
def Retains (m : MigrationSettings) (r r' : Route) : Prop :=
  if m.restore then r' = r else Batch.judge m.operation m.queueEnvironment r = .kept r'

theorem mem_outcome_routes {m : MigrationSettings} {routes : List Route} {r' : Route} :
    r' ∈ (outcome m routes).routes ↔ ∃ r ∈ routes, Retains m r r' := by
  unfold outcome Retains
  cases m.restore with
  | true => simp [Batch.Outcome.untouched]
  | false =>
    have hroute : ∀ v : Verdict, v.route? = some r' ↔ v = .kept r' := by
      intro v
      cases v <;> simp [Verdict.route?]
    simp [Batch.apply, Batch.verdicts, Batch.Outcome.ofVerdicts, hroute]

theorem limit_eq_one {m : MigrationSettings} (h : m.updateParallelism ≤ 1) (sink : Sink) :
    Submission.limit sink m = 1 := by
  unfold Submission.limit
  split <;> omega

section
variable {client : Client} {a : WebAddress} {m : MigrationSettings} {document : String}
  {routes : List Route} {w : World} {replies : List Reply}

theorem delivery_in_order (hone : m.updateParallelism ≤ 1)
    (hurl : Client.address client.updateUrl = .ok a) (hw : w.replies = some replies)
    (hparse : Document.parse document = .ok routes) (source : Source) (backup : Option String) :
    ∃ result sent last, delivery source (.routeManager client) m document backup w =
        (result, last) ∧
      last.requests = w.requests ++ sent.map (client.update a) ∧
      Submission.Ends client a replies 0 (outcome m routes).routes.length
        (summary source (.routeManager client) m backup routes, Sink.routeManager client)
        (outcome m routes).routes result sent := by
  obtain ⟨lines, hdelivery, -⟩ :=
    delivery_parsed hparse source (.routeManager client) m backup w
  rw [limit_eq_one hone] at hdelivery
  have hlistening : (w.noting lines).replies = some replies := hw
  obtain ⟨result, sent, w', hrun, hends, calls, hasks⟩ := Submission.runFrom_in_order hurl
    (outcome m routes).routes.length 0 (outcome m routes).routes hlistening
  rw [hdelivery]
  cases hends with
  | through hall =>
    obtain ⟨more, hclosing, -⟩ := closing_ok
      (s := summary source (.routeManager client) m backup routes)
      (show (Sink.routeManager client).flush w'.files = .ok w'.files from rfl)
    exact ⟨_, _, _, (Action.bind_of_ok hrun).trans hclosing, hasks.requests, .through hall⟩
  | stopped hsplit hall hrefused hfailure =>
    exact ⟨_, _, w', Action.bind_of_error hrun, hasks.requests,
      .stopped hsplit hall hrefused hfailure⟩

/-- The same for the whole run, from its opening on. -/
theorem migrate_ends (hone : m.updateParallelism ≤ 1)
    (hurl : Client.address client.updateUrl = .ok a) (hw : w.replies = some replies)
    {source : Source} {saved : World} {backup : Option String}
    (hopening : opening source (.routeManager client) m w = (.ok (document, backup), saved))
    (hparse : Document.parse document = .ok routes) :
    ∃ result sent last, migrate source (.routeManager client) m w = (result, last) ∧
      last.requests = w.requests ++ source.fetches ++ sent.map (client.update a) ∧
      Submission.Ends client a (replies.drop source.fetches.length) 0
        (outcome m routes).routes.length
        (summary source (.routeManager client) m backup routes, Sink.routeManager client)
        (outcome m routes).routes result sent := by
  obtain ⟨hasked, hleft⟩ := of_opening_ok hopening
  rw [hw] at hleft
  obtain ⟨result, sent, last, hrun, hrequests, hends⟩ :=
    delivery_in_order hone hurl hleft hparse source backup
  rw [hasked] at hrequests
  exact ⟨result, sent, last, (migrate_of_opening hopening).trans hrun, hrequests, hends⟩

end

/-- Of a run that updates a reachable route manager one route at a time: once its document is
loaded, saved where it has to be and read, it asks for the updates of the routes it retains,
in their order. The first one that is not accepted is the last one asked for, and the run fails
and says how many of all were accepted before; where there is none, it goes through. No update
is asked for but of what a route of the document is kept as. -/
theorem migrate_in_order {source : Source} {client : Client} {m : MigrationSettings}
    {w saved : World} {replies : List Reply} {a : WebAddress} {document : String}
    {backup : Option String} {routes : List Route} (hone : m.updateParallelism ≤ 1)
    (hurl : Client.address client.updateUrl = .ok a) (hw : w.replies = some replies)
    (hopening : opening source (.routeManager client) m w = (.ok (document, backup), saved))
    (hparse : Document.parse document = .ok routes) :
    ∃ result sent last, migrate source (.routeManager client) m w = (result, last) ∧
      last.requests = w.requests ++ source.fetches ++ sent.map (client.update a) ∧
      Submission.Ends client a (replies.drop source.fetches.length) 0
        (outcome m routes).routes.length
        (summary source (.routeManager client) m backup routes, Sink.routeManager client)
        (outcome m routes).routes result sent ∧
      (∀ f, result = .error f → ∃ g : Failure, f.message =
        "💀 Submitting to " ++ (Sink.routeManager client).describe ++ " stopped after " ++
          toString (sent.length - 1) ++ " of " ++ toString (outcome m routes).routes.length ++
          " routes. The backup has the originals if you need to revert." ++ ": " ++ g.message) ∧
      ∀ r' ∈ sent, ∃ r ∈ routes, Retains m r r' := by
  obtain ⟨result, sent, last, hrun, hrequests, hends⟩ := migrate_ends hone hurl hw hopening hparse
  refine ⟨result, sent, last, hrun, hrequests, hends, ?_, ?_⟩
  · intro f hf
    cases hends with
    | through => cases hf
    | @stopped before after r g hsplit hall hrefused hfailure =>
      obtain rfl := Except.error.inj hf
      have hcount : (before ++ [r]).length - 1 = 0 + before.length := by simp
      refine ⟨g, ?_⟩
      rw [Failure.message_within, hcount]
      rfl
  · intro r' hr'
    refine mem_outcome_routes.mp ?_
    cases hends with
    | through => exact hr'
    | @stopped before after r f hsplit =>
      rw [hsplit, List.append_cons]
      exact List.mem_append_left after hr'

/-! Three routes, of which one has no queues. -/

def threeRoutes : List Route :=
  [{ uuid := "1", name := "a", rule := "", enabled := true, queues := ["emx-to-c-d"] },
   { uuid := "2", name := "b", rule := "", enabled := true, queues := [] },
   { uuid := "3", name := "c", rule := "", enabled := true, queues := ["emx-to-c-d"] }]

def threeDocument : String :=
  "[[[\"1\",\"a\",\"\",\"\",true,[\"emx-to-c-d\"]],[\"2\",\"b\",\"\",\"\",true,[]]," ++
    "[\"3\",\"c\",\"\",\"\",true,[\"emx-to-c-d\"]]]]"

theorem parse_threeDocument : Document.parse threeDocument = .ok threeRoutes :=
  Action.eq_ok_of_toOption (by decide +kernel)

def threeClient : Client := ⟨"http://h", ⟨"u", "p"⟩⟩

theorem address_threeClient : Client.address threeClient.updateUrl =
    .ok ⟨"http".toList, some ['h'], "/updateroute".toList, [], []⟩ :=
  Action.eq_ok_of_toOption (by decide +kernel)

/-- They are sent, and the answer to the second update is cut short. -/
def threeReplies : List Reply :=
  [⟨⟨200⟩, threeDocument, 0⟩, ⟨⟨200⟩, "", 0⟩, ⟨⟨200⟩, "", 3⟩]

def threeWorld : World where
  files := ⟨[], []⟩
  replies := some threeReplies
  stamp := "T"

def threeRun : Action (Summary × Sink) :=
  migrate (.routeManager threeClient) (.routeManager threeClient) { operation := .encodeQueues }

theorem migrate_in_order_cut_short :
    ∃ (f g : Failure) (last : World) (a : WebAddress) (sent : List Route),
      threeRun threeWorld = (.error f, last) ∧ sent.length = 2 ∧
      last.requests = threeClient.fetches ++ sent.map (threeClient.update a) ∧
      f.message = "💀 Submitting to " ++ (Sink.routeManager threeClient).describe ++
        " stopped after " ++ toString 1 ++ " of " ++ toString 2 ++
        " routes. The backup has the originals if you need to revert." ++ ": " ++ g.message := by
  let m : MigrationSettings := { operation := .encodeQueues }
  have hopening : (opening (.routeManager threeClient) (.routeManager threeClient) m
      threeWorld).1.toOption =
        some (threeDocument, some "./OriginalRoutesT.json") := by decide +kernel
  have hretained : (outcome m threeRoutes).routes.length = 2 := by decide +kernel
  have hfetches : (Source.routeManager threeClient).fetches.length = 1 := by decide +kernel
  obtain ⟨result, sent, last, hrun, hrequests, hends, hmessage, -⟩ :=
    migrate_in_order (m := m) (by decide) address_threeClient rfl
      (Action.eq_of_toOption hopening) parse_threeDocument
  rw [hfetches, hretained] at hends
  rw [hretained] at hmessage
  have hcut : ¬ (replyAt (threeReplies.drop 1) 1).accepted := by decide
  cases hends with
  | through hall => exact absurd (hall 1 (hretained ▸ Nat.one_lt_two)) hcut
  | @stopped before after r g hsplit hall hrefused hfailure =>
    have hone : before.length = 1 := by
      have hsecond : ¬ 1 < before.length := fun hlt => absurd (hall 1 hlt) hcut
      have hfirst : before.length ≠ 0 := by
        intro hzero
        rw [hzero] at hrefused
        exact absurd hrefused (by decide)
      omega
    have hsent : (before ++ [r]).length = 2 := by
      rw [List.length_append, hone]
      rfl
    obtain ⟨g, hg⟩ := hmessage _ rfl
    rw [hsent] at hg
    exact ⟨_, g, last, _, before ++ [r], hrun, hsent, hrequests, hg⟩

end Migration

end RouteMigration
