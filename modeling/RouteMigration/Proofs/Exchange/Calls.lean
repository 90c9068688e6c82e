import RouteMigration.Exchange.Client
import RouteMigration.Proofs.World.Action

/-! Calls of a route manager. A call asks one thing at most, and what comes of it depends on
the address and on the next reply alone. -/

namespace RouteMigration

/-- A line that says a call is begun. -/
def LogLine.isCall (l : LogLine) : Bool := l.origin == .routeManager && l.level == .debug

/-- The world in which this request was made, and these replies are left. -/
def World.asked (w : World) (r : Request) (left : List Reply) : World :=
  { w with replies := some left, requests := w.requests ++ [r] }

/-- The way from one world to another: these calls were begun, these requests were made and
answered, and files stay as they are. -/
structure World.Asks (w : World) (calls : List LogLine) (made : List Request) (w' : World) :
    Prop where
  files : w'.files = w.files
  requests : w'.requests = w.requests ++ made
  replies : w'.replies = w.replies.map (·.drop made.length)
  log : ∃ lines, w'.log = w.log ++ lines ∧ lines.filter LogLine.isCall = calls

namespace World

theorem Asks.noting (w : World) (lines : List LogLine) :
    w.Asks (lines.filter LogLine.isCall) [] (w.noting lines) :=
  ⟨rfl, (List.append_nil _).symm, by simp, lines, rfl, rfl⟩

theorem Asks.quiet (w : World) {lines : List LogLine}
    (h : lines.filter LogLine.isCall = []) : w.Asks [] [] (w.noting lines) :=
  h ▸ Asks.noting w lines

theorem Asks.turned (w : World) (turns : List Nat) : w.Asks [] [] { w with turns } :=
  ⟨rfl, (List.append_nil _).symm, by simp, [], (List.append_nil _).symm, rfl⟩

theorem Asks.refl (w : World) : w.Asks [] [] w := .turned w w.turns

theorem Asks.arrived (w : World) (arrived : List Route) : w.Asks [] [] { w with arrived } :=
  ⟨rfl, (List.append_nil _).symm, by simp, [], (List.append_nil _).symm, rfl⟩

theorem Asks.asked {w : World} {replies : List Reply} (hw : w.replies = some replies)
    (r : Request) : w.Asks [] [r] (w.asked r replies.tail) :=
  ⟨rfl, rfl, by simp [World.asked, hw], [], (List.append_nil _).symm, rfl⟩

theorem Asks.trans {w₁ w₂ w₃ : World} {calls more : List LogLine} {made later : List Request}
    (h : w₁.Asks calls made w₂) (h' : w₂.Asks more later w₃) :
    w₁.Asks (calls ++ more) (made ++ later) w₃ := by
  obtain ⟨lines, hlines, hcalls⟩ := h.log
  obtain ⟨lines', hlines', hmore⟩ := h'.log
  refine ⟨h'.files.trans h.files, ?_, ?_, lines ++ lines', ?_, ?_⟩
  · rw [h'.requests, h.requests, List.append_assoc]
  · rw [h'.replies, h.replies, Option.map_map, List.length_append]
    exact congrArg (Option.map · w₁.replies) (funext fun l => List.drop_drop)
  · rw [hlines', hlines, List.append_assoc]
  · rw [List.filter_append, hcalls, hmore]

theorem Asks.replies_eq {w w' : World} {calls : List LogLine} (h : w.Asks calls [] w') :
    w'.replies = w.replies := by
  rw [h.replies]
  simp

end World

/-- A success that arrives in full. -/
def Reply.accepted (r : Reply) : Bool := r.status.isSuccess && !r.isCutShort

@[simp] theorem Reply.accepted_empty : Reply.empty.accepted = true := rfl

namespace Client

def request (c : Client) (method : Method) (a : WebAddress) (contentType : Option String)
    (body : String) : Request :=
  ⟨method, a.target, c.credentials.authorization, contentType, body⟩

/-! ## Asking -/

theorem ask_badAddress {url : String} {f : Failure} (hurl : address url = .error f) (c : Client)
    (method : Method) (contentType : Option String) (body : String) (w : World) :
    c.ask method url contentType body w = (.error (f.within (.neverMade method url)), w) := by
  refine Action.within_of_error (Action.bind_of_error ?_)
  rw [hurl]
  rfl

/-- Nobody listens at the address. -/
def unreachable (a : WebAddress) : Failure :=
  ⟨.sendingTo a.text, [.connecting, .connectingByTcp, .connectionRefused]⟩

theorem ask_unreachable {url : String} {a : WebAddress} (hurl : address url = .ok a) {w : World}
    (hw : w.replies = none) (c : Client) (method : Method) (contentType : Option String)
    (body : String) :
    c.ask method url contentType body w =
      (.error ((unreachable a).within (.neverMade method url)), w) := by
  have hnone : ∀ r, Action.exchange a.text r w = (.error (unreachable a), w) := by
    intro r
    rw [Action.exchange, hw]
    rfl
  refine Action.within_of_error ?_
  rw [hurl, Action.attempt_bind_apply]
  exact Action.bind_of_error (hnone _)

theorem exchange_apply {w : World} {replies : List Reply} (hw : w.replies = some replies)
    (url : String) (r : Request) :
    Action.exchange url r w = (.ok (replies.head?.getD .empty), w.asked r replies.tail) := by
  rw [Action.exchange, hw]
  rfl

theorem ask_apply {url : String} {a : WebAddress} (hurl : address url = .ok a) {w : World}
    {replies : List Reply} (hw : w.replies = some replies) (c : Client) (method : Method)
    (contentType : Option String) (body : String) :
    c.ask method url contentType body w = (.ok ⟨a, replies.head?.getD .empty⟩,
      w.asked (c.request method a contentType body) replies.tail) := by
  refine Action.within_of_ok ?_
  rw [hurl, Action.attempt_bind_apply, Action.bind_of_ok (exchange_apply hw _ _)]
  rfl

/-- A call that was answered found an address and a listener. -/
theorem of_ask_ok {c : Client} {method : Method} {url : String} {contentType : Option String}
    {body : String} {x : Answer} {w w' : World}
    (h : c.ask method url contentType body w = (.ok x, w')) :
    ∃ a replies, address url = .ok a ∧ w.replies = some replies ∧
      x = ⟨a, replies.head?.getD .empty⟩ ∧
        w' = w.asked (c.request method a contentType body) replies.tail := by
  cases hurl : address url with
  | error f =>
    rw [ask_badAddress hurl] at h
    cases h
  | ok a =>
    cases hw : w.replies with
    | none =>
      rw [ask_unreachable hurl hw] at h
      cases h
    | some replies =>
      rw [ask_apply hurl hw] at h
      cases h
      exact ⟨a, replies, rfl, rfl, rfl, rfl⟩

/-- A call that was not answered asked nothing. -/
theorem of_ask_error {c : Client} {method : Method} {url : String} {contentType : Option String}
    {body : String} {f : Failure} {w w' : World}
    (h : c.ask method url contentType body w = (.error f, w')) : w' = w := by
  cases hurl : address url with
  | error f =>
    rw [ask_badAddress hurl] at h
    exact (Prod.ext_iff.mp h).2.symm
  | ok a =>
    cases hw : w.replies with
    | none =>
      rw [ask_unreachable hurl hw] at h
      exact (Prod.ext_iff.mp h).2.symm
    | some replies =>
      rw [ask_apply hurl hw] at h
      cases h

/-! ## Reading the answer -/

/-- What an answer makes of the call. -/
def outcome (method : Method) (url : String) (x : Answer) : Except Failure String :=
  match bodyOf x.address.text x.reply with
  | .error f => .error (f.within (.bodyLost method url x.reply.status))
  | .ok text =>
    if x.reply.status.isSuccess then .ok text
    else .error ⟨.refused method url x.reply.status text, []⟩

theorem outcome_ok_iff {method : Method} {url : String} {x : Answer} :
    (∃ text, outcome method url x = .ok text) ↔ x.reply.accepted := by
  unfold outcome bodyOf Reply.accepted
  cases x.reply.isCutShort <;> cases x.reply.status.isSuccess <;> simp

theorem read_apply (method : Method) (url : String) (x : Answer) (w : World) :
    ∃ lines, read method url x w = (outcome method url x, w.noting lines) ∧
      lines.filter LogLine.isCall = [] := by
  unfold read outcome
  cases hbody : bodyOf x.address.text x.reply with
  | error f =>
    refine ⟨[], ?_, rfl⟩
    rw [World.noting_nil]
    exact Action.bind_of_error (Action.within_of_error rfl)
  | ok text =>
    refine ⟨[⟨.trace, .routeManager, "📬 " ++ method.name ++ " " ++ url ++ " → " ++
      x.reply.status.text ++ " (" ++ toString text.utf8ByteSize ++ " bytes)"⟩], ?_, rfl⟩
    refine (Action.bind_of_ok (Action.within_of_ok (Action.attempt_apply _ _))).trans ?_
    refine (Action.log_bind_apply _ _ _ _ _).trans ?_
    dsimp only
    cases x.reply.status.isSuccess <;> rfl

/-! ## Fetching -/

def fetchUrl (c : Client) : String := c.base ++ "/routes"

/-- The line that begins the call for all routes. -/
def call (c : Client) : LogLine := ⟨.debug, .routeManager, "📡 GET " ++ c.fetchUrl⟩

/-- The requests that the call for all routes makes: one, if there is an address to ask. -/
def fetches (c : Client) : List Request :=
  match address c.fetchUrl with
  | .ok a => [c.request .get a none ""]
  | .error _ => []

theorem method_of_mem_fetches {c : Client} {q : Request} (h : q ∈ c.fetches) :
    q.method = .get := by
  unfold fetches at h
  split at h
  · obtain rfl := List.mem_singleton.mp h
    rfl
  · cases h

/-- The document with all routes arrives in full. -/
def Sends (c : Client) (w : World) (document : String) : Prop :=
  ∃ a replies, address c.fetchUrl = .ok a ∧ w.replies = some replies ∧
    outcome .get c.fetchUrl ⟨a, replies.head?.getD .empty⟩ = .ok document

theorem fetchRoutes_eq (c : Client) (w : World) :
    c.fetchRoutes w = (c.ask .get c.fetchUrl none "" >>= read .get c.fetchUrl)
      (w.noting [c.call]) := Action.log_bind_apply _ _ _ _ _

theorem asks_call (c : Client) (w : World) : w.Asks [c.call] [] (w.noting [c.call]) :=
  World.Asks.noting w [c.call]

theorem fetchRoutes_apply {c : Client} {a : WebAddress} (hurl : address c.fetchUrl = .ok a)
    {w : World} {replies : List Reply} (hw : w.replies = some replies) :
    ∃ w', c.fetchRoutes w = (outcome .get c.fetchUrl ⟨a, replies.head?.getD .empty⟩, w') ∧
      w.Asks [c.call] c.fetches w' ∧ w'.stamp = w.stamp := by
  have hcalling : (w.noting [c.call]).replies = some replies := hw
  have hask := ask_apply hurl hcalling c .get none ""
  let asked := (w.noting [c.call]).asked (c.request .get a none "") replies.tail
  obtain ⟨lines, hread, hquiet⟩ :=
    read_apply .get c.fetchUrl ⟨a, replies.head?.getD .empty⟩ asked
  refine ⟨asked.noting lines, ?_, ?_, rfl⟩
  · rw [fetchRoutes_eq, Action.bind_of_ok hask]
    exact hread
  · have hasked : w.Asks [c.call] [c.request .get a none ""] asked :=
      (c.asks_call w).trans (.asked hcalling _)
    have hasks := hasked.trans (.noting asked lines)
    rw [hquiet] at hasks
    rw [fetches, hurl]
    exact hasks

theorem fetchRoutes_fails {c : Client} {w : World} (h : ∀ document, ¬ c.Sends w document) :
    ∃ f made w', c.fetchRoutes w = (.error f, w') ∧ w.Asks [c.call] made w' ∧
      (made = [] ∨ made = c.fetches) := by
  have hunasked : ∀ {f : Failure}, c.ask .get c.fetchUrl none "" (w.noting [c.call]) =
      (.error f, w.noting [c.call]) → ∃ f made w', c.fetchRoutes w = (.error f, w') ∧
        w.Asks [c.call] made w' ∧ (made = [] ∨ made = c.fetches) := by
    intro f hask
    refine ⟨f, [], _, ?_, c.asks_call w, .inl rfl⟩
    rw [fetchRoutes_eq, Action.bind_of_error hask]
  cases hurl : address c.fetchUrl with
  | error f => exact hunasked (ask_badAddress hurl c .get none "" _)
  | ok a =>
    cases hw : w.replies with
    | none => exact hunasked (ask_unreachable hurl (show (w.noting [c.call]).replies = none from hw)
        c .get none "")
    | some replies =>
      obtain ⟨w', hrun, hasks, -⟩ := fetchRoutes_apply hurl hw
      cases houtcome : outcome .get c.fetchUrl ⟨a, replies.head?.getD .empty⟩ with
      | ok document => exact absurd ⟨a, replies, hurl, hw, houtcome⟩ (h document)
      | error f =>
        rw [houtcome] at hrun
        exact ⟨f, _, w', hrun, hasks, .inr rfl⟩

/-- What was fetched is what was sent. -/
theorem of_fetchRoutes_ok {c : Client} {w w' : World} {document : String}
    (h : c.fetchRoutes w = (.ok document, w')) :
    c.Sends w document ∧ w.Asks [c.call] c.fetches w' ∧ w'.stamp = w.stamp := by
  by_cases hsends : ∃ document, c.Sends w document
  · obtain ⟨text, a, replies, hurl, hw, houtcome⟩ := hsends
    obtain ⟨w₁, hrun, hasks⟩ := fetchRoutes_apply hurl hw
    rw [houtcome, h] at hrun
    cases hrun
    exact ⟨⟨a, replies, hurl, hw, houtcome⟩, hasks⟩
  · obtain ⟨f, made, w₁, hrun, -⟩ := fetchRoutes_fails (not_exists.mp hsends)
    cases h.symm.trans hrun

/-! ## Updates -/

/-- The line that begins an update. -/
def notice (c : Client) (r : Route) : LogLine :=
  ⟨.debug, .routeManager,
    "📡 PUT " ++ c.updateUrl ++ " for route '" ++ r.name ++ "' (" ++ r.uuid ++ ")"⟩

/-- The request of an update. -/
def update (c : Client) (a : WebAddress) (r : Route) : Request :=
  c.request .put a (some "application/x-www-form-urlencoded") r.formBody

theorem announceUpdate_apply (c : Client) (r : Route) (w : World) :
    c.announceUpdate r w = (.ok (), w.noting [c.notice r]) := rfl

theorem askUpdate_apply {c : Client} {a : WebAddress} (hurl : address c.updateUrl = .ok a)
    {w : World} {replies : List Reply} (hw : w.replies = some replies) (r : Route) :
    c.askUpdate r w = (.ok ⟨a, replies.head?.getD .empty⟩, w.asked (c.update a r) replies.tail) :=
  Action.within_of_ok (ask_apply hurl hw c _ _ _)

theorem of_askUpdate_ok {c : Client} {r : Route} {x : Answer} {w w' : World}
    (h : c.askUpdate r w = (.ok x, w')) :
    ∃ a replies, address c.updateUrl = .ok a ∧ w.replies = some replies ∧
      x = ⟨a, replies.head?.getD .empty⟩ ∧ w' = w.asked (c.update a r) replies.tail :=
  of_ask_ok (Action.within_eq_ok_iff.mp h)

theorem of_askUpdate_error {c : Client} {r : Route} {f : Failure} {w w' : World}
    (h : c.askUpdate r w = (.error f, w')) : w' = w := by
  obtain ⟨g, hask⟩ := Action.of_within_error h
  exact of_ask_error hask

/-- What an answer makes of an update. -/
def updateOutcome (c : Client) (r : Route) (x : Answer) : Except Failure Unit :=
  match outcome .put c.updateUrl x with
  | .ok _ => .ok ()
  | .error f => .error (f.within (.notUpdated r.name r.uuid))

theorem updateOutcome_ok_iff {c : Client} {r : Route} {x : Answer} :
    updateOutcome c r x = .ok () ↔ x.reply.accepted := by
  have hiff : (∃ text, outcome .put c.updateUrl x = .ok text) ↔ x.reply.accepted :=
    outcome_ok_iff
  rw [← hiff, updateOutcome]
  cases outcome .put c.updateUrl x <;> simp

theorem readUpdate_apply (c : Client) (r : Route) (x : Answer) (w : World) :
    ∃ lines, c.readUpdate r x w = (c.updateOutcome r x, w.noting lines) ∧
      lines.filter LogLine.isCall = [] := by
  obtain ⟨lines, hread, hquiet⟩ := read_apply .put c.updateUrl x w
  refine ⟨lines, ?_, hquiet⟩
  unfold updateOutcome
  cases houtcome : outcome .put c.updateUrl x with
  | ok text =>
    rw [houtcome] at hread
    exact Action.bind_of_ok (Action.within_of_ok hread)
  | error f =>
    rw [houtcome] at hread
    exact Action.bind_of_error (Action.within_of_error hread)

end Client

end RouteMigration
