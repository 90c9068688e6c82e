import Mathlib.Data.List.Forall2
import RouteMigration.Migration
import RouteMigration.Proofs.Exchange.Base64
import RouteMigration.Proofs.Migration.Submission
import RouteMigration.Proofs.World.Alike

/-! What a password reaches: the header that requests are signed with, and nothing else. Two
clients that sign differently are followed through a whole run, failures and all. -/

namespace RouteMigration

variable {earlier : List Request} {a b : String}

/-! ## The ends of a run -/

/-- Clients of one route manager, of which the first signs with `a` and the other with `b`. -/
structure Client.Alike (a b : String) (c d : Client) : Prop where
  base : d.base = c.base
  left : c.credentials.authorization = a
  right : d.credentials.authorization = b

namespace Client

theorem read_alike (method : Method) (url : String) (x : Answer) :
    Action.Alike earlier a b Eq (read method url x) (read method url x) := by
  refine ((Action.blind_attempt _).alike.within _).bind_eq fun text => ?_
  refine (Action.blind_log _ _ _).alike.bind_eq fun _ => ?_
  split
  · exact (Action.blind_attempt _).alike.bind_eq fun _ => .pure rfl
  · exact .pure rfl

variable {c d : Client} (h : c.Alike a b d)
include h

theorem Alike.updateUrl : d.updateUrl = c.updateUrl := by
  rw [Client.updateUrl, Client.updateUrl, h.base]

theorem Alike.ask (method : Method) (url : String) (contentType : Option String)
    (body : String) : Action.Alike earlier a b Eq (c.ask method url contentType body)
      (d.ask method url contentType body) := by
  refine .within ((Action.blind_attempt _).alike.bind_eq fun address => ?_) _
  refine .bind_eq ?_ fun reply => .pure rfl
  rw [h.right]
  exact Action.alike_exchange _ h.left

theorem Alike.fetchRoutes : Action.Alike earlier a b Eq c.fetchRoutes d.fetchRoutes := by
  unfold Client.fetchRoutes
  rw [h.base]
  refine (Action.blind_log _ _ _).alike.bind_eq fun _ => ?_
  exact (h.ask _ _ _ _).bind_eq fun x => read_alike _ _ x

theorem Alike.announceUpdate (r : Route) :
    Action.Alike earlier a b Eq (c.announceUpdate r) (d.announceUpdate r) := by
  unfold Client.announceUpdate
  rw [h.updateUrl]
  exact (Action.blind_log _ _ _).alike

theorem Alike.askUpdate (r : Route) :
    Action.Alike earlier a b Eq (c.askUpdate r) (d.askUpdate r) := by
  unfold Client.askUpdate
  rw [h.updateUrl]
  exact (h.ask _ _ _ _).within _

theorem Alike.readUpdate (r : Route) (x : Answer) :
    Action.Alike earlier a b Eq (c.readUpdate r x) (d.readUpdate r x) := by
  unfold Client.readUpdate
  rw [h.updateUrl]
  exact ((read_alike _ _ x).within _).bind_eq fun _ => .pure rfl

end Client

inductive Source.Alike (a b : String) : Source → Source → Prop
  | memory (document : String) : Alike a b (.memory document) (.memory document)
  | file (path : String) : Alike a b (.file path) (.file path)
  | routeManager {c d : Client} : c.Alike a b d → Alike a b (.routeManager c) (.routeManager d)

namespace Source.Alike

variable {s t : Source} (h : s.Alike a b t)
include h

theorem describe : t.describe = s.describe := by
  cases h with
  | memory | file => rfl
  | routeManager hc => rw [Source.describe, Source.describe, hc.base]

theorem isRemote : t.isRemote = s.isRemote := by
  cases h <;> rfl

theorem load : Action.Alike earlier a b Eq s.load t.load := by
  cases h with
  | memory document => exact .pure rfl
  | file path =>
    exact (Action.blind_log _ _ _).alike.bind_eq fun _ => (Action.blind_readText _ path).alike
  | routeManager hc => exact hc.fetchRoutes

end Source.Alike

inductive Sink.Alike (a b : String) : Sink → Sink → Prop
  | memory (received : List Route) : Alike a b (.memory received) (.memory received)
  | file (path : String) (received : List Route) :
      Alike a b (.file path received) (.file path received)
  | routeManager {c d : Client} : c.Alike a b d → Alike a b (.routeManager c) (.routeManager d)

namespace Sink.Alike

variable {s t : Sink} (h : s.Alike a b t)
include h

theorem describe : t.describe = s.describe := by
  cases h with
  | memory | file => rfl
  | routeManager hc => rw [Sink.describe, Sink.describe, hc.base]

theorem limit (m : MigrationSettings) : Submission.limit t m = Submission.limit s m := by
  cases h <;> rfl

theorem announce (r : Route) : Action.Alike earlier a b Eq (s.announce r) (t.announce r) := by
  cases h with
  | memory | file => exact .pure rfl
  | routeManager hc => exact hc.announceUpdate r

theorem take (r : Route) :
    Action.Alike earlier a b (fun x y => x.1.Alike a b y.1 ∧ x.2 = y.2) (s.take r)
      (t.take r) := by
  cases h with
  | memory received =>
    exact (Action.blind_arrive r).alike.bind_eq fun _ => .pure ⟨.memory _, rfl⟩
  | file path received => exact .pure ⟨.file path _, rfl⟩
  | routeManager hc =>
    exact (hc.askUpdate r).bind_eq fun x => .pure ⟨.routeManager hc, rfl⟩

theorem settle (r : Route) (answer? : Option Client.Answer) :
    Action.Alike earlier a b Eq (s.settle r answer?) (t.settle r answer?) := by
  cases h with
  | memory | file => cases answer? <;> exact .pure rfl
  | routeManager hc =>
    cases answer? with
    | none => exact .pure rfl
    | some x => exact hc.readUpdate r x

theorem close : Action.Alike earlier a b Eq s.close t.close := by
  cases h with
  | memory | routeManager => exact .pure rfl
  | file path received =>
    exact (Action.blind_writeText _ _ _).alike.bind_eq fun _ => (Action.blind_log _ _ _).alike

end Sink.Alike

/-! ## The run -/

theorem Backup.write_alike (dir document : String) :
    Action.Alike earlier a b Eq (write dir document) (write dir document) := by
  refine (Action.blind_makeDirectories _ dir).alike.bind_eq fun _ => ?_
  refine Action.alike_get.bind fun v w hw => ?_
  obtain ⟨made, -, -, rfl⟩ := hw
  refine (Action.blind_writeText _ _ _).alike.bind_eq fun _ => ?_
  exact (Action.blind_log _ _ _).alike.bind_eq fun _ => .pure rfl

/-- However many steps the submissions take, whichever of them is next: the two sinks are asked
the same, and answer the same. -/
theorem Submission.runFrom_alike (limit total done : Nat) {s t : Sink} (h : s.Alike a b t)
    (flights : List Flight) (waiting : List Route) :
    Action.Alike earlier a b (Sink.Alike a b) (runFrom limit done total s flights waiting)
      (runFrom limit done total t flights waiting) := by
  induction done, s, flights, waiting using runFrom.induct limit generalizing t with
  | case1 done s flights waiting ihBegin ihTake ihSettle =>
    rw [runFrom_eq, runFrom_eq]
    refine Action.blind_turn.alike.bind_eq fun turn => ?_
    cases hmove : move? limit turn flights waiting with
    | none => exact .pure h
    | some m =>
      cases m with
      | begin r rest => exact (h.announce r).bind_eq fun _ => ihBegin turn r rest hmove h
      | take before r after =>
        rw [moveOn, moveOn, h.describe]
        refine ((h.take r).within _).bind ?_
        rintro ⟨s', answer?⟩ ⟨t', _⟩ ⟨hs, rfl⟩
        exact ihTake turn before r after hmove s' answer? hs
      | settle before r answer? after =>
        rw [moveOn, moveOn, h.describe]
        exact ((h.settle r answer?).within _).bind_eq fun _ =>
          ihSettle turn before r answer? after hmove h

namespace Migration

section
variable {s t : Source} {k l : Sink} (hsource : s.Alike a b t) (hsink : k.Alike a b l)
include hsource

theorem fetch_alike (m : MigrationSettings) :
    Action.Alike earlier a b Eq (fetch s m) (fetch t m) := by
  unfold fetch
  rw [hsource.describe, hsource.isRemote]
  refine (hsource.load.within _).bind_eq fun document => ?_
  split
  · exact (Backup.write_alike _ _).bind_eq fun path => .pure rfl
  · exact .pure rfl

theorem transform_alike (m : MigrationSettings) (routes : List Route) :
    Action.Alike earlier a b Eq (transform s m routes) (transform t m routes) := by
  unfold transform
  rw [hsource.describe]
  split
  · exact (Action.blind_log _ _ _).alike.bind_eq fun _ => .pure rfl
  · exact (Action.blind_noting _).alike.bind_eq fun _ => .pure rfl

include hsink

theorem delivery_alike (m : MigrationSettings) (document : String) (backup : Option String) :
    Action.Alike earlier a b (fun x y => x.1 = y.1) (delivery s k m document backup)
      (delivery t l m document backup) := by
  unfold delivery
  rw [hsource.describe, hsink.limit]
  refine (Action.blind_attempt _).alike.bind_eq fun routes => ?_
  refine (Action.blind_log _ _ _).alike.bind_eq fun _ => ?_
  refine (transform_alike hsource m routes).bind_eq fun outcome => ?_
  refine .optional (Action.blind_log _ _ _).alike ?_
  refine (Submission.runFrom_alike _ _ 0 hsink [] outcome.routes).bind fun k' l' hsink' => ?_
  rw [hsink'.describe]
  refine (hsink'.close.within _).bind_eq fun _ => ?_
  exact (Action.blind_log _ _ _).alike.bind_eq fun _ => .pure rfl

theorem opening_alike (m : MigrationSettings) :
    Action.Alike earlier a b Eq (opening s k m) (opening t l m) := by
  unfold opening
  rw [hsource.describe, hsink.describe]
  exact (Action.blind_log _ _ _).alike.bind_eq fun _ => fetch_alike hsource m

theorem migrate_alike (m : MigrationSettings) :
    Action.Alike earlier a b (fun x y => x.1 = y.1) (migrate s k m) (migrate t l m) :=
  (opening_alike hsource hsink m).bind_eq fun x => delivery_alike hsource hsink m x.1 x.2

end

end Migration

/-- The same settings, with this password for the route manager. -/
def Settings.withPassword (s : Settings) (password : String) : Settings :=
  { s with routeManager := { s.routeManager with password := some password } }

namespace Migration

section
variable {s : Settings} {username : String} (hs : s.routeManager.username = some username)
  (p q : String)
include hs

theorem ends_alike :
    Action.Alike earlier (Credentials.authorization ⟨username, p⟩)
      (Credentials.authorization ⟨username, q⟩)
      (fun x y => x.1.Alike (Credentials.authorization ⟨username, p⟩)
          (Credentials.authorization ⟨username, q⟩) y.1 ∧
        x.2.Alike (Credentials.authorization ⟨username, p⟩)
          (Credentials.authorization ⟨username, q⟩) y.2)
      (ends (s.withPassword p)) (ends (s.withPassword q)) := by
  have hclient : (Client.new s.routeManager.baseUrl ⟨username, p⟩).Alike
      (Credentials.authorization ⟨username, p⟩) (Credentials.authorization ⟨username, q⟩)
      (Client.new s.routeManager.baseUrl ⟨username, q⟩) := ⟨rfl, rfl, rfl⟩
  have hresolve : ∀ password : String, Credentials.resolve s.routeManager.username (some password)
      s.routeManager.credentialsFile s.migration.queueEnvironment = pure ⟨username, password⟩ := by
    intro password
    rw [hs]
    rfl
  unfold ends Settings.withPassword
  dsimp only
  rw [hresolve, hresolve]
  cases s.source with
  | routeManager =>
    cases s.sink with
    | routeManager => exact .pure ⟨.routeManager hclient, .routeManager hclient⟩
    | file path => exact .pure ⟨.routeManager hclient, .file path []⟩
    | discard => exact .pure ⟨.routeManager hclient, .memory []⟩
  | file path =>
    cases s.sink with
    | routeManager => exact .pure ⟨.file path, .routeManager hclient⟩
    | file path' => exact .pure ⟨.file path, .file path' []⟩
    | discard => exact .pure ⟨.file path, .memory []⟩

theorem run_alike :
    Action.Alike earlier (Credentials.authorization ⟨username, p⟩)
      (Credentials.authorization ⟨username, q⟩) Eq (run (s.withPassword p))
      (run (s.withPassword q)) := by
  refine (ends_alike hs p q).bind fun x y hxy => ?_
  exact (migrate_alike hxy.1 hxy.2 s.migration).bind fun _ _ heq => .pure heq

end

/-- Two requests that are the same, but for what they are signed with; and that only of equal
passwords. -/
def SameButSigned (p q : String) (r r' : Request) : Prop :=
  r' = r.signed r'.authorization ∧ (r'.authorization = r.authorization → p = q)

/-- Of every settings with a username, whatever else they say, in every world: with one password
or with another, a run comes to the same result or to the same failure, says the same in the log,
and leaves the same files. It makes the same requests, too, but for what they are signed with, and
that tells the passwords apart. -/
theorem run_password {s : Settings} {username : String}
    (hs : s.routeManager.username = some username) (p q : String) (w : World) :
    (run (s.withPassword p) w).1 = (run (s.withPassword q) w).1 ∧
    ((run (s.withPassword p)).after w).files = ((run (s.withPassword q)).after w).files ∧
    (run (s.withPassword q)).after w = { (run (s.withPassword p)).after w with
      requests := ((run (s.withPassword q)).after w).requests } ∧
    ∃ made made', ((run (s.withPassword p)).after w).requests = w.requests ++ made ∧
      ((run (s.withPassword q)).after w).requests = w.requests ++ made' ∧
      List.Forall₂ (SameButSigned p q) made made' := by
  have hsame : w.Alike w.requests (Credentials.authorization ⟨username, p⟩)
      (Credentials.authorization ⟨username, q⟩) w :=
    ⟨[], fun _ hr => absurd hr List.not_mem_nil, (List.append_nil _).symm, by simp⟩
  obtain ⟨hresult, made, hmade, hfirst, hsecond⟩ := (run_alike hs p q w w hsame).same
  unfold Action.after
  refine ⟨hresult, by rw [hsecond], by rw [hsecond], made, _, hfirst,
    congrArg World.requests hsecond, ?_⟩
  rw [List.forall₂_map_right_iff, List.forall₂_same]
  intro r hr
  refine ⟨rfl, fun hsigned => ?_⟩
  have hauthorization : Credentials.authorization ⟨username, q⟩ =
      Credentials.authorization ⟨username, p⟩ := hsigned.trans (hmade r hr)
  exact (Credentials.authorization_inj hauthorization).symm

/-! One call that is refused: the failures are one, and the headers are two. -/

def guardedSettings : Settings where
  routeManager := { baseUrl := "http://x", username := some "u" }
  migration := { operation := .encodeQueues }

def guardedWorld : World where
  files := ⟨[], []⟩
  replies := some [⟨⟨401⟩, "not u:p", 0⟩]

/-- What the requests of a run with this password are signed with. -/
def signatures (password : String) : List String :=
  ((run (guardedSettings.withPassword password)).after guardedWorld).requests.map
    Request.authorization

theorem run_password_refused :
    guardedSettings.routeManager.username = some "u" ∧
    (run (guardedSettings.withPassword "p") guardedWorld).1 =
      (run (guardedSettings.withPassword "q") guardedWorld).1 ∧
    signatures "p" = ["Basic dTpw"] ∧ signatures "q" = ["Basic dTpx"] := by
  have husername : guardedSettings.routeManager.username = some "u" := rfl
  have hsigned : signatures "p" = ["Basic dTpw"] ∧ signatures "q" = ["Basic dTpx"] := by
    decide +kernel
  obtain ⟨hresult, -⟩ := run_password husername "p" "q" guardedWorld
  exact ⟨husername, hresult, hsigned⟩

end Migration

end RouteMigration
