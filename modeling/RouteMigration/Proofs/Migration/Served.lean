import RouteMigration.Migration
import RouteMigration.Proofs.Credentials.Account
import RouteMigration.Proofs.Exchange.Calls
import RouteMigration.Proofs.Exchange.Callable
import RouteMigration.Proofs.Migration.Submission
import RouteMigration.Proofs.World.Served

/-! A whole run where a route manager answers. The steps of a run are followed one by one: once a
call could be made, all others can be, and a complete answer is never taken for a lost one. -/

namespace RouteMigration

variable {callable known : Prop}

/-! ## Calls -/

/-- An answer that arrived in full. -/
def Client.Answer.IsWhole (x : Client.Answer) : Prop := x.reply.isCutShort = false

/-- The calls of the client have addresses. -/
def Client.IsCallable (c : Client) : Prop := ∃ a, address c.updateUrl = .ok a

namespace Client

theorem served_ask {url : String} (hurl : (∃ a, address url = .ok a) ↔ callable) (c : Client)
    (method : Method) (contentType : Option String) (body : String) :
    Action.Served callable known Answer.IsWhole (c.ask method url contentType body) := by
  intro w hw
  obtain ⟨replies, hreplies⟩ := Option.isSome_iff_exists.mp hw
  cases haddress : address url with
  | error f =>
    have hnot : ¬ callable := by
      rw [← hurl, haddress]
      rintro ⟨a, ha⟩
      cases ha
    rw [Action.after, ask_badAddress haddress]
    exact ⟨0, .still rfl rfl rfl, fun hne => absurd rfl hne, fun hc => absurd hc hnot⟩
  | ok a =>
    rw [Action.after, ask_apply haddress hreplies]
    refine ⟨1, ⟨⟨[_], rfl, rfl⟩, ?_, [], (List.append_nil _).symm,
      fun _ hl => absurd hl List.not_mem_nil⟩, fun _ => hurl.mp ⟨a, haddress⟩,
      fun _ _ hwhole => .ok ?_⟩
    · rw [hreplies, Option.map_some, List.drop_one]
      rfl
    · cases replies with
      | nil => rfl
      | cons r rest => exact hwhole _ hreplies r List.mem_cons_self

theorem served_read (method : Method) (url : String) (x : Answer) (hx : known → x.IsWhole) :
    Action.Served callable known (fun _ => True) (read method url x) := by
  have hbody : Action.Served callable known (fun _ => True)
      (Action.within (.bodyLost method url x.reply.status)
        (Action.attempt (bodyOf x.address.text x.reply))) := by
    refine Action.served_of_quiet (fun w => ?_) fun hk w f hf => ?_
    · rw [Action.after_within]
      exact .still rfl rfl rfl
    · have hwhole : x.reply.isCutShort = false := hx hk
      have hread : Action.attempt (bodyOf x.address.text x.reply) w = (.ok x.reply.text, w) := by
        rw [bodyOf, hwhole]
        rfl
      rw [Action.within_of_ok hread] at hf
      cases hf
  refine hbody.andThen fun text => ?_
  refine (Action.served_log (by decide) _ _).andThen fun _ => ?_
  split
  · exact (Action.served_fail rfl).andThen fun _ => .done
  · exact .done

variable {c : Client} (h : c.IsCallable ↔ callable)
include h

theorem served_fetchRoutes : Action.Served callable known (fun _ => True) c.fetchRoutes := by
  refine (Action.served_log (by decide) _ _).andThen fun _ => ?_
  refine (served_ask (c.callable_iff.trans h) c _ _ _).bind fun x _ => ?_
  exact served_read _ _ x And.right

theorem served_askUpdate (r : Route) :
    Action.Served callable known Answer.IsWhole (c.askUpdate r) :=
  (served_ask h c _ _ _).within rfl

omit h

theorem served_readUpdate (r : Route) {x : Answer} (hx : known → x.IsWhole) :
    Action.Served callable known (fun _ => True) (c.readUpdate r x) :=
  ((served_read _ _ x hx).within rfl).andThen fun _ => .done

end Client

/-! ## The ends of a run -/

/-- If the source is a route manager, then its calls have addresses just in case. -/
def Source.Reaches (callable : Prop) : Source → Prop
  | .routeManager c => c.IsCallable ↔ callable
  | _ => True

/-- If the sink is a route manager, then its calls have addresses just in case. -/
def Sink.Reaches (callable : Prop) : Sink → Prop
  | .routeManager c => c.IsCallable ↔ callable
  | _ => True

theorem Source.served_load {s : Source} (h : s.Reaches callable) :
    Action.Served callable known (fun _ => True) s.load := by
  cases s with
  | memory document => exact .done
  | file path =>
    exact (Action.served_log (by decide) _ _).andThen fun _ => Action.served_readText rfl path
  | routeManager c => exact Client.served_fetchRoutes h

namespace Sink

theorem served_announce (s : Sink) (r : Route) :
    Action.Served callable known (fun _ => True) (s.announce r) := by
  cases s with
  | memory | file => exact .done
  | routeManager c => exact Action.served_log (by decide) _ _

theorem served_take {s : Sink} (h : s.Reaches callable) (r : Route) :
    Action.Served callable known (fun x => ∀ answer ∈ x.2, answer.IsWhole) (s.take r) := by
  cases s with
  | memory received =>
    exact (Action.served_arrive r).andThen fun _ => .pure fun _ _ hnone => nomatch hnone
  | file path received => exact .pure fun _ _ hnone => nomatch hnone
  | routeManager c =>
    refine (Client.served_askUpdate h r).bind fun x _ => .pure fun hx answer hanswer => ?_
    obtain rfl := Option.some.inj hanswer
    exact hx.2

@[simp] theorem reaches_taken (s : Sink) (routes : List Route) :
    (s.taken routes).Reaches callable ↔ s.Reaches callable := by
  cases s <;> exact Iff.rfl

theorem served_settle (s : Sink) (r : Route) {answer? : Option Client.Answer}
    (h : known → ∀ answer ∈ answer?, answer.IsWhole) :
    Action.Served callable known (fun _ => True) (s.settle r answer?) := by
  cases s with
  | memory | file => cases answer? <;> exact .done
  | routeManager c =>
    cases answer? with
    | none => exact .done
    | some x => exact Client.served_readUpdate r fun hk => h hk x rfl

theorem served_close (s : Sink) : Action.Served callable known (fun _ => True) s.close := by
  cases s with
  | memory | routeManager => exact .done
  | file path received =>
    exact (Action.served_writeText rfl _ _).andThen fun _ => Action.served_log (by decide) _ _

end Sink

/-! ## The run -/

theorem Backup.served_write (dir document : String) :
    Action.Served callable known (fun _ => True) (write dir document) := by
  refine (Action.served_makeDirectories rfl dir).andThen fun _ => ?_
  refine Action.served_get.andThen fun w => ?_
  refine (Action.served_writeText rfl _ _).andThen fun _ => ?_
  exact (Action.served_log (by decide) _ _).andThen fun _ => .done

/-- What the flight was answered, if it was, arrived in full. -/
def Flight.IsWhole : Flight → Prop
  | .begun _ => True
  | .taken _ answer? => ∀ x ∈ answer?, x.IsWhole

/-- However many steps the submissions take, whichever of them is next: none of them fails for
want of an answer, if none of those under way has been given half of one. -/
theorem Submission.served_runFrom (limit total done : Nat) {s : Sink} (h : s.Reaches callable)
    (flights : List Flight) (waiting : List Route) :
    Action.Served callable (∀ f ∈ flights, f.IsWhole) (fun _ => True)
      (runFrom limit done total s flights waiting) := by
  induction done, s, flights, waiting using runFrom.induct limit with
  | case1 done s flights waiting ihBegin ihTake ihSettle =>
    rw [runFrom_eq]
    refine Action.served_turn.andThen fun turn => ?_
    cases hmove : move? limit turn flights waiting with
    | none => exact .done
    | some m =>
      cases m with
      | begin r rest =>
        refine (s.served_announce r).andThen fun _ => (ihBegin turn r rest hmove h).imp ?_
        intro hwhole
        exact List.forall_mem_append.mpr ⟨hwhole, List.forall_mem_singleton.mpr trivial⟩
      | take before r after =>
        have hflights : flights = before ++ .begun r :: after := by
          cases move?_eq_some hmove with
          | take hflights => exact hflights
        refine ((Sink.served_take h r).within rfl).bind ?_
        rintro ⟨s', answer?⟩ ⟨w, hresult⟩
        have hs' : s'.Reaches callable := by
          obtain ⟨rfl, -⟩ := Sink.of_take_ok (Action.within_eq_ok_iff.mp (Prod.ext hresult rfl))
          exact (s.reaches_taken [r]).mpr h
        refine (ihTake turn before r after hmove s' answer? hs').imp ?_
        rintro ⟨hwhole, hanswer⟩
        rw [hflights, Flight.forall_focused] at hwhole
        exact Flight.forall_focused.mpr ⟨hanswer, hwhole.2⟩
      | settle before r answer? after =>
        have hflights : flights = before ++ .taken r answer? :: after := by
          cases move?_eq_some hmove with
          | settle hflights => exact hflights
        rw [hflights, Flight.forall_focused]
        refine ((s.served_settle r And.left).within rfl).andThen fun _ => ?_
        exact (ihSettle turn before r answer? after hmove h).imp And.right

namespace Migration

theorem remark?_level {op : Operation} {r : Route} {verdict : Verdict} {l : LogLine}
    (h : Batch.remark? op r verdict = some l) : l.level ≠ .error := by
  unfold Batch.remark? at h
  split at h
  · split at h
    · cases h
    · cases h
      simp
  · cases h
    simp
  · cases h
    simp

section
variable {s : Source} {k : Sink}

theorem served_fetch (h : s.Reaches callable) (m : MigrationSettings) :
    Action.Served callable known (fun _ => True) (fetch s m) := by
  refine ((Source.served_load h).within rfl).andThen fun document => ?_
  split
  · exact (Backup.served_write _ _).andThen fun path => .done
  · exact .done

theorem served_transform (m : MigrationSettings) (routes : List Route) :
    Action.Served callable known (fun _ => True) (transform s m routes) := by
  unfold transform
  split
  · exact (Action.served_log (by decide) _ _).andThen fun _ => .done
  · refine (Action.served_noting fun l hl => ?_).andThen fun _ => .done
    obtain ⟨r, -, hremark⟩ := List.mem_filterMap.mp hl
    exact remark?_level hremark

theorem served_delivery (h : k.Reaches callable) (m : MigrationSettings) (document : String)
    (backup : Option String) :
    Action.Served callable known (fun _ => True) (delivery s k m document backup) := by
  have hparse : Action.Served callable known (fun _ => True) (Action.attempt (parse document)) := by
    refine Action.served_attempt fun _ f hf => ?_
    unfold parse at hf
    split at hf
    · cases hf
    · cases hf
      exact List.forall_mem_cons.mpr ⟨rfl, List.forall_mem_singleton.mpr rfl⟩
  refine hparse.andThen fun routes => ?_
  refine (Action.served_log (by decide) _ _).andThen fun _ => ?_
  refine (served_transform m routes).andThen fun outcome => ?_
  refine .optional (Action.served_log (by decide) _ _) ?_
  refine ((Submission.served_runFrom _ _ 0 h [] outcome.routes).imp ?_).andThen fun k' => ?_
  · exact fun _ _ hf => absurd hf List.not_mem_nil
  refine (k'.served_close.within rfl).andThen fun _ => ?_
  exact (Action.served_log (by decide) _ _).andThen fun _ => .done

theorem served_migrate (hsource : s.Reaches callable) (hsink : k.Reaches callable)
    (m : MigrationSettings) : Action.Served callable known (fun _ => True) (migrate s k m) := by
  have hopening : Action.Served callable known (fun _ => True) (opening s k m) :=
    (Action.served_log (by decide) _ _).andThen fun _ => served_fetch hsource m
  exact hopening.andThen fun x => served_delivery hsink m x.1 x.2

end

end Migration

theorem Credentials.served_resolve (username? password? file? : Option String)
    (environment : String) : Action.Served callable known (fun _ => True)
      (resolve username? password? file? environment) := by
  have haccount : ∀ text f, ofProperties text environment = .error f → f.Answered := by
    intro text f hf
    rcases ofProperties_eq_error_iff.mp hf with ⟨-, rfl⟩ | ⟨-, -, rfl⟩
    · exact List.forall_mem_singleton.mpr rfl
    · exact List.forall_mem_singleton.mpr rfl
  unfold resolve
  split
  · exact .done
  · exact Action.served_fail rfl
  · refine Action.served_get.andThen fun w => ?_
    refine (Action.served_readText rfl _).andThen fun text => ?_
    exact (Action.served_attempt fun _ => haccount text).within rfl

namespace Migration

/-- The route manager that the settings name can be called, whoever calls. -/
def CanCall (s : Settings) : Prop := (Client.new s.routeManager.baseUrl ⟨"", ""⟩).IsCallable

theorem of_ends_ok {s : Settings} {x : Source × Sink} {w w' : World}
    (h : ends s w = (.ok x, w')) : x.1.Reaches (CanCall s) ∧ x.2.Reaches (CanCall s) := by
  have hclient : ∀ credentials,
      (Client.new s.routeManager.baseUrl credentials).IsCallable ↔ CanCall s := fun _ => Iff.rfl
  unfold ends at h
  generalize s.source = source, s.sink = sink at h
  cases source with
  | file path =>
    cases sink with
    | file | discard =>
      cases h
      exact ⟨trivial, trivial⟩
    | routeManager =>
      obtain ⟨credentials, w₁, -, h⟩ := Action.bind_eq_ok_iff.mp h
      cases h
      exact ⟨trivial, hclient credentials⟩
  | routeManager =>
    obtain ⟨credentials, w₁, -, h⟩ := Action.bind_eq_ok_iff.mp h
    cases h
    refine ⟨hclient credentials, ?_⟩
    cases sink with
    | file | discard => trivial
    | routeManager => exact hclient credentials

theorem served_ends (s : Settings) :
    Action.Served callable known (fun _ => True) (ends s) := by
  unfold ends
  split
  · exact .done
  · exact .done
  · exact (Credentials.served_resolve _ _ _ _).andThen fun _ => .done

/-- A run of any settings, where a route manager answers. -/
theorem served_run (s : Settings) :
    Action.Served (CanCall s) True (fun _ => True) (run s) := by
  refine (served_ends s).bind fun x ⟨w, hx⟩ => ?_
  obtain ⟨hsource, hsink⟩ := of_ends_ok (Prod.ext hx rfl)
  exact (served_migrate hsource hsink s.migration).andThen fun _ => .done

end Migration

end RouteMigration
