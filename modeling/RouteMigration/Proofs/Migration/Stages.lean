import RouteMigration.Migration
import RouteMigration.Proofs.FileTree.Storing
import RouteMigration.Proofs.Migration.Submission

/-! The stages of a run: what is to be submitted is settled by the document and the settings
alone, the sink takes it, and closing the sink is the only thing left that changes a file. -/

namespace RouteMigration

/-- The files once the sink is closed. -/
def Sink.flush (files : FileTree) : Sink → Except Failure FileTree
  | file path routes =>
    let (written, result) := files.store path (Document.print routes) none
    (failingAs (.sinkUnwritable path) result).map fun _ => written
  | _ => .ok files

namespace Sink

/-- Either the close changes nothing, or it gives the sink's file its content. -/
theorem of_flush_ok {sink : Sink} {files written : FileTree}
    (h : sink.flush files = .ok written) :
    written = files ∨ ∃ path routes, sink = .file path routes ∧
      files.writeText path (Document.print routes) = .ok written := by
  cases sink with
  | memory | routeManager => exact .inl (Except.ok.inj h).symm
  | file path routes =>
    rw [flush] at h
    cases hstore : files.store path (Document.print routes) none with
    | mk t result =>
      rw [hstore] at h
      cases result with
      | error e => cases h
      | ok =>
        cases h
        rcases FileTree.of_store_ok hstore with hwrite | ⟨-, hsame⟩
        · exact .inr ⟨path, routes, rfl, hwrite⟩
        · exact .inl hsame

theorem close_ok {sink : Sink} {w : World} {files : FileTree} (h : sink.flush w.files = .ok files) :
    ∃ lines, sink.close w = (.ok (), World.noting { w with files } lines) ∧
      lines.filter LogLine.isCall = [] := by
  cases sink with
  | memory | routeManager =>
    cases h
    refine ⟨[], ?_, rfl⟩
    rw [World.noting_nil]
    rfl
  | file path routes =>
    rw [flush] at h
    cases hstore : w.files.store path (Document.print routes) none with
    | mk t result =>
      rw [hstore] at h
      cases result with
      | error e => cases h
      | ok =>
        cases h
        exact ⟨[_], (Action.bind_of_ok (Action.store_apply hstore _)).trans
          (Action.log_apply _ _ _ _), rfl⟩

theorem close_error {sink : Sink} {w : World} {f : Failure} (h : sink.flush w.files = .error f) :
    sink.close w = (.error f, w) := by
  cases sink with
  | memory | routeManager => cases h
  | file path routes =>
    rw [flush] at h
    cases hstore : w.files.store path (Document.print routes) none with
    | mk t result =>
      rw [hstore] at h
      cases result with
      | ok => cases h
      | error e =>
        cases h
        obtain ⟨rfl, -⟩ := FileTree.of_store_error hstore
        exact Action.bind_of_error (Action.store_apply hstore _)

end Sink

namespace Migration

/-- What a run makes of the routes it has read. -/
def outcome (m : MigrationSettings) (routes : List Route) : Batch.Outcome :=
  if m.restore then .untouched routes else Batch.apply m.operation m.queueEnvironment routes

theorem outcome_restore {m : MigrationSettings} (h : m.restore = true) (routes : List Route) :
    outcome m routes = .untouched routes := if_pos h

/-- What a run that goes through says of itself. -/
def summary (source : Source) (sink : Sink) (m : MigrationSettings) (backup : Option String)
    (routes : List Route) : Summary where
  operation := m.operation
  restored := m.restore
  source := source.describe
  sink := sink.describe
  backup := backup
  fetched := routes.length
  submitted := (outcome m routes).routes.length
  dropped := (outcome m routes).dropped
  failed := (outcome m routes).failed

/-- The end of a run: what remains once every route is submitted. -/
def closing (s : Summary) (sink : Sink) : Action (Summary × Sink) := do
  Action.within (.notClosed sink.describe) sink.close
  Action.log .info .migration
    ("✅ " ++ toString s.submitted ++ " routes submitted to " ++ sink.describe)
  return (s, sink)

theorem migrate_of_opening {source : Source} {sink : Sink} {m : MigrationSettings}
    {w saved : World} {document : String} {backup : Option String}
    (h : opening source sink m w = (.ok (document, backup), saved)) :
    migrate source sink m w = delivery source sink m document backup saved := by
  unfold migrate
  rw [Action.bind_of_ok h]

theorem remarks_calls (op : Operation) (env : String) (routes : List Route) :
    (Batch.remarks op env routes).filter LogLine.isCall = [] := by
  rw [List.filter_eq_nil_iff]
  intro l hl
  obtain ⟨r, -, hremark⟩ := List.mem_filterMap.mp hl
  unfold Batch.remark? at hremark
  split at hremark
  · split at hremark
    · cases hremark
    · cases hremark
      exact Bool.false_ne_true
  · cases hremark
    exact Bool.false_ne_true
  · cases hremark
    exact Bool.false_ne_true

theorem transform_apply (source : Source) (m : MigrationSettings) (routes : List Route)
    (w : World) :
    ∃ lines, transform source m routes w = (.ok (outcome m routes), w.noting lines) ∧
      lines.filter LogLine.isCall = [] := by
  unfold transform outcome
  cases m.restore with
  | true => exact ⟨[_], rfl, rfl⟩
  | false => exact ⟨_, rfl, remarks_calls _ _ _⟩

theorem delivery_unparsed {document : String} {r : Document.Refusal}
    (h : Document.parse document = .error r) (source : Source) (sink : Sink)
    (m : MigrationSettings) (backup : Option String) (w : World) :
    delivery source sink m document backup w = (.error ⟨.document, [.refusal r]⟩, w) := by
  refine Action.bind_of_error ?_
  rw [parse, h, Action.attempt_apply]

theorem delivery_parsed {document : String} {routes : List Route}
    (h : Document.parse document = .ok routes) (source : Source) (sink : Sink)
    (m : MigrationSettings) (backup : Option String) (w : World) :
    ∃ lines, delivery source sink m document backup w =
      (Submission.run (Submission.limit sink m) sink (outcome m routes).routes >>= fun taken =>
        closing (summary source taken m backup routes) taken) (w.noting lines) ∧
      lines.filter LogLine.isCall = [] := by
  have hparse : Action.attempt (parse document) w = (.ok routes, w) := by
    rw [parse, h, Action.attempt_apply]
  let fetched : LogLine :=
    ⟨.info, .migration, "📦 " ++ toString routes.length ++ " routes fetched"⟩
  obtain ⟨lines, htransform, hquiet⟩ := transform_apply source m routes (w.noting [fetched])
  rw [World.noting_noting] at htransform
  have hfetched : ([fetched] ++ lines).filter LogLine.isCall = [] := by
    rw [List.filter_append, hquiet]
    rfl
  unfold delivery
  rw [Action.bind_of_ok hparse, Action.log_bind_apply, Action.bind_of_ok htransform]
  cases hfailed : (outcome m routes).failed.isEmpty with
  | true => exact ⟨[fetched] ++ lines, rfl, hfetched⟩
  | false =>
    let skipped : LogLine := ⟨.warn, .migration,
      "💀 " ++ toString (outcome m routes).failed.length ++
        " routes skipped, their remote copies stay untouched"⟩
    refine ⟨[fetched] ++ lines ++ [skipped], ?_, ?_⟩
    · rw [← World.noting_noting w ([fetched] ++ lines)]
      rfl
    · rw [List.filter_append, hfetched]
      rfl

theorem closing_ok {s : Summary} {sink : Sink} {w : World} {files : FileTree}
    (h : sink.flush w.files = .ok files) :
    ∃ lines, closing s sink w = (.ok (s, sink), World.noting { w with files } lines) ∧
      lines.filter LogLine.isCall = [] := by
  obtain ⟨lines, hclose, hquiet⟩ := Sink.close_ok h
  let last : LogLine := ⟨.info, .migration,
    "✅ " ++ toString s.submitted ++ " routes submitted to " ++ sink.describe⟩
  refine ⟨lines ++ [last], ?_, ?_⟩
  · rw [← World.noting_noting]
    exact Action.bind_of_ok (Action.within_of_ok hclose)
  · rw [List.filter_append, hquiet]
    rfl

theorem closing_error {s : Summary} {sink : Sink} {w : World} {f : Failure}
    (h : sink.flush w.files = .error f) :
    closing s sink w = (.error (f.within (.notClosed sink.describe)), w) :=
  Action.bind_of_error (Action.within_of_error (Sink.close_error h))

theorem after_migrate {source : Source} {sink : Sink} {m : MigrationSettings} {w saved : World}
    {document : String} {backup : Option String}
    (h : opening source sink m w = (.ok (document, backup), saved)) :
    (migrate source sink m).after w = (delivery source sink m document backup).after saved :=
  congrArg Prod.snd (migrate_of_opening h)

/-- How a run ends from the document on. It asks for updates and for nothing else. Where it
fails no file is another; otherwise the sink is closed, with what it has received. -/
inductive Delivers (sink : Sink) (w : World) : Except Failure (Summary × Sink) × World → Prop
  | failed {order : List Route} {f : Failure} {last : World} :
      last.requests = w.requests ++ sink.updates order → last.files = w.files →
      Delivers sink w (.error f, last)
  | closed {order received : List Route} {x : Summary × Sink} {last : World} :
      last.requests = w.requests ++ sink.updates order →
      (sink.taken received).flush w.files = .ok last.files →
      Delivers sink w (.ok x, last)

theorem delivery_delivers (source : Source) (sink : Sink) (m : MigrationSettings)
    (document : String) (backup : Option String) (w : World) :
    Delivers sink w (delivery source sink m document backup w) := by
  cases hparse : Document.parse document with
  | error r =>
    rw [delivery_unparsed hparse]
    have hnothing : w.requests = w.requests ++ sink.updates [] := by
      rw [Sink.updates_nil, List.append_nil]
    exact .failed hnothing rfl
  | ok routes =>
    obtain ⟨lines, hdelivery, -⟩ := delivery_parsed hparse source sink m backup w
    rw [hdelivery]
    obtain ⟨calls, asked, hasks⟩ := Submission.run_asks (Submission.limit sink m) sink
      (outcome m routes).routes (w.noting lines)
    cases hsubmit : Submission.run (Submission.limit sink m) sink (outcome m routes).routes
        (w.noting lines) with
    | mk result w' =>
      rw [Action.after_eq hsubmit] at hasks
      have hkept : w'.files = w.files := hasks.files
      cases result with
      | error f =>
        rw [Action.bind_of_error hsubmit]
        exact .failed hasks.requests hkept
      | ok s =>
        obtain ⟨order, rfl⟩ := Submission.of_run_ok (Submission.limit_pos sink m) hsubmit
        rw [Action.bind_of_ok hsubmit]
        cases hflush : (sink.taken order).flush w'.files with
        | error f =>
          rw [closing_error hflush]
          exact .failed hasks.requests hkept
        | ok written =>
          obtain ⟨more, hclosing, -⟩ := closing_ok hflush
          rw [hclosing]
          exact .closed hasks.requests (hkept ▸ hflush)

/-- From the document on, a run changes the file of its sink at most. -/
theorem after_delivery (source : Source) (sink : Sink) (m : MigrationSettings)
    (document : String) (backup : Option String) (w : World) :
    (∃ order, ((delivery source sink m document backup).after w).requests =
      w.requests ++ sink.updates order) ∧
    (((delivery source sink m document backup).after w).files = w.files ∨ ∃ routes,
      (sink.taken routes).flush w.files =
        .ok ((delivery source sink m document backup).after w).files) := by
  have hdelivers := delivery_delivers source sink m document backup w
  unfold Action.after
  generalize delivery source sink m document backup w = run at hdelivers ⊢
  cases hdelivers with
  | failed hrequests hfiles => exact ⟨⟨_, hrequests⟩, .inl hfiles⟩
  | closed hrequests hflush => exact ⟨⟨_, hrequests⟩, .inr ⟨_, hflush⟩⟩

end Migration

end RouteMigration
