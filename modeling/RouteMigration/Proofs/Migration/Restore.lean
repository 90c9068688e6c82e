import RouteMigration.Proofs.Migration.Saving
import RouteMigration.Proofs.Migration.Stages

/-! Backups and restores. Whatever becomes of a run once its backup is written, a later run
that restores from the file submits the routes of the very document the backup was made of. -/

namespace RouteMigration

/-- Closing the sink does not write the file at this path. -/
def Sink.Spares (files : FileTree) (path : String) : Sink → Prop
  | file other _ => ¬ files.SameFile path other
  | _ => True

namespace Migration

/-! ## The rest of a run -/

/-- After its opening a run changes the file of its sink, if any. -/
theorem files_migrate {source : Source} {sink : Sink} {m : MigrationSettings} {w saved : World}
    {document : String} {backup : Option String}
    (h : opening source sink m w = (.ok (document, backup), saved)) :
    ((migrate source sink m).after w).files = saved.files ∨
      ∃ routes, (sink.taken routes).flush saved.files = .ok ((migrate source sink m).after w).files := by
  rw [after_migrate h]
  exact (after_delivery source sink m document backup saved).2

theorem readText_migrate {source : Source} {sink : Sink} {m : MigrationSettings}
    {w saved : World} {document path : String}
    (h : opening source sink m w = (.ok (document, some path), saved))
    (hspares : sink.Spares saved.files path) :
    ((migrate source sink m).after w).files.readText path = .ok document := by
  have hread := readText_of_opening h
  rcases files_migrate h with hkept | ⟨routes, hflush⟩
  · rw [hkept]
    exact hread
  rcases Sink.of_flush_ok hflush with hkept | ⟨other, received, hsink, hwrite⟩
  · rw [hkept]
    exact hread
  · have hother : ¬ saved.files.SameFile path other := by
      cases sink with
      | memory | routeManager => cases hsink
      | file =>
        cases hsink
        exact hspares
    exact FileTree.readText_writeText_other hread hwrite hother

/-! ## A restore -/

/-- What a restore from a file says of itself: every route is submitted, none is dropped or
set aside, and nothing was saved. -/
def restored (path : String) (sink : Sink) (m : MigrationSettings) (routes : List Route) :
    Summary where
  operation := m.operation
  restored := true
  source := "file " ++ path
  sink := sink.describe
  backup := none
  fetched := routes.length
  submitted := routes.length
  dropped := []
  failed := []

/-- Every route was submitted, and nothing else. The routes were begun in their order; `order`
is the one they arrived in, and it is the same where one is under way at a time. -/
structure Submitted (routes : List Route) (sink : Sink) (m : MigrationSettings) (w : World)
    (order : List Route) (last : World) : Prop where
  perm : order.Perm routes
  same : Submission.limit sink m = 1 → order = routes
  requests : last.requests = w.requests ++ sink.updates order
  arrived : last.arrived = w.arrived ++ sink.arrivals order
  calls : ∃ lines, last.log = w.log ++ lines ∧ lines.filter LogLine.isCall = sink.notices routes

/-- How a run over a file ends that puts back what the file holds. From a document that does
not parse nothing is submitted. Otherwise the sink has received every route of the document
as it is, and at most its own file is another. -/
inductive PutsBack (path document : String) (sink : Sink) (m : MigrationSettings) (w : World) :
    Except Failure (Summary × Sink) × World → Prop
  | unparsed {r : Document.Refusal} {last : World} : Document.parse document = .error r →
      last.requests = w.requests → last.arrived = w.arrived → last.files = w.files →
      PutsBack path document sink m w (.error ⟨.document, [.refusal r]⟩, last)
  | closed {routes order : List Route} {last : World} : Document.parse document = .ok routes →
      Submitted routes sink m w order last →
      (sink.taken order).flush w.files = .ok last.files →
      PutsBack path document sink m w (.ok (restored path sink m routes, sink.taken order), last)
  | notClosed {routes order : List Route} {f : Failure} {last : World} :
      Document.parse document = .ok routes → Submitted routes sink m w order last →
      last.files = w.files → (sink.taken order).flush w.files = .error f →
      PutsBack path document sink m w (.error (f.within (.notClosed sink.describe)), last)

theorem summary_restore {m : MigrationSettings} (h : m.restore = true) (path : String)
    (sink : Sink) (order routes : List Route) :
    summary (.file path) (sink.taken order) m none routes = restored path sink m routes := by
  unfold summary
  rw [outcome_restore h, h, Sink.describe_taken]
  rfl

theorem Submitted.of_delivered {routes order : List Route} {sink : Sink} {m : MigrationSettings}
    {w w' : World} {lines : List LogLine} (hquiet : lines.filter LogLine.isCall = [])
    (h : Submission.Delivered (Submission.limit sink m) sink [] routes (w.noting lines) order w') :
    Submitted routes sink m w order w' := by
  have hbefore : w.Asks [] [] (w.noting lines) := .quiet w hquiet
  have hall := hbefore.trans h.asks
  exact ⟨h.perm, h.same, hall.requests, h.arrived, hall.log⟩

/-- What is said after a submission, and files, do not count. -/
theorem Submitted.after {routes order : List Route} {sink : Sink} {m : MigrationSettings}
    {w w' : World} (h : Submitted routes sink m w order w') (files : FileTree)
    {lines : List LogLine} (hquiet : lines.filter LogLine.isCall = []) :
    Submitted routes sink m w order (World.noting { w' with files } lines) := by
  obtain ⟨before, hlog, hcalls⟩ := h.calls
  refine ⟨h.perm, h.same, h.requests, h.arrived, before ++ lines, ?_, ?_⟩
  · rw [← List.append_assoc, ← hlog]
    rfl
  · rw [List.filter_append, hcalls, hquiet, List.append_nil]

theorem restore_puts_back {path document : String} {w : World}
    (hread : w.files.readText path = .ok document) {sink : Sink} {m : MigrationSettings}
    (hrestore : m.restore = true)
    (haccepts : ∀ routes, Document.parse document = .ok routes → sink.Accepts routes.length w) :
    PutsBack path document sink m w (migrate (.file path) sink m w) := by
  obtain ⟨lines, hopening, hquiet⟩ := opening_file hread sink m
  have hrun := migrate_of_opening hopening
  cases hparse : Document.parse document with
  | error r =>
    rw [hrun, delivery_unparsed hparse]
    exact .unparsed hparse rfl rfl rfl
  | ok routes =>
    obtain ⟨more, hdelivery, hmore⟩ :=
      delivery_parsed hparse (.file path) sink m none (w.noting lines)
    have hroutes : (outcome m routes).routes = routes := by
      rw [outcome_restore hrestore]
      rfl
    have hquiet : (lines ++ more).filter LogLine.isCall = [] := by
      rw [List.filter_append, hquiet, hmore]
      rfl
    rw [World.noting_noting] at hdelivery
    have hstill : sink.Accepts routes.length (w.noting (lines ++ more)) :=
      (Sink.accepts_of_replies rfl).mpr (haccepts routes hparse)
    obtain ⟨order, w', hsubmit, hdelivered⟩ :=
      Submission.run_accepted (Submission.limit_pos sink m) hstill
    rw [hdelivery, hroutes, Action.bind_of_ok hsubmit, summary_restore hrestore] at hrun
    have hfiles : w'.files = w.files := hdelivered.asks.files
    have hsubmitted := Submitted.of_delivered hquiet hdelivered
    rw [hrun]
    cases hflush : (sink.taken order).flush w'.files with
    | ok written =>
      obtain ⟨rest, hclosing, hrest⟩ := closing_ok hflush
      rw [hclosing]
      exact .closed hparse (hsubmitted.after written hrest) (hfiles ▸ hflush)
    | error f =>
      rw [closing_error hflush, Sink.describe_taken]
      exact .notClosed hparse hsubmitted hfiles (hfiles ▸ hflush)

/-- Once a run from a route manager has saved what it was sent, the backup holds exactly that,
and it still does when the run is over, however it ended. A restore from the backup, with
whatever settings and to whatever sink, puts back its routes as long as the sink refuses
none. -/
theorem migrate_restore {client : Client} {sink : Sink} {m : MigrationSettings} {w saved : World}
    {document path : String}
    (hsaved : opening (.routeManager client) sink m w = (.ok (document, some path), saved)) :
    saved.files.readText path = .ok document ∧
      (sink.Spares saved.files path →
        ((migrate (.routeManager client) sink m).after w).files.readText path = .ok document) ∧
      ∀ (sink' : Sink) (m' : MigrationSettings) (later : World), m'.restore = true →
        later.files.readText path = saved.files.readText path →
        (∀ routes, Document.parse document = .ok routes → sink'.Accepts routes.length later) →
        PutsBack path document sink' m' later (migrate (.file path) sink' m' later) := by
  have hread := readText_of_opening hsaved
  refine ⟨hread, readText_migrate hsaved, ?_⟩
  intro sink' m' later hrestore hsame haccepts
  exact restore_puts_back (hsame.trans hread) hrestore haccepts

/-! A run whose only update is refused, and a restore right after it. -/

def refusedDocument : String :=
  "[[[\"1\",\"a\",\"x\",\"\",true,[]],[\"2\",\"b\",\"y\",\"\",true,[\"emx-to-c-d\"]]]]"

/-- The two routes of the document, the first of them without a queue. -/
def refusedRoutes : List Route :=
  [{ uuid := "1", name := "a", rule := "x", enabled := true, queues := [] },
   { uuid := "2", name := "b", rule := "y", enabled := true, queues := ["emx-to-c-d"] }]

theorem parse_refusedDocument : Document.parse refusedDocument = .ok refusedRoutes :=
  Action.eq_ok_of_toOption (by decide +kernel)

def refusingWorld : World where
  files := ⟨[], []⟩
  replies := some [⟨⟨200⟩, refusedDocument, 0⟩, ⟨⟨500⟩, "", 0⟩]
  stamp := "T"

def refusedClient : Client := ⟨"http://h", ⟨"u", "p"⟩⟩

def refusedRun : Action (Summary × Sink) :=
  migrate (.routeManager refusedClient) (.routeManager refusedClient) { operation := .encodeQueues }

theorem migrate_restore_refused :
    (refusedRun refusingWorld).1.toOption = none ∧
      ∃ last, migrate (.file "./OriginalRoutesT.json") (.memory [])
          { operation := .encodeQueues, restore := true } (refusedRun.after refusingWorld) =
            (.ok (restored "./OriginalRoutesT.json" (.memory [])
              { operation := .encodeQueues, restore := true } refusedRoutes,
              .memory refusedRoutes), last) ∧
        last.arrived = (refusedRun.after refusingWorld).arrived ++ refusedRoutes ∧
        last.files = (refusedRun.after refusingWorld).files := by
  have hfailed : (refusedRun refusingWorld).1.toOption = none := by decide +kernel
  have hfetched : (opening (.routeManager refusedClient) (.routeManager refusedClient)
      { operation := .encodeQueues } refusingWorld).1.toOption =
        some (refusedDocument, some "./OriginalRoutesT.json") := by decide +kernel
  obtain ⟨hread, hstill, hrestore⟩ := migrate_restore (Action.eq_of_toOption hfetched)
  have hends := hrestore (.memory []) { operation := .encodeQueues, restore := true }
    (refusedRun.after refusingWorld) rfl ((hstill trivial).trans hread.symm) fun _ _ => trivial
  refine ⟨hfailed, ?_⟩
  generalize migrate _ _ _ (refusedRun.after refusingWorld) = run at hends ⊢
  generalize refusedRun.after refusingWorld = later at hends ⊢
  cases hends with
  | unparsed hparse =>
    rw [parse_refusedDocument] at hparse
    cases hparse
  | closed hparse hsubmitted hflush =>
    rw [parse_refusedDocument] at hparse
    cases hparse
    obtain rfl := hsubmitted.same rfl
    exact ⟨_, rfl, hsubmitted.arrived, (Except.ok.inj hflush).symm⟩
  | notClosed _ _ _ hflush => cases hflush

end Migration

end RouteMigration
