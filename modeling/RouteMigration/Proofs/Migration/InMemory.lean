import RouteMigration.Proofs.Batch.Accounting
import RouteMigration.Proofs.Migration.InOrder

/-! A run from memory to memory. What arrives is what the batch keeps, in its order, and only
a document that does not parse keeps everything from arriving. -/

namespace RouteMigration

namespace Submission

/-- A sink in memory gets one route at a time, however many updates may be under way. -/
theorem run_memory (m : MigrationSettings) (received routes : List Route) (w : World) :
    ∃ w', run (limit (.memory received) m) (.memory received) routes w =
        (.ok (.memory (received ++ routes)), w') ∧
      w'.arrived = w.arrived ++ routes := by
  have haccepts : (Sink.memory received).Accepts routes.length w := trivial
  obtain ⟨order, w', hrun, hdelivered⟩ :=
    run_accepted (limit_pos (.memory received) m) haccepts
  obtain rfl : order = routes := hdelivered.same rfl
  exact ⟨w', hrun, hdelivered.arrived⟩

end Submission

namespace Migration

theorem opening_memory (document : String) (sink : Sink) (m : MigrationSettings) (w : World) :
    opening (.memory document) sink m w =
      (.ok (document, none), w.noting [start (.memory document) sink m]) := by
  rw [opening_eq]
  exact Action.bind_of_ok (Action.within_of_ok rfl)

/-- How a run from memory to memory ends that applies its operation. -/
inductive EndsInMemory (m : MigrationSettings) (document : String) (received : List Route)
    (w : World) : Except Failure (Summary × Sink) × World → Prop
  | unparsed {refusal : Document.Refusal} {last : World} :
      Document.parse document = .error refusal → last.arrived = w.arrived →
      EndsInMemory m document received w (.error ⟨.document, [.refusal refusal]⟩, last)
  | through {routes : List Route} {out : Batch.Outcome} {s : Summary} {last : World} :
      Document.parse document = .ok routes →
      out = Batch.apply m.operation m.queueEnvironment routes →
      last.arrived = w.arrived ++ out.routes →
      s.fetched = routes.length → s.submitted = out.routes.length →
      s.dropped = out.dropped → s.failed = out.failed →
      s.fetched = s.submitted + s.dropped.length + s.failed.length →
      EndsInMemory m document received w (.ok (s, .memory (received ++ out.routes)), last)

/-- Whatever the operation, the environment and the number of updates that may be under way,
a run from memory to memory fails only because its document does not parse, and then nothing
has arrived. Otherwise the routes that the batch keeps have arrived, in its order, and the
summary says of every route that was fetched whether it was submitted, dropped or set aside. -/
theorem migrate_in_memory {m : MigrationSettings} (hrestore : m.restore = false)
    (document : String) (received : List Route) (w : World) :
    EndsInMemory m document received w
      (migrate (.memory document) (.memory received) m w) := by
  have hopening := opening_memory document (.memory received) m w
  rw [migrate_of_opening hopening]
  cases hparse : Document.parse document with
  | error refusal =>
    rw [delivery_unparsed hparse]
    exact .unparsed hparse rfl
  | ok routes =>
    have hout : outcome m routes = Batch.apply m.operation m.queueEnvironment routes := by
      rw [outcome, hrestore]
      rfl
    let opened : World := w.noting [start (.memory document) (.memory received) m]
    obtain ⟨lines, hdelivery, -⟩ := delivery_parsed hparse (.memory document)
      (.memory received) m none opened
    obtain ⟨w', hsubmit, harrived⟩ :=
      Submission.run_memory m received (outcome m routes).routes (opened.noting lines)
    let full : Sink := .memory (received ++ (outcome m routes).routes)
    have hflush : full.flush w'.files = .ok w'.files := rfl
    obtain ⟨more, hclosing, -⟩ :=
      closing_ok (s := summary (.memory document) full m none routes) hflush
    rw [hdelivery, Action.bind_of_ok hsubmit, hclosing]
    refine .through hparse hout harrived rfl rfl rfl rfl ?_
    have hlength := (Batch.accounts_apply m.operation m.queueEnvironment routes).length
    rw [← hout] at hlength
    exact hlength

/-- The three routes once more, with no update allowed to be under way. -/
theorem migrate_in_memory_three :
    ({ operation := .encodeQueues, updateParallelism := 0 } : MigrationSettings).restore = false ∧
      ∃ s kept last, migrate (.memory threeDocument) (.memory [])
          { operation := .encodeQueues, updateParallelism := 0 } threeWorld =
            (.ok (s, .memory kept), last) ∧
        last.arrived = kept ∧ kept.map (·.uuid) = ["1", "3"] ∧ s.dropped = ["2"] ∧
        s.fetched = 3 ∧ s.submitted = 2 := by
  let m : MigrationSettings := { operation := .encodeQueues, updateParallelism := 0 }
  have hrestore : m.restore = false := rfl
  have hends := migrate_in_memory hrestore threeDocument [] threeWorld
  have hkept : (Batch.apply .encodeQueues "dev" threeRoutes).routes.map (·.uuid) = ["1", "3"] := by
    decide +kernel
  have hdropped : (Batch.apply .encodeQueues "dev" threeRoutes).dropped = ["2"] := by
    decide +kernel
  refine ⟨hrestore, ?_⟩
  generalize migrate (.memory threeDocument) (.memory []) m threeWorld = run at hends ⊢
  cases hends with
  | unparsed hparse =>
    rw [parse_threeDocument] at hparse
    cases hparse
  | @through routes out s last hparse hout harrived hfetched hsubmitted hdropped' =>
    rw [parse_threeDocument] at hparse
    cases hparse
    subst hout
    have hsubmitted' := congrArg List.length hkept
    rw [List.length_map] at hsubmitted'
    exact ⟨s, _, last, rfl, harrived, hkept, hdropped'.trans hdropped, hfetched,
      hsubmitted.trans hsubmitted'⟩

end Migration

end RouteMigration
