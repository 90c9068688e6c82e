import RouteMigration.Proofs.Document.RoundTrip
import RouteMigration.Proofs.Migration.InOrder

/-! A dry run and what comes after it. What a run writes to a file instead of submitting it is,
once it is restored from there, what the run would have submitted. -/

namespace RouteMigration

/-- The bodies of the updates asked for on the way from one world to another. -/
def World.updateBodies (w last : World) : List String :=
  ((last.requests.drop w.requests.length).filter (·.method = .put)).map (·.body)

theorem World.updateBodies_eq {source : Source} {client : Client} {a : WebAddress}
    {sent : List Route} {w last : World}
    (h : last.requests = w.requests ++ source.fetches ++ sent.map (client.update a)) :
    w.updateBodies last = sent.map Route.formBody := by
  have hfetches : source.fetches.filter (·.method = .put) = [] := by
    refine List.filter_eq_nil_iff.mpr fun q hq => ?_
    rw [Source.method_of_mem_fetches hq]
    decide
  have hupdates : (sent.map (client.update a)).filter (·.method = .put) =
      sent.map (client.update a) := by
    refine List.filter_eq_self.mpr fun q hq => ?_
    obtain ⟨r, -, rfl⟩ := List.mem_map.mp hq
    rfl
  rw [updateBodies, h, List.append_assoc, List.drop_left, List.filter_append, hfetches,
    List.nil_append, hupdates, List.map_map]
  rfl

namespace Submission

section
variable {replies replies' : List Reply}
  (halike : ∀ i, (replyAt replies i).accepted = (replyAt replies' i).accepted)
include halike

theorem le_of_refused {n k : Nat} (hall : ∀ i < n, (replyAt replies i).accepted)
    (hrefused : (replyAt replies' k).accepted = false) : n ≤ k := by
  refine Nat.le_of_not_lt fun hlt => ?_
  have haccepted := hall k hlt
  rw [halike, hrefused] at haccepted
  cases haccepted

/-- Which routes are asked for is settled by which replies are accepted. -/
theorem Ends.sent_unique {α β : Type} {client client' : Client} {a a' : WebAddress}
    {done done' total total' : Nat} {x : α} {y : β} {routes sent sent' : List Route}
    {result : Except Failure α} {result' : Except Failure β}
    (h : Ends client a replies done total x routes result sent)
    (h' : Ends client' a' replies' done' total' y routes result' sent') : sent = sent' := by
  have halike' : ∀ i, (replyAt replies' i).accepted = (replyAt replies i).accepted :=
    fun i => (halike i).symm
  -- two runs that stop do so at the same place, and one that stops is none that goes through
  cases h with
  | through hall =>
    cases h' with
    | through => rfl
    | @stopped before after r f hsplit _ hrefused =>
      have hle := le_of_refused halike hall hrefused
      rw [hsplit, List.length_append, List.length_cons] at hle
      omega
  | @stopped before after r f hsplit hall hrefused =>
    cases h' with
    | through hall' =>
      have hle := le_of_refused halike' hall' hrefused
      rw [hsplit, List.length_append, List.length_cons] at hle
      omega
    | @stopped before' after' r' f' hsplit' hall' hrefused' =>
      have hlength : before.length = before'.length :=
        Nat.le_antisymm (le_of_refused halike hall hrefused')
          (le_of_refused halike' hall' hrefused)
      obtain ⟨rfl, hrest⟩ := List.append_inj (hsplit.symm.trans hsplit') hlength
      rw [(List.cons.inj hrest).1]

end

theorem Ends.sent_of_accepted {α : Type} {client : Client} {a : WebAddress}
    {replies : List Reply} {done total : Nat} {x : α} {routes sent : List Route}
    {result : Except Failure α} (h : Ends client a replies done total x routes result sent)
    (hall : ∀ i, (replyAt replies i).accepted) : sent = routes := by
  cases h with
  | through => rfl
  | @stopped before after r f _ _ hrefused =>
    rw [hall before.length] at hrefused
    cases hrefused

end Submission

namespace Migration

/-- Updates are asked for one at a time, and of a route manager that is there. -/
structure OneAtATime (client : Client) (m : MigrationSettings) (w : World)
    (replies : List Reply) : Prop where
  parallelism : m.updateParallelism ≤ 1
  address : ∃ a, Client.address client.updateUrl = .ok a
  replies : w.replies = some replies

section
variable {source : Source} {client : Client} {m : MigrationSettings} {w saved : World}
  {replies : List Reply} {document : String} {backup : Option String} {routes : List Route}

theorem migrate_updates (h : OneAtATime client m w replies)
    (hopening : opening source (.routeManager client) m w = (.ok (document, backup), saved))
    (hparse : Document.parse document = .ok routes) :
    ∃ a result sent,
      Submission.Ends client a (replies.drop source.fetches.length) 0
        (outcome m routes).routes.length
        (summary source (.routeManager client) m backup routes, Sink.routeManager client)
        (outcome m routes).routes result sent ∧
      w.updateBodies ((migrate source (.routeManager client) m).after w) =
        sent.map Route.formBody := by
  obtain ⟨a, hurl⟩ := h.address
  obtain ⟨result, sent, last, hrun, hrequests, hends⟩ :=
    migrate_ends h.parallelism hurl h.replies hopening hparse
  rw [Action.after_eq hrun]
  exact ⟨a, result, sent, hends, World.updateBodies_eq hrequests⟩

theorem migrate_unparsed {sink : Sink} {refusal : Document.Refusal}
    (hopening : opening source sink m w = (.ok (document, backup), saved))
    (hparse : Document.parse document = .error refusal) :
    migrate source sink m w = (.error ⟨.document, [.refusal refusal]⟩, saved) :=
  (migrate_of_opening hopening).trans (delivery_unparsed hparse source sink m backup saved)

/-- A run that can write its file writes what it retains, in order. -/
theorem migrate_to_file {path : String}
    (hopening : opening source (.file path []) m w = (.ok (document, backup), saved))
    (hparse : Document.parse document = .ok routes)
    (hwritable : ∀ text, ∃ written, saved.files.writeText path text = .ok written) :
    ∃ last, migrate source (.file path []) m w = (.ok
        (summary source (.file path (outcome m routes).routes) m backup routes,
          .file path (outcome m routes).routes), last) ∧
      last.files.readText path = .ok (Document.print (outcome m routes).routes) := by
  obtain ⟨lines, hdelivery, -⟩ := delivery_parsed hparse source (.file path []) m backup saved
  have haccepts : (Sink.file path []).Accepts (outcome m routes).routes.length
      (saved.noting lines) := trivial
  obtain ⟨order, w', hsubmit, hdelivered⟩ :=
    Submission.run_accepted (Submission.limit_pos (.file path []) m) haccepts
  obtain rfl : order = (outcome m routes).routes := hdelivered.same rfl
  have hfiles : w'.files = saved.files := hdelivered.asks.files
  obtain ⟨written, hwritten⟩ := hwritable (Document.print (outcome m routes).routes)
  have hflush : (Sink.file path (outcome m routes).routes).flush w'.files = .ok written := by
    rw [Sink.flush, hfiles, FileTree.store_of_writeText hwritten]
    rfl
  obtain ⟨more, hclosing, -⟩ := closing_ok hflush
  refine ⟨_, ((migrate_of_opening hopening).trans hdelivery).trans
    ((Action.bind_of_ok hsubmit).trans hclosing), FileTree.readText_writeText hwritten⟩

/-- A restore from a file submits the routes the file holds. -/
theorem migrate_restores {path : String} {w : World} {routes : List Route}
    (hread : w.files.readText path = .ok (Document.print routes)) (hrestore : m.restore = true)
    (h : OneAtATime client m w replies) :
    ∃ a total result sent x,
      Submission.Ends client a replies 0 total (x : Summary × Sink) routes result sent ∧
      w.updateBodies ((migrate (.file path) (.routeManager client) m).after w) =
        sent.map Route.formBody := by
  obtain ⟨lines, hopening, -⟩ := opening_file hread (.routeManager client) m
  obtain ⟨a, result, sent, hends, hbodies⟩ :=
    migrate_updates h hopening (Document.parse_printed routes)
  rw [outcome_restore hrestore] at hends
  exact ⟨a, _, result, sent, _, hends, hbodies⟩

end

/-- A dry run rehearses what is sent. A run with a file for a sink, and a direct run with the same
operation and environment from the same document: a restore from the file, with whatever
settings, asks for updates with the same bodies as the direct run, provided that the file can
be written and stays as it is, and that the replies to both are alike in which of them are
accepted. If all are, the bodies are those of the routes that the operation keeps. From a
document that does not parse, nothing is written and nothing sent. -/
theorem dry_run_restored {source source' : Source} {path document : String}
    {client client' : Client} {m direct restoring : MigrationSettings}
    {w saved now opened later : World} {backup backup' : Option String}
    {replies replies' : List Reply} (hdry : m.restore = false)
    (hsaved : opening source (.file path []) m w = (.ok (document, backup), saved))
    (hwritable : ∀ text, ∃ written, saved.files.writeText path text = .ok written)
    (hdirect : direct.restore = false) (hoperation : direct.operation = m.operation)
    (henvironment : direct.queueEnvironment = m.queueEnvironment)
    (hone : OneAtATime client direct now replies)
    (hopened : opening source' (.routeManager client) direct now =
      (.ok (document, backup'), opened))
    (hrestoring : restoring.restore = true) (hone' : OneAtATime client' restoring later replies')
    (hunchanged : later.files.readText path =
      ((migrate source (.file path []) m).after w).files.readText path)
    (halike : ∀ i, (replyAt (replies.drop source'.fetches.length) i).accepted =
      (replyAt replies' i).accepted) :
    (∀ refusal, Document.parse document = .error refusal →
      migrate source (.file path []) m w = (.error ⟨.document, [.refusal refusal]⟩, saved) ∧
      now.updateBodies ((migrate source' (.routeManager client) direct).after now) = []) ∧
    ∀ routes, Document.parse document = .ok routes →
      (∃ s last, migrate source (.file path []) m w = (.ok s, last)) ∧
      later.updateBodies ((migrate (.file path) (.routeManager client') restoring).after later) =
        now.updateBodies ((migrate source' (.routeManager client) direct).after now) ∧
      ((∀ i, (replyAt replies' i).accepted) →
        later.updateBodies ((migrate (.file path) (.routeManager client') restoring).after later) =
          (Batch.apply m.operation m.queueEnvironment routes).routes.map Route.formBody) := by
  constructor
  · intro refusal hparse
    refine ⟨migrate_unparsed hsaved hparse, ?_⟩
    rw [Action.after_eq (migrate_unparsed hopened hparse)]
    obtain ⟨a, -⟩ := hone.address
    obtain ⟨hasked, -⟩ := of_opening_ok hopened
    have hnothing : opened.requests =
        now.requests ++ source'.fetches ++ [].map (client.update a) := by
      rw [List.map_nil, List.append_nil, hasked]
    exact World.updateBodies_eq hnothing
  · intro routes hparse
    have hkept : outcome direct routes = outcome m routes := by
      rw [outcome, outcome, hdirect, hdry, hoperation, henvironment]
    have happlied : outcome m routes = Batch.apply m.operation m.queueEnvironment routes := by
      rw [outcome, hdry]
      rfl
    -- the file holds what the direct run retains, and a restore retains all that the file holds
    obtain ⟨last, hrun, hread⟩ := migrate_to_file hsaved hparse hwritable
    rw [Action.after_eq hrun, hread] at hunchanged
    obtain ⟨a, result, sent, hends, hbodies⟩ := migrate_updates hone hopened hparse
    obtain ⟨a', total, result', sent', x, hends', hbodies'⟩ :=
      migrate_restores hunchanged hrestoring hone'
    rw [hkept] at hends
    rw [hbodies, hbodies']
    refine ⟨⟨_, last, hrun⟩, ?_, ?_⟩
    · rw [hends.sent_unique halike hends']
    · intro hall
      rw [hends'.sent_of_accepted hall, happlied]

/-! The three routes, first written to a file and then restored, and sent directly. -/

/-- These files, and a server that accepts everything. -/
def willing (files : FileTree) : World := { files, replies := some [] }

def dryRun : Action (Summary × Sink) :=
  migrate (.memory threeDocument) (.file "out" []) { operation := .encodeQueues }

def directRun : Action (Summary × Sink) :=
  migrate (.memory threeDocument) (.routeManager threeClient) { operation := .encodeQueues }

def restoreRun : Action (Summary × Sink) :=
  migrate (.file "out") (.routeManager threeClient)
    { operation := .decodeQueues, restore := true }

/-- The world the restore finds. -/
def rehearsed : World := willing (dryRun.after (willing ⟨[], []⟩)).files

def threeBodies : List String :=
  ["name=a&rule=&description=&queues=c%23d&enabled=true&uuid=1",
   "name=c&rule=&description=&queues=c%23d&enabled=true&uuid=3"]

theorem dry_run_restored_three :
    rehearsed.updateBodies (restoreRun.after rehearsed) = threeBodies ∧
      (willing ⟨[], []⟩).updateBodies (directRun.after (willing ⟨[], []⟩)) = threeBodies := by
  let encoding : MigrationSettings := { operation := .encodeQueues }
  let restoring : MigrationSettings := { operation := .decodeQueues, restore := true }
  have hsaved : (opening (.memory threeDocument) (.file "out" []) encoding
      (willing ⟨[], []⟩)).1.toOption = some (threeDocument, none) := by decide +kernel
  have hopened : (opening (.memory threeDocument) (.routeManager threeClient) encoding
      (willing ⟨[], []⟩)).1.toOption = some (threeDocument, none) := by decide +kernel
  have hbodies : (Batch.apply .encodeQueues "dev" threeRoutes).routes.map Route.formBody =
      threeBodies := by decide +kernel
  have hdirect : OneAtATime threeClient encoding (willing ⟨[], []⟩) [] :=
    ⟨by decide, ⟨_, address_threeClient⟩, rfl⟩
  have hrestore : OneAtATime threeClient restoring rehearsed [] :=
    ⟨by decide, ⟨_, address_threeClient⟩, rfl⟩
  have hrestoring : restoring.restore = true := rfl
  obtain ⟨-, hparsed⟩ := dry_run_restored (m := encoding) rfl (Action.eq_of_toOption hsaved)
    (fun text => ⟨_, rfl⟩) rfl rfl rfl hdirect (Action.eq_of_toOption hopened) hrestoring hrestore
    rfl (fun i => rfl)
  obtain ⟨-, hsame, hall⟩ := hparsed threeRoutes parse_threeDocument
  have hrestored := (hall fun i => rfl).trans hbodies
  exact ⟨hrestored, hsame.symm.trans hrestored⟩

end Migration

end RouteMigration
