import RouteMigration.Backend
import RouteMigration.Backup
import RouteMigration.Batch
import RouteMigration.Credentials
import RouteMigration.Document.Reader
import RouteMigration.Submission

/-! A migration: fetch, back up, transform, put back, in that order. The backup is written
before the document is read, and the first submission that is refused ends the run. -/

namespace RouteMigration

/-- How a run went. -/
structure Summary where
  operation : Operation
  restored : Bool
  source : String
  sink : String
  backup : Option String
  fetched : Nat
  submitted : Nat
  dropped : List String
  failed : List RouteFailure
  deriving DecidableEq, Repr

namespace Batch

def nameOf (r : Route) : String := "route '" ++ r.name ++ "' (" ++ r.uuid ++ ")"

/-- What the log says of a route. -/
def remark? (op : Operation) (r : Route) : Verdict → Option LogLine
  | .kept r' =>
    if r' = r then none
    else some ⟨.debug, .batch, "🔄 " ++ op.name ++ " rewrote " ++ nameOf r⟩
  | .dropped _ =>
    some ⟨.warn, .batch,
      "🗑️ " ++ nameOf r ++ " has no targets left after " ++ op.name ++ ", dropping it"⟩
  | .failed f =>
    some ⟨.warn, .batch,
      "💀 " ++ op.name ++ " failed on " ++ nameOf r ++ ": " ++ f.error.message ++
        ". skipping it, the remote copy stays untouched"⟩

def remarks (op : Operation) (env : String) (routes : List Route) : List LogLine :=
  routes.filterMap fun r => remark? op r (judge op env r)

end Batch

namespace Migration

def parse (document : String) : Except Failure (List Route) :=
  match Document.parse document with
  | .ok routes => .ok routes
  | .error r => .error ⟨.document, [.refusal r]⟩

/-- The document of the source, saved first where the source is remote. -/
def fetch (source : Source) (m : MigrationSettings) : Action (String × Option String) := do
  let document ← Action.within (.notLoaded source.describe) source.load
  if source.isRemote && m.backup then return (document, some (← Backup.write m.backupDir document))
  else return (document, none)

/-- What is to be submitted. -/
def transform (source : Source) (m : MigrationSettings) (routes : List Route) :
    Action Batch.Outcome := do
  if m.restore then
    Action.log .info .migration
      ("⏪ restoring " ++ toString routes.length ++ " routes exactly as " ++ source.describe ++
        " has them")
    return .untouched routes
  else
    modify fun w => { w with log := w.log ++ Batch.remarks m.operation m.queueEnvironment routes }
    return Batch.apply m.operation m.queueEnvironment routes

/-- The run up to its backup: the document, and where it was saved. -/
def opening (source : Source) (sink : Sink) (m : MigrationSettings) :
    Action (String × Option String) := do
  Action.log .info .migration
    ("🚀 " ++ m.operation.name ++ " from " ++ source.describe ++ " to " ++ sink.describe)
  fetch source m

/-- The rest of the run, from the document on. The sink comes back with what it has
received. -/
def delivery (source : Source) (sink : Sink) (m : MigrationSettings) (document : String)
    (backup : Option String) : Action (Summary × Sink) := do
  let routes ← Action.attempt (parse document)
  Action.log .info .migration ("📦 " ++ toString routes.length ++ " routes fetched")
  let outcome ← transform source m routes
  if !outcome.failed.isEmpty then
    Action.log .warn .migration
      ("💀 " ++ toString outcome.failed.length ++
        " routes skipped, their remote copies stay untouched")
  let sink ← Submission.run (Submission.limit sink m) sink outcome.routes
  Action.within (.notClosed sink.describe) sink.close
  Action.log .info .migration
    ("✅ " ++ toString outcome.routes.length ++ " routes submitted to " ++ sink.describe)
  return ({
    operation := m.operation
    restored := m.restore
    source := source.describe
    sink := sink.describe
    backup
    fetched := routes.length
    submitted := outcome.routes.length
    dropped := outcome.dropped
    failed := outcome.failed }, sink)

/-- The whole run over given ends. -/
def migrate (source : Source) (sink : Sink) (m : MigrationSettings) : Action (Summary × Sink) := do
  let (document, backup) ← opening source sink m
  delivery source sink m document backup

/-- The ends the settings ask for. Credentials are looked up first, and only where one of
the ends is the route manager. -/
def ends (s : Settings) : Action (Source × Sink) := do
  match s.source, s.sink with
  | .file path, .file path' => return (.file path, .file path' [])
  | .file path, .discard => return (.file path, .memory [])
  | source, sink =>
    let credentials ← Credentials.resolve s.routeManager.username s.routeManager.password
      s.routeManager.credentialsFile s.migration.queueEnvironment
    let client := Client.new s.routeManager.baseUrl credentials
    return (match source with
      | .routeManager => .routeManager client
      | .file path => .file path,
    match sink with
      | .routeManager => .routeManager client
      | .file path => .file path []
      | .discard => .memory [])

/-- A run as the settings say. Their time limits play no part: a world has no clock. -/
def run (s : Settings) : Action Summary := do
  let (source, sink) ← ends s
  return (← migrate source sink s.migration).1

end Migration

end RouteMigration
