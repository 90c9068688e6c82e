import RouteMigration.Operation

/-! What a migration is told to do. -/

namespace RouteMigration

structure RouteManagerSettings where
  baseUrl : String := "https://emx-route-manager-dev.churchofjesuschrist.org/api/emx-router"
  username : Option String := none
  password : Option String := none
  credentialsFile : Option String := none
  connectTimeout : Nat := 30
  requestTimeout : Nat := 60
  deriving DecidableEq, Repr

structure MigrationSettings where
  operation : Operation
  queueEnvironment : String := "dev"
  backup : Bool := true
  backupDir : String := "."
  updateParallelism : Nat := 1
  /-- The source goes to the sink as it is, and the operation is not applied. -/
  restore : Bool := false
  deriving DecidableEq, Repr

inductive SourceChoice where
  | routeManager
  | file (path : String)
  deriving DecidableEq, Repr

inductive SinkChoice where
  | routeManager
  | file (path : String)
  | discard
  deriving DecidableEq, Repr

structure Settings where
  routeManager : RouteManagerSettings := {}
  migration : MigrationSettings
  source : SourceChoice := .routeManager
  sink : SinkChoice := .routeManager
  deriving DecidableEq, Repr

end RouteMigration
