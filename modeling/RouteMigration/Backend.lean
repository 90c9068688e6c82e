import RouteMigration.Document.Printer
import RouteMigration.Exchange.Client

/-! Where routes come from and where they go. -/

namespace RouteMigration

inductive Source where
  | memory (document : String)
  | file (path : String)
  | routeManager (client : Client)

namespace Source

def describe : Source → String
  | memory _ => "in-memory"
  | file path => "file " ++ path
  | routeManager client => "route manager " ++ client.base

def isRemote : Source → Bool
  | routeManager _ => true
  | _ => false

/-- The whole document, as its origin has it. -/
def load : Source → Action String
  | memory document => return document
  | file path => do
    Action.log .trace .file ("📂 reading routes document from " ++ path)
    Action.readText (.sourceUnreadable path) path
  | routeManager client => client.fetchRoutes

end Source

/-- A sink that is not remote keeps what it has received, the first route first. -/
inductive Sink where
  | memory (received : List Route)
  | file (path : String) (received : List Route)
  | routeManager (client : Client)

namespace Sink

def describe : Sink → String
  | memory _ => "in-memory"
  | file path _ => "file " ++ path
  | routeManager client => "route manager " ++ client.base

def isRemote : Sink → Bool
  | routeManager _ => true
  | _ => false

def received : Sink → List Route
  | memory routes => routes
  | file _ routes => routes
  | routeManager _ => []

/-! A submission has three steps, and those of several submissions may come in between. -/

/-- The first step, before anything is sent. -/
def announce (r : Route) : Sink → Action Unit
  | routeManager client => client.announceUpdate r
  | _ => return

/-- The second step: the sink has the route. A route manager answers. -/
def take (r : Route) : Sink → Action (Sink × Option Client.Answer)
  | memory routes => do
    Action.arrive r
    return (memory (routes ++ [r]), none)
  | file path routes => return (file path (routes ++ [r]), none)
  | routeManager client => return (routeManager client, some (← client.askUpdate r))

/-- The third step: the answer says whether the route was accepted. -/
def settle (r : Route) : Option Client.Answer → Sink → Action Unit
  | some x, routeManager client => client.readUpdate r x
  | _, _ => return

/-- Submits one more route. -/
def submit (r : Route) (sink : Sink) : Action Sink := do
  sink.announce r
  let (sink, answer?) ← sink.take r
  settle r answer? sink
  return sink

/-- What is left to do after the last route: a file gets its content only now. -/
def closeUnder (fault? : Option FileTree.Fault) : Sink → Action Unit
  | memory _ => return
  | file path routes => do
    Action.store (.sinkUnwritable path) path (Document.print routes) fault?
    Action.log .info .file ("📝 wrote " ++ toString routes.length ++ " routes to " ++ path)
  | routeManager _ => return

/-- A close during which no fault comes up. -/
def close : Sink → Action Unit := closeUnder none

end Sink

end RouteMigration
