import RouteMigration.Form

/-! A route: one rule, and the targets it sends to. A route is never changed in place;
rewriting gives a new route with every other field carried over. -/

namespace RouteMigration

structure Route where
  uuid : String
  name : String
  rule : String
  description : String := ""
  enabled : Bool := false
  queues : List String
  createdDate : String := ""
  modifiedDate : String := ""
  deriving DecidableEq, Repr, Inhabited

namespace Route

def withQueues (r : Route) (queues : List String) : Route := { r with queues }

def withRule (r : Route) (rule : String) : Route := { r with rule }

/-- What an update sends, in the order the service has always received it. The queues
travel joined by commas; the dates stay at home. -/
def formParams (r : Route) : List (String × String) :=
  [("name", r.name), ("rule", r.rule), ("description", r.description),
   ("queues", ",".intercalate r.queues), ("enabled", if r.enabled then "true" else "false"),
   ("uuid", r.uuid)]

def formBody (r : Route) : String :=
  String.ofList (Form.encodePairs (r.formParams.map fun (name, value) => (name.toList, value.toList)))

end Route

end RouteMigration
