import RouteMigration.Route
import RouteMigration.Rule.Endpoint
import RouteMigration.Rule.Fields
import RouteMigration.Target.Codec

/-! The seven operations. Each rewrites the rule or the queues of a route, never both. -/

namespace RouteMigration

inductive Operation where
  | encodeQueues
  | decodeQueues
  | headersToStructured
  | headersToLegacy
  | expandEndpointPattern
  | collapseEndpointPattern
  | normalizeQualifiers
  deriving DecidableEq, Repr, Inhabited

namespace Operation

/-- The part of a route an operation rewrites. -/
inductive Part where
  | rule
  | queues
  deriving DecidableEq, Repr

def all : List Operation :=
  [encodeQueues, decodeQueues, headersToStructured, headersToLegacy, expandEndpointPattern,
   collapseEndpointPattern, normalizeQualifiers]

theorem mem_all (op : Operation) : op ∈ all := by cases op <;> decide

def name : Operation → String
  | encodeQueues => "encode-queues"
  | decodeQueues => "decode-queues"
  | headersToStructured => "headers-to-structured"
  | headersToLegacy => "headers-to-legacy"
  | expandEndpointPattern => "expand-endpoint-pattern"
  | collapseEndpointPattern => "collapse-endpoint-pattern"
  | normalizeQualifiers => "normalize-qualifiers"

def ofName? (s : String) : Option Operation := all.find? (·.name = s)

@[simp] theorem ofName?_name (op : Operation) : ofName? op.name = some op := by
  cases op <;> decide

/-- What is said about a name no operation has. -/
def unknownMessage (s : String) : String :=
  "unknown operation '" ++ s ++ "', expected one of: " ++ ", ".intercalate (all.map name)

/-- What is said about such a name where it stands in a document. -/
def unknownVariantMessage (s : String) : String :=
  "unknown variant `" ++ s ++ "`, expected one of " ++
    ", ".intercalate (all.map fun op => "`" ++ op.name ++ "`")

def part : Operation → Part
  | encodeQueues | decodeQueues | normalizeQualifiers => .queues
  | headersToStructured | headersToLegacy | expandEndpointPattern | collapseEndpointPattern => .rule

def inverse? : Operation → Option Operation
  | encodeQueues => some decodeQueues
  | decodeQueues => some encodeQueues
  | headersToStructured => some headersToLegacy
  | headersToLegacy => some headersToStructured
  | expandEndpointPattern => some collapseEndpointPattern
  | collapseEndpointPattern => some expandEndpointPattern
  | normalizeQualifiers => none

theorem inverse?_symm {a b : Operation} (h : a.inverse? = some b) : b.inverse? = some a := by
  cases a <;> cases b <;> simp_all [inverse?]

/-- The route with `f` applied to each queue; the first queue that `f` refuses is the error. -/
def withQueuesBy (f : String → Except Target.Malformed String) (r : Route) :
    Except Target.Malformed Route :=
  match r.queues.mapM f with
  | .ok queues => .ok (r.withQueues queues)
  | .error e => .error e

def apply (op : Operation) (env : String) (r : Route) : Except Target.Malformed Route :=
  match op with
  | encodeQueues => withQueuesBy (Target.toEndpointKey env) r
  | decodeQueues => withQueuesBy (Target.toQueueName env) r
  | normalizeQualifiers => withQueuesBy (fun q => .ok (Target.normalizeQualifier q)) r
  | headersToStructured => .ok (r.withRule (Rule.toStructuredFields r.rule))
  | headersToLegacy => .ok (r.withRule (Rule.toLegacyFields r.rule))
  | expandEndpointPattern => .ok (r.withRule (Rule.expandEndpointPattern r.rule))
  | collapseEndpointPattern => .ok (r.withRule (Rule.collapseEndpointPattern r.rule))

end Operation

end RouteMigration
