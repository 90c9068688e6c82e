import RouteMigration.Exchange.Status

/-! What is sent to a route manager, and what comes back. Bodies are texts, and of the headers only
those are here that a call sets itself; where a reply redirects to is said beside it. -/

namespace RouteMigration

inductive Method where
  | get
  | put
  deriving DecidableEq, Repr

def Method.name : Method → String
  | get => "GET"
  | put => "PUT"

structure Request where
  method : Method
  /-- Path and query. -/
  target : String
  authorization : String
  contentType : Option String
  body : String
  deriving DecidableEq, Repr

structure Reply where
  status : Status
  body : String := ""
  /-- How many octets of the promised body never arrive. -/
  missing : Nat := 0
  deriving DecidableEq, Repr

namespace Reply

/-- What a server answers once it has nothing else to say. -/
def empty : Reply := ⟨⟨200⟩, "", 0⟩

/-- Whether the connection ends before the body does. -/
def isCutShort (r : Reply) : Bool := r.status.hasBody && r.missing > 0

/-- The body as text: a byte order mark at its front does not count. -/
def text (r : Reply) : String :=
  if !r.status.hasBody then ""
  else match r.body.toList with
    | '\uFEFF' :: rest => String.ofList rest
    | _ => r.body

end Reply

end RouteMigration
