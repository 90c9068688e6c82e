import RouteMigration.Exchange.Address
import RouteMigration.World

/-! Redirects. A reply may send a request on to another address, and there it is asked again. A
call ends with the first reply that does not, so on the wire there may be more requests than
calls. A call that is redirected too often ends with the redirect it does not follow, and that is
no success. -/

namespace RouteMigration

/-- A reply as it comes over the wire. -/
structure Hop where
  reply : Reply
  /-- The address its header `Location` comes to, if it has one that can be called. -/
  location : Option WebAddress := none

/-- Host and port, also where the port goes without saying. -/
def WebAddress.peer (a : WebAddress) : List Char × Nat :=
  let (host, port) := cutPort false (a.authority.getD [])
  (host,
    if port.isEmpty then (hostedSchemes.lookup a.scheme).getD 0 else Host.digitsValue 10 port)

namespace Redirect

/-- How many redirects in a row are followed. -/
def limit : Nat := 10

def statuses : List Nat := [301, 302, 303, 307, 308]

/-- The address that a reply sends the request on to. -/
def onward? (h : Hop) : Option WebAddress :=
  if statuses.contains h.reply.status.code then h.location else none

/-- The request as it is sent on. Nobody else is told who asks: the header is empty then. -/
def forward (status : Status) (here there : WebAddress) (r : Request) : Request :=
  let r := if status.code = 303 then { r with method := .get, contentType := none, body := "" }
    else r
  { r with
    target := there.target
    authorization := if here.peer = there.peer then r.authorization else "" }

/-- What one call comes to. -/
structure Called where
  sent : List Request
  reply : Reply
  /-- What the route manager has not answered yet. -/
  rest : List Hop

/-- A call that may be sent on so many times. -/
def call : Nat → WebAddress → Request → List Hop → Called
  | _, _, r, [] => ⟨[r], .empty, []⟩
  | 0, _, r, h :: hops => ⟨[r], h.reply, hops⟩
  | left + 1, here, r, h :: hops =>
    match onward? h with
    | some there =>
      let c := call left there (forward h.reply.status here there r) hops
      { c with sent := r :: c.sent }
    | none => ⟨[r], h.reply, hops⟩

/-- All that is sent for calls that are made one after the other. -/
def sent (origin : WebAddress) : List Hop → List Request → List Request
  | _, [] => []
  | hops, r :: calls =>
    let c := call limit origin r hops
    c.sent ++ sent origin c.rest calls

/-- The replies that calls end with, one after the other, when the first one may be sent on so
many times. -/
def repliesFrom : Nat → List Hop → List Reply
  | _, [] => []
  | 0, h :: hops => h.reply :: repliesFrom limit hops
  | left + 1, h :: hops =>
    match onward? h with
    | some _ => repliesFrom left hops
    | none => h.reply :: repliesFrom limit hops

def replies (hops : List Hop) : List Reply := repliesFrom limit hops

end Redirect

/-- The world with a route manager in it that answers so, if there is one. -/
def World.facing (w : World) (hops? : Option (List Hop)) : World :=
  { w with replies := hops?.map Redirect.replies }

end RouteMigration
