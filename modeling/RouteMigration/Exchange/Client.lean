import RouteMigration.Exchange.Address
import RouteMigration.Exchange.Base64
import RouteMigration.Route
import RouteMigration.World

/-! The two calls a route manager answers: all its routes, and the update of one. Anything
but a success is the end of the call. A call has no time limit here: its reply comes or it does
not. -/

namespace RouteMigration

open RouteMigration.Text

structure Credentials where
  username : String
  password : String
  deriving DecidableEq, Repr

/-- The header that proves who is asking. -/
def Credentials.authorization (c : Credentials) : String :=
  "Basic " ++ String.ofList (Base64.encode (Utf8.encode (c.username ++ ":" ++ c.password).toList))

structure Client where
  /-- Without slashes at its end. -/
  base : String
  credentials : Credentials
  deriving DecidableEq, Repr

namespace Client

def new (baseUrl : String) (credentials : Credentials) : Client :=
  ⟨String.ofList ((baseUrl.toList.reverse.dropWhile (· = '/')).reverse), credentials⟩

/-- The address of a call, if it is one that can be called. -/
def address (url : String) : Except Failure WebAddress :=
  match WebAddress.parse url with
  | .error flaw => .error ⟨.badAddress, [.addressFlaw flaw]⟩
  | .ok a =>
    if a.schemeIsAllowed then .ok a else .error ⟨.badAddressAt a.text, [.schemeNotAllowed]⟩

/-- The text of a complete reply. -/
def bodyOf (url : String) (r : Reply) : Except Failure String :=
  if r.isCutShort then
    .error ⟨.decodingBodyFrom url, [.bodyError, .readingBody, .bodyCutShort]⟩
  else .ok r.text

/-- A reply, and the address it came from. -/
structure Answer where
  address : WebAddress
  reply : Reply

/-- Makes a call, up to the head of its reply. -/
def ask (c : Client) (method : Method) (url : String) (contentType : Option String)
    (body : String) : Action Answer :=
  Action.within (.neverMade method url) do
    let a ← Action.attempt (address url)
    let reply ← Action.exchange a.text
      ⟨method, a.target, c.credentials.authorization, contentType, body⟩
    return ⟨a, reply⟩

/-- Reads a reply to its end. Only the body of a success is given back. -/
def read (method : Method) (url : String) (x : Answer) : Action String := do
  let text ← Action.within (.bodyLost method url x.reply.status)
    (Action.attempt (bodyOf x.address.text x.reply))
  Action.log .trace .routeManager
    ("📬 " ++ method.name ++ " " ++ url ++ " → " ++ x.reply.status.text ++ " (" ++
      toString text.utf8ByteSize ++ " bytes)")
  if !x.reply.status.isSuccess then Action.fail (.refused method url x.reply.status text)
  return text

/-- The document with all routes, as it is sent. -/
def fetchRoutes (c : Client) : Action String := do
  let url := c.base ++ "/routes"
  Action.log .debug .routeManager ("📡 GET " ++ url)
  read .get url (← c.ask .get url none "")

/-! ## Updates -/

def updateUrl (c : Client) : String := c.base ++ "/updateroute"

def announceUpdate (c : Client) (r : Route) : Action Unit :=
  Action.log .debug .routeManager
    ("📡 PUT " ++ c.updateUrl ++ " for route '" ++ r.name ++ "' (" ++ r.uuid ++ ")")

def askUpdate (c : Client) (r : Route) : Action Answer :=
  Action.within (.notUpdated r.name r.uuid)
    (c.ask .put c.updateUrl (some "application/x-www-form-urlencoded") r.formBody)

def readUpdate (c : Client) (r : Route) (x : Answer) : Action Unit := do
  let _ ← Action.within (.notUpdated r.name r.uuid) (read .put c.updateUrl x)

end Client

end RouteMigration
