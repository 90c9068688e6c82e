import RouteMigration.Document.Refusal
import RouteMigration.Exchange.Address
import RouteMigration.Exchange.Message
import RouteMigration.FileTree.OsError

/-! Why a run fails: a chain of causes, the outermost first. -/

namespace RouteMigration

inductive Cause where
  | os (e : OsError)
  -- credentials
  | noCredentials (environment : String)
  | credentialsUnreadable (path : String)
  | accountMissing (path : String)
  | entryMissing (key : String)
  -- loading
  | notLoaded (source : String)
  | sourceUnreadable (path : String)
  | document
  | refusal (r : Document.Refusal)
  -- backups
  | backupDirectory (dir : String)
  | backupFile (path : String)
  | backupListing (dir : String)
  | noBackup (dir : String)
  -- submitting
  | stopped (sink : String) (done total : Nat)
  | notUpdated (name uuid : String)
  | notClosed (sink : String)
  | sinkUnwritable (path : String)
  -- exchanges
  | neverMade (method : Method) (url : String)
  | bodyLost (method : Method) (url : String) (status : Status)
  | refused (method : Method) (url : String) (status : Status) (body : String)
  | badAddress
  | addressFlaw (flaw : AddressFlaw)
  | badAddressAt (url : String)
  | schemeNotAllowed
  | sendingTo (url : String)
  | connecting
  | connectingByTcp
  | connectionRefused
  | decodingBodyFrom (url : String)
  | bodyError
  | readingBody
  | bodyCutShort
  deriving DecidableEq, Repr

namespace Cause

def message : Cause → String
  | os e => e.message
  | noCredentials environment =>
    "💀 No credentials for the route manager. Set route_manager.username and " ++
      "route_manager.password, or point route_manager.credentials_file at a properties " ++
      "file with emxaccount" ++ environment ++ ".username / .password."
  | credentialsUnreadable path => "💀 Couldn't read credentials file '" ++ path ++ "'"
  | accountMissing path => "💀 Credentials file '" ++ path ++ "' is missing an account"
  | entryMissing key => "no '" ++ key ++ "' entry"
  | notLoaded source => "💀 Couldn't load routes from " ++ source
  | sourceUnreadable path =>
    "💀 The routes file '" ++ path ++ "' could not be read. We stared at the path. " ++
      "The path stared back. One of us was wrong about whether it existed."
  | document => Document.refusalContext
  | refusal (.mistyped message) => message
  | refusal .malformed => "expected value"
  | refusal .cutShort => "EOF while parsing a value"
  | backupDirectory dir => "💀 Couldn't create backup directory '" ++ dir ++ "'"
  | backupFile path =>
    "💀 Couldn't write the backup '" ++ path ++
      "'. Nothing was changed. Nothing will be, until this works."
  | backupListing dir => "💀 Couldn't list backup directory '" ++ dir ++ "'"
  | noBackup dir => "💀 No OriginalRoutes*.json in '" ++ dir ++ "'. Pass --from <file>."
  | stopped sink done total =>
    "💀 Submitting to " ++ sink ++ " stopped after " ++ toString done ++ " of " ++
      toString total ++ " routes. The backup has the originals if you need to revert."
  | notUpdated name uuid => "💀 Updating route '" ++ name ++ "' (" ++ uuid ++ ") failed"
  | notClosed sink => "💀 Couldn't close " ++ sink
  | sinkUnwritable path =>
    "💀 Error writing '" ++ path ++ "'. The routes were SO CLOSE. They could SEE the disk."
  | neverMade method url =>
    "💀 " ++ method.name ++ " " ++ url ++ " never made it. error sending request."
  | bodyLost method url status =>
    "💀 " ++ method.name ++ " " ++ url ++ " answered " ++ status.text ++
      " but the body got lost in transit"
  | refused method url status body =>
    "💀 " ++ method.name ++ " " ++ url ++ " answered " ++ status.text ++ ". Body: " ++ body
  | badAddress => "builder error"
  | addressFlaw flaw => flaw.message
  | badAddressAt url => "builder error for url (" ++ url ++ ")"
  | schemeNotAllowed => "URL scheme is not allowed"
  | sendingTo url => "error sending request for url (" ++ url ++ ")"
  | connecting => "client error (Connect)"
  | connectingByTcp => "tcp connect error"
  | connectionRefused => "Connection refused (os error 111)"
  | decodingBodyFrom url => "error decoding response body for url (" ++ url ++ ")"
  | bodyError => "request or response body error"
  | readingBody => "error reading a body from connection"
  | bodyCutShort => "end of file before message length reached"

end Cause

structure Failure where
  outermost : Cause
  causes : List Cause := []
  deriving DecidableEq, Repr

namespace Failure

def chain (f : Failure) : List Cause := f.outermost :: f.causes

/-- The failure as a consequence that makes a wider one fail. -/
def within (c : Cause) (f : Failure) : Failure := ⟨c, f.chain⟩

def message (f : Failure) : String := ": ".intercalate (f.chain.map Cause.message)

end Failure

/-- A result whose refusal, if any, fails something wider. -/
def failingAs {α : Type} (c : Cause) : Except OsError α → Except Failure α
  | .ok x => .ok x
  | .error e => .error ⟨c, [.os e]⟩

end RouteMigration
