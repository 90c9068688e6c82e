import RouteMigration.Exchange.Client
import RouteMigration.Text.Blank
import RouteMigration.Text.Cut
import RouteMigration.Text.Quoted

/-! Credentials of a route manager: given in the settings, or looked up in a properties
file that holds one account for each environment. -/

namespace RouteMigration

open RouteMigration.Text

namespace Properties

def isSeparator (c : Char) : Bool := c == '=' || c == ':'

/-- One line: an assignment, or nothing. Comments start with a number or an exclamation
mark. A carriage return at the end of a line is white space like any other. -/
def assignment? (line : List Char) : Option (String × String) :=
  match trim line with
  | [] => none
  | c :: s =>
    if c = '#' || c = '!' then none
    else
      let key := (c :: s).takeWhile (!isSeparator ·)
      match (c :: s).dropWhile (!isSeparator ·) with
      | [] => none
      | _ :: value => some (String.ofList (trim key), String.ofList (trim value))

def parse (text : String) : List (String × String) :=
  (text.toList.splitOn '\n').filterMap assignment?

/-- What a key was last assigned. -/
def lookup? (properties : List (String × String)) (key : String) : Option String :=
  properties.reverse.lookup key

end Properties

namespace Credentials

def require (properties : List (String × String)) (key : String) : Except Failure String :=
  match Properties.lookup? properties key with
  | some value => .ok value
  | none => .error ⟨.entryMissing key, []⟩

/-- The account of an environment. -/
def ofProperties (text environment : String) : Except Failure Credentials := do
  let properties := Properties.parse text
  let username ← require properties ("emxaccount" ++ environment ++ ".username")
  let password ← require properties ("emxaccount" ++ environment ++ ".password")
  return ⟨username, password⟩

/-- What is shown of credentials where others might see it. -/
def describe (c : Credentials) : String :=
  "Credentials \x7b username: " ++ quoted c.username ++ ", password: " ++ quoted "<redacted>" ++
    " \x7d"

/-- The credentials given, or else those of the account file. -/
def resolve (username? password? file? : Option String) (environment : String) :
    Action Credentials := do
  match username?, password?, file? with
  | some username, some password, _ => return ⟨username, password⟩
  | _, _, none => Action.fail (.noCredentials environment)
  | _, _, some file =>
    let path := Path.expandHome (← get).userHome file
    let text ← Action.readText (.credentialsUnreadable path) path
    Action.within (.accountMissing path) (Action.attempt (ofProperties text environment))

end Credentials

end RouteMigration
