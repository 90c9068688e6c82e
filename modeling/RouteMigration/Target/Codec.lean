import RouteMigration.Form
import RouteMigration.Target.Malformed
import RouteMigration.Text.Cut

/-! Queue names and endpoint keys. A queue name is `emx-to-<system>-<environment>`, the
environment being what follows the last hyphen; its endpoint key is
`<system>#<environment>`, both parts form-encoded. Three queues older than the convention
have a key of their own in every environment. A target that already has the form asked
for stays as it is. -/

namespace RouteMigration.Target

open RouteMigration.Text

/-- A queue outside the convention, and the system part of its endpoint key. -/
structure Special where
  queue : List Char
  system : List Char

def specials : List Special :=
  [⟨"emx-trash".toList, "emx-core-trash".toList⟩,
   ⟨"emx-to-archive-core".toList, "emx-core-archive".toList⟩,
   ⟨"emx-to-emx-healthcheck".toList, "emx-core-healthcheck".toList⟩]

def Special.key (env : List Char) (s : Special) : List Char := s.system ++ '#' :: env

def specialOfQueue? (queue : List Char) : Option Special := specials.find? (·.queue = queue)

def specialOfKey? (env key : List Char) : Option Special := specials.find? (·.key env = key)

/-- The two hyphen segments every conventional queue name starts with. -/
def queueStart : List Char := "emx-to-".toList

/-- The segments between the first two and the last, joined again, and the last one. -/
def systemAndEnvironment? (segments : List (List Char)) : Option (List Char × List Char) :=
  match segments with
  | _ :: _ :: third :: rest =>
    match (third :: rest).getLast? with
    | some environment =>
      if rest.isEmpty then none
      else some (['-'].intercalate (third :: rest).dropLast, environment)
    | none => none
  | _ => none

def encodeQueue (queue : List Char) : Except Flaw (List Char) :=
  let segments := queue.splitOn '-'
  match systemAndEnvironment? segments with
  | none => .error (.tooFewSegments segments.length)
  | some (system, environment) =>
    if system.isEmpty || environment.isEmpty then .error .emptyPart
    else .ok (Form.encode system ++ '#' :: Form.encode environment)

/-- The endpoint key of a queue name, read in queue environment `env`. -/
def keyOfQueue (env queue : List Char) : Except Flaw (List Char) :=
  match specialOfQueue? queue with
  | some s => .ok (s.key env)
  | none => if '#' ∈ queue then .ok queue else encodeQueue queue

/-- The parts of a key with exactly one number sign. -/
def cutKey? (key : List Char) : Option (List Char × List Char) :=
  match cutFirst '#' key with
  | some (system, environment) => if '#' ∈ environment then none else some (system, environment)
  | none => none

def decodeKey (key : List Char) : Except Flaw (List Char) :=
  match cutKey? key with
  | none => .error .notOneHash
  | some (system, environment) =>
    if system.isEmpty || environment.isEmpty then .error .emptyPart
    else .ok (queueStart ++ Form.decode system ++ '-' :: Form.decode environment)

/-- The queue name of an endpoint key, read in queue environment `env`. -/
def queueOfKey (env key : List Char) : Except Flaw (List Char) :=
  match specialOfKey? env key with
  | some s => .ok s.queue
  | none =>
    if queueStart.isPrefixOf key || (specialOfQueue? key).isSome then .ok key else decodeKey key

/-- A reading of characters as one of texts, with the target named when it fails. -/
def onText (read : List Char → Except Flaw (List Char)) (target : String) :
    Except Malformed String :=
  match read target.toList with
  | .ok s => .ok (String.ofList s)
  | .error flaw => .error ⟨target, flaw⟩

def toEndpointKey (env queue : String) : Except Malformed String :=
  onText (keyOfQueue env.toList) queue

def toQueueName (env key : String) : Except Malformed String :=
  onText (queueOfKey env.toList) key

end RouteMigration.Target
