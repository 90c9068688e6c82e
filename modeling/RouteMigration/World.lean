import RouteMigration.Exchange.Message
import RouteMigration.Failure
import RouteMigration.FileTree.Tree
import RouteMigration.Log
import RouteMigration.Route

/-! What a run can see and change: the files, a route manager if one is there, and the
log. A run is a function on worlds that gives a result or a failure, and what it did before
failing stays done. -/

namespace RouteMigration

structure World where
  files : FileTree
  /-- What the calls of a route manager will end with, call after call; `none` when none is
  there. Where it redirects them before that is left to the wire. -/
  replies : Option (List Reply) := none
  /-- The calls made so far, as they were first sent. -/
  requests : List Request := []
  /-- What has arrived at sinks in memory. It stays with them when a run fails. -/
  arrived : List Route := []
  log : List LogLine := []
  /-- The time as it goes into the name of a backup. -/
  stamp : String := ""
  /-- The directory a path that starts with `~` means. -/
  userHome : Option String := none
  /-- Which of the things under way goes on next, turn after turn; once none is named, the
  first. -/
  turns : List Nat := []

abbrev Action := ExceptT Failure (StateM World)

namespace Action

def attempt {α : Type} (result : Except Failure α) : Action α := fun w => (result, w)

def fail {α : Type} (c : Cause) : Action α := attempt (.error ⟨c, []⟩)

def log (level : Level) (origin : Origin) (text : String) : Action Unit := fun w =>
  (.ok (), { w with log := w.log ++ [⟨level, origin, text⟩] })

/-- An action whose failure, if it fails, makes something wider fail. -/
def within {α : Type} (c : Cause) (a : Action α) : Action α := fun w =>
  match a w with
  | (.ok x, w) => (.ok x, w)
  | (.error f, w) => (.error (f.within c), w)

/-- The text of a file. -/
def readText (c : Cause) (path : String) : Action String := fun w =>
  (failingAs c (w.files.readText path), w)

/-- Writes a text over a file. -/
def store (c : Cause) (path text : String) (fault? : Option FileTree.Fault) : Action Unit :=
  fun w =>
    let (files, result) := w.files.store path text fault?
    (failingAs c result, { w with files })

/-- A write during which nothing goes wrong but what the path is to blame for. -/
def writeText (c : Cause) (path text : String) : Action Unit := store c path text none

def makeDirectories (c : Cause) (path : String) : Action Unit := fun w =>
  let (files, result) := w.files.makeDirectories path
  (failingAs c result, { w with files })

/-- A route arrives at a sink in memory. -/
def arrive (r : Route) : Action Unit := fun w => (.ok (), { w with arrived := w.arrived ++ [r] })

/-- Whose turn it is. -/
def turn : Action Nat := fun w => (.ok (w.turns.headD 0), { w with turns := w.turns.tail })

/-- Makes a call and takes the reply it ends with. When the replies have run out, empty ones
follow. -/
def exchange (url : String) (r : Request) : Action Reply := fun w =>
  match w.replies with
  | none => (.error ⟨.sendingTo url, [.connecting, .connectingByTcp, .connectionRefused]⟩, w)
  | some replies =>
    (.ok (replies.head?.getD .empty),
      { w with replies := some replies.tail, requests := w.requests ++ [r] })

end Action

end RouteMigration
