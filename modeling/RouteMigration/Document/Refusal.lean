/-! Why a text is no routes document. The text is read once from left to right, and the
first thing that is wrong decides. -/

namespace RouteMigration.Document

inductive Refusal where
  /-- Well formed so far, but not what is expected here. -/
  | mistyped (message : String)
  | malformed
  | cutShort
  deriving DecidableEq, Repr

/-- Reads something at the front of a text and gives what is left. -/
abbrev Reader (α : Type) := StateT (List Char) (Except Refusal) α

def refuse {α : Type} (r : Refusal) : Reader α := fun _ => .error r

namespace Refusal

def invalidType (found expected : String) : Refusal :=
  .mistyped ("invalid type: " ++ found ++ ", expected " ++ expected)

def invalidLength (length : Nat) (expected : String) : Refusal :=
  .mistyped ("invalid length " ++ toString length ++ ", expected " ++ expected)

def missingField (key : String) : Refusal := .mistyped ("missing field `" ++ key ++ "`")

def duplicateField (key : String) : Refusal := .mistyped ("duplicate field `" ++ key ++ "`")

end Refusal

/-- What is said of any document that cannot be read. -/
def refusalContext : String :=
  "💀 The routes document refused to become routes. Expected an object with a `routesList` array, " ++
    "each route carrying at least uuid, name, rule and queues. " ++
    "Something in there is missing or mistyped."

end RouteMigration.Document
