/-! Why a queue name or an endpoint key cannot be read in the direction asked for. -/

namespace RouteMigration.Target

inductive Flaw where
  /-- A queue name with `found` hyphen-separated segments has no system. -/
  | tooFewSegments (found : Nat)
  | emptyPart
  | notOneHash
  deriving DecidableEq, Repr

def Flaw.message : Flaw → String
  | .tooFewSegments found =>
    "a queue name needs at least 4 hyphen-separated segments (prefix, system, environment), found " ++
      toString found
  | .emptyPart => "system and environment must both be non-empty"
  | .notOneHash => "an endpoint key needs exactly one '#' between system and environment"

/-- A target as it was written, and what is wrong with it. -/
structure Malformed where
  target : String
  flaw : Flaw
  deriving DecidableEq, Repr

def Malformed.message (m : Malformed) : String :=
  "malformed target '" ++ m.target ++ "': " ++ m.flaw.message

end RouteMigration.Target
