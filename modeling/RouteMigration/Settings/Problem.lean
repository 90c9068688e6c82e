import RouteMigration.Settings.Value

/-! Why settings cannot be understood. -/

namespace RouteMigration.Settings

inductive Flaw where
  | missingField (key : String)
  | invalidType (found expected : String)
  | invalidValue (found expected : String)
  | unknownVariant (found : String) (expected : List String)
  | invalidLength (length : Nat) (expected : String)
  /-- The file is not TOML. -/
  | notToml
  deriving DecidableEq, Repr

/-- Names one may choose from, as a sentence lists them. -/
def listChoices (names : List String) : String :=
  match names.map fun n => "`" ++ n ++ "`" with
  | [a] => a
  | [a, b] => a ++ " or " ++ b
  | names => "one of " ++ ", ".intercalate names

/-- What is said of a flaw; nothing where the words belong to the reader of the file. -/
def Flaw.message? : Flaw → Option String
  | missingField key => some ("missing field `" ++ key ++ "`")
  | invalidType found expected =>
    some ("invalid type: found " ++ found ++ ", expected " ++ expected)
  | invalidValue found expected =>
    some ("invalid value " ++ found ++ ", expected " ++ expected)
  | unknownVariant found expected =>
    some ("unknown variant: found `" ++ found ++ "`, expected `" ++ listChoices expected ++ "`")
  | invalidLength length expected =>
    some ("invalid length " ++ toString length ++ ", expected " ++ expected)
  | notToml => none

/-- A flaw, and the keys that lead to it from the top. -/
structure Problem where
  flaw : Flaw
  path : List String := []
  deriving DecidableEq, Repr

def Problem.message (p : Problem) : String :=
  p.flaw.message?.getD "the file is not TOML" ++
    if p.path.isEmpty then "" else " for key \"" ++ ".".intercalate p.path ++ "\""

/-- A reading of a value; a problem in it is found under one more key. -/
def under {α : Type} (key : String) (result : Except Problem α) : Except Problem α :=
  match result with
  | .ok x => .ok x
  | .error p => .error { p with path := key :: p.path }

def flawed {α : Type} (flaw : Flaw) : Except Problem α := .error { flaw }

end RouteMigration.Settings
