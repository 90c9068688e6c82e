import RouteMigration.Text.Cut

/-! Targets that carry a qualifier besides system and environment. A rule spells one
`system/qualifier#environment` (the canonical spelling) or `system#environment/qualifier`;
a queue list knows a third spelling, `system-environment/qualifier`. -/

namespace RouteMigration.Target

open RouteMigration.Text

structure Qualified where
  system : List Char
  environment : List Char
  qualifier : List Char
  deriving DecidableEq, Repr

inductive Spelling where
  | qualifierFirst
  | environmentFirst
  deriving DecidableEq, Repr

namespace Qualified

def spell (q : Qualified) : Spelling → List Char
  | .qualifierFirst => q.system ++ '/' :: (q.qualifier ++ '#' :: q.environment)
  | .environmentFirst => q.system ++ '#' :: (q.environment ++ '/' :: q.qualifier)

def canonical (q : Qualified) : List Char := q.spell .qualifierFirst

def isComplete (q : Qualified) : Bool :=
  !q.system.isEmpty && !q.environment.isEmpty && !q.qualifier.isEmpty

def ifComplete (q : Qualified) (spelling : Spelling) : Option (Qualified × Spelling) :=
  if q.isComplete then some (q, spelling) else none

/-- A literal with one number sign, one slash and no empty part. -/
def parse? (literal : List Char) : Option (Qualified × Spelling) :=
  if literal.count '#' ≠ 1 ∨ literal.count '/' ≠ 1 then none
  else match cutFirst '#' literal with
    | none => none
    | some (head, tail) =>
      match cutFirst '/' head, cutFirst '/' tail with
      | some (system, qualifier), none => ifComplete ⟨system, tail, qualifier⟩ .qualifierFirst
      | none, some (environment, qualifier) =>
        ifComplete ⟨head, environment, qualifier⟩ .environmentFirst
      | _, _ => none

/-- System and environment as they stand before the slash: cut at the first number sign,
or at the last hyphen where there is none. -/
def cutHead? (head : List Char) : Option (List Char × List Char) :=
  if '#' ∈ head then cutFirst '#' head else cutLast '-' head

/-- A queue target that puts the environment before the qualifier. -/
def ofEnvironmentFirst? (target : List Char) : Option Qualified :=
  match cutFirst '/' target with
  | none => none
  | some (head, qualifier) =>
    match cutHead? head with
    | none => none
    | some (system, environment) =>
      let q : Qualified := ⟨system, environment, qualifier⟩
      if q.isComplete && '#' ∉ environment && '/' ∉ qualifier && '#' ∉ qualifier then some q
      else none

/-- The canonical spelling of a target that puts the environment first; all else stays. -/
def normalize (target : List Char) : List Char :=
  match ofEnvironmentFirst? target with
  | some q => q.canonical
  | none => target

end Qualified

def normalizeQualifier (target : String) : String :=
  String.ofList (Qualified.normalize target.toList)

end RouteMigration.Target
