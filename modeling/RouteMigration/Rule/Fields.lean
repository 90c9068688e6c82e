import RouteMigration.Text.Cut

/-! The two dialects of the header fields in a rule: the legacy names and the
structured names they stand for. -/

namespace RouteMigration.Rule

open RouteMigration.Text

structure FieldPair where
  legacy : List Char
  structured : List Char

def systemField : FieldPair := ⟨"emxSourceSystem".toList, "endpoint.system".toList⟩

def environmentField : FieldPair := ⟨"emxSourceEnvironment".toList, "endpoint.env".toList⟩

def FieldPair.toStructured (p : FieldPair) (rule : List Char) : List Char :=
  replaceAll p.legacy p.structured rule

def FieldPair.toLegacy (p : FieldPair) (rule : List Char) : List Char :=
  replaceAll p.structured p.legacy rule

/-- Every legacy field name becomes the structured one, wherever it stands. -/
def toStructuredFields (rule : String) : String :=
  String.ofList (environmentField.toStructured (systemField.toStructured rule.toList))

def toLegacyFields (rule : String) : String :=
  String.ofList (environmentField.toLegacy (systemField.toLegacy rule.toList))

end RouteMigration.Rule
