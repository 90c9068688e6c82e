import RouteMigration.Settings
import RouteMigration.Settings.Problem

/-! Understanding a tree of values as settings. A group of settings is a table, or a list
that gives them in declared order; the keys of a table are looked at in their own order,
unknown ones not at all. -/

namespace RouteMigration.Settings

open RouteMigration.Text

abbrev Reading (α : Type) := Value → Except Problem α

def mistyped {α : Type} (expected : String) (v : Value) : Except Problem α :=
  flawed (.invalidType v.describe expected)

/-! ## Single values -/

def textAs (expected : String) : Reading String
  | .text s => .ok s
  | .char c => .ok (String.singleton c)
  | v => mistyped expected v

def textValue : Reading String := textAs "a string"

def pathValue : Reading String := textAs "path string"

def boolValue : Reading Bool
  | .bool b => .ok b
  | v => mistyped "a boolean" v

/-- A whole number that is not negative. -/
def countValue (expected : String) : Reading Nat
  | .unsigned n => .ok n
  | .signed n =>
    if n < 0 then flawed (.invalidValue (Value.signed n).describe expected) else .ok n.toNat
  | v => mistyped expected v

def someOf {α : Type} (read : Reading α) : Reading (Option α) := fun v => do return some (← read v)

/-! ## Choices -/

/-- Where one of several things is chosen: by its name alone, or as the first key of a
table. -/
inductive Choice where
  | name (name : String)
  | entry (name : String) (content : Value)

def choice (expected : String) : Reading Choice
  | .text s => .ok (.name s)
  | .table ((key, v) :: _) => .ok (.entry key v)
  | .table [] => mistyped "enum" (.table [])
  | v => mistyped expected v

/-- A choice that takes nothing further has nothing under its key. -/
def nothing : Reading Unit := mistyped "unit"

def operationNames : List String := Operation.all.map Operation.name

def operationNamed (name : String) : Except Problem Operation :=
  match Operation.ofName? name with
  | some op => .ok op
  | none => flawed (.unknownVariant name operationNames)

def operationValue : Reading Operation := fun v => do
  match ← choice "enum Operation" v with
  | .name name => operationNamed name
  | .entry name content => under name do
    let op ← operationNamed name
    nothing content
    return op

/-! ## Groups -/

/-- A setting of a table, or its default. -/
def entryOr {α : Type} (t : Table) (key : String) (default : α) (read : Reading α) :
    Except Problem α :=
  match t.lookup key with
  | some v => under key (read v)
  | none => .ok default

/-- A setting of a list, or its default. -/
def itemOr {α : Type} (vs : List Value) (index : Nat) (default : α) (read : Reading α) :
    Except Problem α :=
  match vs[index]? with
  | some v => under (toString index) (read v)
  | none => .ok default

/-- A setting that has to be there, once all that are there have been read. -/
def require {α : Type} (key : String) (value : Option α) : Except Problem α :=
  match value with
  | some x => .ok x
  | none => flawed (.missingField key)

/-- A setting of a list that has to be there. -/
def requireItem {α : Type} (index : Nat) (expected : String) (value : Option α) :
    Except Problem α :=
  match value with
  | some x => .ok x
  | none => flawed (.invalidLength index expected)

/-- The file of a source or sink; `expected` is what a refusal calls the group. -/
def fileValue (expected : String) : Reading String
  | .table t => do
    let name ← entryOr t "file_name" none (someOf pathValue)
    require "file_name" name
  | .list vs => do
    let name ← itemOr vs 0 none (someOf pathValue)
    requireItem 0 (expected ++ " with 1 element") name
  | v => mistyped expected v

def sourceValue : Reading SourceChoice := fun v => do
  match ← choice "enum SourceConfig" v with
  | .name "RouteManager" => return .routeManager
  | .name "File" => flawed (.invalidType "unit variant" "newtype variant")
  | .name name => flawed (.unknownVariant name ["RouteManager", "File"])
  | .entry name content => under name do
    match name with
    | "RouteManager" =>
      nothing content
      return .routeManager
    | "File" => return .file (← fileValue "struct FileSourceConfig" content)
    | name => flawed (.unknownVariant name ["RouteManager", "File"])

def sinkValue : Reading SinkChoice := fun v => do
  match ← choice "enum SinkConfig" v with
  | .name "RouteManager" => return .routeManager
  | .name "Discard" => return .discard
  | .name "File" => flawed (.invalidType "unit variant" "newtype variant")
  | .name name => flawed (.unknownVariant name ["RouteManager", "File", "Discard"])
  | .entry name content => under name do
    match name with
    | "RouteManager" =>
      nothing content
      return .routeManager
    | "Discard" =>
      nothing content
      return .discard
    | "File" => return .file (← fileValue "struct FileSinkConfig" content)
    | name => flawed (.unknownVariant name ["RouteManager", "File", "Discard"])

def routeManagerValue : Reading RouteManagerSettings
  | .table t => do
    let default : RouteManagerSettings := {}
    let baseUrl ← entryOr t "base_url" default.baseUrl textValue
    let connectTimeout ← entryOr t "connect_timeout_secs" default.connectTimeout (countValue "u64")
    let credentialsFile ← entryOr t "credentials_file" none (someOf pathValue)
    let password ← entryOr t "password" none (someOf textValue)
    let requestTimeout ← entryOr t "request_timeout_secs" default.requestTimeout (countValue "u64")
    let username ← entryOr t "username" none (someOf textValue)
    return { baseUrl, username, password, credentialsFile, connectTimeout, requestTimeout }
  | .list vs => do
    let default : RouteManagerSettings := {}
    let baseUrl ← itemOr vs 0 default.baseUrl textValue
    let username ← itemOr vs 1 none (someOf textValue)
    let password ← itemOr vs 2 none (someOf textValue)
    let credentialsFile ← itemOr vs 3 none (someOf pathValue)
    let connectTimeout ← itemOr vs 4 default.connectTimeout (countValue "u64")
    let requestTimeout ← itemOr vs 5 default.requestTimeout (countValue "u64")
    return { baseUrl, username, password, credentialsFile, connectTimeout, requestTimeout }
  | v => mistyped "struct RouteManagerConfig" v

def migrationValue : Reading MigrationSettings
  | .table t => do
    let backup ← entryOr t "backup" true boolValue
    let backupDir ← entryOr t "backup_dir" "." pathValue
    let operation ← entryOr t "operation" none (someOf operationValue)
    let queueEnvironment ← entryOr t "queue_environment" "dev" textValue
    let restore ← entryOr t "restore" false boolValue
    let updateParallelism ← entryOr t "update_parallelism" 1 (countValue "usize")
    let operation ← require "operation" operation
    return { operation, queueEnvironment, backup, backupDir, updateParallelism, restore }
  | .list vs => do
    let operation ← itemOr vs 0 none (someOf operationValue)
    let operation ← requireItem 0 "struct MigrationConfig with 6 elements" operation
    let queueEnvironment ← itemOr vs 1 "dev" textValue
    let backup ← itemOr vs 2 true boolValue
    let backupDir ← itemOr vs 3 "." pathValue
    let updateParallelism ← itemOr vs 4 1 (countValue "usize")
    let restore ← itemOr vs 5 false boolValue
    return { operation, queueEnvironment, backup, backupDir, updateParallelism, restore }
  | v => mistyped "struct MigrationConfig" v

/-- The whole tree as settings. -/
def ofTable (t : Table) : Except Problem Settings := do
  let migration ← entryOr t "migration" none (someOf migrationValue)
  let routeManager ← entryOr t "route_manager" {} routeManagerValue
  let sink ← entryOr t "sink" .routeManager sinkValue
  let source ← entryOr t "source" .routeManager sourceValue
  let migration ← require "migration" migration
  return { routeManager, migration, source, sink }

end RouteMigration.Settings
