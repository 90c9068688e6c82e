import RouteMigration.Operation

/-! The arguments of the command line. They are read from left to right, and the first one
that is wrong, or that asks for help or the version, decides. -/

namespace RouteMigration.CommandLine

structure Options where
  config : Option String := none
  operation : Option Operation := none
  revert : Bool := false
  backup : Option String := none
  dryRun : Bool := false
  out : Option String := none
  deriving DecidableEq, Repr

inductive Invocation where
  | run (options : Options)
  | help
  | version
  | refused
  deriving DecidableEq, Repr

/-- What takes a value. -/
inductive Setting where
  | operation
  | backup
  | out
  deriving DecidableEq, Repr

inductive Switch where
  | revert
  | dryRun
  deriving DecidableEq, Repr

/-- What an argument asks for. -/
inductive Argument where
  | help
  | version
  | switch (s : Switch)
  | setting (s : Setting) (value : Option String)
  | endOfOptions
  | positional (value : String)
  | unknown
  deriving DecidableEq, Repr

namespace Argument

/-- An argument that starts with two hyphens, as its name and its value if it has one. -/
def ofLong (name : String) (value : Option String) : Argument :=
  match name, value with
  | "help", none => help
  | "version", none => version
  | "revert", none => switch .revert
  | "dry-run", none => switch .dryRun
  | "operation", v => setting .operation v
  | "from", v => setting .backup v
  | "out", v => setting .out v
  | _, _ => unknown

def read (arg : String) : Argument :=
  match arg.toList with
  | ['-', '-'] => endOfOptions
  | '-' :: '-' :: s =>
    match s.dropWhile (· ≠ '=') with
    | [] => ofLong (String.ofList s) none
    | _ :: value => ofLong (String.ofList (s.takeWhile (· ≠ '='))) (some (String.ofList value))
  | '-' :: 'h' :: _ => help
  | '-' :: 'V' :: _ => version
  | '-' :: _ :: _ => unknown
  | _ => positional arg

end Argument

namespace Options

def setConfig (o : Options) (value : String) : Option Options :=
  if o.config.isSome || value.isEmpty then none else some { o with config := some value }

def turnOn (o : Options) : Switch → Option Options
  | .revert => if o.revert then none else some { o with revert := true }
  | .dryRun => if o.dryRun then none else some { o with dryRun := true }

/-- Nothing is set twice, and no value is empty. -/
def set (o : Options) (s : Setting) (value : String) : Option Options :=
  match s with
  | .operation =>
    match o.operation, Operation.ofName? value with
    | none, some op => some { o with operation := some op }
    | _, _ => none
  | .backup =>
    if o.backup.isSome || value.isEmpty then none else some { o with backup := some value }
  | .out => if o.out.isSome || value.isEmpty then none else some { o with out := some value }

/-- The end of the arguments. A backup is only named for a revert. -/
def finish (o : Options) : Invocation :=
  if o.backup.isSome && !o.revert then .refused else .run o

end Options

/-- Whether an argument can be the value of the one before it. -/
def isValue (arg : String) : Bool :=
  match arg.toList with
  | '-' :: _ :: _ => false
  | _ => true

/-- The arguments after two hyphens alone: none of them is an option. -/
def positionals (o : Options) : List String → Invocation
  | [] => o.finish
  | arg :: args =>
    match o.setConfig arg with
    | some o => positionals o args
    | none => .refused

def readFrom (o : Options) : List String → Invocation
  | [] => o.finish
  | arg :: args =>
    match Argument.read arg with
    | .help => .help
    | .version => .version
    | .unknown => .refused
    | .endOfOptions => positionals o args
    | .switch s =>
      match o.turnOn s with
      | some o => readFrom o args
      | none => .refused
    | .positional value =>
      match o.setConfig value with
      | some o => readFrom o args
      | none => .refused
    | .setting s (some value) =>
      match o.set s value with
      | some o => readFrom o args
      | none => .refused
    | .setting s none =>
      match args with
      | [] => .refused
      | value :: args =>
        if !isValue value then .refused
        else match o.set s value with
          | some o => readFrom o args
          | none => .refused

def readArguments (args : List String) : Invocation := readFrom {} args

/-! ## What is printed instead of a run -/

def versionLine : String := "rmx 0.1.0"

def helpLines : List String :=
  ["🔄 Migrate route manager routes between naming schemes",
   "",
   "Usage: rmx [OPTIONS] [CONFIG]",
   "",
   "Arguments:",
   "  [CONFIG]  🔧 TOML config file. Skipped if it doesn't exist; RMX_* env vars still apply " ++
     "[default: rmx.toml]",
   "",
   "Options:",
   "      --operation <OPERATION>  🎯 Operation to run, overriding `migration.operation` " ++
     "(e.g. `encode-queues`)",
   "      --revert                 ⏪ Put the routes back exactly as a backup has them. " ++
     "No operation is applied",
   "      --from <FROM>            📂 Backup to revert from. Defaults to the newest " ++
     "`OriginalRoutes*.json` in `migration.backup_dir`",
   "      --dry-run                🧪 Write the transformed routes to `--out` instead of " ++
     "sending them anywhere",
   "      --out <OUT>              [default: transformed-routes.json]",
   "  -h, --help                   Print help",
   "  -V, --version                Print version"]

end RouteMigration.CommandLine
