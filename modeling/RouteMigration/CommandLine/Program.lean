import RouteMigration.CommandLine.Arguments
import RouteMigration.Settings.Load
import RouteMigration.Summary

/-! The program behind the command line: load the settings, let the arguments have the last
word, run the migration, and say how it went. -/

namespace RouteMigration.CommandLine

open RouteMigration.Text

/-! ## Arguments over settings -/

/-- The backup a revert starts from: the one named, or else the newest. -/
def backupFor (o : Options) (s : Settings) : Action String := do
  match o.backup with
  | some path => return path
  | none =>
    match ← Action.attempt (Backup.newest? (← get).files s.migration.backupDir) with
    | some path => return path
    | none => Action.fail (.noBackup s.migration.backupDir)

/-- A revert submits a backup as it is; a dry run submits to a file. -/
def applyOptions (o : Options) (s : Settings) : Action Settings := do
  let s := match o.operation with
    | some operation => { s with migration := { s.migration with operation } }
    | none => s
  let s ← if o.revert then do
      let backup ← backupFor o s
      Action.log .info .commandLine
        ("⏪ undoing " ++ s.migration.operation.name ++ " by restoring " ++ backup ++ " verbatim")
      pure { s with migration := { s.migration with restore := true }, source := .file backup }
    else pure s
  if o.dryRun then do
    let out := o.out.getD "transformed-routes.json"
    Action.log .info .commandLine ("🧪 dry run, writing to " ++ out)
    return { s with sink := .file out }
  else return s

/-! ## Failures -/

/-- What a cause says when the route manager cannot be reached. -/
def connectionPhrases : List String :=
  ["error sending request", "connection refused", "Connection refused", "tcp connect error",
   "dns error", "operation timed out"]

def soundsUnreachable (c : Cause) : Bool :=
  connectionPhrases.any fun phrase => occursIn phrase.toList c.message.toList

/-- Whether a failure deserves the advice to check the connection. The outermost cause only
says what was being done. -/
def deservesHint (f : Failure) : Bool := f.causes.any soundsUnreachable

def hint : String :=
  "🔧 hint: looks like the route manager isn't reachable. Double-check " ++
    "`route_manager.base_url`, your VPN, and whether the service is up. " ++
    "Even servers need a nudge sometimes. ☕"

/-- What the log says of a failure. -/
def report (f : Failure) : List LogLine :=
  (⟨.error, .commandLine, "💀 error: " ++ f.outermost.message⟩ ::
    f.causes.map fun c => ⟨.error, .commandLine, "⚠️  cause: " ++ c.message⟩) ++
    if deservesHint f then [⟨.error, .commandLine, hint⟩] else []

/-! ## The program -/

structure Outcome where
  exitCode : Nat
  /-- The lines of standard output. -/
  output : List String := []
  /-- The lines of standard error. -/
  complaints : List String := []
  world : World

/-- The lines that the log shows. -/
def shownLines (filter : LogFilter) (log : List LogLine) : List String :=
  (log.filter filter.shows).flatMap fun l =>
    (l.shown.toList.splitOn '\n').map String.ofList

def filterOf (vars : List (String × String)) : LogFilter :=
  match vars.lookup "RUST_LOG" with
  | some s => LogFilter.parse s
  | none => .onlyErrors

def defaultConfig : String := "rmx.toml"

/-- The settings file, if it is there. -/
def settingsFile? (files : FileTree) (o : Options) : Except OsError (Option String) :=
  let path := o.config.getD defaultConfig
  match files.exists? path with
  | .ok there => .ok (if there then some path else none)
  | .error e => .error e

def uncheckedFile (path : String) : String :=
  "💀 Couldn't check whether the configuration file exists. Was checking here: '" ++ path ++
    "'. If it's a relative path, remember it's relative to where you ran this from."

def noSettings : String :=
  "💀 In rmx-cli, main, we couldn't load the config. Take a look at the file and the RMX_* " ++
    "env vars. Make sure you didn't forget something obvious, like migration.operation."

/-- What is said of a failure before there is anything to run. -/
def complaint (outermost : String) (causes : List String) : List String :=
  ["Error: " ++ outermost, "", "Caused by:"] ++ causes.map ("    " ++ ·)

def usage : List String :=
  ["Usage: rmx [OPTIONS] [CONFIG]", "", "For more information, try '--help'."]

/-- Loads the settings and runs what they and the options ask for. Without settings there
is nothing to run, and the log does not get to report a failure. -/
def runWith (o : Options) (vars : List (String × String)) (w : World) : Outcome :=
  let filter := filterOf vars
  match settingsFile? w.files o with
  | .error e =>
    { exitCode := 1, world := w,
      complaints := complaint (uncheckedFile (o.config.getD defaultConfig)) [e.message] }
  | .ok path? =>
    let w := { w with log := w.log ++ [⟨.info, .settings,
      "🔧 Loading configuration: " ++ quoted (path?.getD "")⟩] }
    match Settings.load w.files vars path? with
    | .error p =>
      { exitCode := 1, output := shownLines filter w.log, world := w,
        complaints := complaint noSettings [Settings.refusalContext path?, p.message] }
    | .ok settings =>
      let action : Action Summary := do Migration.run (← applyOptions o settings)
      match action w with
      | (.ok summary, w) =>
        { exitCode := 0, output := shownLines filter w.log ++ summary.table, world := w }
      | (.error f, w) =>
        let w := { w with log := w.log ++ report f }
        { exitCode := 1, output := shownLines filter w.log, world := w }

def execute (args : List String) (vars : List (String × String)) (w : World) : Outcome :=
  match readArguments args with
  | .help => { exitCode := 0, output := helpLines, world := w }
  | .version => { exitCode := 0, output := [versionLine], world := w }
  | .refused => { exitCode := 2, complaints := usage, world := w }
  | .run o => runWith o vars w

end RouteMigration.CommandLine
