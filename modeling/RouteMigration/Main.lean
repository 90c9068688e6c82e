import RouteMigration.CommandLine.Program
import RouteMigration.Text.Utf8
import Std.Time.Zoned

/-! The command line. What it does is a function of a snapshot of the files that the
arguments and the settings name; the shell here takes the snapshot, and puts what has
changed back on the disk. It reaches no network, so a route manager is never there. -/

namespace RouteMigration.Main

open RouteMigration.CommandLine RouteMigration.Text

def textOf (bytes : List UInt8) : String := String.ofList (Utf8.decode bytes)

/-- The environment variables, sorted by name. -/
def processVars : IO (List (String × String)) := do
  let bytes ← IO.FS.readBinFile "/proc/self/environ"
  let pairs := (bytes.data.toList.splitOn 0).filterMap fun entry =>
    match cutFirst '=' (textOf entry).toList with
    | some (name, value) => some (String.ofList name, String.ofList value)
    | none => none
  return pairs.mergeSort fun a b => a.1 ≤ b.1

def now : IO LocalTime := do
  let t ← Std.Time.PlainDateTime.now
  return {
    year := t.date.year.toInt.toNat
    month := t.date.month.val.toNat
    day := t.date.day.val.toNat
    hour := t.time.hour.val.toNat
    minute := t.time.minute.val.toNat
    second := t.time.second.val.toNat
    microsecond := t.time.nanosecond.val.toNat / 1000 }

/-- The addresses a path leads through, the last first, without a look at the disk. -/
def addressesOn (home : Address) (path : String) : List Address :=
  (Path.steps path).foldl (fun visited step =>
    let a := visited.headD []
    match step with
    | .here => visited
    | .up => a.dropLast :: visited
    | .into name => (a ++ [name]) :: visited) [if Path.isAbsolute path then [] else home]

def addressOf (home : Address) (path : String) : Address := (addressesOn home path).headD []

def pathOf (a : Address) : String := "/" ++ "/".intercalate a

/-- The tree with what the disk has at an address, if it has anything there. -/
def record (t : FileTree) (a : Address) : IO FileTree := do
  let path := (← IO.currentDir) / pathOf a
  if ← path.isDir then return t.put a .directory
  else if ← path.pathExists then return t.put a (.file (← IO.FS.readBinFile path))
  else return t

/-- The tree with what the disk has at a path and on the way to it. -/
def recordPath (t : FileTree) (path : String) : IO FileTree :=
  (addressesOn t.home path).foldlM record t

/-- The tree with the entries of a directory. -/
def recordListing (t : FileTree) (dir : String) : IO FileTree := do
  let a := addressOf t.home dir
  let path := (← IO.currentDir) / pathOf a
  if ← path.isDir then
    (← path.readDir).toList.foldlM (fun t entry => record t (a ++ [entry.fileName])) t
  else return t

/-- The paths a settings file may be found at. -/
def configPaths (home : Address) (o : Options) : List String :=
  let path := o.config.getD defaultConfig
  path :: (List.range home.length).map fun n => Path.join (pathOf (home.take n)) path

/-- The paths the settings and options lead to. -/
def dataPaths (userHome : Option String) (o : Options) (s : Settings) : List String :=
  let source := match s.source with
    | .file path => [path]
    | .routeManager => []
  let sink := match s.sink with
    | .file path => [path]
    | _ => []
  source ++ sink ++ o.backup.toList ++ [o.out.getD "transformed-routes.json", s.migration.backupDir] ++
    (s.routeManager.credentialsFile.map (Path.expandHome userHome)).toList

/-- All that a run with some options may look at. -/
def snapshot (o : Options) (vars : List (String × String)) (userHome : Option String) :
    IO FileTree := do
  let home := addressOf [] (← IO.currentDir).toString
  let t ← recordPath { entries := [], home } (pathOf home)
  let t ← (configPaths home o).foldlM recordPath t
  let path? := match settingsFile? t o with
    | .ok path? => path?
    | .error _ => none
  match Settings.load t vars path? with
  | .error _ => return t
  | .ok s =>
    let t ← (dataPaths userHome o s).foldlM recordPath t
    if o.revert then recordListing t s.migration.backupDir else return t

/-- Makes the disk agree with the entries that are new or changed. -/
def putBack (before after : FileTree) : IO Unit :=
  after.entries.forM fun (a, e) =>
    match before.entry? a, e with
    | some .directory, .directory => pure ()
    | _, .directory => IO.FS.createDirAll (pathOf a)
    | some (.file old), .file new =>
      if old.data == new.data then pure () else IO.FS.writeBinFile (pathOf a) new
    | _, .file new => IO.FS.writeBinFile (pathOf a) new

def perform (args : List String) : IO UInt32 := do
  let vars ← processVars
  let userHome := vars.lookup "HOME"
  let files ← match readArguments args with
    | .run o => snapshot o vars userHome
    | _ => pure { entries := [] }
  let stamp := (← now).stamp
  let out := execute args vars { files, stamp, userHome }
  putBack files out.world.files
  out.output.forM IO.println
  out.complaints.forM IO.eprintln
  return UInt32.ofNat out.exitCode

end RouteMigration.Main

def main (args : List String) : IO UInt32 := RouteMigration.Main.perform args
