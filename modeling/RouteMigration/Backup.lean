import RouteMigration.World

/-! Backups: the fetched document in a file of its own, named after the time. The fields
of the time have a fixed width, so the newest backup is the last one by name. -/

namespace RouteMigration

/-- A point in local time. -/
structure LocalTime where
  year : Nat
  month : Nat
  day : Nat
  hour : Nat
  minute : Nat
  second : Nat
  microsecond : Nat
  deriving DecidableEq, Repr

/-- A number with zeros in front. -/
def padded (width n : Nat) : List Char :=
  let digits := Nat.toDigits 10 n
  List.replicate (width - digits.length) '0' ++ digits

def LocalTime.stamp (t : LocalTime) : String :=
  String.ofList (padded 4 t.year ++ '-' :: (padded 2 t.month ++ '-' :: (padded 2 t.day ++
    'T' :: (padded 2 t.hour ++ '-' :: (padded 2 t.minute ++ '-' :: (padded 2 t.second ++
      '.' :: padded 6 t.microsecond))))))

namespace Backup

def namePrefix : String := "OriginalRoutes"

def nameSuffix : String := ".json"

def fileName (stamp : String) : String := namePrefix ++ stamp ++ nameSuffix

def isBackupName (name : String) : Bool :=
  namePrefix.toList.isPrefixOf name.toList && nameSuffix.toList.isSuffixOf name.toList

/-- Writes a document as it is to a new file in `dir`, which need not be there yet. -/
def write (dir document : String) : Action String := do
  Action.makeDirectories (.backupDirectory dir) dir
  let path := Path.join dir (fileName (← get).stamp)
  Action.writeText (.backupFile path) path document
  Action.log .info .backup
    ("💾 backed up " ++ toString document.utf8ByteSize ++ " bytes of routes to " ++ path)
  return path

def later (best : Option String) (name : String) : Option String :=
  match best with
  | some b => if b < name then some name else some b
  | none => some name

/-- The greatest backup name of a listing. -/
def newestName? (names : List String) : Option String :=
  (names.filter isBackupName).foldl later none

/-- The newest backup in a directory, if there is one. -/
def newest? (files : FileTree) (dir : String) : Except Failure (Option String) :=
  match failingAs (.backupListing dir) (files.list dir) with
  | .ok names => .ok ((newestName? names).map (Path.join dir))
  | .error f => .error f

end Backup

end RouteMigration
