import RouteMigration.FileTree.Path

/-! A tree of files. An entry is listed under its address, the names that lead to it from
the root; a path is followed step by step from the root or from the working directory. There are
no links, no permissions and no end of room: what goes wrong for reasons outside the tree is said
by a `Fault`. -/

namespace RouteMigration

inductive Entry where
  | directory
  | file (content : ByteArray)

def Entry.isDirectory : Entry → Bool
  | directory => true
  | file _ => false

abbrev Address := List String

structure FileTree where
  entries : List (Address × Entry)
  /-- The working directory. -/
  home : Address := []

namespace FileTree

/-- The root is a directory without being listed. -/
def entry? (t : FileTree) (a : Address) : Option Entry :=
  match a with
  | [] => some .directory
  | a => t.entries.lookup a

/-- The tree with one more entry, or with another in its place. -/
def put (t : FileTree) (a : Address) (e : Entry) : FileTree :=
  if t.entries.any (·.1 == a) then
    { t with entries := t.entries.map fun (b, old) => if b == a then (b, e) else (b, old) }
  else { t with entries := t.entries ++ [(a, e)] }

def checkDirectory (t : FileTree) (a : Address) : Except OsError Unit :=
  match t.entry? a with
  | some .directory => .ok ()
  | some (.file _) => .error .notDirectory
  | none => .error .notFound

/-- The address some steps lead to from `a`. Everything on the way must be there; what the
last step leads to may be missing. -/
def follow (t : FileTree) (a : Address) : List Path.Step → Except OsError Address
  | [] => .ok a
  | step :: steps => do
    t.checkDirectory a
    match step with
    | .here => t.follow a steps
    | .up => t.follow a.dropLast steps
    | .into name =>
      if name.utf8ByteSize > Path.nameLimit then throw .nameTooLong
      t.follow (a ++ [name]) steps

/-- Where a path leads, and what is there. -/
def find (t : FileTree) (path : String) : Except OsError (Address × Option Entry) := do
  Path.check path
  let a ← t.follow (if Path.isAbsolute path then [] else t.home) (Path.steps path)
  return (a, t.entry? a)

/-- What a path names. With a slash at its end it names no file. -/
def locate (t : FileTree) (path : String) : Except OsError (Address × Option Entry) := do
  let (a, e?) ← t.find path
  if e?.any (!·.isDirectory) && Path.endsInSlash path then throw .notDirectory
  return (a, e?)

/-- Whether there is anything at a path. A refusal other than its absence is passed on. -/
def exists? (t : FileTree) (path : String) : Except OsError Bool :=
  match t.locate path with
  | .ok (_, e?) => .ok e?.isSome
  | .error .notFound => .ok false
  | .error e => .error e

def isDirectory (t : FileTree) (path : String) : Bool :=
  match t.locate path with
  | .ok (_, some .directory) => true
  | _ => false

def isFile (t : FileTree) (path : String) : Bool :=
  match t.locate path with
  | .ok (_, some (.file _)) => true
  | _ => false

def read (t : FileTree) (path : String) : Except OsError ByteArray := do
  match (← t.locate path).2 with
  | some (.file content) => return content
  | some .directory => throw .isDirectory
  | none => throw .notFound

def readText (t : FileTree) (path : String) : Except OsError String := do
  match String.fromUTF8? (← t.read path) with
  | some text => return text
  | none => throw .notText

/-! ## Writing -/

/-- The null device is an empty file here, and stays one whatever is written to it. -/
def nullDevice : Address := ["dev", "null"]

def swallows (t : FileTree) (a : Address) : Bool :=
  match t.entry? a with
  | some (.file content) => a == nullDevice && content.isEmpty
  | _ => false

/-- The address of the file that a path names once it is written, there or not. -/
def target (t : FileTree) (path : String) : Except OsError Address := do
  let (a, e?) ← t.find path
  if e?.any Entry.isDirectory || Path.endsInSlash path then throw .isDirectory
  if t.swallows a then throw .noContent
  return a

/-- What goes wrong with a write, though the path is not to blame. -/
inductive Fault where
  /-- The file does not open. -/
  | refused (error : OsError)
  /-- The write breaks off when so many octets have arrived. -/
  | cut (arrived : Nat) (error : OsError)
  deriving DecidableEq, Repr

/-- Writes a text over a file, which is emptied first: when the write breaks off, the file
holds what has arrived until then. -/
def store (t : FileTree) (path text : String) (fault? : Option Fault) :
    FileTree × Except OsError Unit :=
  match fault?, t.target path with
  | some (.refused e), _ => (t, .error e)
  | _, .error .noContent => (t, .ok ())
  | _, .error e => (t, .error e)
  | some (.cut n e), .ok a =>
    if n < text.utf8ByteSize then (t.put a (.file (text.toUTF8.extract 0 n)), .error e)
    else (t.put a (.file text.toUTF8), .ok ())
  | none, .ok a => (t.put a (.file text.toUTF8), .ok ())

/-! ## Directories -/

/-- The names in a directory. -/
def list (t : FileTree) (path : String) : Except OsError (List String) := do
  match ← t.locate path with
  | (_, none) => throw .notFound
  | (_, some (.file _)) => throw .notDirectory
  | (a, some .directory) =>
    return t.entries.filterMap fun (b, _) =>
      if b.dropLast == a && !b.isEmpty then b.getLast? else none

/-- A new directory in one that is there. -/
def makeDirectory (t : FileTree) (path : String) : Except OsError FileTree := do
  match ← t.find path with
  | (_, some _) => throw .alreadyExists
  | (a, none) => return t.put a .directory

/-- A new directory at `path`, after the ones its parents lack. A directory that is there is
as good as a new one. The fuel bounds the number of parents. -/
def makeDirectoriesFrom : Nat → FileTree → String → FileTree × Except OsError Unit
  | 0, t, _ => (t, .ok ())
  | fuel + 1, t, path =>
    if path.isEmpty then (t, .ok ())
    else match t.makeDirectory path with
      | .ok t => (t, .ok ())
      | .error .notFound =>
        match makeDirectoriesFrom fuel t (Path.parent path) with
        | (t, .error e) => (t, .error e)
        | (t, .ok ()) =>
          match t.makeDirectory path with
          | .ok t => (t, .ok ())
          | .error e => if t.isDirectory path then (t, .ok ()) else (t, .error e)
      | .error e => if t.isDirectory path then (t, .ok ()) else (t, .error e)

def makeDirectories (t : FileTree) (path : String) : FileTree × Except OsError Unit :=
  makeDirectoriesFrom (path.length + 1) t path

end FileTree

end RouteMigration
