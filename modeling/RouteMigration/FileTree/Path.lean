import RouteMigration.FileTree.OsError

/-! Paths as texts, and the steps one takes through a tree. -/

namespace RouteMigration.Path

/-- One component of a path. -/
inductive Step where
  | here
  | up
  | into (name : String)
  deriving DecidableEq, Repr

def Step.ofName (name : String) : Step :=
  if name = "." then .here else if name = ".." then .up else .into name

/-- The steps of a path. Slashes in a row count as one. -/
def steps (path : String) : List Step :=
  ((path.toList.splitOn '/').filter (!·.isEmpty)).map fun part => .ofName (String.ofList part)

def isAbsolute (path : String) : Bool := path.toList.head? == some '/'

/-- Whether the path ends in a slash, and so can only name a directory. -/
def endsInSlash (path : String) : Bool := path.toList.getLast? == some '/'

/-- The entry `name` of directory `dir`. -/
def join (dir name : String) : String :=
  if isAbsolute name then name
  else if dir.isEmpty || endsInSlash dir then dir ++ name
  else dir ++ "/" ++ name

/-- A path is shorter than this many octets. -/
def lengthLimit : Nat := 4096

def nameLimit : Nat := 255

/-- What a path is refused for before any step is taken. -/
def check (path : String) : Except OsError Unit :=
  if path.toList.contains '\x00' then .error .nulInPath
  else if path.isEmpty then .error .notFound
  else if path.utf8ByteSize ≥ lengthLimit then .error .nameTooLong
  else .ok ()

/-- Parts of a path that lead nowhere. -/
def isIdle (part : List Char) : Bool := part.isEmpty || part == ['.']

def trimIdleEnd (parts : List (List Char)) : List (List Char) :=
  (parts.reverse.dropWhile isIdle).reverse

def ofParts (parts : List (List Char)) : String := String.ofList (['/'].intercalate parts)

/-- The path without its last component. The parent of a single one is the empty path. -/
def parent (path : String) : String :=
  ofParts (trimIdleEnd (trimIdleEnd (path.toList.splitOn '/')).dropLast)

/-- A path whose first part is `~`, with `home` in its place. What follows starts and ends
with a part that leads somewhere. -/
def expandHome (home : Option String) (path : String) : String :=
  match home, path.toList.splitOn '/' with
  | some home, ['~'] :: rest => join home (ofParts (trimIdleEnd (rest.dropWhile isIdle)))
  | _, _ => path

end RouteMigration.Path
