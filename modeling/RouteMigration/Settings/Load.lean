import RouteMigration.FileTree.Tree
import RouteMigration.Settings.Reader
import RouteMigration.Settings.Toml.Document
import RouteMigration.Settings.Variables

/-! Loading the settings: the environment variables and a TOML file, if one is named. Where
both give a setting, the file wins. -/

namespace RouteMigration.Settings

/-- What is said of any settings that cannot be loaded. -/
def refusalContext : Option String → String
  | some path =>
    "💀 Failed to parse configuration from file '" ++ path ++
      "' and environment variables (RMX_*). Is `migration.operation` set? " ++
      "It's the one thing we refuse to guess."
  | none =>
    "💀 Failed to parse configuration from environment variables (RMX_*). " ++
      "No file was provided — this one's all on the environment. Classic."

/-- The settings of some variables and of the text of a file. -/
def ofTexts (vars : List (String × String)) (toml? : Option String) :
    Except Problem Settings :=
  let fromVars := Variables.load vars
  match toml?.map Toml.parse with
  | none => ofTable fromVars
  | some none => flawed .notToml
  | some (some t) => ofTable (mergeEntries fromVars t)

/-- A file that is named without a root may lie in any directory above the working one; the
nearest counts. -/
def findFile? (files : FileTree) (path : String) : Option String :=
  if Path.isAbsolute path then
    if files.isFile path then some path else none
  else
    let homes := ((List.range (files.home.length + 1)).map files.home.take).reverse
    (homes.map fun home => "/" ++ Path.join ("/".intercalate home) path).find? files.isFile

/-- The settings of some variables and of a file. A file that is not found has nothing to
say. -/
def load (files : FileTree) (vars : List (String × String)) (path? : Option String) :
    Except Problem Settings :=
  match path?.bind (findFile? files) with
  | none => ofTexts vars none
  | some found =>
    match files.readText found with
    | .ok text => ofTexts vars (some text)
    | .error _ => flawed .notToml

end RouteMigration.Settings
