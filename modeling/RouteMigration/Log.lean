import RouteMigration.Text.Cut
import RouteMigration.Text.Hex

/-! The log of a run, and the filter that decides which of its lines are shown. -/

namespace RouteMigration

open RouteMigration.Text

inductive Level where
  | error
  | warn
  | info
  | debug
  | trace
  deriving DecidableEq, Repr

namespace Level

def all : List Level := [error, warn, info, debug, trace]

def name : Level → String
  | error => "ERROR"
  | warn => "WARN"
  | info => "INFO"
  | debug => "DEBUG"
  | trace => "TRACE"

/-- One for the gravest; a filter with limit `n` lets through what ranks up to `n`. -/
def rank : Level → Nat
  | error => 1
  | warn => 2
  | info => 3
  | debug => 4
  | trace => 5

end Level

/-- The part of the program a line comes from. -/
inductive Origin where
  | commandLine
  | settings
  | migration
  | batch
  | file
  | routeManager
  | backup
  deriving DecidableEq, Repr

def Origin.name : Origin → String
  | commandLine => "rmx"
  | settings => "rmx::app_config"
  | migration => "rmx::migration"
  | batch => "rmx::transforms::batch"
  | file => "rmx::backends::file"
  | routeManager => "rmx::backends::route_manager"
  | backup => "rmx::backends::backup"

structure LogLine where
  level : Level
  origin : Origin
  text : String
  deriving DecidableEq, Repr

namespace LogLine

/-- Controls a terminal would act on show as escapes. -/
def showChar (c : Char) : List Char :=
  let n := c.toNat
  if n = 0x07 || n = 0x08 || n = 0x0C || n = 0x1B || n = 0x7F then
    '\\' :: 'x' :: (if n < 0x10 then '0' :: hexText n else hexText n)
  else if 0x80 ≤ n && n ≤ 0x9F then '\\' :: 'u' :: '\x7b' :: (hexText n ++ ['\x7d'])
  else [c]

/-- The line as it is shown; its text may go over several. -/
def shown (l : LogLine) : String :=
  l.level.name ++ " " ++ l.origin.name ++ ": " ++ String.ofList (l.text.toList.flatMap showChar)

end LogLine

/-! ## Filters -/

/-- Lines from origins whose name starts with `target` show up to rank `limit`. -/
structure LogRule where
  target : List Char
  limit : Nat
  deriving DecidableEq, Repr

abbrev LogFilter := List LogRule

namespace LogFilter

/-- Without a rule at all, errors show. -/
def onlyErrors : LogFilter := [⟨[], Level.error.rank⟩]

/-- The limit a level stands for, by its name in any case or by its number. -/
def limit? (s : List Char) : Option Nat :=
  let s := String.ofList (s.map Char.toUpper)
  if s = "OFF" then some 0
  else match Level.all.find? (·.name = s) with
    | some level => some level.rank
    | none => (List.range 6).find? fun n => toString n = s

def isTargetChar (c : Char) : Bool := c.isAlphanum || c == '_' || c == ':' || c == '-'

/-- One rule: a level for everything, a target with its level, or a target alone, of which
everything shows. -/
def readRule? (s : List Char) : Option LogRule :=
  match limit? s with
  | some limit => some ⟨[], limit⟩
  | none =>
    match cutFirst '=' s with
    | none => if s.all isTargetChar then some ⟨s, Level.trace.rank⟩ else none
    | some (target, level) =>
      if !target.all isTargetChar then none
      else if level.isEmpty then some ⟨target, Level.trace.rank⟩
      else (limit? level).map (⟨target, ·⟩)

/-- Rules joined by commas; those that make no sense do not count. -/
def parse (s : String) : LogFilter :=
  let rules := (((s.toList.splitOn ',').filter (!·.isEmpty)).filterMap readRule?)
  if rules.isEmpty then onlyErrors else rules

/-- The rule with the longest target counts, of several with one target the last. -/
def better (best : Option LogRule) (r : LogRule) : Option LogRule :=
  match best with
  | none => some r
  | some b => if b.target.length ≤ r.target.length then some r else some b

def ruleFor? (f : LogFilter) (o : Origin) : Option LogRule :=
  (f.filter fun r => r.target.isPrefixOf o.name.toList).foldl better none

def shows (f : LogFilter) (l : LogLine) : Bool :=
  match ruleFor? f l.origin with
  | some r => l.level.rank ≤ r.limit
  | none => false

end LogFilter

end RouteMigration
