import RouteMigration.Route
import RouteMigration.Text.Hex

/-! Writing a routes document: two blanks of indent, every field of every route, in
declared order. -/

namespace RouteMigration.Document

open RouteMigration.Text

/-- Two digits at least, as the escape of a control character wants them. -/
def twoDigits (n : Nat) : List Char := if n < 16 then '0' :: hexText n else hexText n

def writeChar (c : Char) : List Char :=
  if c = '"' then ['\\', '"']
  else if c = '\\' then ['\\', '\\']
  else if c = '\x08' then ['\\', 'b']
  else if c = '\x0c' then ['\\', 'f']
  else if c = '\n' then ['\\', 'n']
  else if c = '\r' then ['\\', 'r']
  else if c = '\t' then ['\\', 't']
  else if c.toNat < 0x20 then '\\' :: 'u' :: '0' :: '0' :: twoDigits c.toNat
  else [c]

def writeText (s : String) : List Char := '"' :: (s.toList.flatMap writeChar ++ ['"'])

def newline (depth : Nat) : List Char := '\n' :: List.replicate (2 * depth) ' '

/-- Items one to a line between two brackets; without items the brackets touch. -/
def writeBlock (depth : Nat) ( opening closing : Char) (items : List (List Char)) : List Char :=
  if items.isEmpty then [opening, closing]
  else
    opening :: ([','].intercalate (items.map (newline (depth + 1) ++ ·)) ++
      (newline depth ++ [closing]))

def writeMember (key : String) (value : List Char) : List Char :=
  writeText key ++ ':' :: ' ' :: value

def writeBool (b : Bool) : List Char := (if b then "true" else "false").toList

def writeRoute (depth : Nat) (r : Route) : List Char :=
  writeBlock depth '\x7b' '\x7d'
    [writeMember "uuid" (writeText r.uuid),
     writeMember "name" (writeText r.name),
     writeMember "rule" (writeText r.rule),
     writeMember "description" (writeText r.description),
     writeMember "enabled" (writeBool r.enabled),
     writeMember "queues" (writeBlock (depth + 1) '[' ']' (r.queues.map writeText)),
     writeMember "createdDate" (writeText r.createdDate),
     writeMember "modifiedDate" (writeText r.modifiedDate)]

def writeRoutes (routes : List Route) : List Char :=
  writeBlock 0 '\x7b' '\x7d'
    [writeMember "routesList" (writeBlock 1 '[' ']' (routes.map (writeRoute 2)))]

def print (routes : List Route) : String := String.ofList (writeRoutes routes)

end RouteMigration.Document
