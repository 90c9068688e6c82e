import RouteMigration.Migration
import RouteMigration.Text.Table

/-! A summary as a table: one row for each fact, then one for each route that was not
submitted. -/

namespace RouteMigration.Summary

open RouteMigration.Text

/-- What was done, as the header says it. -/
def title (s : Summary) : String :=
  if s.restored then "restore (undoing " ++ s.operation.name ++ ")" else s.operation.name

def rows (s : Summary) : List (List String) :=
  [["source", s.source],
   ["sink", s.sink],
   ["backup", s.backup.getD "-"],
   ["fetched", toString s.fetched],
   ["submitted", toString s.submitted],
   ["dropped (no queues left)", toString s.dropped.length],
   ["failed", toString s.failed.length]] ++
    s.dropped.map (fun uuid => ["🗑️ dropped", uuid]) ++
    s.failed.map (fun f =>
      ["💀 failed", f.name ++ " (" ++ f.uuid ++ "): " ++ f.error.message])

def table (s : Summary) : List String := tableLines ["migration", s.title] s.rows

end RouteMigration.Summary
