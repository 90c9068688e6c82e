import RouteMigration.Text.Quoted

/-! How far a submission has come. -/

namespace RouteMigration

structure Progress where
  sink : String
  total : UInt64
  position : UInt64 := 0
  deriving DecidableEq, Repr

namespace Progress

/-- One more route is dealt with. Nothing keeps the position within the total. -/
def tick (p : Progress) : Progress := { p with position := p.position + 1 }

/-- The end, whatever the position was. -/
def finish (p : Progress) : Progress := { p with position := p.total }

def describe (p : Progress) : String :=
  "SubmitProgress \x7b sink_name: " ++ Text.quoted p.sink ++ ", total: " ++ toString p.total ++
    ", position: " ++ toString p.position ++ " \x7d"

end Progress

end RouteMigration
