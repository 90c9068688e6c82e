/-! How counts and times are shown. -/

namespace RouteMigration.Text

/-- A comma before every group of three digits, counted from the end, except the first. -/
def groupDigits : List Char → List Char
  | [] => []
  | [c] => [c]
  | c :: d :: s =>
    if (d :: s).length % 3 = 0 then c :: ',' :: groupDigits (d :: s) else c :: groupDigits (d :: s)

def formatNumber (n : Nat) : String := String.ofList (groupDigits (Nat.toDigits 10 n))

def twoPlaces (n : Nat) : String := if n < 10 then "0" ++ toString n else toString n

/-- Minutes and seconds, with the hours in front once there are any. -/
def formatSeconds (total : Nat) : String :=
  let hours := total / 3600
  let rest := twoPlaces (total % 3600 / 60) ++ ":" ++ twoPlaces (total % 60)
  if hours > 0 then twoPlaces hours ++ ":" ++ rest else rest

end RouteMigration.Text
