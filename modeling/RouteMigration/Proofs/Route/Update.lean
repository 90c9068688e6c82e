import RouteMigration.Proofs.Form.RoundTrip
import RouteMigration.Proofs.Text.Cut
import RouteMigration.Route

/-! What an update sends, read by its receiver. The pieces between the ampersands are the pairs,
and each piece is cut at its first equals sign and decoded on both sides; no text in a route
adds a separator, so every pair arrives as it was. -/

namespace RouteMigration

open RouteMigration.Text

namespace Form

/-! ## Separators -/

theorem ampersand_not_mem_encode (s : List Char) : '&' ∉ encode s :=
  not_mem_encode (by decide) (by decide) (by decide) s

theorem equals_not_mem_encode (s : List Char) : '=' ∉ encode s :=
  not_mem_encode (by decide) (by decide) (by decide) s

/-! ## Pairs -/

/-- One pair as a form writes it. -/
def encodePair (pair : List Char × List Char) : List Char := encode pair.1 ++ '=' :: encode pair.2

theorem encodePairs_eq (pairs : List (List Char × List Char)) :
    encodePairs pairs = ['&'].intercalate (pairs.map encodePair) := rfl

/-- What a receiver takes one piece of a form for. A piece without an equals sign is no pair. -/
def readPair? (piece : List Char) : Option (String × String) :=
  (cutFirst '=' piece).map fun (name, value) =>
    (String.ofList (decode name), String.ofList (decode value))

theorem ampersand_not_mem_encodePair (pair : List Char × List Char) : '&' ∉ encodePair pair := by
  simp [encodePair, ampersand_not_mem_encode]

theorem readPair?_encodePair (name value : String) :
    readPair? (encodePair (name.toList, value.toList)) = some (name, value) := by
  rw [readPair?, encodePair, cutFirst_append (equals_not_mem_encode _)]
  simp [decode_encode]

theorem splitOn_encodePairs {pairs : List (List Char × List Char)} (h : pairs ≠ []) :
    (encodePairs pairs).splitOn '&' = pairs.map encodePair := by
  have hpieces : ∀ piece ∈ pairs.map encodePair, '&' ∉ piece := by
    simp only [List.forall_mem_map]
    exact fun pair _ => ampersand_not_mem_encodePair pair
  rw [encodePairs_eq]
  exact List.splitOn_intercalate '&' hpieces (by simpa using h)

end Form

namespace Route

/-! ## The body of an update -/

theorem splitOn_formBody (r : Route) :
    r.formBody.toList.splitOn '&' =
      r.formParams.map fun (name, value) => Form.encodePair (name.toList, value.toList) := by
  rw [formBody, String.toList_ofList, Form.splitOn_encodePairs (by simp [formParams]), List.map_map]
  rfl

/-- The body of an update is six pieces between ampersands, and these are read as the form
parameters of the route, in their order, whatever texts the route holds. -/
theorem formBody_readPair? (r : Route) :
    (r.formBody.toList.splitOn '&').length = 6 ∧
      (r.formBody.toList.splitOn '&').map Form.readPair? = r.formParams.map some := by
  rw [splitOn_formBody, List.length_map, List.map_map]
  refine ⟨rfl, List.map_congr_left fun pair _ => ?_⟩
  simp only [Function.comp_apply, Form.readPair?_encodePair]

example :
    ({ uuid := "1", name := "a=b&c", rule := "ü +", queues := ["x", "y"] } : Route).formBody =
      "name=a%3Db%26c&rule=%C3%BC+%2B&description=&queues=x%2Cy&enabled=false&uuid=1" := by
  decide +kernel

end Route

end RouteMigration
