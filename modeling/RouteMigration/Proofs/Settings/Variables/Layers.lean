import RouteMigration.Proofs.Settings.Gains
import RouteMigration.Proofs.Settings.Variables.Reading

/-! The tree of some variables, as the trees of the single ones laid over each other. -/

namespace RouteMigration.Settings

namespace Variables

variable {vars : List (String × String)} {e : String × String}

theorem load_single (e : String × String) : load [e] =
    match pathOf? e.1 with
    | some (key :: path) => [(key, nest path (parseValue e.2))]
    | _ => [] := by
  show (match pathOf? e.1 with
    | some (key :: path) => mergeEntries [] [(key, nest path (parseValue e.2))]
    | _ => []) = _
  split <;> rfl

/-- Variables are laid over each other one by one. -/
theorem load_append (vars more : List (String × String)) :
    load (vars ++ more) = more.foldl (fun tree e => mergeEntries tree (load [e])) (load vars) := by
  have hstep : ∀ (tree : Table) (e : String × String), mergeEntries tree (load [e]) =
      match pathOf? e.1 with
      | some (key :: path) => mergeEntries tree [(key, nest path (parseValue e.2))]
      | _ => tree := by
    intro tree e
    rw [load_single]
    split <;> rfl
  simp only [hstep]
  exact List.foldl_append ..

theorem wellFormed_nest {v : Value} (h : v.WellFormed) (path : List String) :
    (nest path v).WellFormed := by
  induction path with
  | nil => exact h
  | cons key path ih => exact Value.wellFormed_single ih key

theorem wellFormed_load_single (e : String × String) : (Value.table (load [e])).WellFormed := by
  rw [load_single]
  split
  · exact Value.wellFormed_single (wellFormed_nest (wellFormed_parseValue e.2) _) _
  · exact Value.wellFormed_empty

theorem silent_foldl {key : String} {path : List String} {s : Table}
    (h : Value.Silent (key :: path) (.table s))
    (hvars : ∀ e ∈ vars, Value.Silent (key :: path) (.table (load [e]))) :
    Value.Silent (key :: path)
      (.table (vars.foldl (fun tree e => mergeEntries tree (load [e])) s)) := by
  induction vars generalizing s with
  | nil => exact h
  | cons e vars ih =>
    refine ih ?_ fun e' he' => hvars e' (List.mem_cons_of_mem _ he')
    exact h.merge (wellFormed_load_single e) (hvars e (List.mem_cons_self ..))

/-- Variables none of which says anything of a path do not say anything of it together. -/
theorem silent_load {key : String} {path : List String}
    (h : ∀ e ∈ vars, Value.Silent (key :: path) (.table (load [e]))) :
    Value.Silent (key :: path) (.table (load vars)) := by
  rw [← List.nil_append vars, load_append]
  exact silent_foldl (Value.silent_empty key path) h

/-- A value more in the tree of some variables is still there, and the only one, after further
variables that say nothing of it. -/
theorem gains_foldl {group key : String} {v : Value} {s t : Table}
    (h : Value.Gains group key v (.table s) (.table t))
    (hvars : ∀ e ∈ vars, Value.Silent [group, key] (.table (load [e]))) :
    Value.Gains group key v
      (.table (vars.foldl (fun tree e => mergeEntries tree (load [e])) s))
      (.table (vars.foldl (fun tree e => mergeEntries tree (load [e])) t)) := by
  induction vars generalizing s t with
  | nil => exact h
  | cons e vars ih =>
    refine ih ?_ fun e' he' => hvars e' (List.mem_cons_of_mem _ he')
    exact h.merge (wellFormed_load_single e) (hvars e (List.mem_cons_self ..))

theorem gains_load {group key name text : String} {before after : List (String × String)}
    (hname : pathOf? name = some [group, key])
    (hbefore : ∀ e ∈ before, Value.Silent [group, key] (.table (load [e])))
    (hafter : ∀ e ∈ after, Value.Silent [group, key] (.table (load [e]))) :
    Value.Gains group key (parseValue text) (.table (load (before ++ after)))
      (.table (load (before ++ (name, text) :: after))) := by
  have hadded : load [(name, text)] = [(group, .table [(key, parseValue text)])] := by
    rw [load_single, hname]
    rfl
  rw [load_append, load_append, List.foldl_cons, hadded]
  exact gains_foldl (.of_silent (silent_load hbefore) (wellFormed_parseValue text)) hafter

end Variables

end RouteMigration.Settings
