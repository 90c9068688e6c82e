import RouteMigration.Proofs.Settings.Tree

/-! One tree that is another with a value more. Whatever says nothing of that value leaves it so
when it is laid over both. -/

namespace RouteMigration.Settings

namespace Value

variable {a b c v : Value} {group key : String}

/-- One tree is another with a value more, under a key of a group that is a table. -/
structure Gains (group key : String) (v a b : Value) : Prop where
  given : b.at? [group, key] = some v
  siblings : ∀ k, k ≠ key → b.at? [group, k] = a.at? [group, k]
  others : ∀ k, k ≠ group → b.at? [k] = a.at? [k]
  tabled : ∀ w ∈ a.at? [group], w.isTable = true

/-- Under a path of which the upper tree says nothing or where it has a value, two lower trees
that agree still do. -/
theorem at?_merge_congr {path : List String} (hc : c.WellFormed)
    (h : Silent path c ∨ ∃ w, c.at? path = some w) (hab : b.at? path = a.at? path) :
    (b.merge c).at? path = (a.merge c).at? path := by
  rcases h with hsilent | ⟨w, hw⟩
  · rw [at?_merge_of_silent hc hsilent, at?_merge_of_silent hc hsilent, hab]
  · rw [at?_merge_of_given hc hw, at?_merge_of_given hc hw, hab]

theorem silent_or_given_singleton (t : Table) (k : String) :
    Silent [k] (.table t) ∨ ∃ w, (table t).at? [k] = some w := by
  cases hk : t.lookup k with
  | none =>
    refine .inl fun w hw => ?_
    rw [hk] at hw
    cases hw
  | some w => exact .inr ⟨w, by rw [at?_singleton, hk]⟩

theorem isTable_layered_table (before? : Option Value) (t : Table) :
    (layered before? (.table t)).isTable = true := by
  cases before? with
  | none => rfl
  | some before => cases before <;> rfl

/-- What is laid over the group as a table leaves it one. -/
theorem tabled_merge (hc : c.WellFormed) (hsilent : Silent [group, key] c)
    (h : ∀ w ∈ a.at? [group], w.isTable = true) :
    ∀ w ∈ (a.merge c).at? [group], w.isTable = true := by
  have hfront : Silent ([group] ++ [key]) c := hsilent
  intro w hw
  rcases hfront.front with hgroup | ⟨u, hu, hkey⟩
  · rw [at?_merge_of_silent hc hgroup] at hw
    exact h w hw
  · rw [at?_merge_of_given hc hu] at hw
    cases hw
    cases u with
    | table t => exact isTable_layered_table _ t
    | _ => exact hkey.elim

theorem Gains.merge (h : Gains group key v a b) (hc : c.WellFormed)
    (hsilent : Silent [group, key] c) : Gains group key v (a.merge c) (b.merge c) where
  given := by
    rw [at?_merge_of_silent hc hsilent]
    exact h.given
  siblings := by
    intro k hk
    have hpath : Silent ([group] ++ [key]) c := hsilent
    exact at?_merge_congr hc (hpath.beside k) (h.siblings k hk)
  others := by
    intro k hk
    cases c with
    | table t => exact at?_merge_congr hc (silent_or_given_singleton t k) (h.others k hk)
    | _ => exact hsilent.elim
  tabled := tabled_merge hc hsilent h.tabled

theorem wellFormed_single (h : v.WellFormed) (key : String) :
    (table [(key, v)]).WellFormed := wellFormed_empty.put h key

theorem silent_empty (key : String) (path : List String) : Silent (key :: path) (table []) :=
  fun _ hw => nomatch hw

theorem silent_single {k : String} {path : List String} (hk : k ≠ key) :
    Silent (k :: path) (table [(key, v)]) := by
  intro w hw
  rw [Table.lookup_cons, if_neg hk] at hw
  cases hw

theorem tabled_of_silent (h : Silent [group, key] a) : ∀ w ∈ a.at? [group], w.isTable = true := by
  have hpath : Silent ([group] ++ [key]) a := h
  intro w hw
  rcases hpath.front with hgroup | ⟨u, hu, hkey⟩
  · rw [at?_of_silent hgroup] at hw
    cases hw
  · cases hu.symm.trans hw
    cases w with
    | table => rfl
    | _ => exact hkey.elim

theorem Gains.of_silent (h : Silent [group, key] a) (hv : v.WellFormed) :
    Gains group key v a (a.merge (.table [(group, .table [(key, v)])])) where
  given := by
    have hadded : (table [(group, table [(key, v)])]).at? [group, key] = some v := by
      rw [at?, Table.lookup_cons, if_pos rfl, Option.bind_some, at?_singleton, Table.lookup_cons,
        if_pos rfl]
    rw [at?_merge_of_given (wellFormed_single (wellFormed_single hv key) group) hadded,
      at?_of_silent h]
    rfl
  siblings := by
    intro k hk
    have hsilent : Silent [group, k] (table [(group, table [(key, v)])]) := by
      intro w hw
      rw [Table.lookup_cons, if_pos rfl] at hw
      cases hw
      exact silent_single hk
    exact at?_merge_of_silent (wellFormed_single (wellFormed_single hv key) group) hsilent
  others := fun k hk =>
    at?_merge_of_silent (wellFormed_single (wellFormed_single hv key) group) (silent_single hk)
  tabled := tabled_of_silent h

/-- The group that gains a value is a table afterwards, and what it was before is one as well, or
stands for one without entries. -/
theorem Gains.groups {group key : String} {s t : Table}
    (h : Gains group key v (.table s) (.table t)) :
    ∃ below above : Table, (s.lookup group).getD (.table []) = .table below ∧
      t.lookup group = some (.table above) ∧ above.lookup key = some v ∧
      ∀ k, k ≠ key → above.lookup k = below.lookup k := by
  obtain ⟨w, hw, hgiven⟩ := Option.bind_eq_some_iff.mp h.given
  cases w with
  | table above =>
    rw [at?_singleton] at hgiven
    have habove : ∀ k, (table t).at? [group, k] = above.lookup k := by
      intro k
      rw [at?, hw, Option.bind_some, at?_singleton]
    cases hs : s.lookup group with
    | none =>
      refine ⟨[], above, rfl, hw, hgiven, fun k hk => ?_⟩
      rw [← habove k, h.siblings k hk, at?, hs]
      rfl
    | some u =>
      have htable := h.tabled u (by rw [at?_singleton, hs]; rfl)
      cases u with
      | table below =>
        refine ⟨below, above, rfl, hw, hgiven, fun k hk => ?_⟩
        rw [← habove k, h.siblings k hk, at?, hs, Option.bind_some, at?_singleton]
      | _ => cases htable
  | _ => cases hgiven

end Value

end RouteMigration.Settings
