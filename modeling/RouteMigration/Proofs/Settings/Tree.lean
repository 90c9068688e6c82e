import RouteMigration.Settings.Value

/-! What a tree of settings holds under a path of keys, and what becomes of that when another tree
is laid over it: the other one has the last word wherever it has a word at all. -/

namespace RouteMigration.Settings

/-! ## Tables -/

namespace Table

/-- The keys of a table rise. -/
def Rising (t : Table) : Prop := (t.map Prod.fst).Pairwise (· < ·)

theorem lookup_cons (key : String) (v : Value) (t : Table) (k : String) :
    List.lookup k ((key, v) :: t) = if k = key then some v else t.lookup k := by
  by_cases hk : k = key
  · simp [hk]
  · have htest : (k == key) = false := beq_eq_false_iff_ne.mpr hk
    simp [List.lookup_cons, htest, hk]

theorem lookup_put (key : String) (v : Value) (t : Table) (k : String) :
    (put key v t).lookup k = if k = key then some v else t.lookup k := by
  induction t with
  | nil => simp [put, lookup_cons]
  | cons first t ih =>
    obtain ⟨other, old⟩ := first
    rw [put]
    split
    · rw [lookup_cons]
    · split
      · next hkey =>
        subst hkey
        rw [lookup_cons, lookup_cons]
        split <;> rfl
      · next hkey =>
        rw [lookup_cons, lookup_cons, ih]
        by_cases hk : k = other
        · simp [hk, Ne.symm hkey]
        · simp [hk]

theorem mem_put {key : String} {v : Value} {t : Table} {e : String × Value}
    (h : e ∈ put key v t) : e = (key, v) ∨ e ∈ t := by
  induction t with
  | nil => simpa [put] using h
  | cons first t ih =>
    rw [put] at h
    split at h
    · simpa using h
    · split at h
      · exact (List.mem_cons.mp h).imp_right (List.mem_cons_of_mem _)
      · rcases List.mem_cons.mp h with hfirst | hrest
        · simp [hfirst]
        · exact (ih hrest).imp_right (List.mem_cons_of_mem _)

theorem Rising.put {t : Table} (h : t.Rising) (key : String) (v : Value) :
    (put key v t).Rising := by
  induction t with
  | nil => simp [Rising, Table.put]
  | cons first t ih =>
    obtain ⟨other, old⟩ := first
    obtain ⟨hfirst, hrest⟩ := List.pairwise_cons.mp h
    rw [Table.put]
    split
    · next hless =>
      refine List.pairwise_cons.mpr ⟨?_, h⟩
      intro k hk
      rcases List.mem_cons.mp hk with rfl | hk
      · exact hless
      · exact String.lt_trans hless (hfirst k hk)
    · split
      · next hkey =>
        subst hkey
        exact List.pairwise_cons.mpr ⟨hfirst, hrest⟩
      · next hless hkey =>
        refine List.pairwise_cons.mpr ⟨?_, ih hrest⟩
        intro k hk
        obtain ⟨e, he, rfl⟩ := List.mem_map.mp hk
        rcases mem_put he with rfl | he
        · show other < key
          grind
        · exact hfirst e.1 (List.mem_map_of_mem he)

theorem Rising.lookup_tail {key : String} {v : Value} {t : Table} (h : Rising ((key, v) :: t)) :
    t.lookup key = none := by
  obtain ⟨hfirst, -⟩ := List.pairwise_cons.mp h
  rw [List.lookup_eq_none_iff]
  intro e he
  have hless : key < e.1 := hfirst e.1 (List.mem_map_of_mem he)
  have hne : key ≠ e.1 := by grind
  simpa using hne

end Table

theorem mem_of_lookup {β : Type} {entries : List (String × β)} {key : String} {x : β}
    (h : entries.lookup key = some x) : (key, x) ∈ entries := by
  obtain ⟨before, after, rfl, -⟩ := List.lookup_eq_some_iff.mp h
  simp

namespace Value

def isTable : Value → Bool
  | table _ => true
  | _ => false

/-- A tree in which the keys of every table rise. Nothing is ever laid over an item of a list, so
lists may hold anything. -/
inductive WellFormed : Value → Prop
  | table {t : Table} : t.Rising → (∀ e ∈ t, WellFormed e.2) → WellFormed (.table t)
  | other {v : Value} : (∀ t, v ≠ .table t) → WellFormed v

theorem WellFormed.of_not_table {v : Value} (h : v.isTable = false) : v.WellFormed := by
  refine .other fun t ht => ?_
  subst ht
  cases h

theorem WellFormed.rising {t : Table} (h : (Value.table t).WellFormed) : t.Rising := by
  cases h with
  | table hrising _ => exact hrising
  | other hother => exact absurd rfl (hother t)

theorem WellFormed.entry {t : Table} (h : (Value.table t).WellFormed) {key : String} {v : Value}
    (hv : t.lookup key = some v) : v.WellFormed := by
  cases h with
  | table _ hentries => exact hentries _ (mem_of_lookup hv)
  | other hother => exact absurd rfl (hother t)

theorem WellFormed.put {t : Table} (h : (Value.table t).WellFormed) {v : Value}
    (hv : v.WellFormed) (key : String) : (Value.table (Table.put key v t)).WellFormed := by
  refine .table (h.rising.put key v) ?_
  intro e he
  rcases Table.mem_put he with rfl | he
  · exact hv
  · cases h with
    | table _ hentries => exact hentries e he
    | other hother => exact absurd rfl (hother t)

theorem wellFormed_empty : (Value.table []).WellFormed :=
  .table List.Pairwise.nil fun _ he => nomatch he

/-! ## Paths -/

/-- What is under a path of keys. -/
def at? : List String → Value → Option Value
  | [], v => some v
  | key :: path, .table t => (t.lookup key).bind (at? path)
  | _ :: _, _ => none

theorem WellFormed.at? {path : List String} {v w : Value} (h : v.WellFormed)
    (hw : v.at? path = some w) : w.WellFormed := by
  induction path generalizing v with
  | nil =>
    obtain rfl := Option.some.inj hw
    exact h
  | cons key path ih =>
    cases v with
    | table t =>
      obtain ⟨u, hu, hw⟩ := Option.bind_eq_some_iff.mp hw
      exact ih (h.entry hu) hw
    | _ => cases hw

/-- A tree says nothing of a path: neither the path nor anything further down has a value, and
whatever there is on the way is a table. -/
def Silent : List String → Value → Prop
  | [], _ => False
  | key :: path, .table t => ∀ v ∈ t.lookup key, Silent path v
  | _ :: _, _ => False

theorem at?_of_silent {path : List String} {v : Value} (h : Silent path v) : v.at? path = none := by
  induction path generalizing v with
  | nil => exact h.elim
  | cons key path ih =>
    cases v with
    | table t =>
      rw [at?]
      cases hkey : t.lookup key with
      | none => rfl
      | some w => exact ih (h w hkey)
    | _ => rfl

theorem at?_singleton (t : Table) (key : String) : (table t).at? [key] = t.lookup key := by
  show (t.lookup key).bind (at? []) = t.lookup key
  cases t.lookup key <;> rfl

/-- A tree that says nothing of a longer path says nothing of its beginning, or has a table
there. -/
theorem Silent.front {path more : List String} {v : Value} (h : Silent (path ++ more) v) :
    Silent path v ∨ ∃ w, v.at? path = some w ∧ Silent more w := by
  induction path generalizing v with
  | nil => exact .inr ⟨v, rfl, h⟩
  | cons key path ih =>
    cases v with
    | table t =>
      cases hkey : t.lookup key with
      | none =>
        refine .inl ?_
        intro w hw
        rw [hkey] at hw
        cases hw
      | some w =>
        rcases ih (h w hkey) with hfront | ⟨x, hx, hmore⟩
        · refine .inl ?_
          intro w' hw'
          cases hkey.symm.trans hw'
          exact hfront
        · refine .inr ⟨x, ?_, hmore⟩
          rw [at?, hkey]
          exact hx
    | _ => exact h.elim

/-- A tree that says nothing of a path either says nothing of one beside it, or has a value
there. -/
theorem Silent.beside {path : List String} {key : String} {v : Value}
    (h : Silent (path ++ [key]) v) (other : String) :
    Silent (path ++ [other]) v ∨ ∃ w, v.at? (path ++ [other]) = some w := by
  induction path generalizing v with
  | nil =>
    cases v with
    | table t =>
      cases hother : t.lookup other with
      | none =>
        refine .inl fun w hw => ?_
        rw [hother] at hw
        cases hw
      | some w =>
        refine .inr ⟨w, ?_⟩
        rw [List.nil_append, at?_singleton, hother]
    | _ => exact h.elim
  | cons first path ih =>
    cases v with
    | table t =>
      cases hfirst : t.lookup first with
      | none =>
        refine .inl fun w hw => ?_
        rw [hfirst] at hw
        cases hw
      | some u =>
        rcases ih (h u hfirst) with hsilent | ⟨w, hw⟩
        · refine .inl fun u' hu' => ?_
          cases hfirst.symm.trans hu'
          exact hsilent
        · refine .inr ⟨w, ?_⟩
          rw [List.cons_append, at?, hfirst]
          exact hw
    | _ => exact h.elim

/-! ## One tree over another -/

/-- A value over what was there before, if anything. -/
def layered (before? : Option Value) (v : Value) : Value :=
  before?.elim v fun before => before.merge v

theorem merge_of_not_table (a : Value) {b : Value} (h : b.isTable = false) : a.merge b = b := by
  cases b with
  | table => cases h
  | _ => cases a <;> rfl

theorem layered_of_not_table (before? : Option Value) {v : Value} (h : v.isTable = false) :
    layered before? v = v := by
  cases before? with
  | none => rfl
  | some before => exact merge_of_not_table before h

end Value

theorem lookup_mergeEntries {entries : Table} (h : entries.Rising) (t : Table) (k : String) :
    (mergeEntries t entries).lookup k =
      match entries.lookup k with
      | some v => some (Value.layered (t.lookup k) v)
      | none => t.lookup k := by
  induction entries generalizing t with
  | nil => rfl
  | cons first entries ih =>
    obtain ⟨key, v⟩ := first
    have hmerged : mergeEntries t ((key, v) :: entries) =
        mergeEntries (Table.put key (Value.layered (t.lookup key) v) t) entries := by
      rw [mergeEntries]
      cases t.lookup key <;> rfl
    have hlater := h.lookup_tail
    rw [hmerged, ih (List.pairwise_cons.mp h).2, Table.lookup_cons, Table.lookup_put]
    by_cases hk : k = key
    · subst hk
      simp [hlater]
    · simp [hk]

namespace Value

/-- Under a path where the upper tree has something, that lies over what the lower one has. -/
theorem at?_merge_of_given {path : List String} {a b v : Value} (hb : b.WellFormed)
    (h : b.at? path = some v) : (a.merge b).at? path = some (layered (a.at? path) v) := by
  induction path generalizing a b with
  | nil =>
    obtain rfl := Option.some.inj h
    rfl
  | cons key path ih =>
    cases b with
    | table t =>
      rw [at?] at h
      obtain ⟨w, hw, hv⟩ := Option.bind_eq_some_iff.mp h
      cases a with
      | table below =>
        have hkey : (mergeEntries below t).lookup key = some (layered (below.lookup key) w) := by
          rw [lookup_mergeEntries hb.rising, hw]
        show ((mergeEntries below t).lookup key).bind (at? path) = _
        rw [hkey, at?, Option.bind_some]
        cases below.lookup key with
        | none => exact hv
        | some u => exact ih (hb.entry hw) hv
      | _ =>
        show (t.lookup key).bind (at? path) = _
        rw [hw]
        exact hv
    | _ => cases h

/-- Under a path of which the upper tree says nothing, there is what the lower one has. -/
theorem at?_merge_of_silent {path : List String} {a b : Value} (hb : b.WellFormed)
    (h : Silent path b) : (a.merge b).at? path = a.at? path := by
  induction path generalizing a b with
  | nil => exact h.elim
  | cons key path ih =>
    cases b with
    | table t =>
      cases a with
      | table below =>
        show ((mergeEntries below t).lookup key).bind (at? path) =
          (below.lookup key).bind (at? path)
        rw [lookup_mergeEntries hb.rising]
        cases hw : t.lookup key with
        | none => rfl
        | some w =>
          have hsilent := h w hw
          cases below.lookup key with
          | none => exact at?_of_silent hsilent
          | some u => exact ih (hb.entry hw) hsilent
      | _ => exact at?_of_silent h
    | _ => exact h.elim

theorem Silent.merge {path : List String} {a b : Value} (ha : Silent path a) (hb : b.WellFormed)
    (h : Silent path b) : Silent path (a.merge b) := by
  induction path generalizing a b with
  | nil => exact h.elim
  | cons key path ih =>
    cases b with
    | table t =>
      cases a with
      | table below =>
        intro w hw
        have hkey : (mergeEntries below t).lookup key = some w := hw
        rw [lookup_mergeEntries hb.rising] at hkey
        cases hv : t.lookup key with
        | none =>
          rw [hv] at hkey
          exact ha w hkey
        | some v =>
          rw [hv] at hkey
          cases hu : below.lookup key with
          | none =>
            rw [hu] at hkey
            cases hkey
            exact h v hv
          | some u =>
            rw [hu] at hkey
            cases hkey
            exact ih (ha u hu) (hb.entry hv) (h v hv)
      | _ => exact ha.elim
    | _ => exact h.elim

end Value

end RouteMigration.Settings
