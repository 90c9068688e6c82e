import RouteMigration.Proofs.Settings.Tree
import RouteMigration.Settings.Toml.Document

/-! The tree of a TOML document is well formed, however its tables are spread over it: every step
of the reader keeps the values it has read so far. -/

namespace RouteMigration.Settings

namespace Toml

theorem ofInt_not_table {n : Int} {v : Value} (h : ofInt n = some v) : v.isTable = false := by
  unfold ofInt at h
  split at h
  · cases h
    rfl
  · cases h

theorem ofFloat_not_table {x : Number.Binary64} {v : Value} (h : ofFloat x = some v) :
    v.isTable = false := by
  unfold ofFloat at h
  split at h
  · cases h
  · cases h
    rfl

theorem based_not_table {base : Nat} {s rest : List Char} {v : Value}
    (h : based base s = some (v, rest)) : v.isTable = false := by
  unfold based at h
  obtain ⟨⟨ds, more⟩, -, h⟩ := Option.bind_eq_some_iff.mp h
  obtain ⟨w, hw, h⟩ := Option.bind_eq_some_iff.mp h
  cases h
  exact ofInt_not_table hw

theorem decimal_not_table {s rest : List Char} {v : Value}
    (h : decimal s = some (v, rest)) : v.isTable = false := by
  unfold decimal at h
  obtain ⟨⟨whole, more⟩, -, h⟩ := Option.bind_eq_some_iff.mp h
  obtain ⟨⟨fraction, more⟩, -, h⟩ := Option.bind_eq_some_iff.mp h
  dsimp only at h
  split at h
  · obtain ⟨w, hw, h⟩ := Option.bind_eq_some_iff.mp h
    cases h
    exact ofInt_not_table hw
  · obtain ⟨x, -, h⟩ := Option.bind_eq_some_iff.mp h
    obtain ⟨w, hw, h⟩ := Option.bind_eq_some_iff.mp h
    cases h
    exact ofFloat_not_table hw

theorem special_not_table {s rest : List Char} {v : Value}
    (h : special s = some (v, rest)) : v.isTable = false := by
  unfold special at h
  dsimp only at h
  split at h
  · cases h
    rfl
  · cases h
    rfl
  · cases h

theorem number_not_table {s rest : List Char} {v : Value}
    (h : number s = some (v, rest)) : v.isTable = false := by
  unfold number at h
  split at h
  · exact based_not_table h
  · exact based_not_table h
  · exact based_not_table h
  · split at h
    · next hspecial =>
      cases h
      exact special_not_table hspecial
    · exact decimal_not_table h

theorem wellFormed_dateTime {s rest : List Char} {v : Value}
    (h : dateTime s = some (v, rest)) : v.WellFormed := by
  have hdate : ∀ text, (Value.table [(dateKey, .text text)]).WellFormed :=
    fun text => Value.wellFormed_empty.put (.of_not_table rfl) dateKey
  unfold dateTime at h
  dsimp only at h
  split at h
  all_goals
    obtain ⟨_, -, h⟩ := Option.bind_eq_some_iff.mp h
    cases h
    exact hdate _

theorem wellFormed_of_map {α : Type} {read : Option α} {f : α → Value × List Char} {v : Value}
    {rest : List Char} (hf : ∀ a, (f a).1.isTable = false) (h : read.map f = some (v, rest)) :
    v.WellFormed := by
  obtain ⟨a, -, ha⟩ := Option.map_eq_some_iff.mp h
  have hv := hf a
  rw [ha] at hv
  exact .of_not_table hv

theorem wellFormed_scalar {s rest : List Char} {v : Value}
    (h : scalar s = some (v, rest)) : v.WellFormed := by
  unfold scalar at h
  split at h
  · exact wellFormed_of_map (fun _ => rfl) h
  · exact wellFormed_of_map (fun _ => rfl) h
  · exact wellFormed_of_map (fun _ => rfl) h
  · exact wellFormed_of_map (fun _ => rfl) h
  · exact .of_not_table (special_not_table h)
  · exact .of_not_table (special_not_table h)
  · split at h
    · exact wellFormed_dateTime h
    · exact .of_not_table (number_not_table h)

/-! ## Tables while they are filled -/

/-- Every value read so far is well formed. -/
inductive Item.Sound : Item → Prop
  | value {v : Value} : v.WellFormed → Sound (.value v)
  | table { implicit dotted : Bool} {entries : List (String × Item)} :
      (∀ e ∈ entries, Sound e.2) → Sound (.table implicit dotted entries)
  | tables {ts : List (List (String × Item))} :
      (∀ t ∈ ts, ∀ e ∈ t, Sound e.2) → Sound (.tables ts)

namespace Entries

def Sound (es : Entries) : Prop := ∀ e ∈ es, e.2.Sound

variable {es es' : Entries} {key : String}

theorem sound_nil : Sound [] := fun _ he => nomatch he

theorem Sound.item (h : es.Sound) {item : Item} (hitem : es.lookup key = some item) :
    item.Sound := h _ (mem_of_lookup hitem)

theorem Sound.append (h : es.Sound) {item : Item} (hitem : item.Sound) (key : String) :
    Sound (es ++ [(key, item)]) := by
  intro e he
  rcases List.mem_append.mp he with he | he
  · exact h e he
  · obtain rfl := List.mem_singleton.mp he
    exact hitem

theorem Sound.put (h : es.Sound) {item : Item} (hitem : item.Sound) (key : String) :
    (es.put key item).Sound := by
  unfold Entries.put
  split
  · intro e he
    obtain ⟨old, hold, rfl⟩ := List.mem_map.mp he
    dsimp only
    split
    · exact hitem
    · exact h old hold
  · exact h.append hitem key

theorem Sound.remove (h : es.Sound) (key : String) : (es.remove key).Sound :=
  fun e he => h e (List.mem_filter.mp he).1

/-- What a change keeps of the table it is told to change, it keeps of all. -/
theorem Sound.changeAt {dotted : Bool} {change : Bool → Entries → Option Entries}
    (hchange : ∀ isDotted inner inner', Sound inner → change isDotted inner = some inner' →
      Sound inner')
    {path : List String} {isDotted : Bool} (h : es.Sound)
    (hes : Entries.changeAt dotted change path isDotted es = some es') : es'.Sound := by
  induction path generalizing isDotted es es' with
  | nil => exact hchange isDotted es es' h hes
  | cons key path ih =>
    rw [Entries.changeAt] at hes
    split at hes
    · obtain ⟨inner, hinner, hes⟩ := Option.bind_eq_some_iff.mp hes
      cases hes
      exact h.put (.table (ih sound_nil hinner)) key
    · cases hes
    · next hitem =>
      split at hes
      · cases hes
      · obtain ⟨inner, hinner, hes⟩ := Option.bind_eq_some_iff.mp hes
        cases hes
        have hsound := h.item hitem
        cases hsound with
        | table hentries => exact h.put (.table (ih hentries hinner)) key
    · next ts hitem =>
      split at hes
      · cases hes
      · next last hlast =>
        obtain ⟨changed, hchanged, hes⟩ := Option.bind_eq_some_iff.mp hes
        cases hes
        have hsound := h.item hitem
        cases hsound with
        | tables hts =>
          refine h.put (.tables ?_) key
          intro t ht
          rcases List.mem_append.mp ht with ht | ht
          · exact hts t (List.dropLast_subset ts ht)
          · obtain rfl := List.mem_singleton.mp ht
            exact ih (hts last (List.mem_of_getLast? hlast)) hchanged

theorem Sound.insertKey (h : es.Sound) {parts : List String} {v : Value} (hv : v.WellFormed)
    (hes : es.insertKey parts v = some es') : es'.Sound := by
  unfold Entries.insertKey Entries.insert at hes
  split at hes
  · refine h.changeAt ?_ hes
    intro isDotted inner inner' hinner hadded
    split at hadded
    · cases hadded
    · cases hadded
      exact hinner.append (.value hv) _
  · cases hes

end Entries

theorem wellFormed_entriesToTable {es : Entries} (h : ∀ e ∈ es, e.2.toValue.WellFormed) :
    (Value.table (entriesToTable es)).WellFormed := by
  induction es with
  | nil => exact Value.wellFormed_empty
  | cons first es ih =>
    obtain ⟨key, item⟩ := first
    obtain ⟨hfirst, hrest⟩ := List.forall_mem_cons.mp h
    rw [entriesToTable]
    exact (ih hrest).put hfirst key

theorem Item.Sound.toValue {item : Item} (h : item.Sound) : item.toValue.WellFormed := by
  induction h with
  | value hv => exact hv
  | table _ ih =>
    rw [Item.toValue]
    exact wellFormed_entriesToTable ih
  | tables =>
    rw [Item.toValue]
    exact .of_not_table rfl

theorem Entries.Sound.toTable {es : Entries} (h : es.Sound) :
    (Value.table (entriesToTable es)).WellFormed :=
  wellFormed_entriesToTable fun e he => (h e he).toValue

/-! ## Values in brackets -/

/-- A scanner that reads well-formed values. -/
def ReadsWellFormed (value : Scanner Value) : Prop :=
  ∀ s v rest, value s = some (v, rest) → v.WellFormed

theorem sound_pairsFrom {value : Scanner Value} (hvalue : ReadsWellFormed value) {es es' : Entries}
    {s rest : List Char} (h : es.Sound) (hes : pairsFrom value es s = some (es', rest)) :
    es'.Sound := by
  fun_induction pairsFrom value es s with
  | case4 es s parts afterKey v afterValue hread added hadded =>
    cases hes
    exact h.insertKey (hvalue _ _ _ hread) hadded
  | case5 es s parts afterKey v afterValue hread added hadded more _ _ _ ih =>
    exact ih (h.insertKey (hvalue _ _ _ hread) hadded) hes
  | _ => cases hes

theorem wellFormed_inlineTable {value : Scanner Value} (hvalue : ReadsWellFormed value) :
    ReadsWellFormed (inlineTable value) := by
  intro s v rest h
  unfold inlineTable at h
  split at h
  · cases h
    exact Value.wellFormed_empty
  · obtain ⟨⟨es, more⟩, hpairs, h⟩ := Option.map_eq_some_iff.mp h
    cases h
    exact (sound_pairsFrom hvalue Entries.sound_nil hpairs).toTable

theorem wellFormed_valueWithin (depth : Nat) : ReadsWellFormed (valueWithin depth) := by
  induction depth with
  | zero => exact fun s v rest h => wellFormed_scalar h
  | succ depth ih =>
    intro s v rest h
    unfold valueWithin at h
    split at h
    · exact wellFormed_of_map (fun _ => rfl) h
    · exact wellFormed_inlineTable ih _ v rest h
    · exact wellFormed_scalar h

/-! ## Statements -/

namespace State

structure Sound (st : State) : Prop where
  root : st.root.Sound
  current : st.current.Sound

variable {st st' : State} {path : List String}

theorem Sound.settle (h : st.Sound) {es : Entries} (hes : st.settle = some es) : es.Sound := by
  unfold State.settle at hes
  split at hes
  · cases hes
    exact h.current
  · refine h.root.changeAt ?_ hes
    intro _ inner inner' hinner hput
    split at hput
    · split at hput
      · cases hput
        refine hinner.put (.tables ?_) _
        intro t ht
        obtain rfl := List.mem_singleton.mp ht
        exact h.current
      · next ts hts =>
        cases hput
        refine hinner.put (.tables ?_) _
        have hsound := hinner.item hts
        cases hsound with
        | tables hall =>
          intro t ht
          rcases List.mem_append.mp ht with ht | ht
          · exact hall t ht
          · obtain rfl := List.mem_singleton.mp ht
            exact h.current
      · cases hput
    · cases hput
      exact hinner.put (.table h.current) _

theorem sound_tableAt? {root es : Entries} (h : root.Sound) (hes : tableAt? root path = some es) :
    es.Sound := by
  induction path generalizing root with
  | nil =>
    cases hes
    exact h
  | cons key path ih =>
    rw [tableAt?] at hes
    split at hes
    · cases hes
      exact Entries.sound_nil
    · cases hes
    · next hitem =>
      have hsound := h.item hitem
      cases hsound with
      | table hentries => exact ih hentries hes
    · next ts hitem =>
      obtain ⟨last, hlast, hes⟩ := Option.bind_eq_some_iff.mp hes
      have hsound := h.item hitem
      cases hsound with
      | tables hall => exact ih (hall last (List.mem_of_getLast? hlast)) hes

theorem sound_startTable? {es started : Entries} {key : String} (h : es.Sound)
    (hstarted : startTable? es key = some started) : started.Sound := by
  unfold startTable? at hstarted
  split at hstarted
  · cases hstarted
    exact Entries.sound_nil
  · next hitem =>
    cases hstarted
    have hsound := h.item hitem
    cases hsound with
    | table hentries => exact hentries
  · cases hstarted

theorem Sound.openTable (h : st.Sound) (hst : st.openTable path = some st') : st'.Sound := by
  unfold State.openTable at hst
  obtain ⟨root, hroot, hst⟩ := Option.bind_eq_some_iff.mp hst
  obtain ⟨key, -, hst⟩ := Option.bind_eq_some_iff.mp hst
  obtain ⟨parent, hparent, hst⟩ := Option.bind_eq_some_iff.mp hst
  obtain ⟨entries, hentries, hst⟩ := Option.bind_eq_some_iff.mp hst
  obtain ⟨cut, hcut, hst⟩ := Option.bind_eq_some_iff.mp hst
  cases hst
  have hsettled := h.settle hroot
  refine ⟨hsettled.changeAt ?_ hcut, sound_startTable? (sound_tableAt? hsettled hparent) hentries⟩
  intro _ inner inner' hinner hremoved
  cases hremoved
  exact hinner.remove key

theorem Sound.openArray (h : st.Sound) (hst : st.openArray path = some st') : st'.Sound := by
  unfold State.openArray at hst
  obtain ⟨root, hroot, hst⟩ := Option.bind_eq_some_iff.mp hst
  obtain ⟨key, -, hst⟩ := Option.bind_eq_some_iff.mp hst
  obtain ⟨parent, -, hst⟩ := Option.bind_eq_some_iff.mp hst
  split at hst
  · cases hst
    exact ⟨h.settle hroot, Entries.sound_nil⟩
  · cases hst
    exact ⟨h.settle hroot, Entries.sound_nil⟩
  · cases hst

end State

variable {st st' : State} {s rest : List Char}

theorem sound_header (h : st.Sound) (hst : header st s = some (st', rest)) : st'.Sound := by
  unfold header at hst
  split at hst
  · obtain ⟨⟨path, more⟩, -, hst⟩ := Option.bind_eq_some_iff.mp hst
    dsimp only at hst
    split at hst
    · obtain ⟨⟨_, more⟩, -, hst⟩ := Option.bind_eq_some_iff.mp hst
      obtain ⟨opened, hopened, hst⟩ := Option.bind_eq_some_iff.mp hst
      cases hst
      exact h.openArray hopened
    · cases hst
  · obtain ⟨⟨path, more⟩, -, hst⟩ := Option.bind_eq_some_iff.mp hst
    dsimp only at hst
    split at hst
    · obtain ⟨⟨_, more⟩, -, hst⟩ := Option.bind_eq_some_iff.mp hst
      obtain ⟨opened, hopened, hst⟩ := Option.bind_eq_some_iff.mp hst
      cases hst
      exact h.openTable hopened
    · cases hst
  · cases hst

theorem sound_pair (h : st.Sound) (hst : pair st s = some (st', rest)) : st'.Sound := by
  unfold pair at hst
  obtain ⟨⟨parts, more⟩, -, hst⟩ := Option.bind_eq_some_iff.mp hst
  dsimp only at hst
  split at hst
  · obtain ⟨⟨v, more⟩, hv, hst⟩ := Option.bind_eq_some_iff.mp hst
    obtain ⟨⟨_, more⟩, -, hst⟩ := Option.bind_eq_some_iff.mp hst
    obtain ⟨current, hcurrent, hst⟩ := Option.bind_eq_some_iff.mp hst
    cases hst
    exact ⟨h.root, h.current.insertKey (wellFormed_valueWithin _ _ v _ hv) hcurrent⟩
  · cases hst

theorem sound_statementsFrom (h : st.Sound) (hst : statementsFrom st s = some st') :
    st'.Sound := by
  fun_induction statementsFrom st s with
  | case1 =>
    cases hst
    exact h
  | case2 st s next more _ _ hread ih =>
    refine ih ?_ hst
    unfold statement at hread
    split at hread
    · exact sound_header h hread
    · exact sound_pair h hread
  | _ => cases hst

/-- However a document spreads its tables, the tree that is made of it is well formed. -/
theorem wellFormed_parse {text : String} {t : Table} (h : parse text = some t) :
    (Value.table t).WellFormed := by
  unfold parse at h
  obtain ⟨st, hst, h⟩ := Option.bind_eq_some_iff.mp h
  obtain ⟨es, hes, h⟩ := Option.bind_eq_some_iff.mp h
  cases h
  have hstart : State.Sound {} := ⟨Entries.sound_nil, Entries.sound_nil⟩
  exact ((sound_statementsFrom hstart hst).settle hes).toTable

end Toml

end RouteMigration.Settings
