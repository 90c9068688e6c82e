import Mathlib.Data.String.Basic
import RouteMigration.Proofs.Backup.Stamp
import RouteMigration.Proofs.Migration.Saving

/-! The newest backup of a directory is the one with the greatest name, in whatever order the
directory lists its entries, and that is the one that was written last. -/

namespace RouteMigration.Backup

open RouteMigration.Text

/-- A name that starts and ends as the names of backups do. -/
def Named (name : String) : Prop :=
  "OriginalRoutes".toList <+: name.toList ∧ ".json".toList <:+ name.toList

instance (name : String) : Decidable (Named name) := inferInstanceAs (Decidable (_ ∧ _))

theorem isBackupName_iff {name : String} : isBackupName name = true ↔ Named name := by
  rw [isBackupName, Bool.and_eq_true, List.isPrefixOf_iff_prefix, List.isSuffixOf_iff_suffix]
  rfl

theorem named_fileName (stamp : String) : Named (fileName stamp) := by
  simp only [Named, fileName, String.toList_append]
  exact ⟨(List.prefix_append ..).trans (List.prefix_append ..), List.suffix_append ..⟩

/-- In the order of its octets, one name comes before the other. -/
def Precedes (name other : String) : Prop :=
  Utf8.encode name.toList < Utf8.encode other.toList

theorem precedes_iff {name other : String} : Precedes name other ↔ name < other :=
  Utf8.encode_lt_encode_iff.trans String.lt_iff.symm

/-! ## The greatest name -/

/-- Going through the names, the greatest so far is kept. -/
theorem foldl_later (best : String) (names : List String) :
    ∃ m ∈ best :: names, names.foldl later (some best) = some m ∧ ∀ n ∈ best :: names, n ≤ m := by
  induction names generalizing best with
  | nil => exact ⟨best, List.mem_singleton_self _, rfl, by simp⟩
  | cons name names ih =>
    rw [List.foldl_cons, later]
    split
    · next hlt =>
      obtain ⟨m, hm, hfold, hgreatest⟩ := ih name
      refine ⟨m, List.mem_cons_of_mem _ hm, hfold, ?_⟩
      rintro n hn
      rcases List.mem_cons.mp hn with rfl | hn
      · exact (le_of_lt hlt).trans (hgreatest name List.mem_cons_self)
      · exact hgreatest n hn
    · next hge =>
      obtain ⟨m, hm, hfold, hgreatest⟩ := ih best
      have hbest := hgreatest best List.mem_cons_self
      refine ⟨m, ?_, hfold, ?_⟩
      · rcases List.mem_cons.mp hm with rfl | hm
        · exact List.mem_cons_self
        · exact List.mem_cons_of_mem _ (List.mem_cons_of_mem _ hm)
      · rintro n hn
        rcases List.mem_cons.mp hn with rfl | hn
        · exact hbest
        · rcases List.mem_cons.mp hn with rfl | hn
          · exact (not_lt.mp hge).trans hbest
          · exact hgreatest n (List.mem_cons_of_mem _ hn)

theorem newestName?_eq_none_iff {names : List String} :
    newestName? names = none ↔ ∀ name ∈ names, ¬ Named name := by
  have hnone : newestName? names = none ↔ names.filter isBackupName = [] := by
    unfold newestName?
    cases names.filter isBackupName with
    | nil => simp
    | cons name rest =>
      obtain ⟨m, -, hfold, -⟩ := foldl_later name rest
      rw [List.foldl_cons, later, hfold]
      simp
  rw [hnone, List.filter_eq_nil_iff]
  simp only [isBackupName_iff]

/-- The last in the order of octets of the names of backups. -/
structure IsLast (names : List String) (name : String) : Prop where
  mem : name ∈ names
  named : Named name
  last : ∀ other ∈ names, Named other → other = name ∨ Precedes other name

theorem IsLast.unique {names : List String} {a b : String} (ha : IsLast names a)
    (hb : IsLast names b) : a = b := by
  rcases hb.last a ha.mem ha.named with rfl | hab
  · rfl
  rcases ha.last b hb.mem hb.named with rfl | hba
  · rfl
  exact absurd (precedes_iff.mp hba) (String.lt_asymm (precedes_iff.mp hab))

theorem newestName?_eq_some_iff {names : List String} {name : String} :
    newestName? names = some name ↔ IsLast names name := by
  have hlast : ∀ m, newestName? names = some m → IsLast names m := by
    intro m h
    unfold newestName? at h
    cases hnames : names.filter isBackupName with
    | nil => rw [hnames] at h; cases h
    | cons first rest =>
      obtain ⟨m', hm, hfold, hgreatest⟩ := foldl_later first rest
      rw [hnames, List.foldl_cons, later, hfold] at h
      obtain rfl := Option.some.inj h
      rw [← hnames] at hm hgreatest
      obtain ⟨hmem, hbackup⟩ := List.mem_filter.mp hm
      refine ⟨hmem, isBackupName_iff.mp hbackup, fun other hother hnamed => ?_⟩
      rw [precedes_iff]
      exact (hgreatest other (List.mem_filter.mpr ⟨hother, isBackupName_iff.mpr hnamed⟩)).eq_or_lt
  refine ⟨hlast name, fun h => ?_⟩
  cases hnewest : newestName? names with
  | none => exact absurd h.named (newestName?_eq_none_iff.mp hnewest name h.mem)
  | some m => rw [(hlast m hnewest).unique h]

/-! ## The newest backup -/

theorem newest?_of_list {files : FileTree} {dir : String} {names : List String}
    (hlist : files.list dir = .ok names) :
    newest? files dir = .ok ((newestName? names).map (Path.join dir)) := by
  rw [newest?, hlist]
  rfl

theorem precedes_fileName {t u : LocalTime} (hu : u.IsCalendar) (h : t.Before u) :
    Precedes (fileName t.stamp) (fileName u.stamp) := precedes_iff.mpr (fileName_lt hu h)

/-- Among backups, the one written last has the last name. -/
theorem isLast_of_times {names : List String} {t : LocalTime} (ht : t.IsCalendar)
    (hmem : fileName t.stamp ∈ names) (hothers : ∀ name ∈ names, Named name →
      ∃ u : LocalTime, name = fileName u.stamp ∧ (u = t ∨ u.Before t)) :
    IsLast names (fileName t.stamp) := by
  refine ⟨hmem, named_fileName _, fun name hname hnamed => ?_⟩
  obtain ⟨u, rfl, rfl | hbefore⟩ := hothers name hname hnamed
  · exact .inl rfl
  · exact .inr (precedes_fileName ht hbefore)

/-- Of every directory that can be listed, in whatever order it is: there is a newest backup just
where an entry is named like one, and it is the entry with the greatest such name. A backup is
named after the time of its writing, a later one greater than an earlier one, so among them the
newest is the one that was written last. -/
theorem newest?_isLast {files : FileTree} {dir : String} {names : List String}
    (hlist : files.list dir = .ok names) :
    (newest? files dir = .ok none ↔ ∀ name ∈ names, ¬ Named name) ∧
    (∀ path, newest? files dir = .ok (some path) ↔
      ∃ name, IsLast names name ∧ path = Path.join dir name) ∧
    (∀ t u : LocalTime, t.IsCalendar → u.IsCalendar → t.Before u →
      Precedes (fileName t.stamp) (fileName u.stamp)) ∧
    (∀ (t : LocalTime) (document path : String) (w w' : World), w.stamp = t.stamp →
      write dir document w = (.ok path, w') → path = Path.join dir (fileName t.stamp)) ∧
    ∀ t : LocalTime, t.IsCalendar → fileName t.stamp ∈ names →
      (∀ name ∈ names, Named name → ∃ u : LocalTime, u.IsCalendar ∧ name = fileName u.stamp ∧
        (u = t ∨ u.Before t)) →
      newest? files dir = .ok (some (Path.join dir (fileName t.stamp))) := by
  have hnewest := newest?_of_list hlist
  refine ⟨?_, fun path => ?_, fun t u _ hu => precedes_fileName hu, ?_, ?_⟩
  · rw [hnewest, ← newestName?_eq_none_iff]
    simp
  · rw [hnewest, Except.ok.injEq, Option.map_eq_some_iff]
    simp only [newestName?_eq_some_iff, eq_comm (b := path)]
  · intro t document path w w' hstamp hwrite
    rw [(of_write_ok hwrite).1, hstamp]
  · intro t ht hmem hothers
    have hlast : IsLast names (fileName t.stamp) := by
      refine isLast_of_times ht hmem fun name hname hnamed => ?_
      obtain ⟨u, -, hu⟩ := hothers name hname hnamed
      exact ⟨u, hu⟩
    rw [hnewest, newestName?_eq_some_iff.mpr hlast]
    rfl

/-! A directory that lists a later backup first, and files that are none in between. -/

def earlierTime : LocalTime := ⟨2024, 1, 2, 3, 4, 5, 1⟩

def laterTime : LocalTime := ⟨2025, 6, 7, 8, 9, 10, 500000⟩

def keptNames : List String :=
  ["OriginalRoutes2025-06-07T08-09-10.500000.json", "transformed-routes.json",
    "OriginalRoutes2024-01-02T03-04-05.000001.json", "OriginalRoutes-notes.txt"]

def keptFiles : FileTree where
  entries := (["kept"], .directory) ::
    keptNames.map fun name => (["kept", name], .file "no routes".toUTF8)

theorem newest?_isLast_kept :
    keptFiles.list "kept" = .ok keptNames ∧
    newest? keptFiles "kept" =
      .ok (some "kept/OriginalRoutes2025-06-07T08-09-10.500000.json") := by
  have hlist : keptFiles.list "kept" = .ok keptNames :=
    Action.eq_ok_of_toOption (by decide +kernel)
  have hlater : fileName laterTime.stamp = "OriginalRoutes2025-06-07T08-09-10.500000.json" := by
    decide +kernel
  have hearlier : fileName earlierTime.stamp =
      "OriginalRoutes2024-01-02T03-04-05.000001.json" := by decide +kernel
  have htimes : ∀ name ∈ keptNames, Named name → ∃ u : LocalTime, u.IsCalendar ∧
      name = fileName u.stamp ∧ (u = laterTime ∨ u.Before laterTime) := by
    intro name hname hnamed
    simp only [keptNames, List.mem_cons, List.not_mem_nil, or_false] at hname
    rcases hname with rfl | rfl | rfl | rfl
    · exact ⟨laterTime, by constructor <;> decide, hlater.symm, .inl rfl⟩
    · exact absurd hnamed (by decide +kernel)
    · exact ⟨earlierTime, by constructor <;> decide, hearlier.symm,
        .inr (by decide : earlierTime.fields < laterTime.fields)⟩
    · exact absurd hnamed (by decide +kernel)
  obtain ⟨-, -, -, -, hnewest⟩ := newest?_isLast hlist
  refine ⟨hlist, ?_⟩
  rw [hnewest laterTime (by constructor <;> decide) (by rw [hlater]; decide +kernel) htimes, hlater]
  rfl

end RouteMigration.Backup
