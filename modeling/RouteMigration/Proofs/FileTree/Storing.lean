import RouteMigration.Proofs.FileTree.Elsewhere

/-! What comes of a write. A file that does not open is left alone; one that has been opened holds
what has arrived, all of the text or the beginning of it. -/

namespace RouteMigration.FileTree

/-! ## Where a text stays -/

/-- Something can be written where the path leads, and stays there. -/
def Writable (t : FileTree) (path : String) : Prop := ∃ a, t.Leads path a ∧ t.Takes a

/-- What is written there is gone. -/
def LeadsToDevice (t : FileTree) (path : String) : Prop :=
  ∃ a, t.Leads path a ∧ t.swallows a = true

variable {t t' : FileTree} {path text : String} {content : ByteArray} {a : Address}

theorem free_of_swallows (h : t.swallows a = true) : t.entry? a ≠ some .directory := by
  intro hdirectory
  rw [swallows, hdirectory] at h
  cases h

theorem eq_nullDevice_of_swallows (h : t.swallows a = true) : a = nullDevice := by
  unfold swallows at h
  split at h
  · exact eq_of_beq (Bool.and_eq_true_iff.mp h).1
  · cases h

theorem target_of_writable (h : t.Writable path) :
    ∃ a, t.target path = .ok a ∧ t.Leads path a ∧ t.Takes a := by
  obtain ⟨a, hleads, htakes⟩ := h
  exact ⟨a, target_eq_ok_iff.mpr ⟨hleads, htakes⟩, hleads, htakes⟩

theorem Writable.not_device (h : t.Writable path) : ¬ t.LeadsToDevice path := by
  obtain ⟨a, hleads, htakes⟩ := h
  intro ⟨b, hb, hdevice⟩
  rw [← hleads.unique hb, htakes.device] at hdevice
  cases hdevice

/-- Whatever ends in another letter than the device's name leads elsewhere. -/
theorem not_leadsToDevice {s : List Char} {c : Char} (hpath : path.toList = s ++ [c])
    (hslash : c ≠ '/') (hdot : c ≠ '.') (hname : c ≠ 'l') : ¬ t.LeadsToDevice path := by
  intro ⟨a, hleads, hdevice⟩
  obtain ⟨before, name, hsteps, hlast⟩ := Path.steps_concat hpath hslash hdot
  have hfollow := hleads.follow
  rw [hsteps] at hfollow
  obtain ⟨d, -, -, hplace⟩ := of_follow_concat hfollow
  have hnull := congrArg List.getLast? (hplace.symm.trans (eq_nullDevice_of_swallows hdevice))
  rw [List.getLast?_concat] at hnull
  obtain rfl : name = "null" := Option.some.inj hnull
  exact hname (Option.some.inj hlast).symm

/-! The way to a file is refused for other reasons than what is at its end. -/

theorem checkDirectory_ne_noContent : t.checkDirectory a ≠ .error .noContent := by
  unfold checkDirectory
  split <;> simp

theorem follow_ne_noContent {steps : List Path.Step} :
    t.follow a steps ≠ .error .noContent := by
  induction steps generalizing a with
  | nil =>
    intro h
    cases h
  | cons step steps ih =>
    rw [follow.eq_def]
    cases hcheck : t.checkDirectory a with
    | error e =>
      intro h
      obtain rfl : e = .noContent := Except.error.inj h
      exact checkDirectory_ne_noContent hcheck
    | ok =>
      cases step with
      | here => exact ih
      | up => exact ih
      | into name =>
        by_cases hlong : name.utf8ByteSize > Path.nameLimit
        · simp only [hlong, if_true]
          intro h
          cases h
        · simp only [hlong, if_false]
          exact ih

theorem check_ne_noContent : Path.check path ≠ .error .noContent := by
  unfold Path.check
  repeat' split
  all_goals simp

theorem find_ne_noContent : t.find path ≠ .error .noContent := by
  intro h
  unfold find at h
  cases hcheck : Path.check path with
  | error e =>
    rw [hcheck] at h
    cases h
    exact check_ne_noContent hcheck
  | ok =>
    cases hfollow : t.follow (if Path.isAbsolute path then [] else t.home) (Path.steps path) with
    | error e =>
      simp only [hcheck, hfollow, bind, Except.bind] at h
      cases h
      exact follow_ne_noContent hfollow
    | ok b =>
      simp only [hcheck, hfollow, bind, Except.bind] at h
      cases h

theorem target_eq_noContent_iff : t.target path = .error .noContent ↔ t.LeadsToDevice path := by
  unfold target
  cases hfind : t.find path with
  | error e =>
    have hnever : e ≠ .noContent := by
      rintro rfl
      exact find_ne_noContent hfind
    constructor
    · intro h
      exact absurd (Except.error.inj h) hnever
    · intro ⟨a, hleads, _⟩
      cases hfind.symm.trans hleads.find
  | ok found =>
    obtain ⟨b, e?⟩ := found
    obtain ⟨he, hleads⟩ := of_find hfind
    simp only [bind, Except.bind]
    cases hrefused : e?.any Entry.isDirectory || Path.endsInSlash path with
    | true =>
      constructor
      · intro h
        cases h
      · intro ⟨a, ha, hdevice⟩
        cases hfind.symm.trans ha.find
        rw [ha.slash, any_isDirectory_eq_false_iff.mpr (free_of_swallows hdevice)] at hrefused
        cases hrefused
    | false =>
      obtain ⟨-, hslash⟩ := Bool.or_eq_false_iff.mp hrefused
      cases hdevice : t.swallows b with
      | true => exact ⟨fun _ => ⟨b, hleads hslash, hdevice⟩, fun _ => rfl⟩
      | false =>
        constructor
        · intro h
          cases h
        · intro ⟨a, ha, hswallows⟩
          rw [← (hleads hslash).unique ha, hdevice] at hswallows
          cases hswallows

/-! ## The write -/

/-- So many octets get through to a file that opens. -/
def Fault.LetsThrough (size : Nat) : Option Fault → Prop
  | none => True
  | some (.refused _) => False
  | some (.cut n _) => size ≤ n

/-- What comes of a write: the tree it leaves, and whether it went through. -/
inductive Stored (t : FileTree) (path text : String) (fault? : Option Fault) :
    FileTree × Except OsError Unit → Prop
  | refused {e : OsError} : fault? = some (.refused e) → Stored t path text fault? (t, .error e)
  | unopened {e : OsError} : ¬ t.Writable path → ¬ t.LeadsToDevice path →
      Stored t path text fault? (t, .error e)
  | swallowed : t.LeadsToDevice path → (∀ e, fault? ≠ some (.refused e)) →
      Stored t path text fault? (t, .ok ())
  | whole {a : Address} : t.Leads path a → t.Takes a →
      Fault.LetsThrough text.utf8ByteSize fault? →
      Stored t path text fault? (t.put a (.file text.toUTF8), .ok ())
  | part {a : Address} {n : Nat} {e : OsError} : t.Leads path a → t.Takes a →
      fault? = some (.cut n e) → n < text.utf8ByteSize →
      Stored t path text fault? (t.put a (.file (text.toUTF8.extract 0 n)), .error e)

theorem stored (t : FileTree) (path text : String) (fault? : Option Fault) :
    Stored t path text fault? (t.store path text fault?) := by
  unfold store
  split
  · exact .refused rfl
  · next hopens hdevice => exact .swallowed (target_eq_noContent_iff.mp hdevice) hopens
  · next e hother hopens htarget =>
    refine .unopened ?_ ?_
    · intro hwritable
      obtain ⟨a, ha, -⟩ := target_of_writable hwritable
      cases htarget.symm.trans ha
    · intro hdevice
      exact hother (Except.error.inj (htarget.symm.trans (target_eq_noContent_iff.mpr hdevice)))
  · next n e a htarget =>
    obtain ⟨hleads, htakes⟩ := target_eq_ok_iff.mp htarget
    by_cases hcut : n < text.utf8ByteSize
    · rw [if_pos hcut]
      exact .part hleads htakes rfl hcut
    · rw [if_neg hcut]
      exact .whole hleads htakes (Nat.le_of_not_lt hcut)
  · next a htarget =>
    obtain ⟨hleads, htakes⟩ := target_eq_ok_iff.mp htarget
    exact .whole hleads htakes trivial

theorem Stored.ok_iff {fault? : Option Fault} {result : Except OsError Unit}
    (h : Stored t path text fault? (t', result)) :
    result = .ok () ↔ (t.LeadsToDevice path ∧ ∀ e, fault? ≠ some (.refused e)) ∨
      (t.Writable path ∧ Fault.LetsThrough text.utf8ByteSize fault?) := by
  cases h with
  | refused hfault => simp [hfault, Fault.LetsThrough]
  | unopened hwritable hdevice => simp [hwritable, hdevice]
  | swallowed hdevice hopens => simp [hdevice, hopens]
  | whole hleads htakes hall =>
    have hwritable : t.Writable path := ⟨_, hleads, htakes⟩
    simp [hwritable, hall]
  | part hleads htakes hfault hcut =>
    have hwritable : t.Writable path := ⟨_, hleads, htakes⟩
    simp [hwritable.not_device, hfault, Fault.LetsThrough, hcut]

/-! ## Without a fault -/

theorem store_of_writeText (h : t.writeText path text = .ok t') :
    t.store path text none = (t', .ok ()) := by
  obtain ⟨a, hleads, htakes, rfl⟩ := writeText_eq_ok_iff.mp h
  unfold store
  rw [target_eq_ok_iff.mpr ⟨hleads, htakes⟩]

theorem of_store_ok (h : t.store path text none = (t', .ok ())) :
    t.writeText path text = .ok t' ∨ (t.LeadsToDevice path ∧ t' = t) := by
  have hstored := stored t path text none
  rw [h] at hstored
  cases hstored with
  | swallowed hdevice _ => exact .inr ⟨hdevice, rfl⟩
  | whole hleads htakes _ => exact .inl (writeText_eq_ok_iff.mpr ⟨_, hleads, htakes, rfl⟩)

/-- Where no fault comes in, a write that fails has changed nothing. -/
theorem of_store_error {e : OsError} (h : t.store path text none = (t', .error e)) :
    t' = t ∧ ¬ t.Writable path := by
  have hstored := stored t path text none
  rw [h] at hstored
  cases hstored with
  | refused hfault => cases hfault
  | unopened hwritable _ => exact ⟨rfl, hwritable⟩
  | part _ _ hfault _ => cases hfault

end RouteMigration.FileTree
