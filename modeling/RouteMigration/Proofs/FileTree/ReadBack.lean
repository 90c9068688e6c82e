import RouteMigration.FileTree.Tree

/-! Reading what was written. A write changes what is at one address and no directory, so
every path leads where it led before, and the only file whose text is another is the one
written. -/

namespace RouteMigration.FileTree

/-! ## Entries -/

theorem lookup_replaced (entries : List (Address × Entry)) (a : Address) (e : Entry)
    (b : Address) :
    (entries.map fun (c, old) => if c == a then (c, e) else (c, old)).lookup b =
      if b = a then (entries.lookup a).map fun _ => e else entries.lookup b := by
  induction entries with
  | nil => simp
  | cons first entries ih =>
    obtain ⟨c, old⟩ := first
    rw [List.map_cons]
    by_cases hca : c = a
    · subst hca
      by_cases hbc : b = c
      · subst hbc
        simp
      · have htest : (b == c) = false := beq_eq_false_iff_ne.mpr hbc
        rw [if_neg hbc] at ih ⊢
        simpa only [beq_self_eq_true, if_true, List.lookup_cons, htest] using ih
    · have hkept : (c == a) = false := beq_eq_false_iff_ne.mpr hca
      have hpassed : (a == c) = false := beq_eq_false_iff_ne.mpr (Ne.symm hca)
      simp only [hkept, Bool.false_eq_true, if_false, List.lookup_cons, hpassed, ih]
      by_cases hba : b = a
      · simp [hba, hpassed]
      · simp [hba]

theorem entry?_of_ne_nil (t : FileTree) {a : Address} (ha : a ≠ []) :
    t.entry? a = t.entries.lookup a := by
  cases a with
  | nil => exact absurd rfl ha
  | cons => rfl

theorem entry?_put (t : FileTree) {a : Address} (ha : a ≠ []) (e : Entry) (b : Address) :
    entry? (t.put a e) b = if b = a then some e else t.entry? b := by
  cases b with
  | nil => simp [ entry?, ha.symm]
  | cons name b =>
    have hb : name :: b ≠ [] := List.cons_ne_nil _ _
    rw [entry?_of_ne_nil _ hb, entry?_of_ne_nil _ hb, put]
    split
    · next hany =>
      rw [lookup_replaced]
      obtain ⟨p, hp, hpa⟩ := List.any_eq_true.mp hany
      have hsome : (t.entries.lookup a).isSome :=
        List.lookup_isSome_iff.mpr ⟨p, hp, by simp [eq_of_beq hpa]⟩
      obtain ⟨old, hold⟩ := Option.isSome_iff_exists.mp hsome
      rw [hold]
      rfl
    · next hany =>
      have hnone : t.entries.lookup a = none := by
        rw [List.lookup_eq_none_iff]
        intro p hp
        have hne : p.1 ≠ a := fun h => hany (List.any_eq_true.mpr ⟨p, hp, by simp [h]⟩)
        simpa using hne.symm
      rw [List.lookup_append, List.lookup_cons]
      by_cases hba : name :: b = a
      · rw [hba, hnone, if_pos rfl, beq_self_eq_true]
        rfl
      · rw [if_neg hba, beq_eq_false_iff_ne.mpr hba]
        exact Option.or_none

@[simp] theorem home_put (t : FileTree) (a : Address) (e : Entry) : (t.put a e).home = t.home := by
  unfold put
  split <;> rfl

/-! ## Where a path leads -/

/-- Every directory of the one is a directory of the other. -/
structure KeepsDirectories (t t' : FileTree) : Prop where
  home : t'.home = t.home
  directory : ∀ a, t.entry? a = some .directory → t'.entry? a = some .directory

theorem checkDirectory_eq_ok_iff {t : FileTree} {a : Address} :
    t.checkDirectory a = .ok () ↔ t.entry? a = some .directory := by
  unfold checkDirectory
  split <;> simp_all

theorem follow_of_keepsDirectories {t t' : FileTree} (h : KeepsDirectories t t')
    {steps : List Path.Step} {a b : Address} (hf : t.follow a steps = .ok b) :
    t'.follow a steps = .ok b := by
  induction steps generalizing a with
  | nil => exact hf
  | cons step steps ih =>
    rw [follow.eq_def] at hf ⊢
    cases hc : t.checkDirectory a with
    | error e =>
      rw [hc] at hf
      cases hf
    | ok =>
      have hd := h.directory a (checkDirectory_eq_ok_iff.mp hc)
      rw [checkDirectory_eq_ok_iff.mpr hd]
      rw [hc] at hf
      cases step with
      | here => exact ih hf
      | up => exact ih hf
      | into name =>
        by_cases hn : name.utf8ByteSize > Path.nameLimit
        · simp only [hn, if_true] at hf
          cases hf
        · simp only [hn, if_false] at hf ⊢
          exact ih hf

/-- A path leads to an address and may name a file there. -/
structure Leads (t : FileTree) (path : String) (a : Address) : Prop where
  check : Path.check path = .ok ()
  follow : t.follow (if Path.isAbsolute path then [] else t.home) (Path.steps path) = .ok a
  slash : Path.endsInSlash path = false

theorem Leads.unique {t : FileTree} {path : String} {a b : Address} (ha : t.Leads path a)
    (hb : t.Leads path b) : a = b := Except.ok.inj (ha.follow.symm.trans hb.follow)

theorem Leads.keeps {t t' : FileTree} (hk : KeepsDirectories t t') {path : String} {a : Address}
    (h : t.Leads path a) : t'.Leads path a := by
  refine ⟨h.check, ?_, h.slash⟩
  rw [hk.home]
  exact follow_of_keepsDirectories hk h.follow

/-- Two paths that lead to one file. -/
def SameFile (t : FileTree) (path other : String) : Prop := ∃ a, t.Leads path a ∧ t.Leads other a

/-! ## Reading and writing -/

theorem Leads.find {t : FileTree} {path : String} {a : Address} (h : t.Leads path a) :
    t.find path = .ok (a, t.entry? a) := by
  unfold FileTree.find
  rw [h.check]
  simp only [bind, Except.bind, h.follow]
  rfl

theorem Leads.locate {t : FileTree} {path : String} {a : Address} (h : t.Leads path a) :
    t.locate path = .ok (a, t.entry? a) := by
  unfold FileTree.locate
  rw [h.find]
  simp only [bind, Except.bind, h.slash, Bool.and_false]
  rfl

/-- What is found at the end of a path is what is there, if not what the path asks for. -/
theorem of_find {t : FileTree} {path : String} {a : Address} {e? : Option Entry}
    (h : t.find path = .ok (a, e?)) :
    t.entry? a = e? ∧ (Path.endsInSlash path = false → t.Leads path a) := by
  unfold FileTree.find at h
  cases hc : Path.check path with
  | error e => simp [hc, bind, Except.bind] at h
  | ok =>
    cases hf : t.follow (if Path.isAbsolute path then [] else t.home) (Path.steps path) with
    | error e => simp [hc, hf, bind, Except.bind] at h
    | ok b =>
      simp only [hc, hf, bind, Except.bind] at h
      cases h
      exact ⟨rfl, fun hs => ⟨hc, hf, hs⟩⟩

/-- A path at which something was found, or could be. -/
theorem of_locate {t : FileTree} {path : String} {a : Address} {e? : Option Entry}
    (h : t.locate path = .ok (a, e?)) : t.entry? a = e? ∧
      ((∀ content, e? = some (.file content) → Path.endsInSlash path = false) ∧
        (Path.endsInSlash path = false → t.Leads path a)) := by
  unfold FileTree.locate at h
  cases hfind : t.find path with
  | error e => simp [hfind, bind, Except.bind] at h
  | ok found =>
    obtain ⟨b, found?⟩ := found
    obtain ⟨he, hleads⟩ := of_find hfind
    simp only [hfind, bind, Except.bind] at h
    cases hrefused : found?.any (!·.isDirectory) && Path.endsInSlash path with
    | true =>
      rw [hrefused] at h
      cases h
    | false =>
      rw [hrefused] at h
      cases h
      refine ⟨he, ?_, hleads⟩
      intro content hfile
      rw [hfile] at hrefused
      exact hrefused

theorem fromUTF8?_toUTF8 (text : String) : String.fromUTF8? text.toUTF8 = some text :=
  dif_pos text.isValidUTF8

theorem readText_eq_ok_iff {t : FileTree} {path text : String} :
    t.readText path = .ok text ↔ ∃ a content, t.Leads path a ∧
      t.entry? a = some (.file content) ∧ String.fromUTF8? content = some text := by
  constructor
  · intro h
    unfold readText read at h
    cases hl : t.locate path with
    | error e => simp [hl, bind, Except.bind] at h
    | ok found =>
      obtain ⟨a, e?⟩ := found
      obtain ⟨he, hslash, hleads⟩ := of_locate hl
      simp only [hl, bind, Except.bind] at h
      cases e? with
      | none => cases h
      | some e =>
        cases e with
        | directory => cases h
        | file content =>
          refine ⟨a, content, hleads (hslash content rfl), he, ?_⟩
          simp only [pure, Except.pure] at h
          split at h
          · next htext =>
            rw [htext, Except.ok.inj h]
          · cases h
  · rintro ⟨a, content, hl, he, ht⟩
    have hlocate := hl.locate
    rw [he] at hlocate
    simp [readText, read, hlocate, bind, Except.bind, pure, Except.pure, ht]

/-- There is no directory at an address, and no device: a file there holds what is written to
it. -/
structure Takes (t : FileTree) (a : Address) : Prop where
  free : t.entry? a ≠ some .directory
  device : t.swallows a = false

theorem any_isDirectory_eq_false_iff {e? : Option Entry} :
    e?.any Entry.isDirectory = false ↔ e? ≠ some .directory := by
  cases e? with
  | none => simp
  | some e => cases e <;> simp [Entry.isDirectory]

theorem target_eq_ok_iff {t : FileTree} {path : String} {a : Address} :
    t.target path = .ok a ↔ t.Leads path a ∧ t.Takes a := by
  constructor
  · intro h
    unfold target at h
    cases hfind : t.find path with
    | error e => simp [hfind, bind, Except.bind] at h
    | ok found =>
      obtain ⟨b, e?⟩ := found
      obtain ⟨he, hleads⟩ := of_find hfind
      simp only [hfind, bind, Except.bind] at h
      cases hrefused : e?.any Entry.isDirectory || Path.endsInSlash path with
      | true =>
        rw [hrefused] at h
        cases h
      | false =>
        obtain ⟨hfree, hslash⟩ := Bool.or_eq_false_iff.mp hrefused
        rw [← he] at hfree
        cases hdevice : t.swallows b with
        | true =>
          rw [hrefused, hdevice] at h
          cases h
        | false =>
          rw [hrefused, hdevice] at h
          cases h
          exact ⟨hleads hslash, any_isDirectory_eq_false_iff.mp hfree, hdevice⟩
  · intro ⟨hleads, htakes⟩
    unfold target
    rw [hleads.find]
    simp only [bind, Except.bind, any_isDirectory_eq_false_iff.mpr htakes.free, hleads.slash,
      htakes.device]
    rfl

/-- The tree with `text` as the whole content of a file, new or not. -/
def writeText (t : FileTree) (path text : String) : Except OsError FileTree := do
  return t.put (← t.target path) (.file text.toUTF8)

theorem writeText_eq_ok_iff {t t' : FileTree} {path text : String} :
    t.writeText path text = .ok t' ↔
      ∃ a, t.Leads path a ∧ t.Takes a ∧ t' = t.put a (.file text.toUTF8) := by
  unfold writeText
  constructor
  · intro h
    cases htarget : t.target path with
    | error e =>
      rw [htarget] at h
      cases h
    | ok a =>
      rw [htarget] at h
      cases h
      obtain ⟨hleads, htakes⟩ := target_eq_ok_iff.mp htarget
      exact ⟨a, hleads, htakes, rfl⟩
  · rintro ⟨a, hleads, htakes, rfl⟩
    rw [target_eq_ok_iff.mpr ⟨hleads, htakes⟩]
    rfl

theorem ne_nil_of_not_directory {t : FileTree} {a : Address} (h : t.entry? a ≠ some .directory) :
    a ≠ [] := by
  rintro rfl
  exact h rfl

theorem put_keepsDirectories {t : FileTree} {a : Address} (h : t.entry? a ≠ some .directory)
    (e : Entry) : KeepsDirectories t (t.put a e) := by
  refine ⟨home_put t a e, fun b hb => ?_⟩
  have hba : b ≠ a := by
    rintro rfl
    exact h hb
  rw [entry?_put t (ne_nil_of_not_directory h), if_neg hba]
  exact hb

/-- What was written is what is read. -/
theorem readText_writeText {t t' : FileTree} {path text : String}
    (h : t.writeText path text = .ok t') : t'.readText path = .ok text := by
  obtain ⟨a, hl, htakes, rfl⟩ := writeText_eq_ok_iff.mp h
  refine readText_eq_ok_iff.mpr ⟨a, text.toUTF8, hl.keeps (put_keepsDirectories htakes.free _),
    ?_, fromUTF8?_toUTF8 text⟩
  rw [entry?_put t (ne_nil_of_not_directory htakes.free), if_pos rfl]

/-- Other files read as before. -/
theorem readText_writeText_other {t t' : FileTree} {path other text new : String}
    (h : t.readText path = .ok text) (hw : t.writeText other new = .ok t')
    (hother : ¬ t.SameFile path other) : t'.readText path = .ok text := by
  obtain ⟨a, content, hl, he, htext⟩ := readText_eq_ok_iff.mp h
  obtain ⟨b, hb, htakes, rfl⟩ := writeText_eq_ok_iff.mp hw
  have hab : a ≠ b := by
    rintro rfl
    exact hother ⟨a, hl, hb⟩
  refine readText_eq_ok_iff.mpr
    ⟨a, content, hl.keeps (put_keepsDirectories htakes.free _), ?_, htext⟩
  rw [entry?_put t (ne_nil_of_not_directory htakes.free), if_neg hab]
  exact he

end RouteMigration.FileTree
