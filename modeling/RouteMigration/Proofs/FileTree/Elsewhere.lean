import RouteMigration.Proofs.FileTree.Directories

/-! What a write leaves alone: every file at another address. Which address a path leads to can
be read off its parts, so that a name that stands in no part of a path is not on its way. -/

namespace RouteMigration

namespace Path

/-- What an entry of a directory can be called. -/
structure IsEntryName (name : String) : Prop where
  slash : '/' ∉ name.toList
  step : Step.ofName name = .into name
  ne_empty : name ≠ ""

variable {name : String}

theorem IsEntryName.isAbsolute (h : IsEntryName name) : isAbsolute name = false := by
  unfold Path.isAbsolute
  rw [beq_eq_false_iff_ne]
  exact fun hhead => h.slash (List.mem_of_head? hhead)

theorem IsEntryName.splitOn (h : IsEntryName name) :
    (name.toList.splitOn '/').filter (!·.isEmpty) = [name.toList] := by
  have hne : name.toList ≠ [] := fun hnil => h.ne_empty (String.toList_eq_nil_iff.mp hnil)
  rw [List.splitOn_eq_singleton h.slash]
  simp [hne]

/-- The parts on both sides of a slash. -/
theorem splitOn_slash (s t : List Char) :
    ((s ++ '/' :: t).splitOn '/').filter (!·.isEmpty) =
      (s.splitOn '/').filter (!·.isEmpty) ++ (t.splitOn '/').filter (!·.isEmpty) := by
  rw [List.splitOn_append_cons_self, List.filter_append]

theorem steps_join (h : IsEntryName name) (dir : String) :
    steps (join dir name) = steps dir ++ [.into name] := by
  have hparts : ((join dir name).toList.splitOn '/').filter (!·.isEmpty) =
      (dir.toList.splitOn '/').filter (!·.isEmpty) ++ [name.toList] := by
    rw [join, h.isAbsolute, if_neg Bool.false_ne_true]
    split
    · next hshort =>
      rcases Bool.or_eq_true_iff.mp hshort with hempty | hslash
      · obtain rfl : dir = "" := String.isEmpty_iff.mp hempty
        rw [String.empty_append, h.splitOn]
        rfl
      · -- the slash at the end has nothing behind it, and then the name
        obtain ⟨s, hs⟩ := List.getLast?_eq_some_iff.mp (eq_of_beq hslash)
        have hdir := splitOn_slash s []
        have hjoined := splitOn_slash s name.toList
        rw [String.toList_append, hs, List.append_assoc, List.singleton_append, hjoined, hdir,
          h.splitOn]
        simp
    · have hslash : "/".toList = ['/'] := rfl
      rw [String.toList_append, String.toList_append, hslash, List.append_assoc,
        List.singleton_append, splitOn_slash, h.splitOn]
  rw [steps, hparts, List.map_append, steps, List.map_singleton, String.ofList_toList, h.step]

theorem isAbsolute_join (h : IsEntryName name) (dir : String) :
    isAbsolute (join dir name) = isAbsolute dir := by
  rw [join, h.isAbsolute, if_neg Bool.false_ne_true]
  by_cases hempty : dir = ""
  · subst hempty
    exact h.isAbsolute
  · obtain ⟨c, s, hdir⟩ := List.exists_cons_of_ne_nil fun hnil =>
      hempty (String.toList_eq_nil_iff.mp hnil)
    have hhead : ∀ more : List Char, (dir.toList ++ more).head? = dir.toList.head? := by
      rw [hdir]
      exact fun more => rfl
    split
    · rw [isAbsolute, isAbsolute, String.toList_append, hhead]
    · rw [isAbsolute, isAbsolute, String.toList_append, String.toList_append, List.append_assoc,
        hhead]

/-- A text is its last part, or has it behind its last slash. -/
theorem exists_lastPart (s : List Char) :
    ∃ before part, '/' ∉ part ∧ (s = part ∨ s = before ++ '/' :: part) := by
  by_cases hmem : '/' ∈ s
  · obtain ⟨part, before, hs, hpart⟩ :=
      List.eq_append_cons_of_mem (List.mem_reverse.mpr hmem)
    have hback := congrArg List.reverse hs
    exact ⟨before.reverse, part.reverse, by simpa using hpart, .inr (by simpa using hback)⟩
  · exact ⟨[], s, hmem, .inl rfl⟩

/-- A path that ends in some other character than a slash or a dot ends with a step into a name,
and the name ends in that character. -/
theorem steps_concat {path : String} {s : List Char} {c : Char} (hpath : path.toList = s ++ [c])
    (hslash : c ≠ '/') (hdot : c ≠ '.') :
    ∃ before name, steps path = before ++ [.into name] ∧ name.toList.getLast? = some c := by
  obtain ⟨before, part, hpart, hs⟩ := exists_lastPart s
  have hlast : '/' ∉ part ++ [c] := by simp [hpart, Ne.symm hslash]
  have hparts : ∃ front, (path.toList.splitOn '/').filter (!·.isEmpty) =
      front ++ [part ++ [c]] := by
    rcases hs with rfl | rfl
    · refine ⟨[], ?_⟩
      rw [hpath, List.splitOn_eq_singleton hlast]
      simp
    · refine ⟨(before.splitOn '/').filter (!·.isEmpty), ?_⟩
      rw [hpath, List.append_assoc, List.cons_append, splitOn_slash,
        List.splitOn_eq_singleton hlast]
      simp
  obtain ⟨front, hfront⟩ := hparts
  -- a name that is a step of another kind ends in a dot
  have hother : ∀ name : String, name.toList.getLast? ≠ some c →
      String.ofList (part ++ [c]) ≠ name := by
    rintro name hname rfl
    simp at hname
  have hdot' : some '.' ≠ some c := fun h => hdot (Option.some.inj h).symm
  have hstep : Step.ofName (String.ofList (part ++ [c])) = .into (String.ofList (part ++ [c])) := by
    rw [Step.ofName, if_neg (hother "." hdot'), if_neg (hother ".." hdot')]
  refine ⟨front.map fun part => .ofName (String.ofList part), String.ofList (part ++ [c]), ?_, ?_⟩
  · rw [steps, hfront, List.map_append, List.map_singleton, hstep]
  · simp

end Path

namespace FileTree

/-! ## On the way -/

theorem follow_append (t : FileTree) (a : Address) (steps more : List Path.Step) :
    t.follow a (steps ++ more) = t.follow a steps >>= fun b => t.follow b more := by
  induction steps generalizing a with
  | nil => rfl
  | cons step steps ih =>
    rw [List.cons_append, follow.eq_def, follow.eq_def t a (step :: steps)]
    cases t.checkDirectory a with
    | error e => rfl
    | ok =>
      cases step with
      | here => exact ih a
      | up => exact ih a.dropLast
      | into name =>
        by_cases hlong : name.utf8ByteSize > Path.nameLimit
        · simp only [hlong, if_true]
          rfl
        · simp only [hlong, if_false]
          exact ih (a ++ [name])

/-- No name comes in but from the beginning of the way and from its steps. -/
theorem mem_of_follow {t : FileTree} {steps : List Path.Step} {a b : Address} {name : String}
    (h : t.follow a steps = .ok b) (hname : name ∈ b) : name ∈ a ∨ .into name ∈ steps := by
  induction steps generalizing a with
  | nil =>
    obtain rfl := Except.ok.inj h
    exact .inl hname
  | cons step steps ih =>
    rw [follow.eq_def] at h
    cases hc : t.checkDirectory a with
    | error e =>
      rw [hc] at h
      cases h
    | ok =>
      rw [hc] at h
      cases step with
      | here => exact (ih h).imp_right (List.mem_cons_of_mem _)
      | up => exact (ih h).imp (fun hm => List.dropLast_subset a hm) (List.mem_cons_of_mem _)
      | into other =>
        by_cases hlong : other.utf8ByteSize > Path.nameLimit
        · simp only [hlong, if_true] at h
          cases h
        · simp only [hlong, if_false] at h
          rcases ih h with hbefore | hlater
          · rcases List.mem_append.mp hbefore with hbefore | hother
            · exact .inl hbefore
            · rw [List.mem_singleton.mp hother]
              exact .inr List.mem_cons_self
          · exact .inr (List.mem_cons_of_mem _ hlater)

/-- A path leads to a directory. The empty path is the working directory. -/
structure LeadsToDirectory (t : FileTree) (path : String) (d : Address) : Prop where
  follow : t.follow (if Path.isAbsolute path then [] else t.home) (Path.steps path) = .ok d
  directory : t.entry? d = some .directory

theorem LeadsToDirectory.keeps {t t' : FileTree} (hk : KeepsDirectories t t') {path : String}
    {d : Address} (h : t.LeadsToDirectory path d) : t'.LeadsToDirectory path d := by
  refine ⟨?_, hk.directory d h.directory⟩
  rw [hk.home]
  exact follow_of_keepsDirectories hk h.follow

/-- A way that ends with a step into a name leads to an entry of a directory. -/
theorem of_follow_concat {t : FileTree} {a b : Address} {steps : List Path.Step} {name : String}
    (h : t.follow a (steps ++ [.into name]) = .ok b) :
    ∃ d, t.follow a steps = .ok d ∧ t.entry? d = some .directory ∧ b = d ++ [name] := by
  rw [follow_append] at h
  cases hd : t.follow a steps with
  | error e =>
    rw [hd] at h
    cases h
  | ok d =>
    rw [hd] at h
    change t.follow d [.into name] = .ok b at h
    rw [follow.eq_def] at h
    cases hc : t.checkDirectory d with
    | error e =>
      rw [hc] at h
      cases h
    | ok =>
      rw [hc] at h
      by_cases hlong : name.utf8ByteSize > Path.nameLimit
      · simp only [hlong, if_true] at h
        cases h
      · simp only [hlong, if_false] at h
        exact ⟨d, rfl, checkDirectory_eq_ok_iff.mp hc, (Except.ok.inj h).symm⟩

/-- The entry of a directory is one name further than the directory. -/
theorem Leads.of_join {t : FileTree} {dir name : String} {a : Address}
    (hname : Path.IsEntryName name) (h : t.Leads (Path.join dir name) a) :
    ∃ d, t.LeadsToDirectory dir d ∧ a = d ++ [name] := by
  have hfollow := h.follow
  rw [Path.isAbsolute_join hname, Path.steps_join hname] at hfollow
  obtain ⟨d, hd, hdirectory, rfl⟩ := of_follow_concat hfollow
  exact ⟨d, ⟨hd, hdirectory⟩, rfl⟩

/-! ## Elsewhere -/

/-- Whatever file is at an address in one of the trees is there in the other. -/
def SameFileAt (t t' : FileTree) (a : Address) : Prop :=
  ∀ content, t'.entry? a = some (.file content) ↔ t.entry? a = some (.file content)

/-- No directory is missing, and the files are the same except at some addresses. -/
structure KeepsFilesBut (changed : Address → Prop) (t t' : FileTree) : Prop
    extends KeepsDirectories t t' where
  file : ∀ a, ¬ changed a → t.SameFileAt t' a

variable {changed changed' : Address → Prop} {t t₁ t₂ t' : FileTree}

theorem KeepsFiles.but (h : t.KeepsFiles t') (changed : Address → Prop) :
    t.KeepsFilesBut changed t' := ⟨h.toKeepsDirectories, fun a _ content => h.file a content⟩

theorem KeepsFilesBut.mono (h : t.KeepsFilesBut changed t')
    (hsub : ∀ a, changed a → changed' a) : t.KeepsFilesBut changed' t' :=
  ⟨h.toKeepsDirectories, fun a ha => h.file a fun hc => ha (hsub a hc)⟩

theorem KeepsFilesBut.trans (h : t₁.KeepsFilesBut changed t) (h' : t.KeepsFilesBut changed' t₂) :
    t₁.KeepsFilesBut (fun a => changed a ∨ changed' a) t₂ := by
  refine ⟨⟨h'.home.trans h.home, fun a ha => h'.directory a (h.directory a ha)⟩, ?_⟩
  intro a ha content
  rw [not_or] at ha
  exact (h'.file a ha.2 content).trans (h.file a ha.1 content)

/-- A write changes the one file its path leads to, which is no directory. -/
theorem writeText_keepsFilesBut {path text : String} (h : t.writeText path text = .ok t') :
    ∃ a, t.Leads path a ∧ t.entry? a ≠ some .directory ∧
      t'.entry? a = some (.file text.toUTF8) ∧ t.KeepsFilesBut (· = a) t' := by
  obtain ⟨a, hleads, htakes, rfl⟩ := writeText_eq_ok_iff.mp h
  have hentry := entry?_put t (ne_nil_of_not_directory htakes.free) (.file text.toUTF8)
  refine ⟨a, hleads, htakes.free, ?_, put_keepsDirectories htakes.free _, ?_⟩
  · rw [hentry, if_pos rfl]
  · intro b hba content
    rw [hentry, if_neg hba]

end FileTree

end RouteMigration
