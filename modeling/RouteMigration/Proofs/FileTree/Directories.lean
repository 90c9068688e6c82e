import RouteMigration.Proofs.FileTree.ReadBack

/-! Making directories. However far it comes, every file is still there with the same content,
and no file is new. -/

namespace RouteMigration.FileTree

/-- The same files with the same content, and no directory less. -/
structure KeepsFiles (t t' : FileTree) : Prop extends KeepsDirectories t t' where
  file : ∀ a content, t'.entry? a = some (.file content) ↔ t.entry? a = some (.file content)

theorem KeepsFiles.refl (t : FileTree) : KeepsFiles t t :=
  ⟨⟨rfl, fun _ h => h⟩, fun _ _ => Iff.rfl⟩

theorem KeepsFiles.trans {t₁ t₂ t₃ : FileTree} (h : KeepsFiles t₁ t₂) (h' : KeepsFiles t₂ t₃) :
    KeepsFiles t₁ t₃ :=
  ⟨⟨h'.home.trans h.home, fun a ha => h'.directory a (h.directory a ha)⟩,
    fun a content => (h'.file a content).trans (h.file a content)⟩

theorem put_directory_keepsFiles {t : FileTree} {a : Address} (h : t.entry? a = none) :
    KeepsFiles t (t.put a .directory) := by
  have hnew : t.entry? a ≠ some .directory := by simp [h]
  refine ⟨put_keepsDirectories hnew .directory, fun b content => ?_⟩
  rw [entry?_put t (ne_nil_of_not_directory hnew)]
  split
  · next hba =>
    rw [hba, h]
    simp
  · exact Iff.rfl

theorem makeDirectory_keepsFiles {t t' : FileTree} {path : String}
    (h : t.makeDirectory path = .ok t') : KeepsFiles t t' := by
  unfold makeDirectory at h
  cases hl : t.find path with
  | error e =>
    rw [hl] at h
    cases h
  | ok found =>
    obtain ⟨a, e?⟩ := found
    rw [hl] at h
    cases e? with
    | some e => cases h
    | none =>
      cases h
      exact put_directory_keepsFiles (of_find hl).1

theorem makeDirectoriesFrom_keepsFiles (fuel : Nat) (t : FileTree) (path : String) :
    KeepsFiles t (makeDirectoriesFrom fuel t path).1 := by
  induction fuel generalizing t path with
  | zero => exact .refl t
  | succ fuel ih =>
    rw [makeDirectoriesFrom]
    split
    · exact .refl t
    · split
      · next hmake => exact makeDirectory_keepsFiles hmake
      · -- the parents come first, and the directory itself may still fail
        have hparents := ih t (Path.parent path)
        split
        · next t₁ e hmade =>
          rw [hmade] at hparents
          exact hparents
        · next t₁ hmade =>
          rw [hmade] at hparents
          split
          · next hmake => exact hparents.trans (makeDirectory_keepsFiles hmake)
          · split <;> exact hparents
      · split <;> exact .refl t

theorem makeDirectories_keepsFiles (t : FileTree) (path : String) :
    KeepsFiles t (t.makeDirectories path).1 :=
  makeDirectoriesFrom_keepsFiles _ t path

end RouteMigration.FileTree
