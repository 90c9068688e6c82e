import RouteMigration.Proofs.FileTree.Elsewhere
import RouteMigration.Proofs.Migration.Stages
import RouteMigration.Proofs.Migration.Saving

/-! A run to a file. Whatever its source, it asks for all routes at most; up to its backup it
writes that one file, and a run that fails later on has written nothing else. -/

namespace RouteMigration

/-! ## Up to the backup -/

/-- Only one call was made, if any, and it asks for nothing to be changed. -/
structure AsksLittle (made : List Request) : Prop where
  length : made.length ≤ 1
  method : ∀ q ∈ made, q.method = .get

theorem AsksLittle.nothing : AsksLittle [] := ⟨Nat.zero_le 1, fun _ hq => nomatch hq⟩

theorem Source.fetches_little (source : Source) : AsksLittle source.fetches := by
  refine ⟨?_, fun q hq => method_of_mem_fetches hq⟩
  cases source with
  | memory | file => exact Nat.zero_le 1
  | routeManager client =>
    change client.fetches.length ≤ 1
    rw [Client.fetches]
    split
    · exact Nat.le_refl 1
    · exact Nat.zero_le 1

/-- Whether loading goes through or not, it leaves the files alone. -/
theorem Source.load_asks (source : Source) (w : World) :
    ∃ calls made, w.Asks calls made (source.load.after w) ∧ AsksLittle made := by
  cases source with
  | memory text => exact ⟨[], [], .refl w, .nothing⟩
  | file path =>
    exact ⟨_, [], .noting w [⟨.trace, .file, "📂 reading routes document from " ++ path⟩], .nothing⟩
  | routeManager client =>
    by_cases hsends : ∃ document, client.Sends w document
    · obtain ⟨document, a, replies, hurl, hw, -⟩ := hsends
      obtain ⟨w', hload, hasks, -⟩ := Client.fetchRoutes_apply hurl hw
      rw [Action.after_eq (show (Source.routeManager client).load w = _ from hload)]
      exact ⟨_, _, hasks, Source.fetches_little (.routeManager client)⟩
    · obtain ⟨f, made, w', hload, hasks, hmade⟩ := Client.fetchRoutes_fails (not_exists.mp hsends)
      rw [Action.after_eq (show (Source.routeManager client).load w = _ from hload)]
      refine ⟨_, made, hasks, ?_⟩
      rcases hmade with rfl | rfl
      · exact .nothing
      · exact Source.fetches_little (.routeManager client)

/-- A file that was written since: the entry `name` of the directory that `dir` leads to. It
was no directory before. -/
structure SavedAt (dir name : String) (files saved : FileTree) (b : Address) : Prop where
  place : ∃ d, saved.LeadsToDirectory dir d ∧ b = d ++ [name]
  vacant : files.entry? b ≠ some .directory
  written : ∃ content, saved.entry? b = some (.file content)

/-- No file has become another but one that was written there, if any. -/
structure SavesOne (dir name : String) (files saved : FileTree) (new? : Option Address) :
    Prop where
  keeps : files.KeepsFilesBut (new? = some ·) saved
  savedAt : ∀ b ∈ new?, SavedAt dir name files saved b

theorem SavesOne.nothing {files made : FileTree} (h : files.KeepsFiles made)
    (dir name : String) : SavesOne dir name files made none :=
  ⟨h.but _, fun _ hb => nomatch hb⟩

/-- Directories first, and then the file. -/
theorem SavesOne.ofWrite {dir name text : String} (hname : Path.IsEntryName name)
    {files made written : FileTree} (hmade : files.KeepsFiles made)
    (hwritten : made.writeText (Path.join dir name) text = .ok written) :
    ∃ b, SavesOne dir name files written (some b) := by
  obtain ⟨b, hleads, hvacant, hfile, hkeeps⟩ := FileTree.writeText_keepsFilesBut hwritten
  obtain ⟨d, hd, hb⟩ := hleads.of_join hname
  refine ⟨b, ((hmade.but (fun _ => False)).trans hkeeps).mono ?_, ?_⟩
  · rintro a (hnone | rfl)
    · exact hnone.elim
    · rfl
  · intro b' hb'
    obtain rfl := Option.some.inj hb'
    exact ⟨⟨d, hd.keeps hkeeps.toKeepsDirectories, hb⟩,
      fun hdirectory => hvacant (hmade.directory b hdirectory), ⟨_, hfile⟩⟩

theorem Backup.write_saves {w : World} (hname : Path.IsEntryName (fileName w.stamp))
    (dir document : String) :
    ((write dir document).after w).requests = w.requests ∧
      ∃ new?,
        SavesOne dir (fileName w.stamp) w.files ((write dir document).after w).files new? := by
  by_cases hpossible : Possible w.files dir w.stamp document
  · obtain ⟨last, hwrite⟩ := write_of_possible hpossible
    rw [Action.after_eq hwrite]
    obtain ⟨-, made, written, lines, hmade, hwritten, rfl⟩ := of_write_ok hwrite
    have hkept := FileTree.makeDirectories_keepsFiles w.files dir
    rw [hmade] at hkept
    obtain ⟨b, hsaves⟩ := SavesOne.ofWrite hname hkept hwritten
    exact ⟨rfl, some b, hsaves⟩
  · obtain ⟨f, made, hwrite, hkept⟩ := write_of_impossible hpossible
    rw [Action.after_eq hwrite]
    exact ⟨rfl, none, .nothing hkept dir _⟩

namespace Migration

/-- What a run has done by the time its source is read and saved, or cannot be. -/
structure Opens (dir : String) (w last : World) : Prop where
  requests : ∃ made, last.requests = w.requests ++ made ∧ AsksLittle made
  files : ∃ new?, SavesOne dir (Backup.fileName w.stamp) w.files last.files new?

theorem fetch_saving_after {source : Source} {m : MigrationSettings} {w w' : World}
    {document : String} (hremote : source.isRemote = true) (hbackup : m.backup = true)
    (hload : source.load w = (.ok document, w')) :
    (fetch source m).after w = (Backup.write m.backupDir document).after w' := by
  rw [Action.after, fetch_saving hremote hbackup hload, ← Action.after]
  cases hwrite : Backup.write m.backupDir document w' with
  | mk result last =>
    cases result with
    | error f => rw [Action.after_eq (Action.bind_of_error hwrite), Action.after_eq hwrite]
    | ok path =>
      rw [Action.after_bind_of_ok hwrite, Action.after_eq hwrite]
      rfl

theorem fetch_opens {w : World} (hname : Path.IsEntryName (Backup.fileName w.stamp))
    (source : Source) (m : MigrationSettings) :
    Opens m.backupDir w ((fetch source m).after w) := by
  obtain ⟨calls, made, hasks, hlittle⟩ := source.load_asks w
  -- a world in which nothing has happened but loading
  have hunsaved : Opens m.backupDir w (source.load.after w) := by
    refine ⟨⟨made, hasks.requests, hlittle⟩, none, ?_⟩
    rw [hasks.files]
    exact .nothing (.refl w.files) _ _
  cases hload : source.load w with
  | mk result w' =>
    rw [Action.after_eq hload] at hasks hunsaved
    cases result with
    | error f =>
      rw [fetch, Action.after_eq (Action.bind_of_error (Action.within_of_error hload))]
      exact hunsaved
    | ok document =>
      cases hsaving : source.isRemote && m.backup with
      | false =>
        rw [fetch, Action.after_bind_of_ok (Action.within_of_ok hload), hsaving]
        exact hunsaved
      | true =>
        obtain ⟨hremote, hbackup⟩ := Bool.and_eq_true_iff.mp hsaving
        have hstamp : w'.stamp = w.stamp := by
          cases source with
          | memory | file => cases hremote
          | routeManager client => exact (Client.of_fetchRoutes_ok hload).2.2
        rw [← hstamp] at hname
        obtain ⟨hrequests, new?, hsaves⟩ := Backup.write_saves hname m.backupDir document
        rw [hasks.files, hstamp] at hsaves
        rw [fetch_saving_after hremote hbackup hload]
        exact ⟨⟨made, hrequests.trans hasks.requests, hlittle⟩, new?, hsaves⟩

theorem opening_opens {w : World} (hname : Path.IsEntryName (Backup.fileName w.stamp))
    (source : Source) (sink : Sink) (m : MigrationSettings) :
    Opens m.backupDir w ((opening source sink m).after w) := by
  let begun := w.noting [start source sink m]
  have hname' : Path.IsEntryName (Backup.fileName begun.stamp) := hname
  have hopens := fetch_opens hname' source m
  rw [Action.after, opening_eq, ← Action.after]
  exact ⟨hopens.requests, hopens.files⟩

/-! ## The whole run -/

/-- What a run to a file at `path` has done, with its backups in `dir`. After the backup it
changes no file but its own, and not even that one if it fails. -/
structure RunsToFile (dir path : String) (w : World) {α : Type} (result : Except Failure α)
    (last : World) : Prop where
  requests : ∃ made, last.requests = w.requests ++ made ∧ AsksLittle made
  files : ∃ saved new?, SavesOne dir (Backup.fileName w.stamp) w.files saved new? ∧
    saved.KeepsFilesBut (last.files.Leads path) last.files ∧
    ∀ f, result = .error f → last.files = saved

theorem RunsToFile.nothing {α : Type} {dir path : String} {w last : World}
    {result : Except Failure α} (hrequests : last.requests = w.requests)
    (hfiles : last.files = w.files) : RunsToFile dir path w result last := by
  have hkept := FileTree.KeepsFiles.refl w.files
  refine ⟨⟨[], by rw [hrequests, List.append_nil], .nothing⟩, w.files, none,
    .nothing hkept dir _, ?_, fun _ _ => hfiles⟩
  rw [hfiles]
  exact hkept.but _

theorem Opens.runsToFile {α : Type} {dir path : String} {w last : World}
    {result : Except Failure α} (h : Opens dir w last) : RunsToFile dir path w result last := by
  obtain ⟨new?, hsaves⟩ := h.files
  exact ⟨h.requests, last.files, new?, hsaves, (FileTree.KeepsFiles.refl last.files).but _,
    fun _ _ => rfl⟩

/-- From the document on nothing is asked for, and only the file at `path` is written. -/
theorem delivery_toFile (source : Source) (path : String) (m : MigrationSettings)
    (document : String) (backup : Option String) (w : World) :
    let run := delivery source (.file path []) m document backup w
    run.2.requests = w.requests ∧
      w.files.KeepsFilesBut (run.2.files.Leads path) run.2.files ∧
      ∀ f, run.1 = .error f → run.2.files = w.files := by
  have hdelivers := delivery_delivers source (.file path []) m document backup w
  have hkept := FileTree.KeepsFiles.refl w.files
  -- a file is asked for no updates
  have hnone : ∀ order, w.requests ++ (Sink.file path []).updates order = w.requests :=
    fun _ => List.append_nil _
  generalize delivery source (.file path []) m document backup w = run at hdelivers ⊢
  cases hdelivers with
  | failed hasked hfiles =>
    refine ⟨hasked.trans (hnone _), ?_, fun _ _ => hfiles⟩
    rw [hfiles]
    exact hkept.but _
  | closed hasked hflush =>
    refine ⟨hasked.trans (hnone _), ?_, fun _ he => by cases he⟩
    rcases Sink.of_flush_ok hflush with hfiles | ⟨other, routes, hsink, hwrite⟩
    · rw [hfiles]
      exact hkept.but _
    · cases hsink
      obtain ⟨a, hleads, -, -, hkeeps⟩ := FileTree.writeText_keepsFilesBut hwrite
      refine hkeeps.mono ?_
      rintro b rfl
      exact hleads.keeps hkeeps.toKeepsDirectories

theorem migrate_runsToFile {w : World} (hname : Path.IsEntryName (Backup.fileName w.stamp))
    (source : Source) (path : String) (m : MigrationSettings) :
    RunsToFile m.backupDir path w (migrate source (.file path []) m w).1
      ((migrate source (.file path []) m).after w) := by
  have hopens := opening_opens hname source (.file path []) m
  cases hopening : opening source (.file path []) m w with
  | mk result opened =>
    rw [Action.after_eq hopening] at hopens
    cases result with
    | error f =>
      have hrun : migrate source (.file path []) m w = (.error f, opened) :=
        Action.bind_of_error hopening
      rw [Action.after, hrun]
      exact hopens.runsToFile
    | ok found =>
      obtain ⟨document, backup⟩ := found
      obtain ⟨⟨made, hrequests, hlittle⟩, new?, hsaves⟩ := hopens
      obtain ⟨hasked, hkeeps, hfailed⟩ := delivery_toFile source path m document backup opened
      rw [Action.after, migrate_of_opening hopening]
      exact ⟨⟨made, hasked.trans hrequests, hlittle⟩, opened.files, new?, hsaves, hkeeps, hfailed⟩

end Migration

end RouteMigration
