import RouteMigration.Migration
import RouteMigration.Proofs.FileTree.Directories
import RouteMigration.Proofs.FileTree.Storing
import RouteMigration.Proofs.Exchange.Calls

/-! Saving what a route manager sent, before anything is made of it. -/

namespace RouteMigration

/-- The requests that loading makes. -/
def Source.fetches : Source → List Request
  | routeManager client => client.fetches
  | _ => []

theorem Source.method_of_mem_fetches {source : Source} {q : Request} (h : q ∈ source.fetches) :
    q.method = .get := by
  cases source with
  | memory | file => cases h
  | routeManager client => exact Client.method_of_mem_fetches h

theorem Source.of_load_ok {source : Source} {w w' : World} {document : String}
    (h : source.load w = (.ok document, w')) : ∃ calls, w.Asks calls source.fetches w' := by
  cases source with
  | memory text =>
    cases h
    exact ⟨[], .refl w⟩
  | file path =>
    obtain rfl := Action.after_eq h
    exact ⟨[], .noting w [⟨.trace, .file, "📂 reading routes document from " ++ path⟩]⟩
  | routeManager client => exact ⟨_, (Client.of_fetchRoutes_ok h).2.1⟩

theorem Path.toList_join (dir name : String) :
    ∃ before, (join dir name).toList = before ++ name.toList := by
  unfold join
  split
  · exact ⟨[], rfl⟩
  · split
    · exact ⟨dir.toList, String.toList_append⟩
    · refine ⟨(dir ++ "/").toList, ?_⟩
      rw [String.toList_append]

namespace Backup

/-- Whatever the time, the name of a backup is not that of the null device. -/
theorem not_leadsToDevice (files : FileTree) (dir stamp : String) :
    ¬ files.LeadsToDevice (Path.join dir (fileName stamp)) := by
  obtain ⟨before, hpath⟩ := Path.toList_join dir (fileName stamp)
  have hsuffix : nameSuffix.toList = ".jso".toList ++ ['n'] := by decide
  rw [fileName, String.toList_append, hsuffix, ← List.append_assoc, ← List.append_assoc] at hpath
  exact FileTree.not_leadsToDevice hpath (by decide) (by decide) (by decide)

/-- A document can be saved: the directory is there or can be made, and so is the file in it. -/
def Possible (files : FileTree) (dir stamp document : String) : Prop :=
  ∃ made written, files.makeDirectories dir = (made, .ok ()) ∧
    made.writeText (Path.join dir (fileName stamp)) document = .ok written

theorem write_of_possible {dir document : String} {w : World}
    (h : Possible w.files dir w.stamp document) :
    ∃ w', write dir document w = (.ok (Path.join dir (fileName w.stamp)), w') := by
  obtain ⟨made, written, hmade, hwritten⟩ := h
  have hmake : Action.makeDirectories (.backupDirectory dir) dir w =
      (.ok (), { w with files := made }) := by
    rw [Action.makeDirectories, hmade]
    rfl
  have hget : (get : Action World) { w with files := made } =
      (.ok { w with files := made }, { w with files := made }) := rfl
  have hwrite : Action.writeText (.backupFile (Path.join dir (fileName w.stamp)))
      (Path.join dir (fileName w.stamp)) document { w with files := made } =
        (.ok (), { w with files := written }) := by
    rw [Action.writeText_apply (w := { w with files := made })
      (FileTree.store_of_writeText hwritten)]
    rfl
  unfold write
  rw [Action.bind_of_ok hmake, Action.bind_of_ok hget, Action.bind_of_ok hwrite,
    Action.log_bind_apply]
  exact ⟨_, rfl⟩

/-- What cannot be saved leaves no file behind. -/
theorem write_of_impossible {dir document : String} {w : World}
    (h : ¬ Possible w.files dir w.stamp document) :
    ∃ f made, write dir document w = (.error f, { w with files := made }) ∧
      w.files.KeepsFiles made := by
  have hkept := FileTree.makeDirectories_keepsFiles w.files dir
  cases hmade : w.files.makeDirectories dir with
  | mk made result =>
    rw [hmade] at hkept
    have hmake : Action.makeDirectories (.backupDirectory dir) dir w =
        (failingAs (.backupDirectory dir) result, { w with files := made }) := by
      rw [Action.makeDirectories, hmade]
    cases result with
    | error e => exact ⟨_, made, Action.bind_of_error hmake, hkept⟩
    | ok =>
      have hget : (get : Action World) { w with files := made } =
          (.ok { w with files := made }, { w with files := made }) := rfl
      cases hstore : made.store (Path.join dir (fileName w.stamp)) document none with
      | mk files stored =>
        cases stored with
        | ok =>
          rcases FileTree.of_store_ok hstore with hwritten | ⟨hdevice, -⟩
          · exact absurd ⟨made, files, hmade, hwritten⟩ h
          · exact absurd hdevice (not_leadsToDevice made dir w.stamp)
        | error e =>
          obtain ⟨rfl, -⟩ := FileTree.of_store_error hstore
          have hwrite : Action.writeText (.backupFile (Path.join dir (fileName w.stamp)))
              (Path.join dir (fileName w.stamp)) document { w with files } =
                (.error ⟨.backupFile (Path.join dir (fileName w.stamp)), [.os e]⟩,
                  { w with files }) := by
            rw [Action.writeText_apply (w := { w with files }) hstore]
            rfl
          refine ⟨⟨.backupFile (Path.join dir (fileName w.stamp)), [.os e]⟩, files, ?_, hkept⟩
          exact (Action.bind_of_ok hmake).trans
            ((Action.bind_of_ok hget).trans (Action.bind_of_error hwrite))

theorem of_write_ok {dir document path : String} {w w' : World}
    (h : write dir document w = (.ok path, w')) :
    path = Path.join dir (fileName w.stamp) ∧ ∃ made written lines,
      w.files.makeDirectories dir = (made, .ok ()) ∧ made.writeText path document = .ok written ∧
        w' = World.noting { w with files := written } lines := by
  obtain ⟨_, w₁, hmake, h⟩ := Action.bind_eq_ok_iff.mp h
  obtain ⟨_, w₂, hget, h⟩ := Action.bind_eq_ok_iff.mp h
  obtain ⟨_, w₃, hwrite, h⟩ := Action.bind_eq_ok_iff.mp h
  obtain ⟨made, hmade, rfl⟩ := Action.of_makeDirectories_ok hmake
  cases hget
  obtain ⟨written, hstore, rfl⟩ := Action.of_writeText_ok hwrite
  rw [Action.log_bind_apply] at h
  cases h
  rcases FileTree.of_store_ok hstore with hwritten | ⟨hdevice, -⟩
  · exact ⟨rfl, made, written, [_], hmade, hwritten, rfl⟩
  · exact absurd hdevice (not_leadsToDevice made dir w.stamp)

/-- A backup is the document as it came. -/
theorem readText_of_write_ok {dir document path : String} {w w' : World}
    (h : write dir document w = (.ok path, w')) : w'.files.readText path = .ok document := by
  obtain ⟨-, made, written, lines, -, hwrite, rfl⟩ := of_write_ok h
  exact FileTree.readText_writeText hwrite

end Backup

namespace Migration

theorem fetch_saving {source : Source} {m : MigrationSettings}
    (hremote : source.isRemote = true) (hbackup : m.backup = true) {document : String}
    {w w' : World} (hload : source.load w = (.ok document, w')) :
    fetch source m w = (Backup.write m.backupDir document >>= fun path =>
      pure (document, some path)) w' := by
  unfold fetch
  rw [Action.bind_of_ok (Action.within_of_ok hload), hremote, hbackup]
  rfl

/-- A backup comes from a remote source, of what it was just sent. -/
theorem of_fetch_ok {source : Source} {m : MigrationSettings} {w saved : World}
    {document : String} {backup : Option String}
    (h : fetch source m w = (.ok (document, backup), saved)) :
    ∃ w', source.load w = (.ok document, w') ∧
      ((backup = none ∧ saved = w') ∨
        ∃ path, backup = some path ∧ Backup.write m.backupDir document w' = (.ok path, saved)) := by
  obtain ⟨text, w', hload, h⟩ := Action.bind_eq_ok_iff.mp h
  have hload := Action.within_eq_ok_iff.mp hload
  cases hb : source.isRemote && m.backup with
  | false =>
    rw [hb] at h
    cases h
    exact ⟨saved, hload, .inl ⟨rfl, rfl⟩⟩
  | true =>
    rw [hb] at h
    obtain ⟨path, w₁, hwrite, h⟩ := Action.bind_eq_ok_iff.mp h
    cases h
    exact ⟨w', hload, .inr ⟨path, rfl, hwrite⟩⟩

/-- The line that begins a run. -/
def start (source : Source) (sink : Sink) (m : MigrationSettings) : LogLine :=
  ⟨.info, .migration,
    "🚀 " ++ m.operation.name ++ " from " ++ source.describe ++ " to " ++ sink.describe⟩

theorem opening_eq (source : Source) (sink : Sink) (m : MigrationSettings) (w : World) :
    opening source sink m w = fetch source m (w.noting [start source sink m]) :=
  Action.log_bind_apply _ _ _ _ _

/-- Up to its backup, a run has asked for all routes where its source is remote, and for
nothing else. -/
theorem of_opening_ok {source : Source} {sink : Sink} {m : MigrationSettings}
    {w saved : World} {document : String} {backup : Option String}
    (h : opening source sink m w = (.ok (document, backup), saved)) :
    saved.requests = w.requests ++ source.fetches ∧
      saved.replies = w.replies.map (·.drop source.fetches.length) := by
  rw [opening_eq] at h
  obtain ⟨w', hload, hsaved⟩ := of_fetch_ok h
  obtain ⟨calls, hasks⟩ := Source.of_load_ok hload
  rcases hsaved with ⟨-, rfl⟩ | ⟨path, -, hwrite⟩
  · exact ⟨hasks.requests, hasks.replies⟩
  · obtain ⟨-, made, written, lines, -, -, rfl⟩ := Backup.of_write_ok hwrite
    exact ⟨hasks.requests, hasks.replies⟩

theorem readText_of_opening {source : Source} {sink : Sink} {m : MigrationSettings}
    {w saved : World} {document path : String}
    (h : opening source sink m w = (.ok (document, some path), saved)) :
    saved.files.readText path = .ok document := by
  rw [opening_eq] at h
  obtain ⟨w', -, ⟨hnone, -⟩ | ⟨other, hother, hwrite⟩⟩ := of_fetch_ok h
  · cases hnone
  · cases hother
    exact Backup.readText_of_write_ok hwrite

/-- From a file, a run gets the text of the file and saves nothing. -/
theorem opening_file {path text : String} {w : World} (h : w.files.readText path = .ok text)
    (sink : Sink) (m : MigrationSettings) :
    ∃ lines, opening (.file path) sink m w = (.ok (text, none), w.noting lines) ∧
      lines.filter LogLine.isCall = [] := by
  let begun := w.noting [start (.file path) sink m]
  let reading : LogLine := ⟨.trace, .file, "📂 reading routes document from " ++ path⟩
  have hread : Action.readText (.sourceUnreadable path) path (begun.noting [reading]) =
      (.ok text, begun.noting [reading]) := by
    rw [Action.readText, World.files_noting, World.files_noting, h]
    rfl
  have hload : (Source.file path).load begun = (.ok text, begun.noting [reading]) :=
    (Action.log_bind_apply _ _ _ _ _).trans hread
  refine ⟨[start (.file path) sink m] ++ [reading], ?_, rfl⟩
  rw [opening_eq, ← World.noting_noting]
  exact Action.bind_of_ok (Action.within_of_ok hload)

end Migration

end RouteMigration
