import RouteMigration.Proofs.Migration.Restore

/-! Nothing is updated that was not saved before. A run that is to save what a route manager
sends asks for no update until the backup is there; where there can be none, it ends after
the one call that loads the routes. -/

namespace RouteMigration

namespace Client

theorem Sends.load {c : Client} {w : World} {document : String} (h : c.Sends w document) :
    ∃ w', (Source.routeManager c).load w = (.ok document, w') ∧ w.Asks [c.call] c.fetches w' ∧
      w'.stamp = w.stamp := by
  obtain ⟨a, replies, hurl, hw, houtcome⟩ := h
  obtain ⟨w', hrun, hasks⟩ := fetchRoutes_apply hurl hw
  rw [houtcome] at hrun
  exact ⟨w', hrun, hasks⟩

end Client

namespace Migration

/-- Where a run saves what it is sent. -/
def backupPath (m : MigrationSettings) (w : World) : String :=
  Path.join m.backupDir (Backup.fileName w.stamp)

/-- What is sent can be saved, if anything is sent at all. -/
def Saveable (client : Client) (m : MigrationSettings) (w : World) : Prop :=
  ∃ document, client.Sends w document ∧ Backup.Possible w.files m.backupDir w.stamp document

/-- From one world to the other nothing but the call for all routes was made, if even that, and
no file is another. -/
structure Untouched (client : Client) (w last : World) : Prop where
  requests : last.requests = w.requests ∨ last.requests = w.requests ++ client.fetches
  files : w.files.KeepsFiles last.files

section
variable {client : Client} {m : MigrationSettings} {w : World}

theorem fetch_saved (hbackup : m.backup = true) {document : String}
    (hsends : client.Sends w document)
    (hpossible : Backup.Possible w.files m.backupDir w.stamp document) :
    ∃ saved, fetch (.routeManager client) m w =
      (.ok (document, some (backupPath m w)), saved) := by
  obtain ⟨w', hload, hasks, hstamp⟩ := hsends.load
  rw [← hasks.files, ← hstamp] at hpossible
  obtain ⟨saved, hwrite⟩ := Backup.write_of_possible hpossible
  rw [hstamp] at hwrite
  exact ⟨saved, (fetch_saving rfl hbackup hload).trans (Action.bind_of_ok hwrite)⟩

theorem fetch_unsaved (hbackup : m.backup = true) (h : ¬ Saveable client m w) :
    ∃ f last, fetch (.routeManager client) m w = (.error f, last) ∧ Untouched client w last := by
  by_cases hsends : ∃ document, client.Sends w document
  · obtain ⟨document, hdocument⟩ := hsends
    obtain ⟨w', hload, hasks, hstamp⟩ := hdocument.load
    have himpossible : ¬ Backup.Possible w'.files m.backupDir w'.stamp document := by
      rw [hasks.files, hstamp]
      exact fun hpossible => h ⟨document, hdocument, hpossible⟩
    obtain ⟨f, made, hwrite, hkept⟩ := Backup.write_of_impossible himpossible
    rw [hasks.files] at hkept
    exact ⟨f, { w' with files := made },
      (fetch_saving rfl hbackup hload).trans (Action.bind_of_error hwrite),
      .inr hasks.requests, hkept⟩
  · obtain ⟨f, made, last, hload, hasks, hmade⟩ :=
      Client.fetchRoutes_fails (not_exists.mp hsends)
    have hkept : w.files.KeepsFiles last.files := by
      rw [hasks.files]
      exact .refl w.files
    refine ⟨_, last, Action.bind_of_error (Action.within_of_error hload), ?_, hkept⟩
    rcases hmade with rfl | rfl
    · exact .inl (by simpa using hasks.requests)
    · exact .inr hasks.requests

end

/-! ## The whole run -/

theorem opening_saved {client : Client} {m : MigrationSettings} {w : World}
    (hbackup : m.backup = true) (h : Saveable client m w) (sink : Sink) :
    ∃ document saved, client.Sends w document ∧
      opening (.routeManager client) sink m w =
        (.ok (document, some (backupPath m w)), saved) := by
  obtain ⟨document, hsends, hpossible⟩ := h
  let begun := w.noting [start (.routeManager client) sink m]
  have hsends' : client.Sends begun document := hsends
  obtain ⟨saved, hfetch⟩ := fetch_saved hbackup hsends' hpossible
  exact ⟨document, saved, hsends, (opening_eq _ _ _ w).trans hfetch⟩

theorem migrate_unsaved {client : Client} {m : MigrationSettings} {w : World}
    (hbackup : m.backup = true) (h : ¬ Saveable client m w) (sink : Sink) :
    ∃ f last, migrate (.routeManager client) sink m w = (.error f, last) ∧
      Untouched client w last := by
  let begun := w.noting [start (.routeManager client) sink m]
  have hunsaveable : ¬ Saveable client m begun := h
  obtain ⟨f, last, hfetch, huntouched⟩ := fetch_unsaved hbackup hunsaveable
  refine ⟨f, last, ?_, huntouched.requests, huntouched.files⟩
  exact Action.bind_of_error ((opening_eq _ _ _ w).trans hfetch)

/-- Of a run that is to save what a route manager sends: if it asks for even one update, the
backup was there before the first of them, holds exactly what was sent and still does at the
end. Where nothing can be saved the run fails, has asked for all routes at most, and has
written to no file, that of its sink included. -/
theorem migrate_safeguarded {m : MigrationSettings} (hbackup : m.backup = true)
    (client : Client) (sink : Sink) (w : World) :
    (∃ made, ((migrate (.routeManager client) sink m).after w).requests = w.requests ++ made ∧
      ((∃ q ∈ made, q.method = .put) → ∃ document saved, client.Sends w document ∧
        opening (.routeManager client) sink m w =
          (.ok (document, some (backupPath m w)), saved) ∧
        saved.requests = w.requests ++ client.fetches ∧
        saved.files.readText (backupPath m w) = .ok document ∧
        ((migrate (.routeManager client) sink m).after w).files.readText (backupPath m w) =
          .ok document)) ∧
    (¬ Saveable client m w → ∃ f last,
      migrate (.routeManager client) sink m w = (.error f, last) ∧ Untouched client w last) := by
  refine ⟨?_, fun h => migrate_unsaved hbackup h sink⟩
  by_cases hsaveable : Saveable client m w
  · obtain ⟨document, saved, hsends, hopening⟩ := opening_saved hbackup hsaveable sink
    obtain ⟨hsaved, -⟩ := of_opening_ok hopening
    obtain ⟨⟨order, hrequests⟩, -⟩ := after_delivery (.routeManager client) sink m document
      (some (backupPath m w)) saved
    rw [← after_migrate hopening, hsaved, List.append_assoc] at hrequests
    refine ⟨_, hrequests, ?_⟩
    rintro ⟨q, hq, hput⟩
    rcases List.mem_append.mp hq with hget | hupdate
    · rw [Client.method_of_mem_fetches hget] at hput
      cases hput
    · -- what is updated is a route manager, so no file of the sink can hide the backup
      have hspares : sink.Spares saved.files (backupPath m w) := by
        cases sink with
        | memory | file => cases hupdate
        | routeManager => trivial
      exact ⟨document, saved, hsends, hopening, hsaved, readText_of_opening hopening,
        readText_migrate hopening hspares⟩
  · obtain ⟨f, last, hrun, huntouched⟩ := migrate_unsaved hbackup hsaveable sink
    rw [Action.after_eq hrun]
    rcases huntouched.requests with hnone | hfetches
    · refine ⟨[], by rw [hnone, List.append_nil], ?_⟩
      rintro ⟨q, hq, -⟩
      cases hq
    · refine ⟨client.fetches, hfetches, ?_⟩
      rintro ⟨q, hq, hput⟩
      rw [Client.method_of_mem_fetches hq] at hput
      cases hput

/-- A world like the one that refuses an update, but with a file where backups are to go. -/
def blockedWorld : World := { refusingWorld with files := ⟨[(["kept"], .file "".toUTF8)], []⟩ }

theorem migrate_safeguarded_refused :
    ((∃ q ∈ (refusedRun.after refusingWorld).requests, q.method = .put) ∧
      (refusedRun.after refusingWorld).files.readText "./OriginalRoutesT.json" =
        .ok refusedDocument) ∧
    ∃ f last, migrate (.routeManager refusedClient) (.file "out" [])
        { operation := .encodeQueues, backupDir := "kept" } blockedWorld = (.error f, last) ∧
      Untouched refusedClient blockedWorld last := by
  constructor
  · have hput : ∃ q ∈ (refusedRun.after refusingWorld).requests, q.method = .put := by
      decide +kernel
    refine ⟨hput, ?_⟩
    obtain ⟨⟨made, hmade, hsafe⟩, -⟩ := migrate_safeguarded
      (m := { operation := .encodeQueues }) rfl refusedClient (.routeManager refusedClient)
      refusingWorld
    have hrequests : (refusedRun.after refusingWorld).requests = made := hmade
    obtain ⟨document, saved, -, hopening, -, -, hread⟩ := hsafe (hrequests ▸ hput)
    have hfetched : (opening (.routeManager refusedClient) (.routeManager refusedClient)
        { operation := .encodeQueues } refusingWorld).1.toOption =
          some (refusedDocument, some "./OriginalRoutesT.json") := by decide +kernel
    rw [hopening] at hfetched
    cases hfetched
    exact hread
  · refine (migrate_safeguarded rfl refusedClient (.file "out" []) blockedWorld).2 ?_
    rintro ⟨document, -, made, written, hmade, -⟩
    have hblocked : (blockedWorld.files.makeDirectories "kept").2.toOption = none := by
      decide +kernel
    rw [show blockedWorld.files.makeDirectories "kept" = (made, .ok ()) from hmade] at hblocked
    cases hblocked

end Migration

end RouteMigration
