import RouteMigration.Proofs.FileTree.Elsewhere
import RouteMigration.Proofs.Migration.Restore

/-! A run between local ends: from a file to a file, or to nowhere. No one is called, nothing is
saved, and what the settings say of a route manager does not count. -/

namespace RouteMigration

/-- From one world to the other no call was begun, no request was made and no reply was taken. -/
structure World.CallsNobody (w w' : World) : Prop where
  requests : w'.requests = w.requests
  replies : w'.replies = w.replies
  calls : ∃ lines, w'.log = w.log ++ lines ∧ lines.filter LogLine.isCall = []

namespace World

theorem Asks.callsNobody {w w' : World} (h : w.Asks [] [] w') : w.CallsNobody w' := by
  refine ⟨?_, h.replies_eq, h.log⟩
  rw [h.requests, List.append_nil]

/-- Files do not count, nor does what is said besides. -/
theorem CallsNobody.after {w w' : World} (h : w.CallsNobody w') (files : FileTree)
    {lines : List LogLine} (hquiet : lines.filter LogLine.isCall = []) :
    w.CallsNobody (World.noting { w' with files } lines) := by
  obtain ⟨before, hlog, hcalls⟩ := h.calls
  refine ⟨h.requests, h.replies, before ++ lines, ?_, ?_⟩
  · show w'.log ++ lines = _
    rw [hlog, List.append_assoc]
  · simp [hcalls, hquiet]

end World

/-- What a run between local ends may have done: close its sink, which saves nothing else, unless
it failed. -/
structure StaysLocal {α : Type} (backup : α → Option String) (sink : Sink) (w : World)
    (result : Except Failure α) (last : World) : Prop where
  calls : w.CallsNobody last
  backup : ∀ x, result = .ok x → backup x = none
  files : last.files = w.files ∨ ∃ routes, (sink.taken routes).flush w.files = .ok last.files
  failed : ∀ f, result = .error f → last.files = w.files

theorem StaysLocal.of_error {α : Type} {backup : α → Option String} {sink : Sink} {w last : World}
    {f : Failure} (hcalls : w.CallsNobody last) (hfiles : last.files = w.files) :
    StaysLocal backup sink w (.error f) last :=
  ⟨hcalls, fun _ hx => (nomatch hx), .inl hfiles, fun _ _ => hfiles⟩

section
variable {sink : Sink} (hlocal : sink.isRemote = false)
include hlocal

theorem Sink.accepts_of_local (n : Nat) (w : World) : sink.Accepts n w := by
  cases sink with
  | memory | file => trivial
  | routeManager client => cases hlocal

theorem Sink.updates_of_local (routes : List Route) : sink.updates routes = [] := by
  cases sink with
  | memory | file => rfl
  | routeManager client => cases hlocal

theorem Sink.notices_of_local (routes : List Route) : sink.notices routes = [] := by
  cases sink with
  | memory | file => rfl
  | routeManager client => cases hlocal

end

namespace Migration

/-- What cannot be read is not read, and that is all. -/
theorem opening_unreadable {path : String} {w : World} {e : OsError}
    (h : w.files.readText path = .error e) (sink : Sink) (m : MigrationSettings) :
    ∃ f lines, opening (.file path) sink m w = (.error f, w.noting lines) ∧
      lines.filter LogLine.isCall = [] := by
  let unreadable : Failure := ⟨.sourceUnreadable path, [.os e]⟩
  let reading : LogLine := ⟨.trace, .file, "📂 reading routes document from " ++ path⟩
  let begun := w.noting [start (.file path) sink m]
  have hread : Action.readText (.sourceUnreadable path) path (begun.noting [reading]) =
      (.error unreadable, begun.noting [reading]) := by
    rw [Action.readText, World.files_noting, World.files_noting, h]
    rfl
  have hload : (Source.file path).load begun =
      (.error unreadable, begun.noting [reading]) :=
    (Action.log_bind_apply _ _ _ _ _).trans hread
  refine ⟨unreadable.within (.notLoaded (Source.file path).describe),
    [start (.file path) sink m] ++ [reading], ?_, rfl⟩
  rw [opening_eq, ← World.noting_noting]
  exact Action.bind_of_error (Action.within_of_error hload)

section
variable {sink : Sink} (hlocal : sink.isRemote = false)
include hlocal

theorem delivery_local (source : Source) (m : MigrationSettings) (document : String) (w : World) :
    StaysLocal (fun x : Summary × Sink => x.1.backup) sink w
      (delivery source sink m document none w).1
      ((delivery source sink m document none).after w) := by
  unfold Action.after
  cases hparse : Document.parse document with
  | error r =>
    rw [delivery_unparsed hparse]
    exact .of_error (World.Asks.refl w).callsNobody rfl
  | ok routes =>
    obtain ⟨lines, hdelivery, hquiet⟩ := delivery_parsed hparse source sink m none w
    obtain ⟨order, w', hsubmit, hdelivered⟩ := Submission.run_accepted
      (Submission.limit_pos sink m) (sink.accepts_of_local hlocal (outcome m routes).routes.length
        (w.noting lines))
    have hasks := hdelivered.asks
    rw [sink.notices_of_local hlocal, sink.updates_of_local hlocal] at hasks
    have hfiles : w'.files = w.files := hasks.files
    have hcalls : w.CallsNobody w' := (World.Asks.trans (.quiet w hquiet) hasks).callsNobody
    rw [hdelivery, Action.bind_of_ok hsubmit]
    cases hflush : (sink.taken order).flush w'.files with
    | error f =>
      rw [closing_error hflush]
      exact .of_error hcalls hfiles
    | ok written =>
      obtain ⟨more, hclosing, hmore⟩ := closing_ok hflush
      rw [hclosing]
      refine ⟨hcalls.after written hmore, ?_, .inr ⟨order, hfiles ▸ hflush⟩,
        fun _ hf => (nomatch hf)⟩
      intro x hx
      cases hx
      rfl

theorem migrate_local (path : String) (m : MigrationSettings) (w : World) :
    StaysLocal (fun x : Summary × Sink => x.1.backup) sink w (migrate (.file path) sink m w).1
      ((migrate (.file path) sink m).after w) := by
  cases hread : w.files.readText path with
  | error e =>
    obtain ⟨f, lines, hopening, hquiet⟩ := opening_unreadable hread sink m
    have hrun : migrate (.file path) sink m w = (.error f, w.noting lines) :=
      Action.bind_of_error hopening
    rw [Action.after, hrun]
    exact .of_error (World.Asks.quiet w hquiet).callsNobody rfl
  | ok document =>
    obtain ⟨lines, hopening, hquiet⟩ := opening_file hread sink m
    have hdelivers := delivery_local hlocal (.file path) m document (w.noting lines)
    rw [Action.after, migrate_of_opening hopening]
    obtain ⟨before, hlog, hcalls⟩ := hdelivers.calls.calls
    refine ⟨⟨hdelivers.calls.requests, hdelivers.calls.replies, lines ++ before, ?_, ?_⟩,
      hdelivers.backup, hdelivers.files, hdelivers.failed⟩
    · rw [← List.append_assoc]
      exact hlog
    · simp [hquiet, hcalls]

end

/-! ## Settings with local ends -/

/-- The sink that settings without a route manager ask for. -/
def localSink : SinkChoice → Sink
  | .file path => .file path []
  | _ => .memory []

theorem isRemote_localSink (choice : SinkChoice) : (localSink choice).isRemote = false := by
  cases choice <;> rfl

section
variable {s : Settings} (hsource : s.source ≠ .routeManager) (hsink : s.sink ≠ .routeManager)
include hsource hsink

/-- Between local ends nobody looks for credentials. -/
theorem ends_local (w : World) :
    ∃ path, s.source = .file path ∧ ends s w = (.ok (.file path, localSink s.sink), w) := by
  unfold ends
  cases hs : s.source with
  | routeManager => exact absurd hs hsource
  | file path =>
    refine ⟨path, rfl, ?_⟩
    cases hk : s.sink with
    | routeManager => exact absurd hk hsink
    | file | discard => rfl

theorem run_staysLocal (w : World) :
    StaysLocal Summary.backup (localSink s.sink) w (run s w).1 ((run s).after w) := by
  obtain ⟨path, -, hends⟩ := ends_local hsource hsink w
  have hrun : run s w =
      (migrate (.file path) (localSink s.sink) s.migration >>= fun x => pure x.1) w := by
    unfold run
    rw [Action.bind_of_ok hends]
  have hmigrate := migrate_local (isRemote_localSink s.sink) path s.migration w
  rw [Action.after, hrun]
  cases hresult : migrate (.file path) (localSink s.sink) s.migration w with
  | mk result last =>
    rw [Action.after, hresult] at hmigrate
    cases result with
    | error f =>
      rw [Action.bind_of_error hresult]
      exact .of_error hmigrate.calls (hmigrate.failed f rfl)
    | ok x =>
      rw [Action.bind_of_ok hresult]
      refine ⟨hmigrate.calls, ?_, hmigrate.files, ?_⟩
      · intro summary hsummary
        cases hsummary
        exact hmigrate.backup x rfl
      · intro f hf
        cases hf

/-- The section on the route manager does not count. -/
theorem run_section (section₁ section₂ : RouteManagerSettings) (w : World) :
    run { s with routeManager := section₁ } w = run { s with routeManager := section₂ } w := by
  obtain ⟨path, hpath, hends⟩ :=
    ends_local (s := { s with routeManager := section₁ }) hsource hsink w
  obtain ⟨path', hpath', hends'⟩ :=
    ends_local (s := { s with routeManager := section₂ }) hsource hsink w
  obtain rfl : path = path' := SourceChoice.file.inj (hpath.symm.trans hpath')
  unfold run
  rw [Action.bind_of_ok hends, Action.bind_of_ok hends']

/-- A run from a file to a file, or to nowhere, in whatever world. It ends the same way, in the
same world, whatever the settings say of the route manager and of credentials for it. It calls
nobody and saves nothing, and at most the file of its sink becomes another: every other address
has what it had. If it fails, all files are as they were. -/
theorem run_local (w : World) :
    (∀ section₁ section₂ : RouteManagerSettings,
      run { s with routeManager := section₁ } w = run { s with routeManager := section₂ } w) ∧
    w.CallsNobody ((run s).after w) ∧
    (∀ summary, (run s w).1 = .ok summary → summary.backup = none) ∧
    (∀ a, (∀ path, s.sink = .file path → ¬ w.files.Leads path a) →
      ((run s).after w).files.entry? a = w.files.entry? a) ∧
    ∀ f, (run s w).1 = .error f → ((run s).after w).files = w.files := by
  have hstays := run_staysLocal hsource hsink w
  refine ⟨fun section₁ section₂ => run_section hsource hsink section₁ section₂ w, hstays.calls,
    hstays.backup, ?_, hstays.failed⟩
  intro a helsewhere
  rcases hstays.files with hsame | ⟨routes, hflush⟩
  · rw [hsame]
  · rcases Sink.of_flush_ok hflush with hsame | ⟨path, received, htaken, hwrite⟩
    · rw [hsame]
    · have hpath : s.sink = .file path := by
        cases hk : s.sink with
        | routeManager => exact absurd hk hsink
        | discard =>
          rw [hk] at htaken
          cases htaken
        | file other =>
          rw [hk] at htaken
          cases htaken
          rfl
      obtain ⟨b, hleads, htakes, hfiles⟩ := FileTree.writeText_eq_ok_iff.mp hwrite
      have hab : a ≠ b := by
        intro hab
        exact helsewhere path hpath (hab ▸ hleads)
      rw [hfiles, FileTree.entry?_put _ (FileTree.ne_nil_of_not_directory htakes.free),
        if_neg hab]

end

/-! A document of one route, once with credentials in the settings and once with a file for them
that is not there. -/

def localWorld : World where
  files := ⟨[(["in"], .file "[[[\"1\",\"a\",\"x\",\"\",true,[\"emx-to-c-d\"]]]]".toUTF8)], []⟩
  replies := some []

def localSettings : Settings where
  migration := { operation := .encodeQueues }
  source := .file "in"
  sink := .file "out"

def known : RouteManagerSettings := { username := some "u", password := some "p" }

def unknown : RouteManagerSettings := { credentialsFile := some "missing" }

theorem run_local_unreadableCredentials :
    run { localSettings with routeManager := known } localWorld =
        run { localSettings with routeManager := unknown } localWorld ∧
      ((run localSettings).after localWorld).requests = [] ∧
      (run localSettings localWorld).1.toOption.map Summary.submitted = some 1 := by
  have hsource : localSettings.source ≠ .routeManager := by simp [localSettings]
  have hsink : localSettings.sink ≠ .routeManager := by simp [localSettings]
  obtain ⟨hsame, hcalls, -⟩ := run_local hsource hsink localWorld
  exact ⟨hsame known unknown, hcalls.requests, by decide +kernel⟩

end Migration

end RouteMigration
