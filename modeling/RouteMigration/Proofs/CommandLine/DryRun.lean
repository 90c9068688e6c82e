import RouteMigration.CommandLine.Program
import RouteMigration.Proofs.CommandLine.Switches
import RouteMigration.Proofs.Exchange.Redirect
import RouteMigration.Proofs.Migration.ToFile

/-! What a dry run may do to the world: ask for all routes, wherever it is sent on to for them, save
them to a new file, and write the file it was told to. If it fails, that file is as it was. -/

namespace RouteMigration

/-! ## The name of a backup -/

theorem slash_not_mem_padded (width n : Nat) : '/' ∉ padded width n := by
  unfold padded
  intro hmem
  rcases List.mem_append.mp hmem with hzero | hdigit
  · cases List.eq_of_mem_replicate hzero
  · exact absurd (Nat.isDigit_of_mem_toDigits (by decide) (by decide) hdigit) (by decide)

theorem LocalTime.slash_not_mem_stamp (t : LocalTime) : '/' ∉ t.stamp.toList := by
  unfold stamp
  simp [slash_not_mem_padded]

theorem Backup.isEntryName_fileName (t : LocalTime) : Path.IsEntryName (fileName t.stamp) := by
  have htext : (fileName t.stamp).toList =
      namePrefix.toList ++ (t.stamp.toList ++ nameSuffix.toList) := by
    rw [fileName, String.toList_append, String.toList_append, List.append_assoc]
  -- it begins with a letter, so it is none of the names that mean a step of another kind
  have hother : ∀ name : String, name.toList.head? ≠ some 'O' → fileName t.stamp ≠ name := by
    rintro name hname rfl
    exact hname (by rw [htext]; rfl)
  refine ⟨?_, ?_, hother "" (by decide)⟩
  · rw [htext]
    intro hmem
    rcases List.mem_append.mp hmem with hmem | hmem
    · exact absurd hmem (by decide +kernel)
    · rcases List.mem_append.mp hmem with hmem | hmem
      · exact t.slash_not_mem_stamp hmem
      · exact absurd hmem (by decide +kernel)
  · rw [Path.Step.ofName, if_neg (hother "." (by decide)), if_neg (hother ".." (by decide))]

/-! ## The ends of a run to a file -/

theorem Credentials.after_resolve (username? password? file? : Option String)
    (environment : String) (w : World) :
    (resolve username? password? file? environment).after w = w := by
  unfold resolve
  split
  · rfl
  · rfl
  · refine Action.after_bind_eq_self rfl fun w' => ?_
    refine Action.after_bind_eq_self rfl fun text => ?_
    exact Action.after_within _ _ _

namespace Migration

/-- The settings alone say which file the sink is, and finding the ends changes nothing. -/
theorem ends_toFile {s : Settings} {path : String} (h : s.sink = .file path) (w : World) :
    (∃ f, ends s w = (.error f, w)) ∨ ∃ source, ends s w = (.ok (source, .file path []), w) := by
  unfold ends
  rw [h]
  cases s.source with
  | file => exact .inr ⟨_, rfl⟩
  | routeManager =>
    cases hresolve : Credentials.resolve s.routeManager.username s.routeManager.password
        s.routeManager.credentialsFile s.migration.queueEnvironment w with
    | mk result w' =>
      obtain rfl : w' = w := (Action.after_eq hresolve).symm.trans (Credentials.after_resolve ..)
      cases result with
      | error f => exact .inl ⟨f, Action.bind_of_error hresolve⟩
      | ok credentials => exact .inr ⟨_, Action.bind_of_ok hresolve⟩

theorem run_runsToFile {w : World} (hname : Path.IsEntryName (Backup.fileName w.stamp))
    {s : Settings} {path : String} (h : s.sink = .file path) :
    RunsToFile s.migration.backupDir path w (run s w).1 ((run s).after w) := by
  rcases ends_toFile h w with ⟨f, hends⟩ | ⟨source, hends⟩
  · have hrun : run s w = (.error f, w) := Action.bind_of_error hends
    rw [Action.after, hrun]
    exact .nothing rfl rfl
  · have hmigrate := migrate_runsToFile hname source path s.migration
    have hrun : run s w =
        (migrate source (.file path []) s.migration >>= fun x => pure x.1) w := by
      unfold run
      rw [Action.bind_of_ok hends]
    rw [Action.after, hrun]
    cases hresult : migrate source (.file path []) s.migration w with
    | mk result last =>
      rw [Action.after, hresult] at hmigrate
      obtain ⟨hrequests, saved, new?, hsaves, hkeeps, hfailed⟩ := hmigrate
      cases result with
      | error f =>
        rw [Action.bind_of_error hresult]
        exact ⟨hrequests, saved, new?, hsaves, hkeeps, fun _ _ => hfailed f rfl⟩
      | ok x =>
        rw [Action.bind_of_ok hresult]
        exact ⟨hrequests, saved, new?, hsaves, hkeeps, fun _ he => by cases he⟩

end Migration

/-! ## On the wire -/

/-- The calls made on the way from one world to another. -/
def World.callsUntil (w last : World) : List Request := last.requests.drop w.requests.length

theorem AsksLittle.onlyFetches {made : List Request} (h : AsksLittle made) (origin : WebAddress)
    (hops : List Hop) : Redirect.OnlyFetches hops (Redirect.sent origin hops made) := by
  obtain ⟨hlength, hmethod⟩ := h
  cases made with
  | nil => exact ⟨fun _ hq => (nomatch hq), .inl rfl⟩
  | cons q made =>
    have hnone : made.length = 0 := Nat.le_zero.mp (Nat.le_of_succ_le_succ hlength)
    obtain rfl := List.eq_nil_of_length_eq_zero hnone
    exact Redirect.onlyFetches_single origin hops (hmethod q List.mem_cons_self)

namespace CommandLine

/-! ## Options over settings -/

/-- Where a dry run writes. -/
def Options.outPath (o : Options) : String := o.out.getD "transformed-routes.json"

/-- The settings with the operation that the options name. -/
def Options.withOperation (o : Options) (s : Settings) : Settings :=
  match o.operation with
  | some operation => { s with migration := { s.migration with operation } }
  | none => s

theorem backupFor_after (o : Options) (s : Settings) (w : World) :
    (backupFor o s).after w = w := by
  unfold backupFor
  split
  · rfl
  · refine Action.after_bind_eq_self rfl fun w' => ?_
    refine Action.after_bind_eq_self rfl fun path? => ?_
    split <;> rfl

/-- In a dry run the options choose the file, whatever else they choose. -/
theorem applyOptions_toFile {o : Options} (h : o.dryRun = true) (s : Settings) (w : World) :
    ∃ lines, (∃ f, applyOptions o s w = (.error f, w.noting lines)) ∨
      ∃ s', applyOptions o s w = (.ok s', w.noting lines) ∧
        s'.sink = .file o.outPath ∧ s'.migration.backupDir = s.migration.backupDir := by
  let chosen := o.withOperation s
  have hdir : chosen.migration.backupDir = s.migration.backupDir := by
    unfold chosen Options.withOperation
    split <;> rfl
  let rehearsing : LogLine := ⟨.info, .commandLine, "🧪 dry run, writing to " ++ o.outPath⟩
  cases hrevert : o.revert with
  | false =>
    have happly : applyOptions o s w =
        (.ok { chosen with sink := .file o.outPath }, w.noting [rehearsing]) := by
      unfold applyOptions
      simp only [h, hrevert]
      rfl
    exact ⟨_, .inr ⟨_, happly, rfl, hdir⟩⟩
  | true =>
    cases hbackup : backupFor o chosen w with
    | mk result w' =>
      obtain rfl : w' = w := (Action.after_eq hbackup).symm.trans (backupFor_after o chosen w)
      cases result with
      | error f =>
        have happly : applyOptions o s w' = (.error f, w') := by
          unfold applyOptions
          simp only [h, hrevert, if_true]
          exact Action.bind_of_error hbackup
        exact ⟨[], .inl ⟨f, by rw [happly, World.noting_nil]⟩⟩
      | ok backup =>
        let undoing : LogLine := ⟨.info, .commandLine,
          "⏪ undoing " ++ chosen.migration.operation.name ++ " by restoring " ++ backup ++
            " verbatim"⟩
        let reverted : Settings := { chosen with
          migration := { chosen.migration with restore := true }
          source := .file backup }
        have happly : applyOptions o s w' = (.ok { reverted with sink := .file o.outPath },
            (w'.noting [undoing]).noting [rehearsing]) := by
          unfold applyOptions
          simp only [h, hrevert, if_true]
          exact (Action.bind_of_ok hbackup).trans rfl
        rw [World.noting_noting] at happly
        exact ⟨_, .inr ⟨_, happly, rfl, hdir⟩⟩

/-! ## The whole program -/

/-- The settings a run goes by, before the options have their word. -/
def settings? (o : Options) (vars : List (String × String)) (files : FileTree) :
    Option Settings :=
  match settingsFile? files o with
  | .ok path? => (Settings.load files vars path?).toOption
  | .error _ => none

/-- How the program ends that was asked for a run. -/
inductive Ends (o : Options) (vars : List (String × String)) (w : World) : Outcome → Prop
  | unloaded {out : Outcome} : out.world.requests = w.requests → out.world.files = w.files →
      Ends o vars w out
  | loaded {s : Settings} {lines more : List LogLine} {result : Except Failure Summary}
      {last : World} {out : Outcome} : settings? o vars w.files = some s →
      (applyOptions o s >>= Migration.run) (w.noting lines) = (result, last) →
      out.world = last.noting more → (out.exitCode ≠ 0 → ∃ f, result = .error f) →
      Ends o vars w out

theorem runWith_ends (o : Options) (vars : List (String × String)) (w : World) :
    Ends o vars w (runWith o vars w) := by
  unfold runWith
  cases hfile : settingsFile? w.files o with
  | error e => exact .unloaded rfl rfl
  | ok path? =>
    let loading : LogLine := ⟨.info, .settings,
      "🔧 Loading configuration: " ++ Text.quoted (path?.getD "")⟩
    cases hload : Settings.load w.files vars path? with
    | error p =>
      simp only [hload]
      exact .unloaded rfl rfl
    | ok s =>
      have hsettings : settings? o vars w.files = some s := by
        rw [settings?, hfile]
        simp [hload, Except.toOption]
      simp only [hload]
      split
      · next summary last hrun =>
        exact .loaded hsettings hrun last.noting_nil.symm fun hne => absurd rfl hne
      · next f last hrun => exact .loaded hsettings hrun rfl fun _ => ⟨f, rfl⟩

/-! ## What may be there afterwards -/

/-- The time that will name a backup is new: no file that is there is called after it, and no
part of a path is, from the root on. -/
structure FreshStamp (w : World) (path : String) : Prop where
  time : ∃ t : LocalTime, w.stamp = t.stamp
  unused : ∀ a content, w.files.entry? a = some (.file content) →
    a.getLast? ≠ some (Backup.fileName w.stamp)
  parts : .into (Backup.fileName w.stamp) ∉ Path.steps path
  home : Path.isAbsolute path = false → Backup.fileName w.stamp ∉ w.files.home

section
variable {w : World} {path : String}

theorem FreshStamp.isEntryName (h : FreshStamp w path) :
    Path.IsEntryName (Backup.fileName w.stamp) := by
  obtain ⟨t, ht⟩ := h.time
  rw [ht]
  exact Backup.isEntryName_fileName t

theorem FreshStamp.not_mem (h : FreshStamp w path) {files : FileTree}
    (hhome : files.home = w.files.home) {a : Address} (hleads : files.Leads path a) :
    Backup.fileName w.stamp ∉ a := by
  intro hmem
  rcases FileTree.mem_of_follow hleads.follow hmem with hstart | hstep
  · cases habsolute : Path.isAbsolute path with
    | true =>
      rw [habsolute] at hstart
      cases hstart
    | false =>
      rw [habsolute, hhome] at hstart
      exact h.home habsolute hstart
  · exact h.parts hstep

/-- A file that was not there: the backup in the directory that `dir` leads to. -/
structure NewBackup (dir : String) (w last : World) (b : Address) : Prop where
  place : ∃ d, last.files.LeadsToDirectory dir d ∧ b = d ++ [Backup.fileName w.stamp]
  absent : w.files.entry? b = none
  written : ∃ content, last.files.entry? b = some (.file content)

/-- What a run to a file leaves behind where the time is new: at most one backup, the file, and
only the backup if the run fails. -/
theorem leaves_of_runsToFile {α : Type} {dir : String} {result : Except Failure α} {last : World}
    (hfresh : FreshStamp w path) (h : Migration.RunsToFile dir path w result last) :
    ∃ new? : Option Address, (∀ b ∈ new?, NewBackup dir w last b) ∧
      w.files.KeepsFilesBut (fun a => new? = some a ∨ last.files.Leads path a) last.files ∧
      ∀ f, result = .error f → ∀ a, last.files.Leads path a → w.files.SameFileAt last.files a := by
  obtain ⟨-, saved, new?, ⟨hsaves, hbackup⟩, hkeeps, hfailed⟩ := h
  have hall := hsaves.trans hkeeps
  -- the way to the file does not pass through the backup
  have hapart : ∀ a, last.files.Leads path a → ∀ b ∈ new?, a ≠ b := by
    rintro a hleads b hb rfl
    obtain ⟨d, -, hplace⟩ := (hbackup a hb).place
    refine hfresh.not_mem hall.home hleads ?_
    rw [hplace]
    exact List.mem_append_right _ List.mem_cons_self
  refine ⟨new?, fun b hb => ?_, hall, ?_⟩
  · obtain ⟨⟨d, hd, hplace⟩, hvacant, content, hfile⟩ := hbackup b hb
    refine ⟨⟨d, hd.keeps hkeeps.toKeepsDirectories, hplace⟩, ?_, content, ?_⟩
    · cases hentry : w.files.entry? b with
      | none => rfl
      | some e =>
        cases e with
        | directory => exact absurd hentry hvacant
        | file old =>
          refine absurd ?_ (hfresh.unused b old hentry)
          rw [hplace, List.getLast?_concat]
    · exact (hkeeps.file b (fun hleads => hapart b hleads b hb rfl) content).mpr hfile
  · intro f hf a hleads
    rw [hfailed f hf]
    exact hsaves.file a fun hnew => hapart a hleads a hnew rfl

end

/-- What a dry run may have done once the program ends. It has asked for all routes, if
anything. At most one file is new, and it is the backup; only the file it was to write may
have become another. Where the program fails, that one is as it was, too. -/
structure Rehearses (o : Options) (vars : List (String × String)) (w : World) (out : Outcome) :
    Prop where
  requests : ∃ made, out.world.requests = w.requests ++ made ∧ AsksLittle made
  files : ∃ new? : Option Address,
    (∀ b ∈ new?, ∃ s, settings? o vars w.files = some s ∧
      NewBackup s.migration.backupDir w out.world b) ∧
    w.files.KeepsFilesBut (fun a => new? = some a ∨ out.world.files.Leads o.outPath a)
      out.world.files
  failed : out.exitCode ≠ 0 → ∀ a, out.world.files.Leads o.outPath a →
    w.files.SameFileAt out.world.files a

section
variable {o : Options} (hdry : o.dryRun = true)
include hdry

theorem applied_runsToFile {w : World} (hname : Path.IsEntryName (Backup.fileName w.stamp))
    (s : Settings) :
    Migration.RunsToFile s.migration.backupDir o.outPath w
      ((applyOptions o s >>= Migration.run) w).1
      ((applyOptions o s >>= Migration.run).after w) := by
  obtain ⟨lines, ⟨f, happly⟩ | ⟨s', happly, hsink, hdir⟩⟩ := applyOptions_toFile hdry s w
  · rw [Action.after, Action.bind_of_error happly]
    exact .nothing rfl rfl
  · have hname' : Path.IsEntryName (Backup.fileName (w.noting lines).stamp) := hname
    have hrun := Migration.run_runsToFile hname' hsink
    rw [hdir] at hrun
    rw [Action.after, Action.bind_of_ok happly]
    exact ⟨hrun.requests, hrun.files⟩

theorem runWith_rehearses (vars : List (String × String)) {w : World}
    (hfresh : FreshStamp w o.outPath) : Rehearses o vars w (runWith o vars w) := by
  have hends := runWith_ends o vars w
  generalize runWith o vars w = out at hends ⊢
  cases hends with
  | unloaded hrequests hfiles =>
    refine ⟨⟨[], ?_, .nothing⟩, ⟨none, fun _ hb => (nomatch hb), ?_⟩, ?_⟩
    · rw [hrequests, List.append_nil]
    · rw [hfiles]
      exact (FileTree.KeepsFiles.refl w.files).but _
    · rw [hfiles]
      exact fun _ a _ content => Iff.rfl
  | @loaded s lines more result last _ hsettings hrun hworld hfailed =>
    have hname : Path.IsEntryName (Backup.fileName (w.noting lines).stamp) := hfresh.isEntryName
    have hruns := applied_runsToFile hdry hname s
    rw [Action.after_eq hrun, hrun] at hruns
    have hruns' : Migration.RunsToFile s.migration.backupDir o.outPath w result last :=
      ⟨hruns.requests, hruns.files⟩
    obtain ⟨new?, hnew, hkeeps, hkept⟩ := leaves_of_runsToFile hfresh hruns'
    refine ⟨?_, ⟨new?, fun b hb => ⟨s, hsettings, ?_⟩, ?_⟩, ?_⟩
    all_goals rw [hworld]
    · exact hruns.requests
    · obtain ⟨hplace, habsent, hwritten⟩ := hnew b hb
      exact ⟨hplace, habsent, hwritten⟩
    · exact hkeeps
    · intro hcode
      obtain ⟨f, hf⟩ := hfailed hcode
      exact hkept f hf

end

/-- Who answers does not count for what is new. -/
theorem FreshStamp.facing {w : World} {path : String} (h : FreshStamp w path)
    (hops? : Option (List Hop)) : FreshStamp (w.facing hops?) path :=
  ⟨h.time, h.unused, h.parts, h.home⟩

theorem execute_rehearses {args : List String}
    (hgiven : "--dry-run" ∈ args.takeWhile (· ≠ "--")) (vars : List (String × String)) {w : World}
    (hfresh : ∀ o, readArguments args = .run o → FreshStamp w o.outPath) :
    (∀ o, readArguments args = .run o → Rehearses o vars w (execute args vars w)) ∧
      ((∀ o, readArguments args ≠ .run o) → (execute args vars w).world = w) := by
  have hread : Argument.read "--dry-run" = .switch .dryRun := by decide +kernel
  unfold execute
  cases hargs : readArguments args with
  | run o =>
    have hdry : o.dryRun = true := isOn_of_mem hread hgiven hargs
    refine ⟨?_, fun hnone => absurd rfl (hnone o)⟩
    rintro o' ho'
    obtain rfl := Invocation.run.inj ho'
    exact runWith_rehearses hdry vars (hfresh o hargs)
  | help | version | refused => exact ⟨fun _ ho => (nomatch ho), fun _ => rfl⟩

/-- Of every command line with the switch for a dry run, whatever else it says, whatever the
settings, the files, and the replies of a route manager, redirects among them: a run it asks for
does no more than rehearse, and on the wire there is one request for all routes at most, besides
one more for each redirect that is followed. Where it asks for no run nothing is done at all. -/
theorem dry_run_rehearses {args : List String}
    (hgiven : "--dry-run" ∈ args.takeWhile (· ≠ "--")) (vars : List (String × String))
    (origin : WebAddress) (hops? : Option (List Hop)) {w : World}
    (hfresh : ∀ o, readArguments args = .run o → FreshStamp w o.outPath) :
    let start := w.facing hops?
    let out := execute args vars start
    (∀ o, readArguments args = .run o → Rehearses o vars start out ∧
      Redirect.OnlyFetches (hops?.getD [])
        (Redirect.sent origin (hops?.getD []) (start.callsUntil out.world))) ∧
      ((∀ o, readArguments args ≠ .run o) → out.world = start) := by
  intro start out
  have hfresh' : ∀ o, readArguments args = .run o → FreshStamp start o.outPath :=
    fun o ho => (hfresh o ho).facing hops?
  obtain ⟨hruns, hnone⟩ := execute_rehearses hgiven vars hfresh'
  refine ⟨fun o ho => ⟨hruns o ho, ?_⟩, hnone⟩
  obtain ⟨made, hmade, hlittle⟩ := (hruns o ho).requests
  have hcalls : start.callsUntil out.world = made := by
    rw [World.callsUntil, hmade, List.drop_left]
  rw [hcalls]
  exact hlittle.onlyFetches origin (hops?.getD [])

/-! A dry run that is sent on to another address, saves what it is sent there, finds no routes in
it, and leaves the file of an earlier one alone. -/

def rehearsalArgs : List String := ["--dry-run", "--out", "out"]

def rehearsalVars : List (String × String) :=
  [("RMX_MIGRATION__OPERATION", "encode-queues"), ("RMX_MIGRATION__BACKUP_DIR", "kept"),
   ("RMX_ROUTE_MANAGER__USERNAME", "u"), ("RMX_ROUTE_MANAGER__PASSWORD", "p")]

def rehearsalTime : LocalTime := ⟨2024, 5, 6, 7, 8, 9, 10⟩

def rehearsalOrigin : WebAddress := ⟨"http".toList, some "h".toList, "/".toList, [], []⟩

/-- A redirect, and then what it leads to. -/
def rehearsalHops : List Hop :=
  [{ reply := ⟨⟨302⟩, "", 0⟩, location := some { rehearsalOrigin with path := "/x".toList } },
   { reply := ⟨⟨200⟩, "no routes", 0⟩ }]

def rehearsalWorld : World where
  files := ⟨[(["out"], .file "earlier".toUTF8)], []⟩
  stamp := rehearsalTime.stamp

def rehearsal : Outcome := execute rehearsalArgs rehearsalVars (rehearsalWorld.facing rehearsalHops)

/-- What goes over the wire meanwhile. -/
def rehearsalSent : List Request :=
  Redirect.sent rehearsalOrigin rehearsalHops
    ((rehearsalWorld.facing rehearsalHops).callsUntil rehearsal.world)

theorem freshStamp_rehearsalWorld : FreshStamp rehearsalWorld "out" where
  time := ⟨rehearsalTime, rfl⟩
  unused := by
    intro a content h
    have ha : a = ["out"] := by
      by_contra hne
      have hnone : rehearsalWorld.files.entries.lookup a = none := by
        rw [List.lookup_eq_none_iff]
        intro p hp
        rw [List.mem_singleton.mp hp]
        simpa using hne
      cases a with
      | nil => cases h
      | cons name a =>
        rw [FileTree.entry?_of_ne_nil _ (List.cons_ne_nil _ _), hnone] at h
        cases h
    rw [ha]
    decide +kernel
  parts := by decide +kernel
  home := fun _ => List.not_mem_nil

theorem dry_run_rehearses_unparsed :
    (∃ o, readArguments rehearsalArgs = .run o ∧
      Rehearses o rehearsalVars (rehearsalWorld.facing rehearsalHops) rehearsal) ∧
    Redirect.OnlyFetches rehearsalHops rehearsalSent ∧ rehearsal.exitCode = 1 ∧
    (rehearsal.world.files.readText
      "kept/OriginalRoutes2024-05-06T07-08-09.000010.json").toOption = some "no routes" ∧
    rehearsalWorld.files.SameFileAt rehearsal.world.files ["out"] := by
  let o : Options := { dryRun := true, out := some "out" }
  have hargs : readArguments rehearsalArgs = .run o := by decide +kernel
  have hgiven : "--dry-run" ∈ rehearsalArgs.takeWhile (· ≠ "--") := by decide
  have hrun : rehearsal.exitCode = 1 ∧
      (rehearsal.world.files.readText
        "kept/OriginalRoutes2024-05-06T07-08-09.000010.json").toOption = some "no routes" := by
    decide +kernel
  have hfresh : ∀ o, readArguments rehearsalArgs = .run o →
      FreshStamp rehearsalWorld o.outPath := by
    intro o ho
    rw [hargs] at ho
    obtain rfl := Invocation.run.inj ho
    exact freshStamp_rehearsalWorld
  have hall := dry_run_rehearses hgiven rehearsalVars rehearsalOrigin (some rehearsalHops) hfresh
  have hrehearses : Rehearses o rehearsalVars (rehearsalWorld.facing rehearsalHops) rehearsal :=
    (hall.1 o hargs).1
  have hfetches : Redirect.OnlyFetches rehearsalHops rehearsalSent := (hall.1 o hargs).2
  have hfailed : rehearsal.exitCode ≠ 0 := by
    rw [hrun.1]
    decide
  have hleads : rehearsal.world.files.Leads "out" ["out"] := by
    obtain ⟨new?, -, hkeeps⟩ := hrehearses.files
    refine FileTree.Leads.keeps (t := rehearsalWorld.files) hkeeps.toKeepsDirectories ?_
    exact ⟨by decide +kernel, by decide +kernel, by decide +kernel⟩
  have hkept := hrehearses.failed hfailed ["out"] hleads
  exact ⟨⟨o, hargs, hrehearses⟩, hfetches, hrun.1, hrun.2, hkept⟩

/-- The route manager is asked for all routes, and so is the address it redirects to. -/
theorem dry_run_asks_twice :
    "--dry-run" ∈ rehearsalArgs ∧
      rehearsalSent.map (fun q => (q.method, q.target)) =
        [(.get, "/api/emx-router/routes"), (.get, "/x")] := by
  decide +kernel

end CommandLine

end RouteMigration
