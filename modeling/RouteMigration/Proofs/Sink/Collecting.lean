import RouteMigration.Proofs.Document.RoundTrip
import RouteMigration.Proofs.FileTree.Storing
import RouteMigration.Proofs.Migration.Stages

/-! A file sink in use. A submission only collects, and every close writes all that was collected
until then. One that fails collects nothing and loses nothing, whatever it leaves in the file, so
a later one makes up for it. -/

namespace RouteMigration

/-- The one file that was written holds the document of these routes, and nothing else. -/
structure Written (path : String) (routes : List Route) (files written : FileTree) : Prop where
  file : ∃ a, files.Leads path a ∧
    written.entry? a = some (.file (Document.print routes).toUTF8) ∧
    ∀ b, b ≠ a → written.entry? b = files.entry? b
  routes : ∃ document, written.readText path = .ok document ∧
    document = Document.print routes ∧ Document.parse document = .ok routes

/-- What a close leaves that goes through: the file with the document, or, where that is the null
device, the files there were. -/
inductive Closed (path : String) (routes : List Route) (files : FileTree) : FileTree → Prop
  | written {left : FileTree} : Written path routes files left → Closed path routes files left
  | swallowed : files.LeadsToDevice path → Closed path routes files files

theorem Closed.written_of_not_device {path : String} {routes : List Route}
    {files left : FileTree} (h : Closed path routes files left)
    (hdevice : ¬ files.LeadsToDevice path) : Written path routes files left := by
  cases h with
  | written hwritten => exact hwritten
  | swallowed h => exact absurd h hdevice

/-- What a close leaves that fails: all files as they were, where the file did not open, or else all
but this one, which holds the octets that had arrived when the write broke off. -/
inductive Failed (path : String) (routes : List Route) (fault? : Option FileTree.Fault)
    (files : FileTree) : FileTree → Prop
  | unopened : (∃ e, fault? = some (.refused e)) ∨ ¬ files.Writable path →
      Failed path routes fault? files files
  | cut {left : FileTree} {a : Address} {n : Nat} {e : OsError} : fault? = some (.cut n e) →
      n < (Document.print routes).utf8ByteSize → files.Leads path a →
      left.entry? a = some (.file ((Document.print routes).toUTF8.extract 0 n)) →
      (∀ b, b ≠ a → left.entry? b = files.entry? b) → Failed path routes fault? files left

theorem FileTree.Takes.entries_put {files : FileTree} {a : Address} (h : files.Takes a)
    (content : ByteArray) :
    FileTree.entry? (files.put a (.file content)) a = some (.file content) ∧
      ∀ b, b ≠ a → FileTree.entry? (files.put a (.file content)) b = files.entry? b := by
  have hentry := FileTree.entry?_put files (ne_nil_of_not_directory h.free) (.file content)
  refine ⟨?_, ?_⟩
  · rw [hentry, if_pos rfl]
  · intro b hba
    rw [hentry, if_neg hba]

theorem Written.of_leads {path : String} {routes : List Route} {files : FileTree} {a : Address}
    (hleads : files.Leads path a) (htakes : files.Takes a) :
    Written path routes files (files.put a (.file (Document.print routes).toUTF8)) := by
  obtain ⟨hplace, helsewhere⟩ := htakes.entries_put (Document.print routes).toUTF8
  have hwrite : files.writeText path (Document.print routes) =
      .ok (files.put a (.file (Document.print routes).toUTF8)) :=
    FileTree.writeText_eq_ok_iff.mpr ⟨a, hleads, htakes, rfl⟩
  exact ⟨⟨a, hleads, hplace, helsewhere⟩,
    ⟨_, FileTree.readText_writeText hwrite, rfl, Document.parse_printed routes⟩⟩

namespace Sink

/-! ## Steps -/

/-- What happens while a sink is in use. -/
inductive Step where
  | submit (r : Route)
  | close (fault? : Option FileTree.Fault)
  /-- Others change the files. -/
  | meanwhile (files : FileTree)

/-- A sink, and the world in which it is used. -/
structure Use where
  sink : Sink
  world : World

namespace Use

/-- One step, and whether it went through. If it did not, the sink is the one there was. -/
def step (u : Use) : Step → Except Failure Unit × Use
  | .submit r =>
    match u.sink.submit r u.world with
    | (.ok sink, world) => (.ok (), { sink, world })
    | (.error f, world) => (.error f, { u with world })
  | .close fault? =>
    let (result, world) := u.sink.closeUnder fault? u.world
    (result, { u with world })
  | .meanwhile files => (.ok (), { u with world := { u.world with files } })

/-- Step after step, whatever comes of each. -/
def run (u : Use) (steps : List Step) : Use := steps.foldl (fun u s => (u.step s).2) u

end Use

def Step.route? : Step → Option Route
  | submit r => some r
  | _ => none

/-- The routes that were submitted, in their order. -/
def submitted (steps : List Step) : List Route := steps.filterMap Step.route?

theorem submitted_cons (s : Step) (steps : List Step) :
    submitted (s :: steps) = submitted [s] ++ submitted steps :=
  List.filterMap_append (l := [s]) ..

namespace Use

variable {u later : Use} {path : String} {routes : List Route}

theorem step_submit (h : u.sink = .file path routes) (r : Route) :
    u.step (.submit r) = (.ok (), { u with sink := .file path (routes ++ [r]) }) := by
  have htaken : u.sink.submit r u.world = (.ok (.file path (routes ++ [r])), u.world) := by
    rw [h]
    rfl
  simp [step, htaken]

/-- A step collects what it submits. -/
theorem step_collects (h : u.sink = .file path routes) (s : Step) :
    (u.step s).2.sink = .file path (routes ++ submitted [s]) := by
  cases s with
  | submit r =>
    rw [step_submit h]
    rfl
  | close | meanwhile =>
    show u.sink = .file path (routes ++ [])
    rw [h, List.append_nil]

/-- However long a sink is in use, it holds all that it was given. -/
theorem run_collects (h : u.sink = .file path routes) (steps : List Step) :
    (u.run steps).sink = .file path (routes ++ submitted steps) := by
  induction steps generalizing u routes with
  | nil => simpa [run, submitted] using h
  | cons s steps ih =>
    have hrest := ih (step_collects h s)
    rw [List.append_assoc, ← submitted_cons] at hrest
    exact hrest

/-! ## Closing -/

/-- A close stands and falls with the write. -/
theorem step_close (h : u.sink = .file path routes) (fault? : Option FileTree.Fault) :
    ∃ left result lines,
      u.world.files.Stored path (Document.print routes) fault? (left, result) ∧
      (result ≠ .ok () → lines = []) ∧
      u.step (.close fault?) = (failingAs (.sinkUnwritable path) result,
        ⟨u.sink, World.noting { u.world with files := left } lines⟩) := by
  have hstored := u.world.files.stored path (Document.print routes) fault?
  cases hstore : u.world.files.store path (Document.print routes) fault? with
  | mk left result =>
    rw [hstore] at hstored
    have hwrite := Action.store_apply hstore (.sinkUnwritable path)
    cases result with
    | ok =>
      let wrote : LogLine :=
        ⟨.info, .file, "📝 wrote " ++ toString routes.length ++ " routes to " ++ path⟩
      have hclose : u.sink.closeUnder fault? u.world =
          (.ok (), World.noting { u.world with files := left } [wrote]) := by
        rw [h]
        exact (Action.bind_of_ok hwrite).trans (Action.log_apply _ _ _ _)
      refine ⟨left, .ok (), [wrote], hstored, fun hne => absurd rfl hne, ?_⟩
      rw [step, hclose]
      rfl
    | error e =>
      have hclose : u.sink.closeUnder fault? u.world =
          (.error ⟨.sinkUnwritable path, [.os e]⟩, { u.world with files := left }) := by
        rw [h]
        exact Action.bind_of_error hwrite
      refine ⟨left, .error e, [], hstored, fun _ => rfl, ?_⟩
      rw [step, hclose, World.noting_nil]
      rfl

/-- A close can go through: the file opens, and it is the null device or takes the document. -/
def CanClose (u : Use) (path : String) (routes : List Route)
    (fault? : Option FileTree.Fault) : Prop :=
  (u.world.files.LeadsToDevice path ∧ ∀ e, fault? ≠ some (.refused e)) ∨
    (u.world.files.Writable path ∧
      FileTree.Fault.LetsThrough (Document.print routes).utf8ByteSize fault?)

theorem close_ok_iff (h : u.sink = .file path routes) (fault? : Option FileTree.Fault) :
    (∃ later, u.step (.close fault?) = (.ok (), later)) ↔ u.CanClose path routes fault? := by
  obtain ⟨left, result, lines, hstored, -, hstep⟩ := step_close h fault?
  rw [hstep, CanClose, ← hstored.ok_iff]
  cases result with
  | ok => exact ⟨fun _ => rfl, fun _ => ⟨_, rfl⟩⟩
  | error e => exact ⟨fun ⟨_, heq⟩ => (nomatch heq), fun heq => (nomatch heq)⟩

theorem close_writes {fault? : Option FileTree.Fault} (h : u.sink = .file path routes)
    (hclose : u.step (.close fault?) = (.ok (), later)) :
    Closed path routes u.world.files later.world.files ∧ later.sink = u.sink := by
  obtain ⟨left, result, lines, hstored, -, hstep⟩ := step_close h fault?
  cases result with
  | error e => cases hclose.symm.trans hstep
  | ok =>
    cases hclose.symm.trans hstep
    refine ⟨?_, rfl⟩
    cases hstored with
    | swallowed hdevice _ => exact .swallowed hdevice
    | whole hleads htakes _ => exact .written (.of_leads hleads htakes)

/-- A close that fails changes the files at most. -/
theorem close_fails {fault? : Option FileTree.Fault} {f : Failure}
    (h : u.sink = .file path routes) (hclose : u.step (.close fault?) = (.error f, later)) :
    ∃ left, Failed path routes fault? u.world.files left ∧
      later = { u with world := { u.world with files := left } } := by
  obtain ⟨left, result, lines, hstored, hquiet, hstep⟩ := step_close h fault?
  cases result with
  | ok => cases hclose.symm.trans hstep
  | error e =>
    cases hquiet nofun
    rw [World.noting_nil] at hstep
    cases hclose.symm.trans hstep
    refine ⟨left, ?_, rfl⟩
    cases hstored with
    | refused hfault => exact .unopened (.inl ⟨_, hfault⟩)
    | unopened hwritable _ => exact .unopened (.inr hwritable)
    | part hleads htakes hfault hcut =>
      obtain ⟨hplace, helsewhere⟩ := htakes.entries_put _
      exact .cut hfault hcut hleads hplace helsewhere

/-- A file sink at any time of its use, in whatever world it began, whatever became of the files
meanwhile, and whatever faults came up. It holds every route that was submitted, in their order.
One more submission goes through and changes nothing but that. A close goes through exactly where
the file opens and takes the document, and then the file holds the document of all those routes,
from which they can be read, and no other file is touched; only the null device keeps nothing. A
close that fails leaves the collected routes and all other files as they were, and the file as
well unless a fault cut the write short, and the next one that goes through writes the routes of
before and after, each as often as it was submitted. -/
theorem fileSink_writes_all (path : String) (w : World) (steps : List Step) :
    let u := run ⟨.file path [], w⟩ steps
    u.sink = .file path (submitted steps) ∧
    (∀ r, ∃ later, u.step (.submit r) = (.ok (), later) ∧ later.world = u.world) ∧
    (∀ fault?, (∃ later, u.step (.close fault?) = (.ok (), later)) ↔
      u.CanClose path (submitted steps) fault?) ∧
    (∀ fault? later, u.step (.close fault?) = (.ok (), later) →
      Closed path (submitted steps) u.world.files later.world.files ∧ later.sink = u.sink) ∧
    (∀ fault? f later, u.step (.close fault?) = (.error f, later) →
      (∃ left, Failed path (submitted steps) fault? u.world.files left ∧
        later = { u with world := { u.world with files := left } }) ∧
      ∀ more fault? last, (later.run more).step (.close fault?) = (.ok (), last) →
        Closed path (submitted steps ++ submitted more) (later.run more).world.files
          last.world.files) := by
  have hstart : (Use.mk (.file path []) w).sink = .file path [] := rfl
  have hsink : (run ⟨.file path [], w⟩ steps).sink = .file path (submitted steps) :=
    run_collects hstart steps
  generalize run ⟨.file path [], w⟩ steps = u at hsink ⊢
  refine ⟨hsink, ?_, close_ok_iff hsink, fun fault? later hclose => close_writes hsink hclose, ?_⟩
  · intro r
    exact ⟨_, step_submit hsink r, rfl⟩
  · intro fault? f later hclose
    obtain ⟨left, hfailed, rfl⟩ := close_fails hsink hclose
    refine ⟨⟨left, hfailed, rfl⟩, ?_⟩
    intro more fault? last hlast
    have hkept : (Use.mk u.sink { u.world with files := left }).sink =
        .file path (submitted steps) := hsink
    exact (close_writes (run_collects hkept more) hlast).1

/-! Two routes on both sides of a close that is refused because the directory is missing, and one
more close when the directory is there. -/

def patientRoutes : List Route :=
  [{ uuid := "1", name := "a", rule := "", queues := ["x"] },
   { uuid := "2", name := "b", rule := "", queues := [] }]

/-- A use that is about to be refused. -/
def refusedUse : Use := run ⟨.file "d/out" [], { files := ⟨[], []⟩ }⟩ [.submit patientRoutes[0]]

def madeUp : List Step := [.submit patientRoutes[1], .meanwhile ⟨[(["d"], .directory)], []⟩]

theorem fileSink_writes_all_late :
    (refusedUse.step (.close none)).1.toOption = none ∧
      (((refusedUse.step (.close none)).2.run madeUp).step (.close none)).2.world.files.readText
        "d/out" = .ok (Document.print patientRoutes) := by
  obtain ⟨-, -, -, -, hrefused⟩ :=
    fileSink_writes_all "d/out" { files := ⟨[], []⟩ } [.submit patientRoutes[0]]
  have hfails : ∃ f, refusedUse.step (.close none) = (.error f, (refusedUse.step (.close none)).2) :=
    ⟨_, rfl⟩
  obtain ⟨f, hfails⟩ := hfails
  obtain ⟨-, hlater⟩ := hrefused none f _ hfails
  have hpath : "d/out".toList = "d/ou".toList ++ ['t'] := by decide
  have hwritten := (hlater madeUp none _ rfl).written_of_not_device
    (FileTree.not_leadsToDevice hpath (by decide) (by decide) (by decide))
  obtain ⟨document, hread, rfl, -⟩ := hwritten.routes
  refine ⟨?_, hread⟩
  rw [hfails]
  rfl

/-! A close that fails because the disk is full, once the file has been emptied, and one that goes
through and keeps nothing. -/

def diskFull : FileTree.Fault := .cut 3 .noSpace

def overwritingUse : Use :=
  ⟨.file "out" [], { files := ⟨[(["out"], .file "earlier".toUTF8)], []⟩ }⟩

def discardingUse : Use :=
  run ⟨.file "/dev/null" [],
      { files := ⟨[(["dev"], .directory), (FileTree.nullDevice, .file .empty)], []⟩ }⟩
    [.submit patientRoutes[0]]

theorem close_keeps_neither :
    ((overwritingUse.step (.close (some diskFull))).1.toOption = none ∧
      (overwritingUse.world.files.readText "out").toOption = some "earlier" ∧
      ((overwritingUse.step (.close (some diskFull))).2.world.files.readText "out").toOption =
        some "\x7b\n ") ∧
    (discardingUse.step (.close none)).1.toOption = some () ∧
    ((discardingUse.step (.close none)).2.world.files.readText "/dev/null").toOption = some "" ∧
    Document.print [patientRoutes[0]] ≠ "" := by
  decide +kernel

end Use

end Sink

end RouteMigration
