import RouteMigration.Proofs.Settings.Tree
import RouteMigration.Settings.Reader

/-! Where each setting stands in a tree of values, and what settings that were understood have
there: the value of the tree, or the default where the tree gives none. -/

namespace RouteMigration.Settings

variable {α β : Type}

/-! ## Places -/

/-- A setting stands under the key of its group, or at its position where the group is a list. -/
structure Place where
  group : List String
  key : String
  index : Nat

namespace Place

def path (p : Place) : List String := p.group ++ [p.key]

/-- What a value that is the whole group gives. -/
def within? (p : Place) : Value → Option Value
  | .table t => t.lookup p.key
  | .list vs => vs[p.index]?
  | _ => none

end Place

/-- What a tree gives at a place, if anything. -/
def Value.given? (v : Value) (p : Place) : Option Value := (v.at? p.group).bind p.within?

/-- All single settings there are, by the type of what they are set to. A whole source or sink is
one as well, and the file it names another one further down. -/
inductive Setting : Type → Type
  | baseUrl : Setting String
  | username : Setting (Option String)
  | password : Setting (Option String)
  | credentialsFile : Setting (Option String)
  | connectTimeout : Setting Nat
  | requestTimeout : Setting Nat
  | operation : Setting Operation
  | queueEnvironment : Setting String
  | backup : Setting Bool
  | backupDir : Setting String
  | updateParallelism : Setting Nat
  | restore : Setting Bool
  | source : Setting SourceChoice
  | sourceFile : Setting (Option String)
  | sink : Setting SinkChoice
  | sinkFile : Setting (Option String)

namespace Setting

def place : Setting α → Place
  | baseUrl => ⟨["route_manager"], "base_url", 0⟩
  | username => ⟨["route_manager"], "username", 1⟩
  | password => ⟨["route_manager"], "password", 2⟩
  | credentialsFile => ⟨["route_manager"], "credentials_file", 3⟩
  | connectTimeout => ⟨["route_manager"], "connect_timeout_secs", 4⟩
  | requestTimeout => ⟨["route_manager"], "request_timeout_secs", 5⟩
  | operation => ⟨["migration"], "operation", 0⟩
  | queueEnvironment => ⟨["migration"], "queue_environment", 1⟩
  | backup => ⟨["migration"], "backup", 2⟩
  | backupDir => ⟨["migration"], "backup_dir", 3⟩
  | updateParallelism => ⟨["migration"], "update_parallelism", 4⟩
  | restore => ⟨["migration"], "restore", 5⟩
  | source => ⟨[], "source", 2⟩
  | sourceFile => ⟨["source", "File"], "file_name", 0⟩
  | sink => ⟨[], "sink", 3⟩
  | sinkFile => ⟨["sink", "File"], "file_name", 0⟩

def read : Setting α → Reading α
  | baseUrl | queueEnvironment => textValue
  | username | password => someOf textValue
  | credentialsFile | sourceFile | sinkFile => someOf pathValue
  | connectTimeout | requestTimeout => countValue "u64"
  | operation => operationValue
  | backup | restore => boolValue
  | backupDir => pathValue
  | updateParallelism => countValue "usize"
  | source => sourceValue
  | sink => sinkValue

/-- What it is where nothing is given; an operation is never guessed. -/
def default? : Setting α → Option α
  | baseUrl => some ({} : RouteManagerSettings).baseUrl
  | username | password | credentialsFile | sourceFile | sinkFile => some none
  | connectTimeout => some 30
  | requestTimeout => some 60
  | operation => none
  | queueEnvironment => some "dev"
  | backup => some true
  | backupDir => some "."
  | updateParallelism => some 1
  | restore => some false
  | source => some .routeManager
  | sink => some .routeManager

def get : Setting α → Settings → α
  | baseUrl, s => s.routeManager.baseUrl
  | username, s => s.routeManager.username
  | password, s => s.routeManager.password
  | credentialsFile, s => s.routeManager.credentialsFile
  | connectTimeout, s => s.routeManager.connectTimeout
  | requestTimeout, s => s.routeManager.requestTimeout
  | operation, s => s.migration.operation
  | queueEnvironment, s => s.migration.queueEnvironment
  | backup, s => s.migration.backup
  | backupDir, s => s.migration.backupDir
  | updateParallelism, s => s.migration.updateParallelism
  | restore, s => s.migration.restore
  | source, s => s.source
  | sourceFile, s => match s.source with
    | .file path => some path
    | .routeManager => none
  | sink, s => s.sink
  | sinkFile, s => match s.sink with
    | .file path => some path
    | .routeManager | .discard => none

end Setting

/-! ## What was read -/

/-- A reading of a value, or the default where there is none. -/
def Reads (read : Reading α) (default? : Option α) (a : α) : Option Value → Prop
  | some v => read v = .ok a
  | none => default? = some a

/-- Some settings have what a value says of one of them, or the default if there is no value. -/
def Setting.Has (x : Setting α) (s : Settings) (v? : Option Value) : Prop :=
  Reads x.read x.default? (x.get s) v?

theorem bind_eq_ok_iff {ε : Type} {x : Except ε α} {f : α → Except ε β} {b : β} :
    (x >>= f) = .ok b ↔ ∃ a, x = .ok a ∧ f a = .ok b := by
  cases x with
  | ok a =>
    show f a = .ok b ↔ _
    simp
  | error e =>
    show Except.error e = .ok b ↔ _
    simp

theorem under_eq_ok_iff {key : String} {result : Except Problem α} {a : α} :
    under key result = .ok a ↔ result = .ok a := by
  cases result <;> simp [under]

theorem reads_of_entryOr {t : Table} {key : String} {default a : α} {read : Reading α}
    (h : entryOr t key default read = .ok a) : Reads read (some default) a (t.lookup key) := by
  unfold entryOr at h
  split at h
  · next v hv =>
    rw [hv]
    exact under_eq_ok_iff.mp h
  · next hnone =>
    rw [hnone]
    exact congrArg some (Except.ok.inj h)

theorem reads_of_itemOr {vs : List Value} {index : Nat} {default a : α} {read : Reading α}
    (h : itemOr vs index default read = .ok a) : Reads read (some default) a vs[index]? := by
  unfold itemOr at h
  split at h
  · next v hv =>
    rw [hv]
    exact under_eq_ok_iff.mp h
  · next hnone =>
    rw [hnone]
    exact congrArg some (Except.ok.inj h)

theorem of_require {key : String} {a? : Option α} {a : α} (h : require key a? = .ok a) :
    a? = some a := by
  cases a? with
  | none => cases h
  | some _ =>
    cases h
    rfl

theorem of_requireItem {index : Nat} {expected : String} {a? : Option α} {a : α}
    (h : requireItem index expected a? = .ok a) : a? = some a := by
  cases a? with
  | none => cases h
  | some _ =>
    cases h
    rfl

/-- What is required has been read from a value. -/
theorem Reads.required {read : Reading α} {v? : Option Value} {a : α}
    (h : Reads (someOf read) (some none) (some a) v?) : ∃ v, v? = some v ∧ read v = .ok a := by
  cases v? with
  | none => cases h
  | some v =>
    obtain ⟨b, hb, hab⟩ := bind_eq_ok_iff.mp h
    cases hab
    exact ⟨v, rfl, hb⟩

theorem reads_of_required {read : Reading α} {default? : Option α} {v? : Option Value} {a : α}
    (h : Reads (someOf read) (some none) (some a) v?) : Reads read default? a v? := by
  obtain ⟨v, rfl, hv⟩ := h.required
  exact hv

/-! ## Groups -/

variable {s : Settings} {v : Value}

theorem has_of_routeManagerValue (h : routeManagerValue v = .ok s.routeManager) (x : Setting α)
    (hx : x.place.group = ["route_manager"]) : x.Has s (x.place.within? v) := by
  obtain ⟨r, m, source, sink⟩ := s
  unfold routeManagerValue at h
  split at h
  · obtain ⟨baseUrl, hbaseUrl, h⟩ := bind_eq_ok_iff.mp h
    obtain ⟨connectTimeout, hconnectTimeout, h⟩ := bind_eq_ok_iff.mp h
    obtain ⟨credentialsFile, hcredentialsFile, h⟩ := bind_eq_ok_iff.mp h
    obtain ⟨password, hpassword, h⟩ := bind_eq_ok_iff.mp h
    obtain ⟨requestTimeout, hrequestTimeout, h⟩ := bind_eq_ok_iff.mp h
    obtain ⟨username, husername, h⟩ := bind_eq_ok_iff.mp h
    obtain rfl := Except.ok.inj h
    cases x with
    | baseUrl => exact reads_of_entryOr hbaseUrl
    | username => exact reads_of_entryOr husername
    | password => exact reads_of_entryOr hpassword
    | credentialsFile => exact reads_of_entryOr hcredentialsFile
    | connectTimeout => exact reads_of_entryOr hconnectTimeout
    | requestTimeout => exact reads_of_entryOr hrequestTimeout
    | _ => simp [Setting.place] at hx
  · obtain ⟨baseUrl, hbaseUrl, h⟩ := bind_eq_ok_iff.mp h
    obtain ⟨username, husername, h⟩ := bind_eq_ok_iff.mp h
    obtain ⟨password, hpassword, h⟩ := bind_eq_ok_iff.mp h
    obtain ⟨credentialsFile, hcredentialsFile, h⟩ := bind_eq_ok_iff.mp h
    obtain ⟨connectTimeout, hconnectTimeout, h⟩ := bind_eq_ok_iff.mp h
    obtain ⟨requestTimeout, hrequestTimeout, h⟩ := bind_eq_ok_iff.mp h
    obtain rfl := Except.ok.inj h
    cases x with
    | baseUrl => exact reads_of_itemOr hbaseUrl
    | username => exact reads_of_itemOr husername
    | password => exact reads_of_itemOr hpassword
    | credentialsFile => exact reads_of_itemOr hcredentialsFile
    | connectTimeout => exact reads_of_itemOr hconnectTimeout
    | requestTimeout => exact reads_of_itemOr hrequestTimeout
    | _ => simp [Setting.place] at hx
  · cases h

theorem has_of_migrationValue (h : migrationValue v = .ok s.migration) (x : Setting α)
    (hx : x.place.group = ["migration"]) : x.Has s (x.place.within? v) := by
  obtain ⟨r, m, source, sink⟩ := s
  unfold migrationValue at h
  split at h
  · obtain ⟨backup, hbackup, h⟩ := bind_eq_ok_iff.mp h
    obtain ⟨backupDir, hbackupDir, h⟩ := bind_eq_ok_iff.mp h
    obtain ⟨operation?, hoperation, h⟩ := bind_eq_ok_iff.mp h
    obtain ⟨queueEnvironment, hqueueEnvironment, h⟩ := bind_eq_ok_iff.mp h
    obtain ⟨restore, hrestore, h⟩ := bind_eq_ok_iff.mp h
    obtain ⟨updateParallelism, hupdateParallelism, h⟩ := bind_eq_ok_iff.mp h
    obtain ⟨operation, hrequired, h⟩ := bind_eq_ok_iff.mp h
    obtain rfl := of_require hrequired
    obtain rfl := Except.ok.inj h
    cases x with
    | operation => exact reads_of_required (reads_of_entryOr hoperation)
    | queueEnvironment => exact reads_of_entryOr hqueueEnvironment
    | backup => exact reads_of_entryOr hbackup
    | backupDir => exact reads_of_entryOr hbackupDir
    | updateParallelism => exact reads_of_entryOr hupdateParallelism
    | restore => exact reads_of_entryOr hrestore
    | _ => simp [Setting.place] at hx
  · obtain ⟨operation?, hoperation, h⟩ := bind_eq_ok_iff.mp h
    obtain ⟨operation, hrequired, hrest⟩ := bind_eq_ok_iff.mp h
    obtain rfl := of_requireItem hrequired
    obtain ⟨queueEnvironment, hqueueEnvironment, h⟩ := bind_eq_ok_iff.mp hrest
    obtain ⟨backup, hbackup, h⟩ := bind_eq_ok_iff.mp h
    obtain ⟨backupDir, hbackupDir, h⟩ := bind_eq_ok_iff.mp h
    obtain ⟨updateParallelism, hupdateParallelism, h⟩ := bind_eq_ok_iff.mp h
    obtain ⟨restore, hrestore, h⟩ := bind_eq_ok_iff.mp h
    obtain rfl := Except.ok.inj h
    cases x with
    | operation => exact reads_of_required (reads_of_itemOr hoperation)
    | queueEnvironment => exact reads_of_itemOr hqueueEnvironment
    | backup => exact reads_of_itemOr hbackup
    | backupDir => exact reads_of_itemOr hbackupDir
    | updateParallelism => exact reads_of_itemOr hupdateParallelism
    | restore => exact reads_of_itemOr hrestore
    | _ => simp [Setting.place] at hx
  · cases h

/-! ## Sources and sinks -/

theorem text_of_choice {expected name : String} (h : choice expected v = .ok (.name name)) :
    v = .text name := by
  unfold choice at h
  split at h
  · cases h
    rfl
  all_goals cases h

theorem table_of_choice {expected key : String} {content : Value}
    (h : choice expected v = .ok (.entry key content)) :
    ∃ t, v = .table ((key, content) :: t) := by
  unfold choice at h
  split at h
  · cases h
  · cases h
    exact ⟨_, rfl⟩
  all_goals cases h

/-- Whatever is under a choice that takes nothing further, it is too much. -/
theorem nothing_ne_ok {u : Unit} : nothing v ≠ .ok u := by
  intro h
  cases h

theorem reads_of_fileValue {expected path : String} {p : Place} (hkey : p.key = "file_name")
    (hindex : p.index = 0) (h : fileValue expected v = .ok path) :
    Reads (someOf pathValue) (some none) (some path) (p.within? v) := by
  unfold fileValue at h
  split at h
  · obtain ⟨name?, hname, h⟩ := bind_eq_ok_iff.mp h
    obtain rfl := of_require h
    rw [Place.within?, hkey]
    exact reads_of_entryOr hname
  · obtain ⟨name?, hname, h⟩ := bind_eq_ok_iff.mp h
    obtain rfl := of_requireItem h
    rw [Place.within?, hindex]
    exact reads_of_itemOr hname
  · cases h

theorem has_of_sourceValue (h : sourceValue v = .ok s.source) :
    Setting.sourceFile.Has s ((v.at? ["File"]).bind Setting.sourceFile.place.within?) := by
  obtain ⟨r, m, source, sink⟩ := s
  obtain ⟨chosen, hchosen, hread⟩ := bind_eq_ok_iff.mp h
  cases chosen with
  | name name =>
    obtain rfl := text_of_choice hchosen
    split at hread
    · cases hread
      rfl
    · cases hread
    · cases hread
    · next hchosen => cases hchosen
  | entry key content =>
    obtain ⟨t, rfl⟩ := table_of_choice hchosen
    have hread := under_eq_ok_iff.mp hread
    split at hread
    · obtain ⟨_, hnothing, -⟩ := bind_eq_ok_iff.mp hread
      exact absurd hnothing nothing_ne_ok
    · obtain ⟨path, hpath, hread⟩ := bind_eq_ok_iff.mp hread
      cases hread
      exact reads_of_fileValue rfl rfl hpath
    · cases hread

theorem has_of_sinkValue (h : sinkValue v = .ok s.sink) :
    Setting.sinkFile.Has s ((v.at? ["File"]).bind Setting.sinkFile.place.within?) := by
  obtain ⟨r, m, source, sink⟩ := s
  obtain ⟨chosen, hchosen, hread⟩ := bind_eq_ok_iff.mp h
  cases chosen with
  | name name =>
    obtain rfl := text_of_choice hchosen
    split at hread
    · cases hread
      rfl
    · cases hread
      rfl
    · cases hread
    · cases hread
    · next hchosen => cases hchosen
  | entry key content =>
    obtain ⟨t, rfl⟩ := table_of_choice hchosen
    have hread := under_eq_ok_iff.mp hread
    split at hread
    · obtain ⟨_, hnothing, -⟩ := bind_eq_ok_iff.mp hread
      exact absurd hnothing nothing_ne_ok
    · obtain ⟨_, hnothing, -⟩ := bind_eq_ok_iff.mp hread
      exact absurd hnothing nothing_ne_ok
    · obtain ⟨path, hpath, hread⟩ := bind_eq_ok_iff.mp hread
      cases hread
      exact reads_of_fileValue rfl rfl hpath
    · cases hread

/-! ## The whole tree -/

theorem groups_of_ofTable {t : Table} (h : ofTable t = .ok s) :
    Reads routeManagerValue (some {}) s.routeManager (t.lookup "route_manager") ∧
      Reads migrationValue none s.migration (t.lookup "migration") ∧
      Reads sourceValue (some .routeManager) s.source (t.lookup "source") ∧
      Reads sinkValue (some .routeManager) s.sink (t.lookup "sink") := by
  obtain ⟨migration?, hmigration, h⟩ := bind_eq_ok_iff.mp h
  obtain ⟨routeManager, hrouteManager, h⟩ := bind_eq_ok_iff.mp h
  obtain ⟨sink, hsink, h⟩ := bind_eq_ok_iff.mp h
  obtain ⟨source, hsource, h⟩ := bind_eq_ok_iff.mp h
  obtain ⟨migration, hrequired, h⟩ := bind_eq_ok_iff.mp h
  obtain rfl := of_require hrequired
  obtain rfl := Except.ok.inj h
  exact ⟨reads_of_entryOr hrouteManager, reads_of_required (reads_of_entryOr hmigration),
    reads_of_entryOr hsource, reads_of_entryOr hsink⟩

theorem Value.given?_eq (t : Table) (p : Place) {key : String} {more : List String}
    (h : p.group = key :: more) :
    (Value.table t).given? p = (t.lookup key).bind fun v => (v.at? more).bind p.within? := by
  rw [Value.given?, h]
  exact Option.bind_assoc ..

theorem has_in_routeManager {v? : Option Value}
    (h : Reads routeManagerValue (some {}) s.routeManager v?) (x : Setting α)
    (hx : x.place.group = ["route_manager"]) : x.Has s (v?.bind x.place.within?) := by
  cases v? with
  | none =>
    obtain ⟨r, m, source, sink⟩ := s
    cases h
    cases x with
    | baseUrl | username | password | credentialsFile | connectTimeout | requestTimeout => rfl
    | _ => simp [Setting.place] at hx
  | some v => exact has_of_routeManagerValue h x hx

theorem has_in_migration {v? : Option Value}
    (h : Reads migrationValue none s.migration v?) (x : Setting α)
    (hx : x.place.group = ["migration"]) : x.Has s (v?.bind x.place.within?) := by
  cases v? with
  | none => cases h
  | some v => exact has_of_migrationValue h x hx

theorem has_in_source {v? : Option Value} (h : Reads sourceValue (some .routeManager) s.source v?) :
    Setting.sourceFile.Has s
      (v?.bind fun v => (v.at? ["File"]).bind Setting.sourceFile.place.within?) := by
  cases v? with
  | none =>
    obtain ⟨r, m, source, sink⟩ := s
    cases h
    rfl
  | some v => exact has_of_sourceValue h

theorem has_in_sink {v? : Option Value} (h : Reads sinkValue (some .routeManager) s.sink v?) :
    Setting.sinkFile.Has s
      (v?.bind fun v => (v.at? ["File"]).bind Setting.sinkFile.place.within?) := by
  cases v? with
  | none =>
    obtain ⟨r, m, source, sink⟩ := s
    cases h
    rfl
  | some v => exact has_of_sinkValue h

/-- Settings that were understood have what the tree gives of each of them, or the default. -/
theorem has_of_ofTable {t : Table} (h : ofTable t = .ok s) (x : Setting α) :
    x.Has s ((Value.table t).given? x.place) := by
  obtain ⟨hrouteManager, hmigration, hsource, hsink⟩ := groups_of_ofTable h
  cases x with
  | baseUrl | username | password | credentialsFile | connectTimeout | requestTimeout =>
    rw [Value.given?_eq t _ rfl]
    exact has_in_routeManager hrouteManager _ rfl
  | operation | queueEnvironment | backup | backupDir | updateParallelism | restore =>
    rw [Value.given?_eq t _ rfl]
    exact has_in_migration hmigration _ rfl
  | source => exact hsource
  | sink => exact hsink
  | sourceFile =>
    rw [Value.given?_eq t _ rfl]
    exact has_in_source hsource
  | sinkFile =>
    rw [Value.given?_eq t _ rfl]
    exact has_in_sink hsink

end RouteMigration.Settings
