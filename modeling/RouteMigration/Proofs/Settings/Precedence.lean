import RouteMigration.Proofs.FileTree.ReadBack
import RouteMigration.Proofs.Settings.Places
import RouteMigration.Proofs.Settings.Toml.WellFormed
import RouteMigration.Settings.Load

/-! Variables and a document: what the document gives is set, whatever the variables say, and of
what it does not mention the variables keep their word. Only a list of the variables is lost as a
whole where the document has a table. -/

namespace RouteMigration.Settings

variable {α : Type} {a b v : Value} {p : Place}

/-! ## One tree over another -/

theorem Value.given?_merge_of_given (hb : b.WellFormed) (h : b.given? p = some v)
    (hv : v.isTable = false) : (a.merge b).given? p = some v := by
  obtain ⟨group, hgroup, hwithin⟩ := Option.bind_eq_some_iff.mp h
  rw [Value.given?, Value.at?_merge_of_given hb hgroup, Option.bind_some]
  cases group with
  | table t =>
    have hkey : t.lookup p.key = some v := hwithin
    cases a.at? p.group with
    | none => exact hwithin
    | some before =>
      cases before with
      | table below =>
        show (mergeEntries below t).lookup p.key = some v
        rw [lookup_mergeEntries (hb.at? hgroup).rising, hkey]
        exact congrArg some (Value.layered_of_not_table _ hv)
      | _ => exact hwithin
  | list vs =>
    rw [Value.layered_of_not_table _ rfl]
    exact hwithin
  | _ => cases hwithin

/-- What is left of the word of some variables: a table of the document takes the place of a list
as a whole. -/
def leftTo (fromVars document : Value) (p : Place) : Option Value :=
  match fromVars.at? p.group, document.at? p.group with
  | some (.list _), some (.table _) => none
  | _, _ => fromVars.given? p

theorem Value.given?_merge_of_silent (hb : b.WellFormed) (h : Silent p.path b) :
    (a.merge b).given? p = leftTo a b p := by
  unfold leftTo
  rcases h.front with hgroup | ⟨group, hgroup, hkey⟩
  · rw [Value.at?_of_silent hgroup, Value.given?, Value.at?_merge_of_silent hb hgroup]
    split
    · next hnone => cases hnone
    · rfl
  · rw [Value.given?, Value.at?_merge_of_given hb hgroup, Option.bind_some, hgroup]
    cases group with
    | table t =>
      have hnone : t.lookup p.key = none := by
        rw [Option.eq_none_iff_forall_not_mem]
        exact hkey
      cases hbefore : a.at? p.group with
      | none =>
        rw [Value.given?, hbefore]
        exact hnone
      | some before =>
        cases before with
        | table below =>
          rw [Value.given?, hbefore]
          show (mergeEntries below t).lookup p.key = below.lookup p.key
          rw [lookup_mergeEntries (hb.at? hgroup).rising, hnone]
        | list vs => exact hnone
        | _ =>
          rw [Value.given?, hbefore]
          exact hnone
    | _ => exact hkey.elim

/-! ## Loading -/

section

variable {files : FileTree} {path? : Option String} {document : Table}

/-- What the file of the settings has to say: its document, or nothing where there is none. -/
def Says (files : FileTree) (path? : Option String) (document : Table) : Prop :=
  match path?.bind (findFile? files) with
  | some found => ∃ text, files.readText found = .ok text ∧ Toml.parse text = some document
  | none => document = []

theorem Says.wellFormed (h : Says files path? document) : (Value.table document).WellFormed := by
  unfold Says at h
  split at h
  · obtain ⟨text, -, hparse⟩ := h
    exact Toml.wellFormed_parse hparse
  · rw [h]
    exact Value.wellFormed_empty

theorem Says.load_eq (h : Says files path? document) (vars : List (String × String)) :
    load files vars path? = ofTable (mergeEntries (Variables.load vars) document) := by
  unfold Says at h
  unfold load
  split at h
  · next hfound =>
    obtain ⟨text, hread, hparse⟩ := h
    rw [hfound]
    dsimp only
    rw [hread]
    simp [ofTexts, hparse]
  · next hfound =>
    rw [hfound, h]
    rfl

variable {vars vars' : List (String × String)} {s s' : Settings}

theorem load_given (hdocument : Says files path? document) (h : load files vars path? = .ok s)
    (x : Setting α) (hgiven : (Value.table document).given? x.place = some v)
    (hleaf : v.isTable = false) : x.read v = .ok (x.get s) := by
  rw [hdocument.load_eq] at h
  have hset := has_of_ofTable h x
  have hover :
      (Value.table (mergeEntries (Variables.load vars) document)).given? x.place = some v :=
    Value.given?_merge_of_given (a := .table _) hdocument.wellFormed hgiven hleaf
  rw [hover] at hset
  exact hset

theorem load_silent (hdocument : Says files path? document) (h : load files vars path? = .ok s)
    (x : Setting α) (hsilent : Value.Silent x.place.path (.table document)) :
    x.Has s (leftTo (.table (Variables.load vars)) (.table document) x.place) := by
  rw [hdocument.load_eq] at h
  rw [← Value.given?_merge_of_silent hdocument.wellFormed hsilent]
  exact has_of_ofTable h x

/-- A setting the document gives is set to it under any variables. One that the document does not
mention, nor anything on the way to it but tables, is what the variables say it is, or its
default. -/
theorem load_precedence (hdocument : Says files path? document)
    (h : load files vars path? = .ok s) (h' : load files vars' path? = .ok s') (x : Setting α) :
    (∀ v, (Value.table document).given? x.place = some v → v.isTable = false →
      x.read v = .ok (x.get s) ∧ x.read v = .ok (x.get s')) ∧
    (Value.Silent x.place.path (.table document) →
      x.Has s (leftTo (.table (Variables.load vars)) (.table document) x.place) ∧
        x.Has s' (leftTo (.table (Variables.load vars')) (.table document) x.place)) := by
  refine ⟨?_, ?_⟩
  · intro v hgiven hleaf
    exact ⟨load_given hdocument h x hgiven hleaf, load_given hdocument h' x hgiven hleaf⟩
  · intro hsilent
    exact ⟨load_silent hdocument h x hsilent, load_silent hdocument h' x hsilent⟩

end

/-! One document, with a user name and no more, over a list that gives the address by position and
over a variable that says how many updates may be in flight. -/

def oneDocument (text : String) : FileTree := { entries := [(["rmx.toml"], .file text.toUTF8)] }

theorem oneDocument_leads (text : String) : (oneDocument text).Leads "/rmx.toml" ["rmx.toml"] :=
  ⟨rfl, rfl, by decide⟩

theorem findFile?_oneDocument (text : String) :
    findFile? (oneDocument text) "/rmx.toml" = some "/rmx.toml" := by
  have habsolute : Path.isAbsolute "/rmx.toml" = true := by decide
  have hfile : (oneDocument text).isFile "/rmx.toml" = true := by
    unfold FileTree.isFile
    rw [(oneDocument_leads text).locate]
    rfl
  rw [findFile?, if_pos habsolute, if_pos hfile]

theorem readText_oneDocument (text : String) :
    (oneDocument text).readText "/rmx.toml" = .ok text :=
  FileTree.readText_eq_ok_iff.mpr
    ⟨_, _, oneDocument_leads text, rfl, FileTree.fromUTF8?_toUTF8 text⟩

def userDocument : String :=
  "[migration]\noperation = \"encode-queues\"\n[route_manager]\nusername = \"u\"\n"

def userTable : Table :=
  [("migration", .table [("operation", .text "encode-queues")]),
    ("route_manager", .table [("username", .text "u")])]

def userSettings : Settings where
  routeManager := { username := some "u" }
  migration := { operation := .encodeQueues }

def listed : List (String × String) := [("RMX_ROUTE_MANAGER", "[http://x]")]

def inFlight : List (String × String) := [("RMX_MIGRATION__UPDATE_PARALLELISM", "4")]

theorem load_listed : Variables.load listed = [("route_manager", .list [.text "http://x"])] := by
  decide +kernel

theorem load_inFlight :
    Variables.load inFlight = [("migration", .table [("update_parallelism", .unsigned 4)])] := by
  decide +kernel

theorem parse_userDocument : Toml.parse userDocument = some userTable := by
  decide +kernel

theorem says_userDocument : Says (oneDocument userDocument) (some "/rmx.toml") userTable := by
  have hfound : (some "/rmx.toml").bind (findFile? (oneDocument userDocument)) =
      some "/rmx.toml" := findFile?_oneDocument _
  rw [Says, hfound]
  exact ⟨userDocument, readText_oneDocument _, parse_userDocument⟩

theorem load_userDocument_listed :
    load (oneDocument userDocument) listed (some "/rmx.toml") = .ok userSettings := by
  rw [says_userDocument.load_eq, load_listed]
  rfl

theorem load_userDocument_inFlight :
    load (oneDocument userDocument) inFlight (some "/rmx.toml") =
      .ok { userSettings with migration.updateParallelism := 4 } := by
  rw [says_userDocument.load_eq, load_inFlight]
  rfl

theorem load_precedence_inFlight :
    Setting.username.Has userSettings (some (.text "u")) ∧
      Setting.updateParallelism.Has userSettings none ∧
      Setting.updateParallelism.Has { userSettings with migration.updateParallelism := 4 }
        (some (.unsigned 4)) := by
  have hsilent : Value.Silent Setting.updateParallelism.place.path (.table userTable) := by
    intro v hv
    cases hv
    intro w hw
    cases hw
  have hprecedence := fun {α : Type} (x : Setting α) =>
    load_precedence says_userDocument load_userDocument_listed load_userDocument_inFlight x
  have hgiven := (hprecedence .username).1 (.text "u") rfl rfl
  have hsaid := (hprecedence .updateParallelism).2 hsilent
  rw [load_listed, load_inFlight] at hsaid
  exact ⟨hgiven.1, hsaid.1, hsaid.2⟩

/-- The list gives an address, the document does not say a word on it, and what counts is the
default all the same. -/
theorem load_list_replaced :
    load (oneDocument userDocument) listed (some "/rmx.toml") = .ok userSettings ∧
      Says (oneDocument userDocument) (some "/rmx.toml") userTable ∧
      Value.Silent Setting.baseUrl.place.path (.table userTable) ∧
      (Value.table (Variables.load listed)).given? Setting.baseUrl.place =
        some (.text "http://x") ∧
      ¬ Setting.baseUrl.Has userSettings (some (.text "http://x")) := by
  refine ⟨load_userDocument_listed, says_userDocument, ?_, ?_, ?_⟩
  · intro v hv
    cases hv
    intro w hw
    cases hw
  · rw [load_listed]
    rfl
  · intro h
    have haddress : "http://x" = userSettings.routeManager.baseUrl := Except.ok.inj h
    revert haddress
    decide

end RouteMigration.Settings
