import RouteMigration.Proofs.Settings.Precedence
import RouteMigration.Proofs.Settings.Variables.Layers

/-! A user name or a password in a variable of its own. It arrives as it is if its text is a
spelling of nothing else; otherwise the variable means something else, and that is no text or
another one. -/

namespace RouteMigration.Settings

/-! ## Reading -/

inductive Credential where
  | username
  | password
  deriving DecidableEq

namespace Credential

/-- The variable that gives a credential and nothing else. -/
def name : Credential → String
  | username => "RMX_ROUTE_MANAGER__USERNAME"
  | password => "RMX_ROUTE_MANAGER__PASSWORD"

def key : Credential → String
  | username => "username"
  | password => "password"

def putInto (text : String) (r : RouteManagerSettings) : Credential → RouteManagerSettings
  | username => { r with username := some text }
  | password => { r with password := some text }

/-- Some settings with another credential. -/
def put (c : Credential) (text : String) (s : Settings) : Settings :=
  { s with routeManager := c.putInto text s.routeManager }

theorem pathOf?_name (c : Credential) :
    Variables.pathOf? c.name = some ["route_manager", c.key] := by
  cases c <;> decide +kernel

end Credential

theorem entryOr_congr {α : Type} {s t : Table} {key : String} {default a : α} {read : Reading α}
    (h : t.lookup key = s.lookup key) (hs : entryOr s key default read = .ok a) :
    entryOr t key default read = .ok a := by
  unfold entryOr
  rw [h]
  exact hs

theorem entryOr_given {α : Type} {t : Table} {key : String} {v : Value}
    (h : t.lookup key = some v) (default : α) (read : Reading α) :
    entryOr t key default read = under key (read v) := by
  unfold entryOr
  rw [h]

theorem ok_bind {ε α β : Type} (a : α) (f : α → Except ε β) : (Except.ok a >>= f) = f a := rfl

theorem under_someOf {α : Type} (key : String) (read : Reading α) (v : Value) :
    under key (someOf read v) = (under key (read v)).map some := by
  unfold someOf
  cases read v <;> rfl

variable {c : Credential} {v : Value}

theorem routeManagerValue_put {below above : Table} {r : RouteManagerSettings}
    (h : routeManagerValue (.table below) = .ok r) (hgiven : above.lookup c.key = some v)
    (hothers : ∀ k, k ≠ c.key → above.lookup k = below.lookup k) :
    routeManagerValue (.table above) =
      (under c.key (textValue v)).map fun text => c.putInto text r := by
  obtain ⟨baseUrl, hbaseUrl, h⟩ := bind_eq_ok_iff.mp h
  obtain ⟨connectTimeout, hconnectTimeout, h⟩ := bind_eq_ok_iff.mp h
  obtain ⟨credentialsFile, hcredentialsFile, h⟩ := bind_eq_ok_iff.mp h
  obtain ⟨password, hpassword, h⟩ := bind_eq_ok_iff.mp h
  obtain ⟨requestTimeout, hrequestTimeout, h⟩ := bind_eq_ok_iff.mp h
  obtain ⟨username, husername, h⟩ := bind_eq_ok_iff.mp h
  obtain rfl := Except.ok.inj h
  have hbaseUrl := entryOr_congr (hothers "base_url" (by cases c <;> decide)) hbaseUrl
  have hconnectTimeout :=
    entryOr_congr (hothers "connect_timeout_secs" (by cases c <;> decide)) hconnectTimeout
  have hcredentialsFile :=
    entryOr_congr (hothers "credentials_file" (by cases c <;> decide)) hcredentialsFile
  have hrequestTimeout :=
    entryOr_congr (hothers "request_timeout_secs" (by cases c <;> decide)) hrequestTimeout
  have hcredential := (entryOr_given hgiven none (someOf textValue)).trans (under_someOf ..)
  cases c with
  | username =>
    have hpassword := entryOr_congr (hothers "password" (by decide)) hpassword
    simp only [routeManagerValue, hbaseUrl, hconnectTimeout, hcredentialsFile, hpassword,
      hrequestTimeout, ok_bind]
    rw [Credential.key] at hcredential ⊢
    rw [hcredential]
    cases under "username" (textValue v) <;> rfl
  | password =>
    have husername := entryOr_congr (hothers "username" (by decide)) husername
    simp only [routeManagerValue, hbaseUrl, hconnectTimeout, hcredentialsFile, husername,
      hrequestTimeout, ok_bind]
    rw [Credential.key] at hcredential ⊢
    rw [hcredential]
    cases under "password" (textValue v) <;> rfl

theorem ofTable_put {s t : Table} {settings : Settings} (h : ofTable s = .ok settings)
    (hgains : Value.Gains "route_manager" c.key v (.table s) (.table t)) :
    ofTable t =
      (under "route_manager" (under c.key (textValue v))).map fun text => c.put text settings := by
  obtain ⟨below, above, hbelow, habove, hgiven, hothers⟩ := hgains.groups
  obtain ⟨migration?, hmigration, h⟩ := bind_eq_ok_iff.mp h
  obtain ⟨routeManager, hrouteManager, h⟩ := bind_eq_ok_iff.mp h
  obtain ⟨sink, hsink, h⟩ := bind_eq_ok_iff.mp h
  obtain ⟨source, hsource, h⟩ := bind_eq_ok_iff.mp h
  obtain ⟨migration, hrequired, h⟩ := bind_eq_ok_iff.mp h
  obtain rfl := Except.ok.inj h
  have hsame : ∀ k, k ≠ "route_manager" → t.lookup k = s.lookup k := by
    intro k hk
    simpa only [Value.at?_singleton] using hgains.others k hk
  have hmigration := entryOr_congr (hsame "migration" (by decide)) hmigration
  have hsink := entryOr_congr (hsame "sink" (by decide)) hsink
  have hsource := entryOr_congr (hsame "source" (by decide)) hsource
  have hread : routeManagerValue (.table below) = .ok routeManager := by
    have hreads := reads_of_entryOr hrouteManager
    cases hs : s.lookup "route_manager" with
    | none =>
      rw [hs] at hreads hbelow
      cases hreads
      cases hbelow
      rfl
    | some w =>
      rw [hs] at hreads hbelow
      cases hbelow
      exact hreads
  have hgroup := (entryOr_given habove {} routeManagerValue).trans
    (congrArg (under "route_manager") (routeManagerValue_put hread hgiven hothers))
  unfold ofTable
  rw [hmigration, hgroup]
  simp only [ok_bind]
  cases textValue v with
  | ok text =>
    simp only [under, Except.map, ok_bind, hsink, hsource, hrequired]
    rfl
  | error problem => rfl

/-! ## Loading -/

namespace Credential

/-- What comes of a value in the place of a credential. -/
def answer (c : Credential) (s : Settings) : Value → Except Problem Settings
  | .text text => .ok (c.put text s)
  | .char x => .ok (c.put (String.singleton x) s)
  | v => .error ⟨.invalidType v.describe "a string", ["route_manager", c.key]⟩

theorem answer_eq (c : Credential) (s : Settings) (v : Value) :
    ((under "route_manager" (under c.key (textValue v))).map fun text => c.put text s) =
      c.answer s v := by
  cases v <;> rfl

theorem put_inj {s : Settings} {text other : String} (h : c.put text s = c.put other s) :
    text = other := by
  cases c <;> simpa [put, putInto] using h

end Credential

section

variable {files : FileTree} {path? : Option String} {document : Table}
  {before after : List (String × String)} {s : Settings}

theorem load_answer (hdocument : Says files path? document)
    (hsilent : Value.Silent ["route_manager", c.key] (.table document))
    (hothers : ∀ e ∈ before ++ after,
      Value.Silent ["route_manager", c.key] (.table (Variables.load [e])))
    (hvalid : load files (before ++ after) path? = .ok s) (text : String) :
    load files (before ++ (c.name, text) :: after) path? =
      c.answer s (Variables.parseValue text) := by
  rw [hdocument.load_eq] at hvalid ⊢
  have hgains : Value.Gains "route_manager" c.key (Variables.parseValue text)
      (.table (Variables.load (before ++ after)))
      (.table (Variables.load (before ++ (c.name, text) :: after))) :=
    Variables.gains_load c.pathOf?_name (fun e he => hothers e (List.mem_append_left _ he))
      fun e he => hothers e (List.mem_append_right _ he)
  rw [ofTable_put hvalid (hgains.merge hdocument.wellFormed hsilent), Credential.answer_eq]

/-- A credential given by its own variable and by nothing else arrives as it is exactly if its text
is no spelling of anything but itself. What it spells otherwise is what counts: a text is taken
without its quotes, and all else is refused. -/
theorem load_credential (hdocument : Says files path? document)
    (hsilent : Value.Silent ["route_manager", c.key] (.table document))
    (hothers : ∀ e ∈ before ++ after,
      Value.Silent ["route_manager", c.key] (.table (Variables.load [e])))
    (hvalid : load files (before ++ after) path? = .ok s) (text : String) :
    (load files (before ++ (c.name, text) :: after) path? = .ok (c.put text s) ↔
      ∀ v, Variables.Spelling text.toList v → v = .text text) ∧
    ∀ v, Variables.Spelling text.toList v →
      load files (before ++ (c.name, text) :: after) path? = c.answer s v := by
  have hanswer := load_answer hdocument hsilent hothers hvalid text
  have hspelled : ∀ v, Variables.Spelling text.toList v →
      load files (before ++ (c.name, text) :: after) path? = c.answer s v := by
    intro v hv
    rw [hanswer, Variables.parseValue_of_spelling hv]
  refine ⟨⟨?_, ?_⟩, hspelled⟩
  · intro h v hv
    rw [hspelled v hv] at h
    cases v with
    | text other => rw [Credential.put_inj (Except.ok.inj h)]
    | char x =>
      have hsingle : String.singleton x = text := Credential.put_inj (Except.ok.inj h)
      have hlength := hv.char_length rfl
      rw [← hsingle] at hlength
      simp at hlength
    | _ => cases h
  · intro h
    rw [hanswer, Variables.parseValue_eq_text_iff.mpr h]
    rfl

end

/-! A password of letters, and one of digits. -/

def encoding : List (String × String) := [("RMX_MIGRATION__OPERATION", "encode-queues")]

def encodingSettings : Settings where
  migration := { operation := .encodeQueues }

theorem load_encoding :
    Variables.load encoding = [("migration", .table [("operation", .text "encode-queues")])] := by
  decide +kernel

theorem says_nothing : Says ⟨[], []⟩ none [] := rfl

theorem load_encodingSettings : load ⟨[], []⟩ (encoding ++ []) none = .ok encodingSettings := by
  rw [says_nothing.load_eq, List.append_nil, load_encoding]
  rfl

theorem encoding_silent (c : Credential) : ∀ e ∈ encoding ++ [],
    Value.Silent ["route_manager", c.key] (.table (Variables.load [e])) := by
  intro e he
  obtain rfl := List.mem_singleton.mp he
  have hload : Variables.load [("RMX_MIGRATION__OPERATION", "encode-queues")] =
      [("migration", .table [("operation", .text "encode-queues")])] := load_encoding
  rw [hload]
  exact Value.silent_single (by decide)

theorem load_credential_letters :
    load ⟨[], []⟩ (encoding ++ [("RMX_ROUTE_MANAGER__PASSWORD", "pa:ss word")]) none =
      .ok { encodingSettings with routeManager.password := some "pa:ss word" } := by
  have hcredential := load_credential (c := .password) says_nothing
    (Value.silent_empty _ _) (encoding_silent .password) load_encodingSettings "pa:ss word"
  exact hcredential.1.mpr (Variables.parseValue_eq_text_iff.mp (by decide +kernel))

theorem digits_refused :
    load ⟨[], []⟩ (encoding ++ []) none = .ok encodingSettings ∧
      load ⟨[], []⟩ (encoding ++ [("RMX_ROUTE_MANAGER__PASSWORD", "12345")]) none =
        .error ⟨.invalidType "unsigned int `12345`" "a string", ["route_manager", "password"]⟩ := by
  refine ⟨load_encodingSettings, ?_⟩
  have hanswer := load_answer (c := .password) says_nothing
    (Value.silent_empty _ _) (encoding_silent .password) load_encodingSettings "12345"
  have hvalue : Variables.parseValue "12345" = .unsigned 12345 := by decide +kernel
  rw [hvalue] at hanswer
  exact hanswer

end RouteMigration.Settings
