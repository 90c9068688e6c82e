import RouteMigration.Proofs.Credentials.Assignments

/-! The account of an environment: what a document last says of its two keys, and a refusal that
names a key of which it says nothing. -/

namespace RouteMigration.Credentials

open RouteMigration.Text RouteMigration.Properties

def usernameKey (environment : String) : String := "emxaccount" ++ environment ++ ".username"

def passwordKey (environment : String) : String := "emxaccount" ++ environment ++ ".password"

/-- A name between two fixed parts is as legible as these. -/
theorem legible_within {front back : String} (hfront : Legible front.toList)
    (hback : Legible back.toList) (hne : front ≠ "" ∧ back ≠ "") {name : String}
    (hname : ∀ c ∈ name.toList, c ∉ ['=', ':']) : Legible (front ++ name ++ back).toList := by
  have hhead : (front ++ name ++ back).toList.head? = front.toList.head? := by
    cases h : front.toList with
    | nil => exact absurd (String.toList_eq_nil_iff.mp h) hne.1
    | cons c s => simp [h]
  have hlast : (front ++ name ++ back).toList.getLast? = back.toList.getLast? := by
    rw [String.toList_append, List.getLast?_append]
    cases h : back.toList.getLast? with
    | none => exact absurd (String.toList_eq_nil_iff.mp (List.getLast?_eq_none_iff.mp h)) hne.2
    | some c => rfl
  refine ⟨⟨?_, ?_⟩, ?_, ?_⟩
  · rw [hhead]
    exact hfront.bare.first
  · rw [hlast]
    exact hback.bare.last
  · simp only [String.toList_append, List.forall_mem_append]
    exact ⟨⟨hfront.separators, hname⟩, hback.separators⟩
  · rw [hhead]
    exact hfront.first

/-- What the keys are made of, besides the environment. -/
theorem legible_parts : ∀ part ∈ ["emxaccount", ".username", ".password"],
    Legible part.toList ∧ part ≠ "" := by decide +kernel

section
variable {environment : String} (henv : ∀ c ∈ environment.toList, c ∉ ['=', ':'])
include henv

theorem legible_usernameKey : Legible (usernameKey environment).toList :=
  have hfront := legible_parts "emxaccount" (by simp)
  have hback := legible_parts ".username" (by simp)
  legible_within hfront.1 hback.1 ⟨hfront.2, hback.2⟩ henv

theorem legible_passwordKey : Legible (passwordKey environment).toList :=
  have hfront := legible_parts "emxaccount" (by simp)
  have hback := legible_parts ".password" (by simp)
  legible_within hfront.1 hback.1 ⟨hfront.2, hback.2⟩ henv

end

section
variable {text environment : String}

theorem ofProperties_eq (text environment : String) :
    ofProperties text environment =
      match lookup? (parse text) (usernameKey environment),
        lookup? (parse text) (passwordKey environment) with
      | some username, some password => .ok ⟨username, password⟩
      | none, _ => .error ⟨.entryMissing (usernameKey environment), []⟩
      | some _, none => .error ⟨.entryMissing (passwordKey environment), []⟩ := by
  unfold ofProperties usernameKey passwordKey require
  dsimp only
  cases lookup? (parse text) ("emxaccount" ++ environment ++ ".username") with
  | none => rfl
  | some username =>
    cases lookup? (parse text) ("emxaccount" ++ environment ++ ".password") <;> rfl

theorem ofProperties_eq_ok_iff {username password : String} :
    ofProperties text environment = .ok ⟨username, password⟩ ↔
      lookup? (parse text) (usernameKey environment) = some username ∧
        lookup? (parse text) (passwordKey environment) = some password := by
  rw [ofProperties_eq]
  cases lookup? (parse text) (usernameKey environment) <;>
    cases lookup? (parse text) (passwordKey environment) <;> simp

theorem ofProperties_eq_error_iff {f : Failure} :
    ofProperties text environment = .error f ↔
      (lookup? (parse text) (usernameKey environment) = none ∧
        f = ⟨.entryMissing (usernameKey environment), []⟩) ∨
      (lookup? (parse text) (usernameKey environment) ≠ none ∧
        lookup? (parse text) (passwordKey environment) = none ∧
        f = ⟨.entryMissing (passwordKey environment), []⟩) := by
  rw [ofProperties_eq]
  cases lookup? (parse text) (usernameKey environment) <;>
    cases lookup? (parse text) (passwordKey environment) <;> simp [eq_comm]

end

/-- Of every document, whatever else it says: an account is read just as it was last assigned,
and there is none just where a key was never assigned, which the refusal names. -/
theorem ofProperties_account {environment : String}
    (henv : ∀ c ∈ environment.toList, c ∉ ['=', ':']) (text : String) :
    (∀ username password : String, Bare username.toList → Bare password.toList →
      (ofProperties text environment = .ok ⟨username, password⟩ ↔
        LastAssigns text (usernameKey environment) username ∧
          LastAssigns text (passwordKey environment) password)) ∧
    ((∃ f, ofProperties text environment = .error f) ↔
      ¬ Mentions text (usernameKey environment) ∨ ¬ Mentions text (passwordKey environment)) ∧
    ∀ f, ofProperties text environment = .error f →
      ∃ key ∈ [usernameKey environment, passwordKey environment], ¬ Mentions text key ∧
        f.message = "no '" ++ key ++ "' entry" := by
  have huser := legible_usernameKey henv
  have hpass := legible_passwordKey henv
  refine ⟨?_, ?_, ?_⟩
  · intro username password husername hpassword
    rw [ofProperties_eq_ok_iff, lookup?_parse_eq_some_iff huser, lookup?_parse_eq_some_iff hpass]
    constructor
    · rintro ⟨⟨huser, -⟩, hpass, -⟩
      exact ⟨huser, hpass⟩
    · rintro ⟨huser, hpass⟩
      exact ⟨⟨huser, husername⟩, hpass, hpassword⟩
  · simp only [ofProperties_eq_error_iff, lookup?_parse_eq_none_iff huser,
      lookup?_parse_eq_none_iff hpass, ne_eq]
    constructor
    · rintro ⟨f, ⟨hnone, -⟩ | ⟨-, hnone, -⟩⟩
      · exact .inl hnone
      · exact .inr hnone
    · intro hnone
      by_cases hmentions : Mentions text (usernameKey environment)
      · exact ⟨_, .inr ⟨not_not.mpr hmentions, hnone.resolve_left (not_not.mpr hmentions), rfl⟩⟩
      · exact ⟨_, .inl ⟨hmentions, rfl⟩⟩
  · intro f hf
    rcases ofProperties_eq_error_iff.mp hf with ⟨hnone, rfl⟩ | ⟨-, hnone, rfl⟩
    · exact ⟨_, List.mem_cons_self, (lookup?_parse_eq_none_iff huser).mp hnone, rfl⟩
    · exact ⟨_, List.mem_cons_of_mem _ List.mem_cons_self,
        (lookup?_parse_eq_none_iff hpass).mp hnone, rfl⟩

/-! A document with comments that look like assignments, two assignments of one key, other
environments, all kinds of white space, and values that hold separators and comment marks. -/

def crowdedFront : List (List Char) :=
  ["# emxaccountdev.username=no".toList, "emxaccountdev.username = first\r".toList, [],
   "emxaccountdev2.username=other".toList, "no separator".toList]

def crowdedBack : List (List Char) :=
  ["! emxaccountdev.username=late".toList, "emxaccountstage.username: stage".toList]

def usernameLine : List Char :=
  (['\u00a0'] ++ (usernameKey "dev").toList ++ ['\t']) ++
    ':' :: (['\u3000'] ++ "svc:dev=1".toList ++ [' ', '\r'])

def passwordLine : List Char :=
  ([] ++ (passwordKey "dev").toList ++ []) ++ '=' :: ([] ++ "=#!".toList ++ [' '])

def crowdedLines : List (List Char) :=
  crowdedFront ++ usernameLine :: (crowdedBack ++ [passwordLine])

def crowded : String := String.ofList (['\n'].intercalate crowdedLines)

theorem splitOn_crowded : crowded.toList.splitOn '\n' = crowdedLines := by
  have hlines : ∀ line ∈ crowdedLines, '\n' ∉ line := by decide +kernel
  rw [crowded, String.toList_ofList]
  exact List.splitOn_intercalate '\n' hlines (List.append_ne_nil_of_right_ne_nil _ (by simp))

theorem lastAssigns_crowded :
    LastAssigns crowded (usernameKey "dev") "svc:dev=1" ∧
      LastAssigns crowded (passwordKey "dev") "=#!" := by
  have hdev : ∀ c ∈ "dev".toList, c ∉ ['=', ':'] := by simp
  have hothers : ∀ l ∈ crowdedBack ++ [passwordLine],
      (assignment? l).map Prod.fst ≠ some (usernameKey "dev") := by decide +kernel
  have husername : Assigns (usernameKey "dev").toList "svc:dev=1".toList usernameLine :=
    .line (by decide) (by decide) (by decide) (by decide) (by decide)
  have hpassword : Assigns (passwordKey "dev").toList "=#!".toList passwordLine :=
    .line (by decide) (by decide) (by decide) (by decide) (by decide)
  constructor
  · exact ⟨crowdedFront, usernameLine, _, splitOn_crowded, husername,
      fun l hl => not_assigns_of_other (legible_usernameKey hdev) (hothers l hl)⟩
  · refine ⟨crowdedFront ++ usernameLine :: crowdedBack, passwordLine, [], ?_, hpassword,
      fun l hl => nomatch hl⟩
    rw [splitOn_crowded, crowdedLines, List.append_assoc, List.cons_append]

theorem ofProperties_account_crowded :
    (∀ c ∈ "dev".toList, c ∉ ['=', ':']) ∧ ofProperties crowded "dev" = .ok ⟨"svc:dev=1", "=#!"⟩ := by
  have hdev : ∀ c ∈ "dev".toList, c ∉ ['=', ':'] := by simp
  have hbare : Bare "svc:dev=1".toList ∧ Bare "=#!".toList := by decide +kernel
  exact ⟨hdev, ((ofProperties_account hdev crowded).1 _ _ hbare.1 hbare.2).mpr
    lastAssigns_crowded⟩

end RouteMigration.Credentials
