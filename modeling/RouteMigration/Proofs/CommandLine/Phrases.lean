import RouteMigration.CommandLine.Program
import RouteMigration.Proofs.Text.Phrase
import RouteMigration.Proofs.World.Served

/-! What a failure has to say for the advice to check the connection. -/

namespace RouteMigration

open RouteMigration.Text

/-- What a cause repeats: addresses, answers, names and paths, of which the program only knows
where it got them from. -/
def Cause.quotes : Cause → List String
  | .noCredentials environment => ["emxaccount" ++ environment]
  | .credentialsUnreadable s | .accountMissing s | .entryMissing s | .notLoaded s
  | .sourceUnreadable s | .refusal (.mistyped s) | .backupDirectory s | .backupFile s
  | .backupListing s | .noBackup s | .stopped s _ _ | .notClosed s | .sinkUnwritable s => [s]
  | .notUpdated name uuid => [name, uuid]
  | .refused _ url _ body => [url, body]
  | _ => []

namespace CommandLine

def phrases : List (List Char) := connectionPhrases.map String.toList

theorem phrases_eq : phrases =
    [['e', 'r', 'r', 'o', 'r', ' ', 's', 'e', 'n', 'd', 'i', 'n', 'g', ' ',
        'r', 'e', 'q', 'u', 'e', 's', 't'],
      ['c', 'o', 'n', 'n', 'e', 'c', 't', 'i', 'o', 'n', ' ', 'r', 'e', 'f', 'u', 's', 'e', 'd'],
      ['C', 'o', 'n', 'n', 'e', 'c', 't', 'i', 'o', 'n', ' ', 'r', 'e', 'f', 'u', 's', 'e', 'd'],
      ['t', 'c', 'p', ' ', 'c', 'o', 'n', 'n', 'e', 'c', 't', ' ', 'e', 'r', 'r', 'o', 'r'],
      ['d', 'n', 's', ' ', 'e', 'r', 'r', 'o', 'r'],
      ['o', 'p', 'e', 'r', 'a', 't', 'i', 'o', 'n', ' ', 't', 'i', 'm', 'e', 'd', ' ',
        'o', 'u', 't']] := by
  simp [phrases, connectionPhrases]

/-- The text sounds as if the route manager could not be reached. -/
def Phrased (s : String) : Prop := Holds phrases s.toList

theorem soundsUnreachable_iff_phrased {c : Cause} :
    soundsUnreachable c = true ↔ Phrased c.message := by
  unfold soundsUnreachable Phrased Holds phrases
  simp only [List.any_eq_true, List.mem_map, exists_exists_and_eq_and, occursIn_iff]

/-- Every phrase has an `e`. -/
theorem not_phrased_of_not_mem {s : String} (h : 'e' ∉ s.toList) : ¬ Phrased s := by
  have he : ∀ p ∈ phrases, 'e' ∈ p := by simp [phrases_eq]
  rintro ⟨p, hp, hin⟩
  exact h (hin.subset (he p hp))

theorem isDigit_of_mem_toString {n : Nat} {c : Char} (h : c ∈ (toString n).toList) :
    c.isDigit = true := by
  rw [Nat.toString_eq_ofList_toDigits, String.toList_ofList] at h
  exact Nat.isDigit_of_mem_toDigits (by decide) (by decide) h

theorem not_phrased_toString (n : Nat) : ¬ Phrased (toString n) := by
  refine not_phrased_of_not_mem fun he => ?_
  cases isDigit_of_mem_toString he

/-! ## What is fixed in the texts of causes -/

/-- What stands in front of a text that a cause repeats. -/
def fronts : List String :=
  ["💀 ", " ", "GET", "PUT",
   "💀 No credentials for the route manager. Set route_manager.username and ",
   "route_manager.password, or point route_manager.credentials_file at a properties ",
   "file with ", "💀 Couldn't read credentials file '", "💀 Credentials file '", "no '",
   "💀 Couldn't load routes from ",
   "💀 The routes document refused to become routes. Expected an object with a `routesList` array, ",
   "each route carrying at least uuid, name, rule and queues. ", "💀 The routes file '",
   "💀 Couldn't create backup directory '", "💀 Couldn't write the backup '",
   "💀 Couldn't list backup directory '", "💀 No OriginalRoutes*.json in '", "💀 Submitting to ",
   "💀 Updating route '", "💀 Couldn't close ", "💀 Error writing '"]

/-- What stands between two of them. -/
def gaps : List String := [" answered ", ". Body: ", " stopped after ", " of ", "' ("]

/-- What stands behind the last of them. -/
def backs : List String :=
  [".username / .password.", "'", "' is missing an account", "' entry",
   "' could not be read. We stared at the path. ",
   "The path stared back. One of us was wrong about whether it existed.",
   "'. Nothing was changed. Nothing will be, until this works.", "'. Pass --from <file>.",
   " routes. The backup has the originals if you need to revert.", ") failed",
   "'. The routes were SO CLOSE. They could SEE the disk."]

/-- The texts in which nothing is repeated. -/
def plainTexts : List String :=
  "<unknown status code>" :: Status.reasons.map Prod.snd ++
    ["expected value", "EOF while parsing a value", "Something in there is missing or mistyped."] ++
    [OsError.notFound, .alreadyExists, .notDirectory, .isDirectory, .nameTooLong, .noSpace,
      .noContent, .nulInPath, .notText].map OsError.message

theorem fixed_parts : (∀ s ∈ fronts, Opens phrases s.toList) ∧ (∀ s ∈ gaps, Bars phrases s.toList) ∧
    (∀ s ∈ backs, Closes phrases s.toList) ∧ ∀ s ∈ plainTexts, ¬ Phrased s := by
  have hparts : (∀ s ∈ fronts.map String.toList, Opens phrases s) ∧
      (∀ s ∈ gaps.map String.toList, Bars phrases s) ∧
      (∀ s ∈ backs.map String.toList, Closes phrases s) ∧
      ∀ s ∈ plainTexts.map String.toList, ¬ Holds phrases s := by
    simp only [fronts, gaps, backs, plainTexts, Status.reasons, OsError.message, List.map_cons,
      List.map_nil, List.cons_append, List.nil_append]
    repeat rw [String.toList_ofList]
    rw [phrases_eq]
    decide +kernel
  simpa only [List.forall_mem_map, Phrased] using hparts

section
variable {s x y : String}

theorem phrased_front (h : s ∈ fronts) : Phrased (s ++ y) ↔ Phrased y := by
  rw [Phrased, String.toList_append]
  exact holds_opening (fixed_parts.1 s h)

theorem phrased_gap (h : s ∈ gaps) : Phrased (x ++ (s ++ y)) ↔ Phrased x ∨ Phrased y := by
  rw [Phrased, String.toList_append, String.toList_append]
  exact holds_between (fixed_parts.2.1 s h)

theorem phrased_back (h : s ∈ backs) : Phrased (x ++ s) ↔ Phrased x := by
  rw [Phrased, String.toList_append]
  exact holds_closing (fixed_parts.2.2.1 s h)

theorem not_phrased_of_mem (h : s ∈ plainTexts) : ¬ Phrased s := fixed_parts.2.2.2 s h

end

theorem phrased_digits (n : Nat) (y : String) : Phrased (toString n ++ y) ↔ Phrased y := by
  have hphrases : ∀ p ∈ phrases, ∃ c t, p = c :: t ∧ c.isDigit = false := by
    simp [phrases_eq]
  rw [Phrased, String.toList_append]
  refine holds_opening fun p hp rest hrest hne => ?_
  obtain ⟨c, t, rfl, hc⟩ := hphrases p hp
  obtain ⟨d, u, rfl⟩ := List.exists_cons_of_ne_nil hne
  have hd : d.isDigit = true :=
    isDigit_of_mem_toString (((List.mem_tails _ _).mp hrest).subset List.mem_cons_self)
  have hcd : c ≠ d := by
    rintro rfl
    rw [hc] at hd
    cases hd
  rw [List.cons_prefix_cons, List.cons_prefix_cons]
  exact ⟨fun h => hcd h.1, fun h => hcd h.1.symm⟩

/-! ## What the causes say -/

theorem not_phrased_osError (e : OsError) : ¬ Phrased e.message := by
  refine not_phrased_of_mem ?_
  cases e <;> simp [plainTexts, OsError.message]

theorem not_phrased_refusalContext : ¬ Phrased Document.refusalContext := by
  unfold Document.refusalContext
  rw [String.append_assoc, phrased_front, phrased_front]
  · exact not_phrased_of_mem (by simp [plainTexts])
  all_goals simp [fronts]

theorem not_phrased_reason (s : Status) : ¬ Phrased s.reason := by
  refine not_phrased_of_mem ?_
  unfold Status.reason plainTexts
  cases h : Status.reasons.lookup s.code with
  | none => simp
  | some r =>
    obtain ⟨before, after, hreasons, -⟩ := List.lookup_eq_some_iff.mp h
    have hr : r ∈ Status.reasons.map Prod.snd := by simp [hreasons]
    simp [hr]

theorem phrased_refused {method : Method} {url body : String} {status : Status} :
    Phrased (Cause.refused method url status body).message ↔ Phrased url ∨ Phrased body := by
  have hmethod : method.name ∈ fronts := by cases method <;> simp [fronts, Method.name]
  have hstatus : ¬ Phrased status.text := by
    unfold Status.text
    rw [String.append_assoc, phrased_digits, phrased_front (by simp [fronts])]
    exact not_phrased_reason status
  unfold Cause.message
  dsimp only
  simp only [String.append_assoc]
  rw [phrased_front, phrased_front hmethod, phrased_front, phrased_gap, phrased_gap,
    or_iff_right hstatus]
  all_goals simp [fronts, gaps]

theorem phrased_stopped {sink : String} {done total : Nat} :
    Phrased (Cause.stopped sink done total).message ↔ Phrased sink := by
  unfold Cause.message
  dsimp only
  simp only [String.append_assoc]
  rw [phrased_front, phrased_gap, phrased_gap, phrased_back,
    or_iff_left (not_phrased_toString total), or_iff_left (not_phrased_toString done)]
  all_goals simp [fronts, gaps, backs]

theorem phrased_notUpdated {name uuid : String} :
    Phrased (Cause.notUpdated name uuid).message ↔ Phrased name ∨ Phrased uuid := by
  unfold Cause.message
  dsimp only
  simp only [String.append_assoc]
  rw [phrased_front, phrased_gap, phrased_back]
  all_goals simp [fronts, gaps, backs]

theorem phrased_noCredentials {environment : String} :
    Phrased (Cause.noCredentials environment).message ↔ Phrased ("emxaccount" ++ environment) := by
  have hlast : "file with emxaccount" = "file with " ++ "emxaccount" := by simp
  unfold Cause.message
  dsimp only
  simp only [String.append_assoc]
  rw [phrased_front, phrased_front, hlast, String.append_assoc, phrased_front,
    ← String.append_assoc, phrased_back]
  all_goals simp [fronts, backs]

theorem phrased_sourceUnreadable {path : String} :
    Phrased (Cause.sourceUnreadable path).message ↔ Phrased path := by
  unfold Cause.message
  dsimp only
  rw [phrased_back, phrased_back, phrased_front]
  all_goals simp [fronts, backs]

theorem exists_mem_one {s : String} : (∃ t ∈ [s], Phrased t) ↔ Phrased s := by simp

/-- What sounds unreachable is what a cause repeats, unless the exchange itself failed. -/
theorem soundsUnreachable_iff {c : Cause} (hc : c.isUnanswered = false) :
    soundsUnreachable c = true ↔ ∃ t ∈ c.quotes, Phrased t := by
  rw [soundsUnreachable_iff_phrased]
  cases c with
  | neverMade | bodyLost | badAddress | addressFlaw | badAddressAt | schemeNotAllowed | sendingTo
  | connecting | connectingByTcp | connectionRefused | decodingBodyFrom | bodyError | readingBody
  | bodyCutShort => cases hc
  | os e => exact iff_of_false (not_phrased_osError e) (by simp [Cause.quotes])
  | document => exact iff_of_false not_phrased_refusalContext (by simp [Cause.quotes])
  | refused method url status body => simp [phrased_refused, Cause.quotes]
  | stopped sink done total => simp [phrased_stopped, Cause.quotes]
  | notUpdated name uuid => simp [phrased_notUpdated, Cause.quotes]
  | noCredentials environment => simp [phrased_noCredentials, Cause.quotes]
  | sourceUnreadable path => simp [phrased_sourceUnreadable, Cause.quotes]
  | refusal r =>
    cases r with
    | mistyped message => exact exists_mem_one.symm
    | malformed | cutShort =>
      unfold Cause.message Cause.quotes
      exact iff_of_false (not_phrased_of_mem (by simp [plainTexts])) (by simp)
  -- the quoted text stands at the end
  | notLoaded s | notClosed s =>
    unfold Cause.message Cause.quotes
    dsimp only
    rw [phrased_front (by simp [fronts]), exists_mem_one]
  -- the quoted text stands between two others
  | credentialsUnreadable s | accountMissing s | entryMissing s | backupDirectory s | backupFile s
  | backupListing s | noBackup s | sinkUnwritable s =>
    unfold Cause.message Cause.quotes
    dsimp only
    rw [phrased_back (by simp [backs]), phrased_front (by simp [fronts]), exists_mem_one]

end CommandLine

end RouteMigration
