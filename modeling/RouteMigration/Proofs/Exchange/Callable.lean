import Mathlib.Data.List.TakeWhile
import RouteMigration.Exchange.Client
import RouteMigration.Proofs.Text.Blank
import RouteMigration.Proofs.Text.Cut

/-! Which addresses can be called. The calls of one route manager differ in the last word of their
addresses only, and that word does not decide: either all of them can be called, or none. -/

namespace RouteMigration

open RouteMigration.Text

namespace WebAddress

/-- The text of an address without what does not count in it. -/
def cleaned (text : String) : List Char :=
  (parse.trimBlank text.toList).filter fun c => c ≠ '\t' && c ≠ '\n' && c ≠ '\r'

/-- Where the host of an address is looked for. -/
def authorityText (s : List Char) : List Char :=
  ((s.map fun c => if c = '\\' then '/' else c).dropWhile (· = '/')).takeWhile (· ≠ '/')

def IsCalled (scheme : List Char) : Prop := scheme = "http".toList ∨ scheme = "https".toList

/-- The text is the address of a host that can be called. -/
def Calls (s : List Char) : Prop :=
  ∃ scheme rest port authority, cutScheme s = some (scheme, rest) ∧ IsCalled scheme ∧
    hostedSchemes.lookup scheme = some port ∧
      readAuthority (some port) (authorityText (cutTail rest).1) = .ok authority

theorem schemeIsAllowed_iff {a : WebAddress} : a.schemeIsAllowed = true ↔ IsCalled a.scheme := by
  simp only [schemeIsAllowed, IsCalled, Bool.or_eq_true, beq_iff_eq]

theorem IsCalled.port {scheme : List Char} (h : IsCalled scheme) :
    ∃ port, hostedSchemes.lookup scheme = some port := by
  rcases h with rfl | rfl
  · exact ⟨80, rfl⟩
  · exact ⟨443, rfl⟩

end WebAddress

open WebAddress

theorem of_bind_pure_ok {ε α β : Type} {x : Except ε α} {f : α → β} {y : β}
    (h : (x >>= fun a => pure (f a)) = .ok y) : ∃ a, x = .ok a ∧ f a = y := by
  cases x with
  | error e => cases h
  | ok a => exact ⟨a, rfl, Except.ok.inj h⟩

theorem WebAddress.scheme_of_parse {text : String} {a : WebAddress} (h : parse text = .ok a) :
    ∃ rest, cutScheme (cleaned text) = some (a.scheme, rest) := by
  unfold parse at h
  dsimp only at h
  rw [← cleaned] at h
  split at h
  · cases h
  · next scheme rest hcut =>
    refine ⟨rest, hcut.trans ?_⟩
    split at h
    · obtain ⟨authority, -, rfl⟩ := of_bind_pure_ok h
      rfl
    · split at h
      · obtain ⟨authority, -, rfl⟩ := of_bind_pure_ok h
        rfl
      · cases h
        rfl
      · cases h
        rfl

theorem WebAddress.parse_hosted {text : String} {scheme rest : List Char} {port : Nat}
    (hcut : cutScheme (cleaned text) = some (scheme, rest))
    (hport : hostedSchemes.lookup scheme = some port) :
    ∃ hosted : List Char → WebAddress, (∀ authority, (hosted authority).scheme = scheme) ∧
      parse text = (readAuthority (some port) (authorityText (cutTail rest).1)).map hosted := by
  unfold parse
  dsimp only
  rw [← cleaned, hcut]
  dsimp only
  rw [hport]
  dsimp only
  exact ⟨_, fun _ => rfl, rfl⟩

theorem Client.address_ok_iff {text : String} :
    (∃ a, Client.address text = .ok a) ↔ Calls (cleaned text) := by
  constructor
  · rintro ⟨a, ha⟩
    unfold Client.address at ha
    split at ha
    · cases ha
    · next b hparse =>
      split at ha
      · next hallowed =>
        cases ha
        have hcalled := schemeIsAllowed_iff.mp hallowed
        obtain ⟨port, hport⟩ := hcalled.port
        obtain ⟨rest, hcut⟩ := scheme_of_parse hparse
        obtain ⟨hosted, -, hmap⟩ := parse_hosted hcut hport
        rw [hparse] at hmap
        cases hread : readAuthority (some port) (authorityText (cutTail rest).1) with
        | error flaw =>
          rw [hread] at hmap
          cases hmap
        | ok authority => exact ⟨_, rest, port, authority, hcut, hcalled, hport, hread⟩
      · cases ha
  · rintro ⟨scheme, rest, port, authority, hcut, hcalled, hport, hread⟩
    obtain ⟨hosted, hhosted, hparse⟩ := parse_hosted hcut hport
    rw [hread, Except.map] at hparse
    have hallowed : (hosted authority).schemeIsAllowed = true := by
      rw [schemeIsAllowed_iff, hhosted]
      exact hcalled
    refine ⟨hosted authority, ?_⟩
    rw [Client.address, hparse]
    dsimp only
    rw [if_pos hallowed]

/-! ## The last word -/

/-- A word of small letters, as the addresses of calls end in. -/
structure IsWord (word : List Char) : Prop where
  nonempty : word ≠ []
  letters : ∀ c ∈ word, 'a' ≤ c ∧ c ≤ 'z'

/-- Between the slash in front of a word and its end, nothing is cut off. -/
theorem IsWord.not_mem {word : List Char} (h : IsWord word) {c : Char}
    (hc : c ≠ '/' ∧ ¬ ('a' ≤ c ∧ c ≤ 'z')) : c ∉ '/' :: word := by
  rw [List.mem_cons, not_or]
  exact ⟨hc.1, fun hmem => hc.2 (h.letters c hmem)⟩

theorem cutFirst_append_right {sep : Char} {s t : List Char} (h : sep ∉ t) :
    cutFirst sep (s ++ t) = (cutFirst sep s).map fun (before, after) => (before, after ++ t) := by
  cases hs : cutFirst sep s with
  | none =>
    rw [cutFirst_eq_none_iff] at hs
    rw [cutFirst_eq_none_iff.mpr (by simpa using ⟨hs, h⟩), Option.map_none]
  | some p =>
    obtain ⟨before, after⟩ := p
    obtain ⟨rfl, hbefore⟩ := cutFirst_eq_some_iff.mp hs
    rw [List.append_assoc, List.cons_append, cutFirst_append hbefore, Option.map_some]

theorem cutScheme_word {word : List Char} (h : IsWord word) (front : List Char) :
    cutScheme (front ++ '/' :: word) =
      (cutScheme front).map fun (scheme, rest) => (scheme, rest ++ '/' :: word) := by
  unfold cutScheme
  rw [cutFirst_append_right (h.not_mem (by decide))]
  cases cutFirst ':' front with
  | none => rfl
  | some p =>
    dsimp only [Option.map_some]
    split <;> rfl

/-- What the tail of an address leaves of it. -/
theorem cutTail_fst (s : List Char) :
    (cutTail s).1 = ((cutFirst '?' ((cutFirst '#' s).elim s Prod.fst)).elim
      ((cutFirst '#' s).elim s Prod.fst) Prod.fst) := by
  unfold cutTail
  cases cutFirst '#' s with
  | none =>
    dsimp only [Option.elim_none]
    cases cutFirst '?' s <;> rfl
  | some p =>
    obtain ⟨before, after⟩ := p
    dsimp only [Option.elim_some]
    cases cutFirst '?' before <;> rfl

/-- Either the word is cut off with the tail, or nothing is. -/
theorem cutTail_word {word : List Char} (h : IsWord word) (rest : List Char) :
    (cutTail (rest ++ '/' :: word)).1 =
      if '#' ∈ rest ∨ '?' ∈ rest then (cutTail rest).1 else rest ++ '/' :: word := by
  have hhash : '#' ∉ '/' :: word := h.not_mem (by decide)
  have hquestion : '?' ∉ '/' :: word := h.not_mem (by decide)
  rw [cutTail_fst, cutTail_fst, cutFirst_append_right hhash]
  cases hcut : cutFirst '#' rest with
  | some p =>
    have hmem : '#' ∈ rest := by
      by_contra hnot
      rw [cutFirst_eq_none_iff.mpr hnot] at hcut
      cases hcut
    rw [if_pos (.inl hmem)]
    rfl
  | none =>
    dsimp only [Option.map_none, Option.elim_none]
    rw [cutFirst_append_right hquestion]
    have hnot : '#' ∉ rest := cutFirst_eq_none_iff.mp hcut
    cases hcut' : cutFirst '?' rest with
    | some p =>
      have hmem : '?' ∈ rest := by
        by_contra hnot
        rw [cutFirst_eq_none_iff.mpr hnot] at hcut'
        cases hcut'
      rw [if_pos (.inr hmem)]
      rfl
    | none =>
      rw [if_neg (not_or.mpr ⟨hnot, cutFirst_eq_none_iff.mp hcut'⟩)]
      rfl

theorem takeWhile_append_cons {p : Char → Bool} {c : Char} (hc : p c = false) (s t : List Char) :
    (s ++ c :: t).takeWhile p = s.takeWhile p := by
  rw [List.takeWhile_append]
  split
  · next hall =>
    rw [List.takeWhile_cons_of_neg (by simp [hc]), List.append_nil]
    exact ((List.takeWhile_prefix p).eq_of_length hall).symm
  · rfl

/-- The word is taken for the host where there is none in front of it. -/
theorem authorityText_word {word : List Char} (h : IsWord word) (rest : List Char) :
    authorityText (rest ++ '/' :: word) =
      if authorityText rest = [] then word else authorityText rest := by
  have hslash : ∀ c ∈ word, c ≠ '/' := by
    rintro c hc rfl
    exact absurd (h.letters _ hc) (by decide)
  have hplain : (word.map fun c => if c = '\\' then '/' else c) = word := by
    refine (List.map_congr_left fun c hc => ?_).trans (List.map_id word)
    refine if_neg ?_
    rintro rfl
    exact absurd (h.letters _ hc) (by decide)
  unfold authorityText
  rw [List.map_append, List.map_cons, hplain, if_neg (by decide), List.dropWhile_append]
  cases hdrop : (rest.map fun c => if c = '\\' then '/' else c).dropWhile (· = '/') with
  | nil =>
    have hword : word.takeWhile (· ≠ '/') = word :=
      List.takeWhile_eq_self_iff.mpr fun c hc => by simpa using hslash c hc
    have hdropped : ('/' :: word).dropWhile (· = '/') = word := by
      obtain ⟨c, t, rfl⟩ := List.exists_cons_of_ne_nil h.nonempty
      simp [hslash c List.mem_cons_self]
    rw [List.isEmpty_nil, if_pos rfl, hdropped, hword, List.takeWhile_nil, if_pos rfl]
  | cons c t =>
    have hc : c ≠ '/' := by
      have hhead := head?_dropWhile (· = '/') (rest.map fun c => if c = '\\' then '/' else c)
      rw [hdrop] at hhead
      simpa using hhead c rfl
    rw [List.isEmpty_cons, if_neg Bool.false_ne_true, takeWhile_append_cons (by simp)]
    simp [hc]

/-- The front of an address stays the same, whichever word ends it. -/
theorem cleaned_word (base : String) : ∃ front : List Char, ∀ word : String,
    IsWord word.toList → cleaned (base ++ ("/" ++ word)) = front ++ '/' :: word.toList := by
  let isBlank := fun c : Char => decide (c.toNat ≤ 0x20)
  let counts := fun c : Char => c ≠ '\t' && c ≠ '\n' && c ≠ '\r'
  refine ⟨(base.toList.dropWhile isBlank).filter counts, fun word h => ?_⟩
  have hletter : ∀ c ∈ word.toList, isBlank c = false ∧ counts c = true := by
    intro c hc
    have hlow : 'a' ≤ c := (h.letters c hc).1
    have hcode : 97 ≤ c.toNat := UInt32.le_iff_toNat_le.mp (Char.le_def.mp hlow)
    have hne : ∀ d : Char, d.toNat < 97 → c ≠ d := by
      rintro d hd rfl
      omega
    have hcounts : c ≠ '\t' ∧ c ≠ '\n' ∧ c ≠ '\r' :=
      ⟨hne _ (by decide), hne _ (by decide), hne _ (by decide)⟩
    exact ⟨decide_eq_false (by omega), by simp [counts, hcounts]⟩
  have htrimmed : parse.trimBlank (base ++ ("/" ++ word)).toList =
      base.toList.dropWhile isBlank ++ '/' :: word.toList := by
    have htext : (base ++ ("/" ++ word)).toList = base.toList ++ '/' :: word.toList := by simp
    have hend : (word.toList.reverse.dropWhile isBlank).reverse = word.toList := by
      cases hword : word.toList.reverse with
      | nil => exact absurd (List.reverse_eq_nil_iff.mp hword) h.nonempty
      | cons c t =>
        have hc : c ∈ word.toList := List.mem_reverse.mp (hword ▸ List.mem_cons_self)
        rw [List.dropWhile_cons_of_neg (by simp [(hletter c hc).1]), ← hword, List.reverse_reverse]
    rw [htext]
    exact (trimBy_append_cons (by decide) _ _).trans (by rw [hend])
  have hword : word.toList.filter counts = word.toList :=
    List.filter_eq_self.mpr fun c hc => (hletter c hc).2
  rw [cleaned, htrimmed, List.filter_append, List.filter_cons_of_pos (by decide), hword]

/-- Words that are names of hosts. -/
def IsHost (word : List Char) : Prop := ∀ usual : Nat, readAuthority (some usual) word = .ok word

theorem calls_word {v w : List Char} (hv : IsWord v) (hw : IsWord w) (hhost : IsHost w)
    {front : List Char} (h : Calls (front ++ '/' :: v)) : Calls (front ++ '/' :: w) := by
  obtain ⟨scheme, rest, port, authority, hcut, hcalled, hport, hread⟩ := h
  rw [cutScheme_word hv, Option.map_eq_some_iff] at hcut
  obtain ⟨⟨_, rest⟩, hcut, heq⟩ := hcut
  cases heq
  have hcut' : cutScheme (front ++ '/' :: w) = some (scheme, rest ++ '/' :: w) := by
    rw [cutScheme_word hw, hcut, Option.map_some]
  rw [cutTail_word hv] at hread
  by_cases htail : '#' ∈ rest ∨ '?' ∈ rest
  · rw [if_pos htail] at hread
    refine ⟨scheme, _, port, authority, hcut', hcalled, hport, ?_⟩
    rw [cutTail_word hw, if_pos htail]
    exact hread
  · rw [if_neg htail, authorityText_word hv] at hread
    by_cases hnone : authorityText rest = []
    · refine ⟨scheme, _, port, w, hcut', hcalled, hport, ?_⟩
      rw [cutTail_word hw, if_neg htail, authorityText_word hw, if_pos hnone]
      exact hhost port
    · rw [if_neg hnone] at hread
      refine ⟨scheme, _, port, authority, hcut', hcalled, hport, ?_⟩
      rw [cutTail_word hw, if_neg htail, authorityText_word hw, if_neg hnone]
      exact hread

theorem isHost_routes : IsHost "routes".toList := by
  intro usual
  rfl

theorem isHost_updateroute : IsHost "updateroute".toList := by
  intro usual
  rfl

theorem isWord_routes : IsWord "routes".toList := ⟨by simp, by simp⟩

theorem isWord_updateroute : IsWord "updateroute".toList := ⟨by simp, by simp⟩

/-- One call of a route manager has an address just where the other one has. -/
theorem Client.callable_iff (c : Client) :
    (∃ a, address (c.base ++ "/routes") = .ok a) ↔ ∃ a, address c.updateUrl = .ok a := by
  have hroutes : "/routes" = "/" ++ "routes" := by simp
  have hupdate : "/updateroute" = "/" ++ "updateroute" := by simp
  obtain ⟨front, hfront⟩ := cleaned_word c.base
  rw [updateUrl, address_ok_iff, address_ok_iff, hroutes, hupdate, hfront _ isWord_routes,
    hfront _ isWord_updateroute]
  exact ⟨calls_word isWord_routes isWord_updateroute isHost_updateroute,
    calls_word isWord_updateroute isWord_routes isHost_routes⟩

end RouteMigration
