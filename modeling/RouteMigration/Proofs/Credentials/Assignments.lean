import RouteMigration.Credentials
import RouteMigration.Proofs.Text.Blank
import RouteMigration.Proofs.Text.Cut

/-! What a properties document says: which of its lines assign a key, as they are written, and
that the last of them counts. -/

namespace RouteMigration.Properties

open RouteMigration.Text

/-! ## One line -/

/-- A line that assigns: key, separator and value, with white space around each of them. -/
inductive Assigns (key value : List Char) : List Char → Prop
  | line {before behindKey beforeValue after : List Char} {separator : Char} :
      Blanks before → Blanks behindKey → Blanks beforeValue → Blanks after →
      separator ∈ ['=', ':'] →
      Assigns key value
        ((before ++ key ++ behindKey) ++ separator :: (beforeValue ++ value ++ after))

/-- A key that can be read back as it was written. -/
structure Legible (key : List Char) : Prop where
  bare : Bare key
  separators : ∀ c ∈ key, c ∉ ['=', ':']
  /-- It does not start like a comment. -/
  first : ∀ c ∈ key.head?, c ∉ ['#', '!']

instance (key : List Char) : Decidable (Legible key) :=
  decidable_of_iff (Bare key ∧ key.all (· ∉ ['=', ':']) = true ∧
      key.head?.all (· ∉ ['#', '!']) = true) <| by
    simp only [List.all_eq_true, Option.all_eq_true, decide_eq_true_eq]
    exact ⟨fun ⟨bare, separators, first⟩ => ⟨bare, separators, first⟩,
      fun h => ⟨h.bare, h.separators, h.first⟩⟩

variable {key value line : List Char}

theorem isSeparator_iff {c : Char} : isSeparator c = true ↔ c ∈ ['=', ':'] := by
  simp [isSeparator]

theorem isBlank_of_isSeparator {c : Char} (h : isSeparator c = true) : isBlank c = false := by
  rw [isSeparator_iff, List.mem_cons, List.mem_singleton] at h
  rcases h with rfl | rfl <;> decide

theorem not_separator_of_blank {c : Char} (h : isBlank c = true) : isSeparator c = false := by
  by_contra hc
  rw [Bool.not_eq_false] at hc
  rw [isBlank_of_isSeparator hc] at h
  cases h

/-- Whether a line begins, after white space, like a comment. -/
def isComment (line : List Char) : Bool := (trim line).head?.any fun c => c = '#' || c = '!'

theorem assignment?_eq (line : List Char) :
    assignment? line = if isComment line then none
      else match (trim line).dropWhile (!isSeparator ·) with
        | [] => none
        | _ :: value => some (String.ofList (trim ((trim line).takeWhile (!isSeparator ·))),
            String.ofList (trim value)) := by
  unfold assignment? isComment
  cases trim line with
  | nil => rfl
  | cons c s => rfl

theorem assignment?_of_unseparated (h : ∀ c ∈ line, isSeparator c = false) :
    assignment? line = none := by
  have hpart : ∀ c ∈ trim line, (!isSeparator c) = true := by
    obtain ⟨before, after, -, -, hline⟩ := exists_trim line
    intro c hc
    rw [h c (by rw [hline]; simp [hc])]
    rfl
  rw [assignment?_eq, List.dropWhile_eq_nil_iff.mpr hpart, ite_self]

section
variable {front back : List Char} {separator : Char} (hseparator : isSeparator separator = true)
include hseparator

theorem trim_cut : trim (front ++ separator :: back) =
    front.dropWhile isBlank ++ separator :: (back.reverse.dropWhile isBlank).reverse :=
  trimBy_append_cons (isBlank_of_isSeparator hseparator) front back

/-- No separator begins a comment. -/
theorem isComment_cut : isComment (front ++ separator :: back) = isComment front := by
  have hhead : (trim front).head? = (front.dropWhile isBlank).head? := head?_trimBy _ _
  rw [isComment, isComment, trim_cut hseparator, hhead, List.head?_append]
  cases (front.dropWhile isBlank).head? with
  | some c => rfl
  | none =>
    rw [isSeparator_iff, List.mem_cons, List.mem_singleton] at hseparator
    rcases hseparator with rfl | rfl <;> rfl

/-- A line is taken apart at its first separator. -/
theorem assignment?_cut (hfront : ∀ c ∈ front, isSeparator c = false) :
    assignment? (front ++ separator :: back) = if isComment front then none
      else some (String.ofList (trim front), String.ofList (trim back)) := by
  have hrun : ∀ c ∈ front.dropWhile isBlank, (!isSeparator c) = true := by
    intro c hc
    rw [hfront c ((List.dropWhile_suffix isBlank).subset hc)]
    rfl
  have hstop : (!isSeparator separator) = false := by rw [hseparator]; rfl
  obtain ⟨hkey, hvalue⟩ := span_append hrun hstop (back.reverse.dropWhile isBlank).reverse
  rw [assignment?_eq, isComment_cut hseparator, trim_cut hseparator, hkey, hvalue, trim,
    trimBy_dropWhile]
  simp only [trim, trimBy_dropWhile_reverse]

end

/-- What is read as an assignment is written as one. -/
theorem of_assignment? {k v : String} (h : assignment? line = some (k, v)) :
    Assigns k.toList v.toList line ∧ Bare v.toList := by
  cases hrest : line.dropWhile (!isSeparator ·) with
  | nil =>
    rw [assignment?_of_unseparated] at h
    · cases h
    · simpa using hrest
  | cons separator back =>
    have hseparator : isSeparator separator = true := by
      simpa using head?_dropWhile (!isSeparator ·) line separator (by rw [hrest]; rfl)
    have hline : line = line.takeWhile (!isSeparator ·) ++ separator :: back := by
      rw [← hrest, List.takeWhile_append_dropWhile]
    have hfront : ∀ c ∈ line.takeWhile (!isSeparator ·), isSeparator c = false := by
      intro c hc
      simpa using List.all_eq_true.mp List.all_takeWhile c hc
    generalize line.takeWhile (!isSeparator ·) = front at hline hfront
    subst hline
    rw [assignment?_cut hseparator hfront] at h
    split at h
    · cases h
    · cases h
      obtain ⟨before, behindKey, hbefore, hbehind, hkey⟩ := exists_trim front
      obtain ⟨beforeValue, after, hvalue, hafter, hback⟩ := exists_trim back
      rw [String.toList_ofList, String.toList_ofList]
      refine ⟨?_, bare_trim back⟩
      have hassigns : Assigns (trim front) (trim back) _ :=
        .line hbefore hbehind hvalue hafter (isSeparator_iff.mp hseparator)
      rwa [← hkey, ← hback] at hassigns

/-- What is written as an assignment is read as one. -/
theorem Assigns.assignment? (h : Assigns key value line) (hkey : Legible key)
    (hvalue : Bare value) :
    assignment? line = some (String.ofList key, String.ofList value) := by
  obtain ⟨hbefore, hbehind, hbeforeValue, hafter, hseparator⟩ := h
  next before behindKey beforeValue after separator =>
  have hfront : ∀ c ∈ before ++ key ++ behindKey, isSeparator c = false := by
    intro c hc
    rcases List.mem_append.mp hc with hc | hc
    · rcases List.mem_append.mp hc with hc | hc
      · exact not_separator_of_blank (hbefore c hc)
      · by_contra hne
        exact hkey.separators c hc (isSeparator_iff.mp (by simpa using hne))
    · exact not_separator_of_blank (hbehind c hc)
  have hplain : isComment (before ++ key ++ behindKey) = false := by
    rw [isComment, trim_surrounded hbefore hbehind hkey.bare]
    cases hhead : key.head? with
    | none => rfl
    | some c => simpa using hkey.first c hhead
  rw [assignment?_cut (isSeparator_iff.mpr hseparator) hfront, hplain,
    trim_surrounded hbefore hbehind hkey.bare, trim_surrounded hbeforeValue hafter hvalue]
  rfl

/-- A value that is written with white space around is the one without it. -/
theorem Assigns.trimmed (h : Assigns key value line) : Assigns key (trim value) line := by
  obtain ⟨hbefore, hbehind, hbeforeValue, hafter, hseparator⟩ := h
  next before behindKey beforeValue after separator =>
  obtain ⟨front, back, hfront, hback, hvalue⟩ := exists_trim value
  have hblanks : ∀ {a b : List Char}, Blanks a → Blanks b → Blanks (a ++ b) :=
    fun ha hb c hc => (List.mem_append.mp hc).elim (ha c) (hb c)
  have hassigns : Assigns key (trim value) ((before ++ key ++ behindKey) ++
      separator :: ((beforeValue ++ front) ++ trim value ++ (back ++ after))) :=
    .line hbefore hbehind (hblanks hbeforeValue hfront) (hblanks hback hafter) hseparator
  have htext : (beforeValue ++ front) ++ trim value ++ (back ++ after) =
      beforeValue ++ (front ++ trim value ++ back) ++ after := by
    simp only [List.append_assoc]
  rwa [htext, ← hvalue] at hassigns

theorem assigns_some_iff (hkey : Legible key) :
    (∃ value, Assigns key value line) ↔
      ∃ v, assignment? line = some (String.ofList key, v) := by
  constructor
  · rintro ⟨value, h⟩
    exact ⟨_, h.trimmed.assignment? hkey (bare_trim value)⟩
  · rintro ⟨v, h⟩
    have hassigns := (of_assignment? h).1
    rw [String.toList_ofList] at hassigns
    exact ⟨_, hassigns⟩

/-! ## A document -/

/-- A line of the document assigns the key. -/
def Mentions (text key : String) : Prop :=
  ∃ line ∈ text.toList.splitOn '\n', ∃ value, Assigns key.toList value line

/-- A line of the document assigns this value to the key, and no later line assigns the key. -/
def LastAssigns (text key value : String) : Prop :=
  ∃ before line after, text.toList.splitOn '\n' = before ++ line :: after ∧
    Assigns key.toList value.toList line ∧ ∀ l ∈ after, ∀ other, ¬ Assigns key.toList other l

section
variable {α : Type} {f : α → Option (String × String)} {k v : String}

theorem lookup?_filterMap_eq_none_iff {lines : List α} :
    lookup? (lines.filterMap f) k = none ↔ ∀ l ∈ lines, ∀ v, f l ≠ some (k, v) := by
  rw [lookup?, List.lookup_eq_none_iff]
  constructor
  · intro h l hl v hf
    have hmem : (k, v) ∈ (lines.filterMap f).reverse :=
      List.mem_reverse.mpr (List.mem_filterMap.mpr ⟨l, hl, hf⟩)
    exact bne_iff_ne.mp (h _ hmem) rfl
  · rintro h ⟨key, v⟩ hp
    obtain ⟨l, hl, hf⟩ := List.mem_filterMap.mp (List.mem_reverse.mp hp)
    exact bne_iff_ne.mpr fun hkey => h l hl v (by rw [hf, hkey])

/-- The last assignment counts. -/
theorem lookup?_filterMap_eq_some_iff {lines : List α} :
    lookup? (lines.filterMap f) k = some v ↔ ∃ before l after, lines = before ++ l :: after ∧
      f l = some (k, v) ∧ ∀ m ∈ after, ∀ w, f m ≠ some (k, w) := by
  have hnone : ∀ after : List α, (∀ m ∈ after, ∀ w, f m ≠ some (k, w)) ↔
      ∀ p ∈ (after.filterMap f).reverse, (k != p.1) = true :=
    fun after => lookup?_filterMap_eq_none_iff.symm.trans List.lookup_eq_none_iff
  rw [lookup?, List.lookup_eq_some_iff]
  constructor
  · rintro ⟨later, earlier, hcut, hlater⟩
    rw [List.reverse_eq_append_iff, List.reverse_cons, List.append_assoc,
      List.singleton_append] at hcut
    obtain ⟨front, rest, rfl, -, hrest⟩ := List.filterMap_eq_append_iff.mp hcut
    obtain ⟨skipped, l, after, rfl, -, hl, hafter⟩ := List.filterMap_eq_cons_iff.mp hrest
    refine ⟨front ++ skipped, l, after, (List.append_assoc ..).symm, hl, ?_⟩
    rw [hnone, hafter, List.reverse_reverse]
    exact hlater
  · rintro ⟨before, l, after, rfl, hl, hafter⟩
    refine ⟨(after.filterMap f).reverse, (before.filterMap f).reverse, ?_, (hnone after).mp hafter⟩
    rw [List.filterMap_append, List.filterMap_cons_some hl, List.reverse_append,
      List.reverse_cons, List.append_assoc, List.singleton_append]

end

section
variable {text key value : String} {line : List Char} (hkey : Legible key.toList)
include hkey

theorem not_assigns_iff : (∀ value, ¬ Assigns key.toList value line) ↔
    ∀ v, assignment? line ≠ some (key, v) := by
  have h : (¬ ∃ value, Assigns key.toList value line) ↔
      ¬ ∃ v, assignment? line = some (String.ofList key.toList, v) :=
    not_congr (assigns_some_iff hkey)
  rw [String.ofList_toList, not_exists, not_exists] at h
  exact h

theorem not_assigns_of_other (h : (assignment? line).map Prod.fst ≠ some key) :
    ∀ value, ¬ Assigns key.toList value line :=
  (not_assigns_iff hkey).mpr fun v hv => h (by rw [hv]; rfl)

theorem lookup?_parse_eq_none_iff : lookup? (parse text) key = none ↔ ¬ Mentions text key := by
  rw [parse, lookup?_filterMap_eq_none_iff, Mentions]
  simp only [not_exists, not_and, not_assigns_iff hkey]

theorem lookup?_parse_eq_some_iff :
    lookup? (parse text) key = some value ↔ LastAssigns text key value ∧ Bare value.toList := by
  rw [parse, lookup?_filterMap_eq_some_iff]
  constructor
  · rintro ⟨before, line, after, hlines, hread, hafter⟩
    obtain ⟨hassigns, hvalue⟩ := of_assignment? hread
    exact ⟨⟨before, line, after, hlines, hassigns,
      fun l hl => (not_assigns_iff hkey).mpr (hafter l hl)⟩, hvalue⟩
  · rintro ⟨⟨before, line, after, hlines, hassigns, hafter⟩, hvalue⟩
    have hread := hassigns.assignment? hkey hvalue
    rw [String.ofList_toList, String.ofList_toList] at hread
    exact ⟨before, line, after, hlines, hread,
      fun l hl => (not_assigns_iff hkey).mp (hafter l hl)⟩

end

end RouteMigration.Properties
