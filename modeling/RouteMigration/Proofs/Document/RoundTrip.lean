import RouteMigration.Proofs.Document.Given

/-! Reading a printed document. What is printed of a list of routes is one of the documents that
give this list, whatever characters the fields hold, and printing a document anew settles its
text. -/

namespace RouteMigration.Document

open RouteMigration.Text

/-! ## Blocks -/

theorem blanks_newline (depth : Nat) : Blanks (newline depth) := by
  intro c hc
  rcases List.mem_cons.mp hc with rfl | hc
  · rfl
  · rw [List.eq_of_mem_replicate hc]
    rfl

theorem commas_newlines (depth : Nat) (i : List Char) (items : List (List Char)) :
    Commas (i :: items)
      ([','].intercalate ((i :: items).map (newline (depth + 1) ++ ·)) ++ newline depth) := by
  induction items generalizing i with
  | nil =>
    have hlast : Padded i (newline (depth + 1) ++ (i ++ newline depth)) :=
      .mk (blanks_newline _) (blanks_newline _)
    simpa [List.intercalate] using Commas.one hlast
  | cons j items ih =>
    have hfirst : Padded i (newline (depth + 1) ++ (i ++ [])) := .mk (blanks_newline _) blanks_nil
    simpa [List.intercalate] using Commas.more hfirst (ih j)

theorem enclosed_writeBlock (depth : Nat) ( opening closing : Char) (items : List (List Char)) :
    Enclosed opening closing items (writeBlock depth opening closing items) := by
  cases items with
  | nil => exact .empty blanks_nil
  | cons i items =>
    have hcommas := commas_newlines depth i items
    rw [writeBlock, List.isEmpty_cons, if_neg Bool.false_ne_true, ← List.append_assoc]
    exact .elements hcommas

theorem keyedText_writeMember (k : String) (v : List Char) :
    KeyedText (k, v) (writeMember k v) := by
  have hblank : Blanks [' '] := fun c hc => List.mem_singleton.mp hc ▸ rfl
  exact ⟨writeText k, stringText_writeText k, .mk (b := []) blanks_nil hblank⟩

/-! ## Routes -/

/-- The value of a field as it is printed. -/
def valueText (depth : Nat) (r : Route) : Field → List Char
  | .uuid => writeText r.uuid
  | .name => writeText r.name
  | .rule => writeText r.rule
  | .description => writeText r.description
  | .enabled => writeBool r.enabled
  | .queues => writeBlock (depth + 1) '[' ']' (r.queues.map writeText)
  | .createdDate => writeText r.createdDate
  | .modifiedDate => writeText r.modifiedDate

theorem gives_valueText (depth : Nat) (r : Route) (f : Field) :
    Gives r f (valueText depth r f) := by
  cases f with
  | uuid | name | rule => exact stringText_writeText _
  | description | createdDate | modifiedDate => exact .inl (stringText_writeText _)
  | enabled => exact .inl rfl
  | queues =>
    refine ⟨r.queues.map writeText, ?_, enclosed_writeBlock _ _ _ _⟩
    rw [List.forall₂_map_right_iff]
    exact List.forall₂_same.mpr fun s _ => stringText_writeText s

/-- The members of a printed route. -/
def printedMembers (depth : Nat) (r : Route) : List (String × List Char) :=
  Field.all.map fun f => (f.key, valueText depth r f)

theorem routeMembers_printed (depth : Nat) (r : Route) :
    RouteMembers r (printedMembers depth r) := by
  have hkeys : (printedMembers depth r).map Prod.fst = Field.all.map Field.key := rfl
  refine ⟨fun m hm => ?_, fun f => ?_, fun f hf => ?_⟩
  · obtain ⟨f, -, rfl⟩ := List.mem_map.mp hm
    exact .known (gives_valueText depth r f)
  · rw [hkeys]
    cases f <;> decide
  · rw [hkeys] at hf
    exact absurd (by cases f <;> decide) hf

def writeMembers (ms : List (String × List Char)) : List (List Char) :=
  ms.map fun m => writeMember m.1 m.2

theorem keyedTexts_writeMembers (ms : List (String × List Char)) :
    List.Forall₂ KeyedText ms (writeMembers ms) := by
  rw [writeMembers, List.forall₂_map_right_iff]
  exact List.forall₂_same.mpr fun m _ => keyedText_writeMember m.1 m.2

theorem writeRoute_eq (depth : Nat) (r : Route) :
    writeRoute depth r = writeBlock depth '{' '}' (writeMembers (printedMembers depth r)) := rfl

theorem routeText_writeRoute (depth : Nat) (r : Route) : RouteText r (writeRoute depth r) := by
  rw [writeRoute_eq]
  exact .object (routeMembers_printed depth r) (keyedTexts_writeMembers _)
    (enclosed_writeBlock depth _ _ _)

/-! ## Documents -/

theorem envelopeText_writeRoutes (routes : List Route) :
    EnvelopeText routes (writeRoutes routes) := by
  have hroutes : RoutesText routes (writeBlock 1 '[' ']' (routes.map (writeRoute 2))) := by
    refine ⟨routes.map (writeRoute 2), ?_, enclosed_writeBlock _ _ _ _⟩
    rw [List.forall₂_map_right_iff]
    exact List.forall₂_same.mpr fun r _ => routeText_writeRoute 2 r
  have hnothing : ∀ m ∈ ([] ++ [] : List (String × List Char)), m.1 ≠ listKey ∧ ValueText m.2 :=
    fun m hm => nomatch hm
  exact .object hroutes hnothing (keyedTexts_writeMembers _) (enclosed_writeBlock 0 _ _ _)

theorem parse_printed (routes : List Route) : parse (print routes) = .ok routes := by
  have hwhole := whole_of_reads (reads_envelope (envelopeText_writeRoutes routes)) blanks_nil
  rw [List.append_nil] at hwhole
  rw [parse, print, String.toList_ofList]
  exact hwhole

/-! ## Printing anew -/

/-- The document of the same routes as they are printed. -/
def reprint (document : String) : Except Refusal String := print <$> parse document

theorem reprint_of_parse {document : String} {routes : List Route}
    (h : parse document = .ok routes) : reprint document = .ok (print routes) := by
  rw [reprint, h]
  rfl

/-- Every list of routes comes back from its printed document. A document of these routes,
however it is written, is settled by printing it anew: the routes are the same, and from then
on so is the text. -/
theorem parse_reprint (routes : List Route) :
    parse (print routes) = .ok routes ∧
      ∀ document, parse document = .ok routes →
        ∃ printed, reprint document = .ok printed ∧ parse printed = .ok routes ∧
          reprint printed = .ok printed := by
  have hprinted := parse_printed routes
  refine ⟨hprinted, fun document h => ?_⟩
  exact ⟨print routes, reprint_of_parse h, hprinted, reprint_of_parse hprinted⟩

/-- A route given by position, with escaped characters, nulls, and the dates left out. -/
def looseDocument : String :=
  "[[[\"\\u001f\",\"\\n\",\"\\ud83d\\ude00\",null,null,[]]]]"

def looseRoutes : List Route := [{ uuid := "\x1f", name := "\n", rule := "😀", queues := [] }]

theorem parse_reprint_looseDocument :
    parse looseDocument = .ok looseRoutes ∧
      ∃ printed, reprint looseDocument = .ok printed ∧ parse printed = .ok looseRoutes ∧
        reprint printed = .ok printed := by
  have hparse : parse looseDocument = .ok looseRoutes := by decide +kernel
  exact ⟨hparse, (parse_reprint looseRoutes).2 looseDocument hparse⟩

end RouteMigration.Document
