import RouteMigration.Proofs.Document.Reading

/-! The documents that give a list of routes, in whatever form. A route may be given as an
object or by position, its fields may be null or left out where that means the default, and
members nobody asked for may stand anywhere. All of these documents read as the same list. -/

namespace RouteMigration.Document

open RouteMigration.Text

/-! ## What gives a route -/

/-- A value that gives a field of a route. Null will do for the default of an optional one. -/
def Gives (r : Route) : Field → List Char → Prop
  | .uuid, v => StringText r.uuid v
  | .name, v => StringText r.name v
  | .rule, v => StringText r.rule v
  | .description, v => StringText r.description v ∨ r.description = "" ∧ v = nullText
  | .enabled, v => v = boolText r.enabled ∨ r.enabled = false ∧ v = nullText
  | .queues, v => ∃ us, List.Forall₂ StringText r.queues us ∧ Enclosed '[' ']' us v
  | .createdDate, v => StringText r.createdDate v ∨ r.createdDate = "" ∧ v = nullText
  | .modifiedDate, v => StringText r.modifiedDate v ∨ r.modifiedDate = "" ∧ v = nullText

/-- A field that may be left out. -/
def Omissible (r : Route) : Field → Prop
  | .uuid | .name | .rule | .queues => False
  | .description => r.description = ""
  | .enabled => r.enabled = false
  | .createdDate => r.createdDate = ""
  | .modifiedDate => r.modifiedDate = ""

/-- A member of a route: one of its fields, or something of whatever kind with another key. -/
inductive RouteMember (r : Route) : String × List Char → Prop
  | known {f : Field} {v : List Char} : Gives r f v → RouteMember r (f.key, v)
  | unknown {k : String} {v : List Char} : (∀ f : Field, f.key ≠ k) → ValueText v →
      RouteMember r (k, v)

/-- The members of a route, in any order. No field is given twice, and those that are not
given may be left out. -/
structure RouteMembers (r : Route) (ms : List (String × List Char)) : Prop where
  each : ∀ m ∈ ms, RouteMember r m
  once : ∀ f : Field, (ms.map Prod.fst).count f.key ≤ 1
  rest : ∀ f : Field, f.key ∉ ms.map Prod.fst → Omissible r f

/-- A route as an object, or as the array of its first fields in declared order. -/
inductive RouteText (r : Route) : List Char → Prop
  | object {ms : List (String × List Char)} {us : List (List Char)} {t : List Char} :
      RouteMembers r ms → List.Forall₂ KeyedText ms us → Enclosed '{' '}' us t → RouteText r t
  | array {given omitted : List Field} {us : List (List Char)} {t : List Char} :
      given ++ omitted = Field.all → (∀ f ∈ omitted, Omissible r f) →
      List.Forall₂ (Gives r) given us → Enclosed '[' ']' us t → RouteText r t

def RoutesText (routes : List Route) (t : List Char) : Prop :=
  ∃ us, List.Forall₂ RouteText routes us ∧ Enclosed '[' ']' us t

/-- What holds the routes: an object with whatever else, or an array with nothing else. -/
inductive EnvelopeText (routes : List Route) : List Char → Prop
  | object {before after : List (String × List Char)} {v : List Char} {us : List (List Char)}
      {t : List Char} : RoutesText routes v →
      (∀ m ∈ before ++ after, m.1 ≠ listKey ∧ ValueText m.2) →
      List.Forall₂ KeyedText (before ++ (listKey, v) :: after) us → Enclosed '{' '}' us t →
      EnvelopeText routes t
  | array {v t : List Char} : RoutesText routes v → Enclosed '[' ']' [v] t → EnvelopeText routes t

def DocumentText (routes : List Route) (document : String) : Prop :=
  ∃ b t b', Blanks b ∧ Blanks b' ∧ EnvelopeText routes t ∧ document.toList = b ++ (t ++ b')

/-! ## Fields -/

namespace Draft

/-- The draft with these fields as the route has them. -/
def ofFields (r : Route) (fields : List Field) : Draft where
  uuid := if .uuid ∈ fields then some r.uuid else none
  name := if .name ∈ fields then some r.name else none
  rule := if .rule ∈ fields then some r.rule else none
  description := if .description ∈ fields then some r.description else none
  enabled := if .enabled ∈ fields then some r.enabled else none
  queues := if .queues ∈ fields then some r.queues else none
  createdDate := if .createdDate ∈ fields then some r.createdDate else none
  modifiedDate := if .modifiedDate ∈ fields then some r.modifiedDate else none

theorem ofFields_nil (r : Route) : ofFields r [] = {} := by
  simp [ofFields]

theorem has_ofFields (r : Route) (fields : List Field) (f : Field) :
    (ofFields r fields).has f = decide (f ∈ fields) := by
  cases f <;> simp only [has, ofFields] <;> split <;> simp_all

theorem finish_ofFields {r : Route} {fields : List Field}
    (h : ∀ f, f ∉ fields → Omissible r f) : (ofFields r fields).finish = .ok r := by
  have hrequired : ∀ f, ¬ Omissible r f → f ∈ fields := fun f hf => by
    by_contra hnot
    exact hf (h f hnot)
  have huuid : Field.uuid ∈ fields := hrequired .uuid fun hf => hf
  have hname : Field.name ∈ fields := hrequired .name fun hf => hf
  have hrule : Field.rule ∈ fields := hrequired .rule fun hf => hf
  have hqueues : Field.queues ∈ fields := hrequired .queues fun hf => hf
  have hdefault : ∀ {α : Type} (f : Field) (x y : α), (f ∉ fields → x = y) →
      (if f ∈ fields then some x else none).getD y = x := by
    intro α f x y hxy
    split
    · rfl
    · next hnot => exact (hxy hnot).symm
  simp only [finish, ofFields, huuid, hname, hrule, hqueues, if_true, require, bind, Except.bind,
    pure, Except.pure, hdefault .description _ _ (h .description),
    hdefault .enabled _ _ (h .enabled), hdefault .createdDate _ _ (h .createdDate),
    hdefault .modifiedDate _ _ (h .modifiedDate)]

end Draft

theorem readsItem_text {s : String} {u : List Char} (h : StringText s u) : ReadsItem text s u :=
  ⟨h.solid, reads_text h⟩

theorem reads_queues {r : Route} {v : List Char} (h : Gives r .queues v) :
    Reads (list text) v r.queues := by
  obtain ⟨us, hus, henclosed⟩ := h
  exact reads_list henclosed (hus.imp fun _ _ => readsItem_text)

theorem reads_textOrNull {s : String} {v : List Char}
    (h : StringText s v ∨ s = "" ∧ v = nullText) : Reads (orNull "" text) v s := by
  rcases h with h | ⟨rfl, rfl⟩
  · refine (reads_text h).orNull h.solid ?_ ""
    obtain ⟨us, -, rfl⟩ := h
    exact fun hn => absurd (Option.some.inj hn) (by decide)
  · exact reads_null "" text

theorem reads_booleanOrNull {b : Bool} {v : List Char}
    (h : v = boolText b ∨ b = false ∧ v = nullText) : Reads (orNull false boolean) v b := by
  rcases h with rfl | ⟨rfl, rfl⟩
  · refine (reads_boolean b).orNull (solid_boolText b) ?_ false
    cases b <;> decide
  · exact reads_null false boolean

section
variable {r : Route} {f : Field} {v : List Char}

theorem Gives.solid (h : Gives r f v) : Solid v := by
  cases f with
  | uuid | name | rule => exact StringText.solid h
  | description | createdDate | modifiedDate =>
    rcases h with h | ⟨-, rfl⟩
    · exact h.solid
    · exact solid_nullText
  | enabled =>
    rcases h with rfl | ⟨-, rfl⟩
    · exact solid_boolText _
    · exact solid_nullText
  | queues =>
    obtain ⟨us, -, h⟩ := h
    exact Enclosed.solid .square h

/-- A value that gives a field fills it in. -/
theorem reads_field (h : Gives r f v) {b : List Char} (hb : Blanks b) (fields : List Field) :
    Reads ((Draft.ofFields r fields).read f) (b ++ v) (Draft.ofFields r (f :: fields)) := by
  have hfilled : ∀ {α : Type} {read : Reader α} {x : α} (set : α → Draft),
      Reads read v x → PassesBlanks read → set x = Draft.ofFields r (f :: fields) →
      Reads (do return set (← read)) (b ++ v) (Draft.ofFields r (f :: fields)) := by
    intro α read x set hread hpasses hset
    rw [← hset]
    exact (hread.after_blanks hpasses hb).map set
  have hdate := text_passesBlanks.orNull ""
  cases f with
  | uuid => exact hfilled _ (reads_text h) text_passesBlanks (by simp [Draft.ofFields])
  | name => exact hfilled _ (reads_text h) text_passesBlanks (by simp [Draft.ofFields])
  | rule => exact hfilled _ (reads_text h) text_passesBlanks (by simp [Draft.ofFields])
  | description => exact hfilled _ (reads_textOrNull h) hdate (by simp [Draft.ofFields])
  | enabled =>
    exact hfilled _ (reads_booleanOrNull h) (boolean_passesBlanks.orNull false)
      (by simp [Draft.ofFields])
  | queues => exact hfilled _ (reads_queues h) (list_passesBlanks text) (by simp [Draft.ofFields])
  | createdDate => exact hfilled _ (reads_textOrNull h) hdate (by simp [Draft.ofFields])
  | modifiedDate => exact hfilled _ (reads_textOrNull h) hdate (by simp [Draft.ofFields])

end

/-! ## Routes as objects -/

theorem ofKey?_key (f : Field) : Field.ofKey? f.key = some f := by
  cases f <;> decide

theorem key_injective {f g : Field} (h : f.key = g.key) : f = g := by
  have hkey := ofKey?_key f
  rw [h, ofKey?_key] at hkey
  exact (Option.some.inj hkey).symm

theorem ofKey?_eq_none {k : String} (h : ∀ f : Field, f.key ≠ k) : Field.ofKey? k = none := by
  rw [Field.ofKey?, List.find?_eq_none]
  intro f _
  simpa using h f

section
variable {r : Route} {fields : List Field} {f : Field} {k : String} {v : List Char}

theorem takes_known (hf : f ∉ fields) (h : Gives r f v) :
    TakesMember routeMember (Draft.ofFields r fields) (f.key, v)
      (Draft.ofFields r (f :: fields)) := by
  intro b b' rest hb hb' _
  have hread := reads_field h hb' fields rest
  rw [List.append_assoc] at hread
  rw [routeMember, ofKey?_key]
  simp only [Draft.has_ofFields, hf, decide_false, Bool.false_eq_true, if_false]
  exact (Reader.bind_of_ok (colon_apply hb _)).trans hread

theorem takes_unknown (hk : ∀ f : Field, f.key ≠ k) (h : ValueText v) (d : Draft) :
    TakesMember routeMember d (k, v) d := by
  intro b b' rest hb hb' hrest
  rw [routeMember, ofKey?_eq_none hk]
  exact (Reader.bind_of_ok (colon_apply hb _)).trans
    (Reader.bind_of_ok (skipValue_valueText h hb' hrest))

end

/-- Members in whatever order fill in just the fields that they name. -/
theorem fills_route {r : Route} {ms : List (String × List Char)} (heach : ∀ m ∈ ms, RouteMember r m)
    (honce : ∀ f : Field, (ms.map Prod.fst).count f.key ≤ 1) {fields : List Field}
    (hfresh : ∀ f ∈ fields, f.key ∉ ms.map Prod.fst) :
    ∃ filled, Fills routeMember (Draft.ofFields r fields) ms (Draft.ofFields r filled) ∧
      ∀ f, f ∈ filled ↔ f ∈ fields ∨ f.key ∈ ms.map Prod.fst := by
  induction ms generalizing fields with
  | nil => exact ⟨fields, .done, fun f => by simp⟩
  | cons m ms ih =>
    obtain ⟨hm, heach'⟩ := List.forall_mem_cons.mp heach
    have honce' : ∀ f : Field, (ms.map Prod.fst).count f.key ≤ 1 := fun f =>
      Nat.le_trans List.count_le_count_cons (honce f)
    have hfresh' : ∀ f ∈ fields, f.key ∉ ms.map Prod.fst := fun f hf hmem =>
      hfresh f hf (List.mem_cons_of_mem _ hmem)
    cases hm with
    | @known f v hgives =>
      have hnew : f ∉ fields := fun hf => hfresh f hf List.mem_cons_self
      -- the only member with this key is the one that was just read
      have hlast : f.key ∉ ms.map Prod.fst := by
        have hcount := honce f
        rw [List.map_cons, List.count_cons_self] at hcount
        exact List.count_eq_zero.mp (by omega)
      have hdone : ∀ g ∈ f :: fields, g.key ∉ ms.map Prod.fst :=
        List.forall_mem_cons.mpr ⟨hlast, hfresh'⟩
      obtain ⟨filled, hfills, hfilled⟩ := ih heach' honce' hdone
      refine ⟨filled, .more (takes_known hnew hgives) hfills, fun g => ?_⟩
      rw [hfilled, List.map_cons, List.mem_cons, List.mem_cons]
      constructor
      · rintro ((rfl | hg) | hg)
        · exact .inr (.inl rfl)
        · exact .inl hg
        · exact .inr (.inr hg)
      · rintro (hg | hg | hg)
        · exact .inl (.inr hg)
        · exact .inl (.inl (key_injective hg))
        · exact .inr hg
    | @unknown k v hk hvalue =>
      obtain ⟨filled, hfills, hfilled⟩ := ih heach' honce' hfresh'
      refine ⟨filled, .more (takes_unknown hk hvalue _) hfills, fun g => ?_⟩
      rw [hfilled, List.map_cons, List.mem_cons]
      exact or_congr_right ⟨.inr, fun hg => hg.resolve_left (hk g)⟩

theorem reads_routeObject {r : Route} {ms : List (String × List Char)} {us : List (List Char)}
    {t : List Char} (hms : RouteMembers r ms) (hkeyed : List.Forall₂ KeyedText ms us)
    (h : Enclosed '{' '}' us t) : Reads route t r := by
  have hnone : ∀ f ∈ ([] : List Field), f.key ∉ ms.map Prod.fst := fun f hf => nomatch hf
  obtain ⟨filled, hfills, hfilled⟩ := fills_route hms.each hms.once hnone
  rw [Draft.ofFields_nil] at hfills
  obtain ⟨inner, rfl, hmembers⟩ := reads_members h hkeyed hfills
  have hfinish : (Draft.ofFields r filled).finish = .ok r :=
    Draft.finish_ofFields fun f hf => hms.rest f fun hmem => hf ((hfilled f).mpr (.inr hmem))
  intro rest
  rw [List.cons_append, route, skipBlank_cons rfl]
  refine (Reader.bind_of_ok (hmembers rest)).trans ?_
  rw [finishDraft, hfinish]

/-! ## Routes by position -/

theorem Omissible.not_isRequired {r : Route} {f : Field} (h : Omissible r f) :
    f.isRequired = false := by
  cases f with
  | uuid | name | rule | queues => exact h.elim
  | description | enabled | createdDate | modifiedDate => rfl

section
variable {r : Route} {given omitted : List Field} {us : List (List Char)}
  {t front b : List Char} {index : Nat}

/-- Where the array ends, what is left may be left out. -/
theorem positionalFrom_omitted (h : ∀ f ∈ omitted, Omissible r f) (hb : Blanks b)
    (hindex : index ≠ 0) (d : Draft) (rest : List Char) :
    ∃ b', Blanks b' ∧
      positionalFrom omitted index d (b ++ ']' :: rest) = .ok (d, b' ++ ']' :: rest) := by
  induction omitted generalizing index b with
  | nil => exact ⟨b, hb, rfl⟩
  | cons f omitted ih =>
    obtain ⟨hf, homitted⟩ := List.forall_mem_cons.mp h
    obtain ⟨b', hb', hrest⟩ := ih homitted blanks_nil (Nat.succ_ne_zero index)
    refine ⟨b', hb', ?_⟩
    rw [positionalFrom, Reader.bind_of_ok (hasItem_close hb _ rest)]
    simp only [Bool.false_eq_true, if_false, hf.not_isRequired]
    exact hrest

theorem positionalFrom_given {f : Field} {fields done : List Field} {v rest : List Char}
    (hfront : Front (index = 0) front) (hb : Blanks b) (hv : Gives r f v) :
    positionalFrom (f :: fields) index (Draft.ofFields r done) (front ++ (b ++ (v ++ rest))) =
      positionalFrom fields (index + 1) (Draft.ofFields r (f :: done)) rest := by
  have hread : (Draft.ofFields r done).read f (v ++ rest) =
      .ok (Draft.ofFields r (f :: done), rest) := reads_field hv blanks_nil done rest
  rw [positionalFrom, Reader.bind_of_ok (hfront.hasItem hb (hv.solid.append rest))]
  simp only [if_true]
  exact Reader.bind_of_ok hread

theorem Commas.positionalFrom (h : Commas us t) (hgiven : List.Forall₂ (Gives r) given us)
    (homitted : ∀ f ∈ omitted, Omissible r f) (hfront : Front (index = 0) front)
    (done : List Field) (rest : List Char) :
    ∃ b', Blanks b' ∧
      positionalFrom (given ++ omitted) index (Draft.ofFields r done)
          (front ++ (t ++ ']' :: rest)) =
        .ok (Draft.ofFields r (given.reverse ++ done), b' ++ ']' :: rest) := by
  induction h generalizing given done index front with
  | @one u t hpadded =>
    cases hpadded with
    | @mk b u b' hb hb' =>
      cases hgiven with
      | @cons f _ _ _ hu hnone =>
        cases hnone
        obtain ⟨b'', hb'', hrest⟩ := positionalFrom_omitted homitted hb' (Nat.succ_ne_zero index)
          (Draft.ofFields r (f :: done)) rest
        have hassoc : front ++ (b ++ (u ++ b') ++ ']' :: rest) =
            front ++ (b ++ (u ++ (b' ++ ']' :: rest))) := by simp
        refine ⟨b'', hb'', ?_⟩
        rw [hassoc, List.cons_append, positionalFrom_given hfront hb hu]
        exact hrest
  | @more u p t us hpadded _ ih =>
    cases hpadded with
    | @mk b u b' hb hb' =>
      cases hgiven with
      | @cons f _ given _ hu hgiven =>
        have hnext : Front (decide (index + 1 = 0)) (b' ++ [',']) := .next hb'
        obtain ⟨b'', hb'', hrest⟩ := ih hgiven hnext (f :: done)
        have hassoc : front ++ (b ++ (u ++ b') ++ ',' :: t ++ ']' :: rest) =
            front ++ (b ++ (u ++ (b' ++ [','] ++ (t ++ ']' :: rest)))) := by simp
        refine ⟨b'', hb'', ?_⟩
        rw [hassoc, List.cons_append, positionalFrom_given hfront hb hu, hrest]
        simp

end

theorem closeSquare_apply {b : List Char} (hb : Blanks b) (rest : List Char) :
    closeSquare (b ++ ']' :: rest) = .ok ((), rest) := by
  rw [closeSquare, skipBlank_append_cons hb rfl]
  rfl

theorem reads_routeArray {r : Route} {given omitted : List Field} {us : List (List Char)}
    {t : List Char} (hall : given ++ omitted = Field.all)
    (homitted : ∀ f ∈ omitted, Omissible r f) (hgiven : List.Forall₂ (Gives r) given us)
    (h : Enclosed '[' ']' us t) : Reads route t r := by
  have hfinish : (Draft.ofFields r (given.reverse ++ [])).finish = .ok r := by
    refine Draft.finish_ofFields fun f hf => homitted f ?_
    have hmem : f ∈ given ++ omitted := by
      rw [hall]
      cases f <;> decide
    simp only [List.append_nil, List.mem_reverse] at hf
    exact (List.mem_append.mp hmem).resolve_left hf
  cases h with
  | empty =>
    -- the first field has to be there
    cases hgiven
    exact (homitted .uuid (by rw [← List.nil_append omitted, hall]; decide)).elim
  | @elements us t hcommas =>
    have hfirst : Front (decide (0 = 0)) [] := .first
    intro rest
    obtain ⟨b, hb, hfields⟩ := hcommas.positionalFrom hgiven homitted hfirst [] rest
    rw [hall, Draft.ofFields_nil] at hfields
    have hassoc : '[' :: (t ++ [']']) ++ rest = '[' :: ([] ++ (t ++ ']' :: rest)) := by simp
    rw [hassoc, route, skipBlank_cons rfl]
    refine (Reader.bind_of_ok hfields).trans ?_
    refine (Reader.bind_of_ok (closeSquare_apply hb rest)).trans ?_
    rw [finishDraft, hfinish]

/-! ## Documents -/

theorem RouteText.readsItem {r : Route} {t : List Char} (h : RouteText r t) :
    ReadsItem route r t := by
  cases h with
  | object hms hkeyed henclosed =>
    exact ⟨Enclosed.solid .curly henclosed, reads_routeObject hms hkeyed henclosed⟩
  | array hall homitted hgiven henclosed =>
    exact ⟨Enclosed.solid .square henclosed,
      reads_routeArray hall homitted hgiven henclosed⟩

theorem reads_routes {routes : List Route} {t : List Char} (h : RoutesText routes t) :
    Reads (list route) t routes := by
  obtain ⟨us, hus, henclosed⟩ := h
  exact reads_list henclosed (hus.imp fun _ _ => RouteText.readsItem)

theorem Fills.append {δ : Type} {member : String → δ → Reader δ} {d d₁ d' : δ}
    {ms ms' : List (String × List Char)} (h : Fills member d ms d₁)
    (h' : Fills member d₁ ms' d') : Fills member d (ms ++ ms') d' := by
  induction h with
  | done => exact h'
  | more hm _ ih => exact .more hm (ih h')

/-- Members with other keys change nothing. -/
theorem fills_others {ms : List (String × List Char)}
    (h : ∀ m ∈ ms, m.1 ≠ listKey ∧ ValueText m.2) (routes? : Option (List Route)) :
    Fills listMember routes? ms routes? := by
  induction ms with
  | nil => exact .done
  | cons m ms ih =>
    obtain ⟨⟨hkey, hvalue⟩, hms⟩ := List.forall_mem_cons.mp h
    refine .more (fun b b' rest hb hb' hrest => ?_) (ih hms)
    rw [listMember, if_neg hkey]
    exact (Reader.bind_of_ok (colon_apply hb _)).trans
      (Reader.bind_of_ok (skipValue_valueText hvalue hb' hrest))

theorem takes_list {routes : List Route} {v : List Char} (h : RoutesText routes v) :
    TakesMember listMember none (listKey, v) (some routes) := by
  intro b b' rest hb hb' _
  have hlist := (reads_routes h).after_blanks (list_passesBlanks route) hb' rest
  rw [List.append_assoc] at hlist
  rw [listMember, if_pos rfl]
  exact (Reader.bind_of_ok (colon_apply hb _)).trans (Reader.bind_of_ok hlist)

theorem reads_envelope {routes : List Route} {t : List Char} (h : EnvelopeText routes t) :
    Reads routesList t routes := by
  intro rest
  cases h with
  | @object before after v us t hroutes hothers hkeyed henclosed =>
    have hbefore := fills_others (fun m hm => hothers m (List.mem_append_left _ hm)) none
    have hafter := fills_others (fun m hm => hothers m (List.mem_append_right _ hm)) (some routes)
    obtain ⟨inner, rfl, hmembers⟩ :=
      reads_members henclosed hkeyed (hbefore.append (.more (takes_list hroutes) hafter))
    rw [List.cons_append, routesList, skipBlank_cons rfl]
    exact Reader.bind_of_ok (hmembers rest)
  | @array v t hroutes henclosed =>
    have hsolid : Solid v := by
      obtain ⟨us, -, hlist⟩ := hroutes
      exact Enclosed.solid .square hlist
    cases henclosed with
    | elements hcommas =>
      cases hcommas with
      | more _ hnone => cases hnone
      | one hpadded =>
        cases hpadded with
        | @mk b _ b' hb hb' =>
          have hassoc : '[' :: (b ++ (v ++ b') ++ [']']) ++ rest =
              '[' :: ([] ++ (b ++ (v ++ (b' ++ ']' :: rest)))) := by simp
          have hitem := Front.first.hasItem hb (hsolid.append (b' ++ ']' :: rest))
          rw [hassoc, routesList, skipBlank_cons rfl]
          refine (Reader.bind_of_ok hitem).trans ?_
          simp only [if_true]
          refine (Reader.bind_of_ok (reads_routes hroutes _)).trans ?_
          exact (Reader.bind_of_ok (closeSquare_apply hb' rest)).trans rfl

theorem whole_of_reads {α : Type} {read : Reader α} {t b : List Char} {x : α}
    (h : Reads read t x) (hb : Blanks b) : whole read (t ++ b) = .ok x := by
  have hend : skipBlank b = [] := by
    have hskip := skipBlank_append hb []
    rw [List.append_nil] at hskip
    exact hskip
  rw [whole, h b]
  simp only [hend, List.isEmpty_nil, if_true]

/-- A document that gives a list of routes reads as this list: with the envelope as an object
or as an array of one, with each route as an object in any order or by position, with unknown
members of whatever kind anywhere, and with optional fields given, null or left out. -/
theorem parse_given {routes : List Route} {document : String}
    (h : DocumentText routes document) : parse document = .ok routes := by
  obtain ⟨b, t, b', hb, hb', henvelope, htext⟩ := h
  have hpasses : PassesBlanks routesList := by
    intro b s hb
    rw [routesList, routesList, skipBlank_append hb]
  have hreads := (reads_envelope henvelope).after_blanks hpasses hb
  rw [parse, htext, ← List.append_assoc]
  exact whole_of_reads hreads hb'

/-! Two routes, one as an object in no particular order and one by position, next to something
else in which half of a pair stands alone. -/

theorem Padded.bare (u : List Char) : Padded u u := by
  have h := Padded.mk (u := u) blanks_nil blanks_nil
  rwa [List.nil_append, List.append_nil] at h

theorem KeyedText.bare (k : String) (v : List Char) :
    KeyedText (k, v) (writeText k ++ ':' :: v) := by
  have hmember : MemberText (writeText k) v (writeText k ++ ([] ++ ':' :: ([] ++ v))) :=
    .mk blanks_nil blanks_nil
  exact ⟨writeText k, stringText_writeText k, hmember⟩

theorem keyedTexts_bare (ms : List (String × List Char)) :
    List.Forall₂ KeyedText ms (ms.map fun m => writeText m.1 ++ ':' :: m.2) := by
  rw [List.forall₂_map_right_iff]
  exact List.forall₂_same.mpr fun m _ => .bare m.1 m.2

def unorderedRoute : Route := { uuid := "1", name := "n", rule := "A", queues := ["q"] }

def unorderedText : String :=
  "\x7b\"x\":\x7b\x7d,\"queues\":[\"q\"],\"rule\":\"\\u0041\",\"uuid\":\"1\",\"name\":\"n\"" ++
    ",\"enabled\":null\x7d"

theorem routeText_unordered : RouteText unorderedRoute unorderedText.toList := by
  let ruleText : List Char := ['"', '\\', 'u', '0', '0', '4', '1', '"']
  let queuesText : List Char := '[' :: (writeText "q" ++ [']'])
  let ms : List (String × List Char) :=
    [("x", ['{', '}']), ("queues", queuesText), ("rule", ruleText), ("uuid", writeText "1"),
     ("name", writeText "n"), ("enabled", nullText)]
  have hrule : StringText "A" ruleText :=
    ⟨[['\\', 'u', '0', '0', '4', '1']], .cons (.unit ⟨rfl, by decide⟩) .nil, rfl⟩
  have hqueues : Gives unorderedRoute .queues queuesText :=
    ⟨_, .cons (stringText_writeText "q") .nil, .elements (.one (.bare _))⟩
  have hempty : ValueText ['{', '}'] :=
    @ValueText.bracketed .curly [] [] _ (fun _ hv => nomatch hv) .nil (.empty blanks_nil)
  have heach : ∀ m ∈ ms, RouteMember unorderedRoute m := by
    simp only [ms, List.forall_mem_cons]
    exact ⟨.unknown (fun f => by cases f <;> decide) hempty, .known (f := .queues) hqueues,
      .known (f := .rule) hrule, .known (f := .uuid) (stringText_writeText "1"),
      .known (f := .name) (stringText_writeText "n"), .known (f := .enabled) (.inr ⟨rfl, rfl⟩),
      fun m hm => nomatch hm⟩
  have hms : RouteMembers unorderedRoute ms := by
    refine ⟨heach, fun f => by cases f <;> decide, fun f hf => ?_⟩
    cases f with
    | description | createdDate | modifiedDate | enabled => rfl
    | uuid | name | rule | queues => exact absurd (by decide) hf
  have hroute := RouteText.object hms (keyedTexts_bare ms) (.elements (.more (.bare _)
    (.more (.bare _) (.more (.bare _) (.more (.bare _) (.more (.bare _) (.one (.bare _))))))))
  convert hroute
  decide +kernel

def positionalRoute : Route :=
  { uuid := "2", name := "m", rule := "r", enabled := true, queues := [] }

def positionalText : String := "[\"2\",\"m\",\"r\",null,true,[]]"

theorem routeText_positional : RouteText positionalRoute positionalText.toList := by
  have homitted : ∀ f ∈ [Field.createdDate, Field.modifiedDate], Omissible positionalRoute f := by
    simp only [List.forall_mem_cons]
    exact ⟨rfl, rfl, fun f hf => nomatch hf⟩
  have hgiven : List.Forall₂ (Gives positionalRoute)
      [.uuid, .name, .rule, .description, .enabled, .queues]
      [writeText "2", writeText "m", writeText "r", nullText, boolText true, ['[', ']']] :=
    .cons (stringText_writeText "2") (.cons (stringText_writeText "m")
      (.cons (stringText_writeText "r") (.cons (.inr ⟨rfl, rfl⟩) (.cons (.inl rfl)
        (.cons ⟨[], .nil, .empty blanks_nil⟩ .nil)))))
  have hroute := RouteText.array rfl homitted hgiven (.elements (.more (.bare _) (.more (.bare _)
    (.more (.bare _) (.more (.bare _) (.more (.bare _) (.one (.bare _))))))))
  convert hroute
  decide +kernel

/-- A number and an object in brackets. -/
def otherText : String := "[-0.5e+1,\x7b\"\\ud800\":null\x7d]"

theorem valueText_other : ValueText otherText.toList := by
  let numberText : List Char := ['-', '0', '.', '5', 'e', '+', '1']
  let loneText : List Char := ['\\', 'u', 'd', '8', '0', '0']
  have hfive : Digits ['5'] := ⟨by decide, List.forall_mem_singleton.mpr rfl⟩
  have hone : Digits ['1'] := ⟨by decide, List.forall_mem_singleton.mpr rfl⟩
  have hnumber : ValueText numberText :=
    .number ⟨['-'], by decide, ['0'], ['.', '5'], ['e', '+', '1'], .inl rfl,
      .inr ⟨['5'], hfive, rfl⟩, .inr ⟨'e', by decide, ['+'], by decide, ['1'], hone, rfl⟩, rfl⟩
  have hunit : WritesUnit ['d', '8', '0', '0'] 0xD800 := ⟨rfl, by decide⟩
  have hlone : QuotedText ('"' :: ([loneText].flatten ++ ['"'])) :=
    ⟨[loneText], fun u hu => List.mem_singleton.mp hu ▸ .unit hunit, rfl⟩
  have hnull : ∀ v ∈ [nullText], ValueText v := fun v hv =>
    List.mem_singleton.mp hv ▸ .null
  have hobject := @ValueText.bracketed .curly [nullText] _ _ hnull
    (.cons (.member hlone (.mk blanks_nil blanks_nil)) .nil) (.elements (.one (.bare _)))
  have hall := @ValueText.bracketed .square [numberText, _] _ _
    (List.forall_mem_cons.mpr ⟨hnumber, fun v hv => List.mem_singleton.mp hv ▸ hobject⟩)
    (.cons .item (.cons .item .nil)) (.elements (.more (.bare _) (.one (.bare _))))
  convert hall
  decide +kernel

def givenRoutes : List Route := [unorderedRoute, positionalRoute]

def givenDocument : String :=
  "\x7b\"other\":" ++ otherText ++ ",\"routesList\":[" ++ unorderedText ++ "," ++ positionalText ++
    "]\x7d\n"

theorem parse_givenDocument :
    DocumentText givenRoutes givenDocument ∧ parse givenDocument = .ok givenRoutes := by
  let listText := '[' :: (unorderedText.toList ++ ',' :: positionalText.toList ++ [']'])
  have hroutes : RoutesText givenRoutes listText :=
    ⟨_, .cons routeText_unordered (.cons routeText_positional .nil),
      .elements (.more (.bare _) (.one (.bare _)))⟩
  have hother : ∀ m ∈ [("other", otherText.toList)] ++ [], m.1 ≠ listKey ∧ ValueText m.2 := by
    intro m hm
    rw [List.append_nil, List.mem_singleton] at hm
    rw [hm]
    exact ⟨by decide, valueText_other⟩
  have henvelope := EnvelopeText.object hroutes hother
    (keyedTexts_bare [("other", otherText.toList), (listKey, listText)])
    (.elements (.more (.bare _) (.one (.bare _))))
  have hnewline : Blanks ['\n'] := fun c hc => List.mem_singleton.mp hc ▸ rfl
  have hdocument : DocumentText givenRoutes givenDocument :=
    ⟨[], _, ['\n'], blanks_nil, hnewline, henvelope, by decide +kernel⟩
  exact ⟨hdocument, parse_given hdocument⟩

end RouteMigration.Document
