import RouteMigration.Proofs.World.Action

/-! Two runs side by side that are told apart by nothing but what their requests are signed with.
An action takes no notice of a signature as long as the actions it is made of take none. -/

namespace RouteMigration

/-- The request, signed otherwise. -/
def Request.signed (authorization : String) (r : Request) : Request := { r with authorization }

/-- Worlds in which the same was done, but what was asked after `earlier` was signed with `a` in
one and with `b` in the other. -/
def World.Alike (earlier : List Request) (a b : String) (v w : World) : Prop :=
  ∃ made : List Request, (∀ r ∈ made, r.authorization = a) ∧ v.requests = earlier ++ made ∧
    w = { v with requests := earlier ++ made.map (Request.signed b) }

namespace Action

variable {α β γ δ : Type} {earlier : List Request} {a b : String}

/-- How two actions end that do the same: with results that belong together, or with one
failure. -/
inductive EndAlike (earlier : List Request) (a b : String) (R : α → β → Prop) :
    Except Failure α × World → Except Failure β × World → Prop
  | ok {x : α} {y : β} {v w : World} : R x y → v.Alike earlier a b w →
      EndAlike earlier a b R (.ok x, v) (.ok y, w)
  | error {f : Failure} {v w : World} : v.Alike earlier a b w →
      EndAlike earlier a b R (.error f, v) (.error f, w)

theorem EndAlike.same {x y : Except Failure α × World} (h : EndAlike earlier a b Eq x y) :
    x.1 = y.1 ∧ x.2.Alike earlier a b y.2 := by
  cases h with
  | ok heq hw => exact ⟨congrArg Except.ok heq, hw⟩
  | error hw => exact ⟨rfl, hw⟩

/-- Actions that do the same in worlds in which the same was done. -/
def Alike (earlier : List Request) (a b : String) (R : α → β → Prop) (s : Action α)
    (t : Action β) : Prop :=
  ∀ v w : World, v.Alike earlier a b w → EndAlike earlier a b R (s v) (t w)

theorem Alike.pure {R : α → β → Prop} {x : α} {y : β} (h : R x y) :
    Alike earlier a b R (Pure.pure x) (Pure.pure y) := fun _ _ hw => .ok h hw

theorem Alike.bind {R : α → β → Prop} {S : γ → δ → Prop} {s : Action α} {t : Action β}
    {f : α → Action γ} {g : β → Action δ} (h : Alike earlier a b R s t)
    (hrest : ∀ x y, R x y → Alike earlier a b S (f x) (g y)) :
    Alike earlier a b S (s >>= f) (t >>= g) := by
  intro v w hw
  have hends := h v w hw
  cases hs : s v with
  | mk result v' =>
    cases ht : t w with
    | mk result' w' =>
      rw [hs, ht] at hends
      cases hends with
      | ok hxy hw' =>
        rw [bind_of_ok hs, bind_of_ok ht]
        exact hrest _ _ hxy _ _ hw'
      | error hw' =>
        rw [bind_of_error hs, bind_of_error ht]
        exact .error hw'

/-- The second action, where the first gives both the same. -/
theorem Alike.bind_eq {S : γ → δ → Prop} {s t : Action α} {f : α → Action γ} {g : α → Action δ}
    (h : Alike earlier a b Eq s t) (hrest : ∀ x, Alike earlier a b S (f x) (g x)) :
    Alike earlier a b S (s >>= f) (t >>= g) :=
  h.bind fun x _ heq => heq ▸ hrest x

theorem Alike.within {R : α → β → Prop} {s : Action α} {t : Action β}
    (h : Alike earlier a b R s t) (c : Cause) :
    Alike earlier a b R (Action.within c s) (Action.within c t) := by
  intro v w hw
  have hends := h v w hw
  cases hs : s v with
  | mk result v' =>
    cases ht : t w with
    | mk result' w' =>
      rw [hs, ht] at hends
      cases hends with
      | ok hxy hw' =>
        rw [within_of_ok hs, within_of_ok ht]
        exact .ok hxy hw'
      | error hw' =>
        rw [within_of_error hs, within_of_error ht]
        exact .error hw'

/-- An action that may be left out, by both. -/
theorem Alike.optional {p : Prop} [Decidable p] {S : γ → δ → Prop} {s : Action Unit}
    {f : Unit → Action γ} {g : Unit → Action δ} (h : Alike earlier a b Eq s s)
    (hrest : Alike earlier a b S (f ()) (g ())) :
    Alike earlier a b S (if p then s >>= f else f ()) (if p then s >>= g else g ()) := by
  split
  · exact h.bind_eq fun _ => hrest
  · exact hrest

/-! ## Actions that do not look at what was asked -/

/-- What was asked so far makes no difference to the action, and it asks nothing. -/
def Blind (s : Action α) : Prop :=
  ∀ (w : World) (requests : List Request),
    s { w with requests } = ((s w).1, { (s w).2 with requests })

theorem Blind.alike {s : Action α} (h : Blind s) : Alike earlier a b Eq s s := by
  rintro v _ ⟨made, hmade, hv, rfl⟩
  have hkept : (s v).2.requests = v.requests := congrArg (·.2.requests) (h v v.requests)
  have hrun := h v (earlier ++ made.map (Request.signed b))
  cases hs : s v with
  | mk result v' =>
    rw [hs] at hkept hrun
    have hafter : v'.Alike earlier a b
        { v' with requests := earlier ++ made.map (Request.signed b) } :=
      ⟨made, hmade, hkept.trans hv, rfl⟩
    rw [hrun]
    cases result with
    | ok x => exact .ok rfl hafter
    | error f => exact .error hafter

theorem blind_attempt (result : Except Failure α) : Blind (attempt result) := fun _ _ => rfl

theorem blind_log (level : Level) (origin : Origin) (text : String) :
    Blind (log level origin text) := fun _ _ => rfl

theorem blind_readText (c : Cause) (path : String) : Blind (readText c path) := fun _ _ => rfl

theorem blind_arrive (r : Route) : Blind (arrive r) := fun _ _ => rfl

theorem blind_turn : Blind turn := fun _ _ => rfl

theorem blind_makeDirectories (c : Cause) (path : String) : Blind (makeDirectories c path) :=
  fun _ _ => rfl

theorem blind_writeText (c : Cause) (path text : String) : Blind (writeText c path text) :=
  fun _ _ => rfl

theorem blind_noting (lines : List LogLine) :
    Blind (modify fun w => { w with log := w.log ++ lines }) := fun _ _ => rfl

/-- The world itself, which is another only by what was asked. -/
theorem alike_get : Alike earlier a b (World.Alike earlier a b) get get := fun _ _ hw => .ok hw hw

/-- One request more, signed with `a` in one world and with `b` in the other. -/
theorem alike_exchange (url : String) {r : Request} (hr : r.authorization = a) :
    Alike earlier a b Eq (exchange url r) (exchange url (r.signed b)) := by
  rintro v _ ⟨made, hmade, hv, rfl⟩
  have hsame : v.Alike earlier a b { v with requests := earlier ++ made.map (Request.signed b) } :=
    ⟨made, hmade, hv, rfl⟩
  unfold exchange
  dsimp only
  split
  · exact .error hsame
  · refine .ok rfl ⟨made ++ [r], ?_, ?_, ?_⟩
    · exact List.forall_mem_append.mpr ⟨hmade, List.forall_mem_singleton.mpr hr⟩
    · simp [hv]
    · simp

end Action

end RouteMigration
