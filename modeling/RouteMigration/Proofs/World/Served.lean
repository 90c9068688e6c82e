import RouteMigration.Proofs.World.Action

/-! What becomes of actions where a route manager answers. If it can be called, and each of its
answers arrives in full, then no action fails for want of an answer. -/

namespace RouteMigration

/-- The exchange itself failed: there was nobody to ask, or the answer did not arrive in full. -/
def Cause.isUnanswered : Cause → Bool
  | .neverMade .. | .bodyLost .. | .badAddress | .addressFlaw _ | .badAddressAt _
  | .schemeNotAllowed | .sendingTo _ | .connecting | .connectingByTcp | .connectionRefused
  | .decodingBodyFrom _ | .bodyError | .readingBody | .bodyCutShort => true
  | _ => false

/-- Not for want of an answer. -/
def Failure.Answered (f : Failure) : Prop := ∀ c ∈ f.chain, c.isUnanswered = false

theorem Failure.Answered.within {f : Failure} (h : f.Answered) {c : Cause}
    (hc : c.isUnanswered = false) : (f.within c).Answered :=
  List.forall_mem_cons.mpr ⟨hc, h⟩

/-- The way from one world to another on which `n` requests were answered, and on which the log
was told of no error. -/
structure World.Served (n : Nat) (w w' : World) : Prop where
  requests : ∃ made, w'.requests = w.requests ++ made ∧ made.length = n
  replies : w'.replies = w.replies.map (·.drop n)
  log : ∃ lines, w'.log = w.log ++ lines ∧ ∀ l ∈ lines, l.level ≠ .error

/-- The next `n` answers arrive in full. -/
def World.Whole (n : Nat) (w : World) : Prop :=
  ∀ replies, w.replies = some replies → ∀ r ∈ replies.take n, r.isCutShort = false

namespace World

variable {n m : Nat} {w w' w'' : World}

theorem Served.still (hrequests : w'.requests = w.requests) (hreplies : w'.replies = w.replies)
    (hlog : w'.log = w.log) : w.Served 0 w' where
  requests := ⟨[], by rw [hrequests, List.append_nil], rfl⟩
  replies := by simp [hreplies]
  log := ⟨[], by rw [hlog, List.append_nil], fun _ hl => absurd hl List.not_mem_nil⟩

theorem Served.noting (w : World) {lines : List LogLine} (h : ∀ l ∈ lines, l.level ≠ .error) :
    w.Served 0 (w.noting lines) :=
  ⟨⟨[], (List.append_nil _).symm, rfl⟩, by simp, lines, rfl, h⟩

theorem Served.trans (h : w.Served n w') (h' : w'.Served m w'') : w.Served (n + m) w'' := by
  obtain ⟨made, hmade, hn⟩ := h.requests
  obtain ⟨later, hlater, hm⟩ := h'.requests
  obtain ⟨lines, hlines, hquiet⟩ := h.log
  obtain ⟨more, hmore, hquiet'⟩ := h'.log
  refine ⟨⟨made ++ later, ?_, ?_⟩, ?_, lines ++ more, ?_, ?_⟩
  · rw [hlater, hmade, List.append_assoc]
  · rw [List.length_append, hn, hm]
  · rw [h'.replies, h.replies, Option.map_map]
    exact congrArg (Option.map · w.replies) (funext fun l => List.drop_drop)
  · rw [hmore, hlines, List.append_assoc]
  · exact List.forall_mem_append.mpr ⟨hquiet, hquiet'⟩

/-- Whoever answered goes on answering. -/
theorem Served.listens (h : w.Served n w') (hw : w.replies.isSome) : w'.replies.isSome := by
  rw [h.replies, Option.isSome_map]
  exact hw

theorem Whole.before (h : w.Whole (n + m)) : w.Whole n := by
  intro replies hreplies r hr
  exact h replies hreplies r ((List.take_prefix_take_left (Nat.le_add_right n m)).subset hr)

theorem Whole.behind (h : w.Whole (n + m)) (hserved : w.Served n w') : w'.Whole m := by
  intro left hleft r hr
  obtain ⟨replies, hreplies, rfl⟩ := Option.map_eq_some_iff.mp (hserved.replies.symm.trans hleft)
  refine h replies hreplies r ?_
  rw [List.take_add]
  exact List.mem_append_right _ hr

end World

namespace Action

variable {α β : Type} {callable known : Prop} {good : α → Prop} {good' : β → Prop}

/-- A good result, or a failure for other reasons than want of an answer. -/
inductive EndsAnswered (good : α → Prop) : Except Failure α → Prop
  | ok {x : α} : good x → EndsAnswered good (.ok x)
  | error {f : Failure} : f.Answered → EndsAnswered good (.error f)

/-- Where somebody answers, the action makes requests only if they can be made. If they can, what
it begins with is `known`, and the answers arrive in full, then it ends well. -/
def Served (callable known : Prop) (good : α → Prop) (a : Action α) : Prop :=
  ∀ w : World, w.replies.isSome → ∃ n, w.Served n (a.after w) ∧ (n ≠ 0 → callable) ∧
    (callable → known → w.Whole n → EndsAnswered good (a w).1)

theorem Served.imp {known' : Prop} {a : Action α} (h : Served callable known good a)
    (hknown : known' → known) : Served callable known' good a := by
  intro w hw
  obtain ⟨n, hserved, hcallable, hends⟩ := h w hw
  exact ⟨n, hserved, hcallable, fun hc hk => hends hc (hknown hk)⟩

theorem Served.pure {x : α} (h : known → good x) : Served callable known good (Pure.pure x) :=
  fun _ _ => ⟨0, .still rfl rfl rfl, fun hne => absurd rfl hne, fun _ hk _ => .ok (h hk)⟩

theorem Served.done {x : α} : Served callable known (fun _ => True) (Pure.pure x) :=
  .pure fun _ => trivial

/-- The second action may rely on what it is given: on that it is a result, and, where all goes
well, on that it is a good one. -/
theorem Served.bind {a : Action α} {f : α → Action β} (h : Served callable known good a)
    (hrest : ∀ x, (∃ w, (a w).1 = .ok x) → Served callable (known ∧ good x) good' (f x)) :
    Served callable known good' (a >>= f) := by
  intro w hw
  obtain ⟨n, hserved, hcallable, hends⟩ := h w hw
  cases ha : a w with
  | mk result w' =>
    rw [after_eq ha] at hserved
    rw [ha] at hends
    cases result with
    | error e =>
      rw [after, bind_of_error ha]
      refine ⟨n, hserved, hcallable, fun hc hk hwhole => ?_⟩
      cases hends hc hk hwhole with
      | error he => exact .error he
    | ok x =>
      obtain ⟨m, hserved', hcallable', hends'⟩ :=
        hrest x ⟨w, congrArg Prod.fst ha⟩ w' (hserved.listens hw)
      rw [after_bind_of_ok ha, bind_of_ok ha]
      refine ⟨n + m, hserved.trans hserved', fun hne => ?_, fun hc hk hwhole => ?_⟩
      · by_cases hn : n = 0
        · exact hcallable' fun hm => hne (by rw [hn, hm])
        · exact hcallable hn
      · cases hends hc hk hwhole.before with
        | ok hx => exact hends' hc ⟨hk, hx⟩ (hwhole.behind hserved)

/-- The second action, where it does not matter what the first one gave. -/
theorem Served.andThen {a : Action α} {f : α → Action β} (h : Served callable known good a)
    (hrest : ∀ x, Served callable known good' (f x)) : Served callable known good' (a >>= f) :=
  h.bind fun x _ => (hrest x).imp And.left

/-- An action that may be left out. -/
theorem Served.optional {p : Prop} [Decidable p] {a : Action Unit} {f : Unit → Action β}
    (h : Served callable known (fun _ => True) a) (hrest : Served callable known good' (f ())) :
    Served callable known good' (if p then a >>= f else f ()) := by
  split
  · exact h.andThen fun _ => hrest
  · exact hrest

theorem Served.within {a : Action α} (h : Served callable known good a) {c : Cause}
    (hc : c.isUnanswered = false) : Served callable known good (within c a) := by
  intro w hw
  obtain ⟨n, hserved, hcallable, hends⟩ := h w hw
  rw [after_within]
  refine ⟨n, hserved, hcallable, fun hcall hk hwhole => ?_⟩
  have hresult := hends hcall hk hwhole
  cases ha : a w with
  | mk result w' =>
    rw [ha] at hresult
    cases hresult with
    | ok hx =>
      rw [within_of_ok ha]
      exact .ok hx
    | error he =>
      rw [within_of_error ha]
      exact .error (he.within hc)

/-! ## Actions that ask nothing -/

theorem served_of_quiet {a : Action α} (hquiet : ∀ w : World, w.Served 0 (a.after w))
    (hfails : known → ∀ w f, (a w).1 = .error f → f.Answered) :
    Served callable known (fun _ => True) a := by
  intro w _
  refine ⟨0, hquiet w, fun hne => absurd rfl hne, fun _ hk _ => ?_⟩
  cases hresult : (a w).1 with
  | ok x => exact .ok trivial
  | error f => exact .error (hfails hk w f hresult)

theorem served_attempt {result : Except Failure α}
    (h : known → ∀ f, result = .error f → f.Answered) :
    Served callable known (fun _ => True) (attempt result) :=
  served_of_quiet (fun _ => .still rfl rfl rfl) fun hk _ f hf => h hk f hf

theorem served_fail {c : Cause} (hc : c.isUnanswered = false) :
    Served callable known (fun _ : α => True) (fail c) := by
  refine served_attempt fun _ f hf => ?_
  cases hf
  exact List.forall_mem_singleton.mpr hc

theorem served_log {level : Level} (h : level ≠ .error) (origin : Origin) (text : String) :
    Served callable known (fun _ => True) (log level origin text) := by
  refine served_of_quiet (fun w => .noting w ?_) fun _ _ _ hf => nomatch hf
  exact List.forall_mem_singleton.mpr h

theorem served_noting {lines : List LogLine} (h : ∀ l ∈ lines, l.level ≠ .error) :
    Served callable known (fun _ => True)
      (modify fun w => { w with log := w.log ++ lines } : Action Unit) :=
  served_of_quiet (fun w => .noting w h) fun _ _ _ hf => nomatch hf

theorem served_get : Served callable known (fun _ => True) (get : Action World) :=
  served_of_quiet (fun _ => .still rfl rfl rfl) fun _ _ _ hf => nomatch hf

theorem served_turn : Served callable known (fun _ => True) turn :=
  served_of_quiet (fun _ => .still rfl rfl rfl) fun _ _ _ hf => nomatch hf

theorem served_arrive (r : Route) : Served callable known (fun _ => True) (arrive r) :=
  served_of_quiet (fun _ => .still rfl rfl rfl) fun _ _ _ hf => nomatch hf

theorem answered_of_failingAs {c : Cause} (hc : c.isUnanswered = false) {result : Except OsError α}
    {f : Failure} (h : failingAs c result = .error f) : f.Answered := by
  cases result with
  | ok x => cases h
  | error e =>
    cases h
    exact List.forall_mem_cons.mpr ⟨hc, List.forall_mem_singleton.mpr rfl⟩

theorem served_readText {c : Cause} (hc : c.isUnanswered = false) (path : String) :
    Served callable known (fun _ => True) (readText c path) :=
  served_of_quiet (fun _ => .still rfl rfl rfl) fun _ _ _ hf => answered_of_failingAs hc hf

theorem served_makeDirectories {c : Cause} (hc : c.isUnanswered = false) (path : String) :
    Served callable known (fun _ => True) (makeDirectories c path) :=
  served_of_quiet (fun _ => .still rfl rfl rfl) fun _ _ _ hf => answered_of_failingAs hc hf

theorem served_writeText {c : Cause} (hc : c.isUnanswered = false) (path text : String) :
    Served callable known (fun _ => True) (writeText c path text) :=
  served_of_quiet (fun _ => .still rfl rfl rfl) fun _ _ _ hf => answered_of_failingAs hc hf

end Action

end RouteMigration
