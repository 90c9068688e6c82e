import RouteMigration.World

/-! What an action does to a world, piece by piece. -/

namespace RouteMigration

/-- The world with more in its log. -/
def World.noting (w : World) (lines : List LogLine) : World := { w with log := w.log ++ lines }

namespace World

@[simp] theorem files_noting (w : World) (lines : List LogLine) :
    (w.noting lines).files = w.files := rfl

@[simp] theorem replies_noting (w : World) (lines : List LogLine) :
    (w.noting lines).replies = w.replies := rfl

@[simp] theorem noting_noting (w : World) (lines more : List LogLine) :
    (w.noting lines).noting more = w.noting (lines ++ more) := by
  simp [noting]

@[simp] theorem noting_nil (w : World) : w.noting [] = w := by
  simp [noting]

end World

/-- The message of a failure is that of its outermost cause, then that of what brought it
about. -/
theorem Failure.message_within (f : Failure) (c : Cause) :
    (f.within c).message = c.message ++ ": " ++ f.message := by
  have hne : f.chain.map Cause.message ≠ [] := by simp [Failure.chain]
  exact String.intercalate_cons_of_ne_nil hne

namespace Action

variable {α β : Type}

theorem bind_apply (a : Action α) (f : α → Action β) (w : World) :
    (a >>= f) w = match a w with
      | (.ok x, w) => f x w
      | (.error e, w) => (.error e, w) := by
  change (match a w with
    | (x, w) => ExceptT.bindCont f x w) = _
  obtain ⟨x | x, w⟩ := a w <;> rfl

theorem bind_of_ok {a : Action α} {f : α → Action β} {w w' : World} {x : α}
    (h : a w = (.ok x, w')) : (a >>= f) w = f x w' := by
  rw [bind_apply, h]

theorem bind_of_error {a : Action α} {f : α → Action β} {w w' : World} {e : Failure}
    (h : a w = (.error e, w')) : (a >>= f) w = (.error e, w') := by
  rw [bind_apply, h]

theorem bind_eq_ok_iff {a : Action α} {f : α → Action β} {w w'' : World} {y : β} :
    (a >>= f) w = (.ok y, w'') ↔ ∃ x w', a w = (.ok x, w') ∧ f x w' = (.ok y, w'') := by
  rw [bind_apply]
  constructor
  · intro h
    split at h
    · next x w' ha => exact ⟨x, w', ha, h⟩
    · cases h
  · rintro ⟨x, w', ha, hf⟩
    rw [ha]
    exact hf

@[simp] theorem attempt_apply (result : Except Failure α) (w : World) :
    attempt result w = (result, w) := rfl

@[simp] theorem log_apply (level : Level) (origin : Origin) (text : String) (w : World) :
    log level origin text w = (.ok (), w.noting [⟨level, origin, text⟩]) := rfl

theorem log_bind_apply (level : Level) (origin : Origin) (text : String) (f : Unit → Action β)
    (w : World) : (log level origin text >>= f) w = f () (w.noting [⟨level, origin, text⟩]) :=
  bind_of_ok rfl

theorem attempt_bind_apply (x : α) (f : α → Action β) (w : World) :
    (attempt (.ok x) >>= f) w = f x w := bind_of_ok rfl

theorem within_of_ok {c : Cause} {a : Action α} {w w' : World} {x : α}
    (h : a w = (.ok x, w')) : within c a w = (.ok x, w') := by
  rw [within, h]

theorem within_of_error {c : Cause} {a : Action α} {w w' : World} {e : Failure}
    (h : a w = (.error e, w')) : within c a w = (.error (e.within c), w') := by
  rw [within, h]

theorem within_eq_ok_iff {c : Cause} {a : Action α} {w w' : World} {x : α} :
    within c a w = (.ok x, w') ↔ a w = (.ok x, w') := by
  rw [within]
  split
  · next h => rw [h]
  · next h =>
    rw [h]
    constructor <;> intro h <;> cases h

theorem of_within_error {c : Cause} {a : Action α} {w w' : World} {f : Failure}
    (h : within c a w = (.error f, w')) : ∃ g, a w = (.error g, w') := by
  rw [within] at h
  split at h
  · cases h
  · next g w₁ ha =>
    cases h
    exact ⟨g, ha⟩

theorem bind_congr_apply {a b : Action α} {w w' : World} (h : a w = b w') (f : α → Action β) :
    (a >>= f) w = (b >>= f) w' := by
  rw [bind_apply, bind_apply, h]

theorem within_congr_apply {a b : Action α} {w w' : World} (h : a w = b w') (c : Cause) :
    within c a w = within c b w' := by
  rw [within, within, h]

/-- Where nothing else can fail, the first action did. -/
theorem of_bind_pure_error {a : Action α} {f : α → β} {w w' : World} {e : Failure}
    (h : (a >>= fun x => pure (f x)) w = (.error e, w')) : a w = (.error e, w') := by
  rw [bind_apply] at h
  split at h
  · cases h
  · next ha =>
    cases h
    exact ha

theorem store_apply {path text : String} {fault? : Option FileTree.Fault} {w : World}
    {files : FileTree} {result : Except OsError Unit}
    (h : w.files.store path text fault? = (files, result)) (c : Cause) :
    store c path text fault? w = (failingAs c result, { w with files }) := by
  rw [store, h]

theorem writeText_apply {path text : String} {w : World} {files : FileTree}
    {result : Except OsError Unit} (h : w.files.store path text none = (files, result))
    (c : Cause) : writeText c path text w = (failingAs c result, { w with files }) :=
  store_apply h c

theorem of_writeText_ok {c : Cause} {path text : String} {w w' : World} {u : Unit}
    (h : writeText c path text w = (.ok u, w')) :
    ∃ files, w.files.store path text none = (files, .ok ()) ∧ w' = { w with files } := by
  cases hstore : w.files.store path text none with
  | mk files result =>
    rw [writeText_apply hstore] at h
    cases result with
    | ok => exact ⟨files, rfl, (Prod.ext_iff.mp h).2.symm⟩
    | error e => cases h

theorem of_makeDirectories_ok {c : Cause} {path : String} {w w' : World} {u : Unit}
    (h : makeDirectories c path w = (.ok u, w')) :
    ∃ files, w.files.makeDirectories path = (files, .ok ()) ∧ w' = { w with files } := by
  unfold makeDirectories at h
  generalize w.files.makeDirectories path = made at h ⊢
  obtain ⟨files, result⟩ := made
  cases result with
  | ok => exact ⟨files, rfl, (Prod.ext_iff.mp h).2.symm⟩
  | error e => cases h

/-! ## What an action leaves behind -/

/-- The world an action ends in, whatever its result. -/
def after (a : Action α) (w : World) : World := (a w).2

theorem after_eq {a : Action α} {w w' : World} {result : Except Failure α}
    (h : a w = (result, w')) : a.after w = w' := congrArg Prod.snd h

theorem eq_ok_of_toOption {ε : Type} {result : Except ε α} {x : α}
    (h : result.toOption = some x) : result = .ok x := by
  cases result with
  | ok y =>
    cases h
    rfl
  | error e => cases h

theorem eq_of_toOption {a : Action α} {w : World} {x : α} (h : (a w).1.toOption = some x) :
    a w = (.ok x, a.after w) := Prod.ext (eq_ok_of_toOption h) rfl

theorem after_bind_of_ok {a : Action α} {f : α → Action β} {w w' : World} {x : α}
    (h : a w = (.ok x, w')) : (a >>= f).after w = (f x).after w' :=
  congrArg Prod.snd (bind_of_ok h)

theorem after_within (c : Cause) (a : Action α) (w : World) :
    (within c a).after w = a.after w := by
  unfold after within
  split
  · next h => rw [h]
  · next h => rw [h]

/-- What only looks at the world leaves it as it is. -/
theorem after_bind_eq_self {a : Action α} {f : α → Action β} {w : World} (ha : a.after w = w)
    (hf : ∀ x, (f x).after w = w) : (a >>= f).after w = w := by
  cases h : a w with
  | mk result w' =>
    obtain rfl : w' = w := (after_eq h).symm.trans ha
    cases result with
    | error e => exact after_eq (bind_of_error h)
    | ok x => exact (after_bind_of_ok h).trans (hf x)

end Action

end RouteMigration
