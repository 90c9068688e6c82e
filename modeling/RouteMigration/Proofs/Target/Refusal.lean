import RouteMigration.Proofs.Target.Inversion

/-! Which targets cannot be converted. Encoding refuses what is neither special nor a key already
and has no four parts between hyphens; decoding refuses what is neither special nor a queue name
already and has no two parts around one number sign. -/

namespace RouteMigration.Target

theorem exists_error_iff {ε α : Type} {x : Except ε α} :
    (∃ e, x = .error e) ↔ ¬ ∃ a, x = .ok a := by
  cases x <;> simp

/-! ## Encoding -/

/-- A text that encoding finds no system and environment in. -/
structure Unencodable (queue : List Char) : Prop where
  ordinary : ∀ s ∈ specials, queue ≠ s.queue
  hash : '#' ∉ queue
  parts : ¬ ∃ first second system environment,
    Segmented queue first second system environment ∧ system ≠ [] ∧ environment ≠ []

theorem encodeQueue_eq_error_iff {queue : List Char} :
    (∃ flaw, encodeQueue queue = .error flaw) ↔ ¬ ∃ first second system environment,
      Segmented queue first second system environment ∧ system ≠ [] ∧ environment ≠ [] := by
  rw [exists_error_iff]
  refine not_congr ⟨?_, ?_⟩
  · rintro ⟨key, hkey⟩
    obtain ⟨first, second, system, environment, hseg, hs, he, -⟩ := encodeQueue_eq_ok_iff.mp hkey
    exact ⟨first, second, system, environment, hseg, hs, he⟩
  · rintro ⟨first, second, system, environment, hseg, hs, he⟩
    exact ⟨_, encodeQueue_eq_ok_iff.mpr ⟨first, second, system, environment, hseg, hs, he, rfl⟩⟩

theorem keyOfQueue_eq_error_iff {env queue : List Char} :
    (∃ flaw, keyOfQueue env queue = .error flaw) ↔ Unencodable queue := by
  constructor
  · intro hrefused
    have hno := exists_error_iff.mp hrefused
    -- a special queue or a key would have gone through, so only the parts can be at fault
    have hordinary : ∀ s ∈ specials, queue ≠ s.queue := by
      rintro s hs rfl
      exact hno ⟨_, keyOfQueue_special env s hs⟩
    have hash : '#' ∉ queue := fun hash => hno ⟨_, keyOfQueue_of_hash env hash⟩
    rw [keyOfQueue_of_ordinary env hordinary hash, encodeQueue_eq_error_iff] at hrefused
    exact ⟨hordinary, hash, hrefused⟩
  · intro h
    rw [keyOfQueue_of_ordinary env h.ordinary h.hash, encodeQueue_eq_error_iff]
    exact h.parts

/-! ## Decoding -/

/-- A text that decoding takes apart, but finds no system and environment in. -/
structure Undecodable (env key : List Char) : Prop extends IsDecoded env key where
  parts : ¬ ∃ system environment, Keyed key system environment

theorem decodeKey_eq_error_iff {key : List Char} :
    (∃ flaw, decodeKey key = .error flaw) ↔ ¬ ∃ system environment, Keyed key system environment := by
  rw [exists_error_iff]
  refine not_congr ⟨?_, ?_⟩
  · rintro ⟨queue, hqueue⟩
    obtain ⟨system, environment, hkeyed, -⟩ := decodeKey_eq_ok_iff.mp hqueue
    exact ⟨system, environment, hkeyed⟩
  · rintro ⟨system, environment, hkeyed⟩
    exact ⟨_, decodeKey_eq_ok_iff.mpr ⟨system, environment, hkeyed, rfl⟩⟩

theorem queueOfKey_eq_error_iff {env key : List Char} :
    (∃ flaw, queueOfKey env key = .error flaw) ↔ Undecodable env key := by
  constructor
  · intro hrefused
    have hno := exists_error_iff.mp hrefused
    have hdecoded : IsDecoded env key := by
      constructor
      · rintro s hs rfl
        exact hno ⟨_, queueOfKey_key hs⟩
      · exact fun hname => hno ⟨_, queueOfKey_of_isQueueName env hname⟩
    rw [queueOfKey_of_isDecoded hdecoded, decodeKey_eq_error_iff] at hrefused
    exact ⟨hdecoded, hrefused⟩
  · intro h
    rw [queueOfKey_of_isDecoded h.toIsDecoded, decodeKey_eq_error_iff]
    exact h.parts

/-! ## Texts -/

/-- The error names the text as it was given. -/
theorem onText_eq_error_iff {read : List Char → Except Flaw (List Char)} {target : String}
    {e : Malformed} :
    onText read target = .error e ↔ e.target = target ∧ read target.toList = .error e.flaw := by
  obtain ⟨named, flaw⟩ := e
  unfold onText
  cases h : read target.toList with
  | ok s => simp
  | error found => simp [eq_comm]

theorem onText_refuses_iff {read : List Char → Except Flaw (List Char)} {target : String} :
    (∃ e, onText read target = .error e) ↔ ∃ flaw, read target.toList = .error flaw := by
  constructor
  · rintro ⟨e, he⟩
    exact ⟨e.flaw, (onText_eq_error_iff.mp he).2⟩
  · rintro ⟨flaw, hflaw⟩
    exact ⟨⟨target, flaw⟩, onText_eq_error_iff.mpr ⟨rfl, hflaw⟩⟩

end RouteMigration.Target
