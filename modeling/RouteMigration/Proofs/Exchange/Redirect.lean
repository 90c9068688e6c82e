import RouteMigration.Exchange.Redirect

/-! What goes over the wire for a call: the call, and once more for each redirect that is followed.
The replies that calls end with are the same, whether they are counted call by call or read off the
wire beforehand. -/

namespace RouteMigration.Redirect

/-- How many redirects a call follows: those that come first, but not more than allowed. -/
def followed (left : Nat) (hops : List Hop) : Nat :=
  ((hops.take left).takeWhile fun h => (onward? h).isSome).length

variable {left : Nat} {hops : List Hop} {here there : WebAddress} {r : Request} {h : Hop}

theorem followed_le (left : Nat) (hops : List Hop) : followed left hops ≤ left :=
  Nat.le_trans (List.takeWhile_sublist _).length_le (List.length_take_le _ _)

theorem followed_of_onward (hon : onward? h = some there) :
    followed (left + 1) (h :: hops) = followed left hops + 1 := by
  rw [followed, List.take_succ_cons, List.takeWhile_cons, hon]
  rfl

theorem followed_of_not_onward (hon : onward? h = none) (left : Nat) (hops : List Hop) :
    followed left (h :: hops) = 0 := by
  cases left with
  | zero => rfl
  | succ left =>
    rw [followed, List.take_succ_cons, List.takeWhile_cons, hon]
    rfl

/-! ## One call -/

/-- A call is sent as it is, and then as often as it is redirected. -/
theorem call_sent (left : Nat) (here : WebAddress) (r : Request) (hops : List Hop) :
    ∃ forwarded, (call left here r hops).sent = r :: forwarded ∧
      forwarded.length = followed left hops := by
  induction hops generalizing left here r with
  | nil => exact ⟨[], by simp [call], by simp [followed]⟩
  | cons h hops ih =>
    cases left with
    | zero => exact ⟨[], rfl, rfl⟩
    | succ left =>
      rw [call]
      cases hon : onward? h with
      | none => exact ⟨[], rfl, (followed_of_not_onward hon _ _).symm⟩
      | some there =>
        obtain ⟨forwarded, hsent, hlength⟩ := ih left there (forward h.reply.status here there r)
        refine ⟨_, rfl, ?_⟩
        rw [followed_of_onward hon, ← hlength]
        exact congrArg List.length hsent

theorem method_forward (status : Status) (here there : WebAddress) (hr : r.method = .get) :
    (forward status here there r).method = .get := by
  unfold forward
  by_cases h303 : status.code = 303
  · simp [h303]
  · simp [h303, hr]

/-- What is asked for is never more than the call asks for. -/
theorem method_of_mem_call (hr : r.method = .get) (left : Nat) (here : WebAddress)
    (hops : List Hop) : ∀ q ∈ (call left here r hops).sent, q.method = .get := by
  have hself : ∀ q ∈ [r], q.method = .get := List.forall_mem_singleton.mpr hr
  induction hops generalizing left here r with
  | nil => simpa [call] using hr
  | cons h hops ih =>
    cases left with
    | zero => exact hself
    | succ left =>
      rw [call]
      cases onward? h with
      | none => exact hself
      | some there =>
        have hforward := method_forward h.reply.status here there hr
        exact List.forall_mem_cons.mpr
          ⟨hr, ih hforward left there (List.forall_mem_singleton.mpr hforward)⟩

/-- The reply of a call is the next of the replies that calls end with, and the others are for the
calls after it. -/
theorem call_replies (left : Nat) (here : WebAddress) (r : Request) (hops : List Hop) :
    (call left here r hops).reply = (repliesFrom left hops).head?.getD .empty ∧
      replies (call left here r hops).rest = (repliesFrom left hops).tail := by
  induction hops generalizing left here r with
  | nil => cases left <;> exact ⟨rfl, rfl⟩
  | cons h hops ih =>
    cases left with
    | zero => exact ⟨rfl, rfl⟩
    | succ left =>
      rw [call, repliesFrom]
      cases onward? h with
      | none => exact ⟨rfl, rfl⟩
      | some there => exact ih left there _

/-! ## Calls for all routes -/

/-- Only requests that change nothing go over the wire: none, or one and one more for each redirect
that is followed. -/
structure OnlyFetches (hops : List Hop) (sent : List Request) : Prop where
  method : ∀ q ∈ sent, q.method = .get
  length : sent = [] ∨ sent.length = followed limit hops + 1

/-- However long a chain of redirects is, eleven requests are the most. -/
theorem OnlyFetches.length_le {made : List Request} (h : OnlyFetches hops made) :
    made.length ≤ limit + 1 := by
  rcases h.length with hnone | hsome
  · rw [hnone]
    exact Nat.zero_le _
  · rw [hsome]
    exact Nat.succ_le_succ (followed_le limit hops)

theorem sent_single (origin : WebAddress) (hops : List Hop) (r : Request) :
    sent origin hops [r] = (call limit origin r hops).sent := List.append_nil _

theorem onlyFetches_single (origin : WebAddress) (hops : List Hop) (hr : r.method = .get) :
    OnlyFetches hops (sent origin hops [r]) := by
  rw [sent_single]
  refine ⟨method_of_mem_call hr limit origin hops, .inr ?_⟩
  obtain ⟨forwarded, hsent, hlength⟩ := call_sent limit origin r hops
  rw [hsent, List.length_cons, hlength]

end RouteMigration.Redirect
