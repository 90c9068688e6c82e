import RouteMigration.CommandLine.Arguments
import Mathlib.Data.List.TakeWhile

/-! Switches on the command line. One that stands before two hyphens alone is on in whatever
run the arguments ask for: nothing turns it off again, and nothing takes it for a value. -/

namespace RouteMigration.CommandLine

namespace Options

def isOn (o : Options) : Switch → Bool
  | .revert => o.revert
  | .dryRun => o.dryRun

variable {o o' : Options}

theorem isOn_setConfig {value : String} (h : o.setConfig value = some o') (s : Switch) :
    o'.isOn s = o.isOn s := by
  unfold setConfig at h
  split at h
  · cases h
  · cases h
    cases s <;> rfl

theorem isOn_set {setting : Setting} {value : String} (h : o.set setting value = some o')
    (s : Switch) : o'.isOn s = o.isOn s := by
  unfold Options.set at h
  cases setting with
  | operation =>
    simp only at h
    split at h
    · cases h
      cases s <;> rfl
    · cases h
  | backup | out =>
    simp only at h
    split at h
    · cases h
    · cases h
      cases s <;> rfl

theorem isOn_turnOn {t : Switch} (h : o.turnOn t = some o') (s : Switch) :
    o'.isOn s = (o.isOn s || s == t) := by
  unfold turnOn at h
  cases t with
  | revert | dryRun =>
    simp only at h
    split at h
    · cases h
    · cases h
      cases s <;> simp [isOn]

theorem of_finish_run (h : o.finish = .run o') : o' = o := by
  unfold finish at h
  split at h
  · cases h
  · exact (Invocation.run.inj h).symm

end Options

/-! ## Single arguments -/

namespace Argument

theorem ofLong_ne_endOfOptions (name : String) (value : Option String) :
    ofLong name value ≠ .endOfOptions := by
  unfold ofLong
  split <;> exact Argument.noConfusion

theorem read_eq_endOfOptions {arg : String} (h : read arg = .endOfOptions) : arg = "--" := by
  unfold read at h
  split at h
  · next htext => exact String.toList_inj.mp htext
  · split at h
    · exact absurd h (ofLong_ne_endOfOptions _ _)
    · exact absurd h (ofLong_ne_endOfOptions _ _)
  all_goals cases h

theorem read_of_isValue {arg : String} (h : isValue arg = true) : read arg = .positional arg := by
  unfold isValue at h
  unfold read
  split at h
  · cases h
  · next hshort =>
    split <;> try exact absurd ‹_› (hshort _ _)
    rfl

end Argument

/-! ## All arguments -/

theorem isOn_positionals {args : List String} {o o' : Options}
    (h : positionals o args = .run o') (s : Switch) : o'.isOn s = o.isOn s := by
  induction args generalizing o with
  | nil => rw [Options.of_finish_run h]
  | cons arg args ih =>
    rw [positionals] at h
    split at h
    · next o₁ hset => exact (ih h).trans (Options.isOn_setConfig hset s)
    · cases h

/-- The switch is on already, or an argument that turns it on is still to come. -/
def IsDue (s : Switch) (flag : String) (o : Options) (args : List String) : Prop :=
  o.isOn s = true ∨ flag ∈ args.takeWhile (· ≠ "--")

section
variable {s : Switch} {flag arg : String} {args : List String} {o o' : Options}

theorem IsDue.nil (h : IsDue s flag o []) : o.isOn s = true := h.resolve_right List.not_mem_nil

theorem IsDue.next (h : IsDue s flag o (arg :: args)) (hne : flag ≠ arg)
    (hkept : o'.isOn s = o.isOn s) : IsDue s flag o' args := by
  refine h.imp hkept.trans fun hmem => ?_
  rw [List.takeWhile_cons] at hmem
  split at hmem
  · exact (List.mem_cons.mp hmem).resolve_left hne
  · cases hmem

theorem IsDue.end (h : IsDue s flag o ("--" :: args)) : o.isOn s = true :=
  h.resolve_right (by simp)

variable (hflag : Argument.read flag = .switch s)
include hflag

theorem ne_of_read (harg : Argument.read arg ≠ .switch s) : flag ≠ arg := by
  rintro rfl
  exact harg hflag

theorem IsDue.turnOn {t : Switch} (h : IsDue s flag o (arg :: args))
    (harg : Argument.read arg = .switch t) (hon : o.turnOn t = some o') :
    IsDue s flag o' args := by
  have hnow := Options.isOn_turnOn hon s
  by_cases hst : s = t
  · refine .inl ?_
    rw [hnow, hst]
    simp
  · refine h.next (ne_of_read hflag ?_) ?_
    · rw [harg]
      exact fun hts => hst (Argument.switch.inj hts).symm
    · rw [hnow, beq_eq_false_iff_ne.mpr hst, Bool.or_false]

theorem isOn_readFrom (h : readFrom o args = .run o') (hdue : IsDue s flag o args) :
    o'.isOn s = true := by
  fun_induction readFrom o args with
  | case1 o =>
    rw [Options.of_finish_run h]
    exact hdue.nil
  | case5 o arg args harg =>
    obtain rfl := Argument.read_eq_endOfOptions harg
    rw [isOn_positionals h s]
    exact hdue.end
  | case6 o arg args t harg o₁ hon ih => exact ih h (hdue.turnOn hflag harg hon)
  | case8 o arg args value harg o₁ hset ih =>
    exact ih h (hdue.next (ne_of_read hflag (by simp [harg])) (Options.isOn_setConfig hset s))
  | case10 o arg args setting value harg o₁ hset ih =>
    exact ih h (hdue.next (ne_of_read hflag (by simp [harg])) (Options.isOn_set hset s))
  | case14 o arg setting harg value args hvalue o₁ hset ih =>
    -- a value is read for itself, so it is no switch
    have hread := Argument.read_of_isValue (by simpa using hvalue)
    have hpast := hdue.next (ne_of_read hflag (by simp [harg])) rfl
    exact ih h (hpast.next (ne_of_read hflag (by simp [hread])) (Options.isOn_set hset s))
  | case2 | case3 | case4 | case7 | case9 | case11 | case12 | case13 | case15 => cases h

end

/-- A switch that was given is on. -/
theorem isOn_of_mem {s : Switch} {flag : String} (hflag : Argument.read flag = .switch s)
    {args : List String} {o : Options} (hgiven : flag ∈ args.takeWhile (· ≠ "--"))
    (h : readArguments args = .run o) : o.isOn s = true :=
  isOn_readFrom hflag h (.inr hgiven)

end RouteMigration.CommandLine
