import RouteMigration.Proofs.CommandLine.Phrases
import RouteMigration.Proofs.Migration.Served

/-! When a failure comes with the advice to check the connection, although the route manager has
answered: when one of the texts that a cause repeats sounds like it. -/

namespace RouteMigration.CommandLine

/-! ## Options -/

section
variable {callable known : Prop}

theorem served_backupFor (o : Options) (s : Settings) :
    Action.Served callable known (fun _ => True) (backupFor o s) := by
  unfold backupFor
  split
  · exact .done
  · refine Action.served_get.andThen fun w => ?_
    refine (Action.served_attempt fun _ f hf => ?_).andThen fun path? => ?_
    · unfold Backup.newest? at hf
      split at hf
      · cases hf
      · next hlist =>
        cases hf
        exact Action.answered_of_failingAs rfl hlist
    · split
      · exact .done
      · exact Action.served_fail rfl

theorem served_applyOptions (o : Options) (s : Settings) :
    Action.Served callable known (fun _ => True) (applyOptions o s) := by
  have hdryRun : ∀ s : Settings, Action.Served callable known (fun _ => True)
      (if o.dryRun then do
        let out := o.out.getD "transformed-routes.json"
        Action.log .info .commandLine ("🧪 dry run, writing to " ++ out)
        return { s with sink := .file out }
      else return s) := by
    intro s
    split
    · exact (Action.served_log (by decide) _ _).andThen fun _ => .done
    · exact .done
  unfold applyOptions
  dsimp only
  split
  · refine (served_backupFor o _).andThen fun backup => ?_
    exact (Action.served_log (by decide) _ _).andThen fun _ => hdryRun _
  · exact hdryRun _

end

/-! ## The report -/

/-- The advice to check the connection, as the log has it. -/
def hintLine : LogLine := ⟨.error, .commandLine, hint⟩

/-- No other line of a report begins like the advice. -/
theorem ne_hint {front : String} (h : front.toList.head? ∉ [none, some '🔧']) (text : String) :
    hint ≠ front ++ text := by
  intro heq
  have hhint : hint.toList.head? = some '🔧' := by
    unfold hint
    rw [String.append_assoc, String.toList_append, List.head?_append, String.toList_ofList,
      List.head?_cons, Option.some_or]
  rw [heq, String.toList_append] at hhint
  cases hfront : front.toList with
  | nil => simp [hfront] at h
  | cons c s =>
    rw [hfront] at hhint
    simp [hfront, Option.some.inj hhint] at h

theorem hintLine_mem_report_iff {f : Failure} : hintLine ∈ report f ↔ deservesHint f = true := by
  have herror : ∀ text, hintLine ≠ ⟨.error, .commandLine, "💀 error: " ++ text⟩ := by
    intro text heq
    exact ne_hint (by simp) text (congrArg LogLine.text heq)
  have hcause : ∀ text, hintLine ≠ ⟨.error, .commandLine, "⚠️  cause: " ++ text⟩ := by
    intro text heq
    exact ne_hint (by simp) text (congrArg LogLine.text heq)
  unfold report
  rw [List.mem_append, List.mem_cons, or_iff_right]
  · split
    · next hdeserved => exact iff_of_true List.mem_cons_self hdeserved
    · next hnot => exact iff_of_false List.not_mem_nil hnot
  · rintro (heq | hmem)
    · exact herror _ heq
    · obtain ⟨c, -, heq⟩ := List.mem_map.mp hmem
      exact hcause _ heq.symm

theorem deservesHint_iff {f : Failure} (h : f.Answered) :
    deservesHint f = true ↔ ∃ c ∈ f.causes, ∃ t ∈ c.quotes, Phrased t := by
  rw [deservesHint, List.any_eq_true]
  refine exists_congr fun c => and_congr_right fun hc => ?_
  exact soundsUnreachable_iff (h c (List.mem_cons_of_mem _ hc))

theorem hintLine_mem_iff {lines : List LogLine} {f : Failure}
    (hlines : ∀ l ∈ lines, l.level ≠ .error) (hf : f.Answered) :
    hintLine ∈ lines ++ report f ↔ ∃ c ∈ f.causes, ∃ t ∈ c.quotes, Phrased t := by
  have hnot : hintLine ∉ lines := fun hmem => hlines _ hmem rfl
  rw [List.mem_append, or_iff_right hnot, hintLine_mem_report_iff, deservesHint_iff hf]

/-! ## The whole program -/

/-- A program that fails has asked nothing, or its log ends with the report of the failure. -/
theorem runWith_failed {o : Options} {vars : List (String × String)} {w : World}
    (h : (runWith o vars w).exitCode ≠ 0) :
    (runWith o vars w).world.requests = w.requests ∨
    ∃ (s : Settings) (loading : LogLine) (f : Failure) (last : World), loading.level ≠ .error ∧
      (applyOptions o s >>= Migration.run) (w.noting [loading]) = (.error f, last) ∧
      (runWith o vars w).world = last.noting (report f) := by
  unfold runWith at h ⊢
  cases hfile : settingsFile? w.files o with
  | error e => exact .inl rfl
  | ok path? =>
    simp only [hfile] at h
    cases hload : Settings.load w.files vars path? with
    | error p => exact .inl (by simp [hload])
    | ok s =>
      simp only [hload] at h ⊢
      let loading : LogLine := ⟨.info, .settings,
        "🔧 Loading configuration: " ++ Text.quoted (path?.getD "")⟩
      cases hrun : (applyOptions o s >>= Migration.run) (w.noting [loading]) with
      | mk result last =>
        have hrun' : ((do Migration.run (← applyOptions o s)) : Action Summary)
            { w with log := w.log ++ [loading] } = (result, last) := hrun
        rw [hrun'] at h ⊢
        cases result with
        | ok summary => exact absurd rfl h
        | error f => exact .inr ⟨s, loading, f, last, by simp [loading], hrun, rfl⟩

/-- Where something was asked, the route manager could be called, and so the run does not fail for
want of an answer. -/
theorem run_answered (o : Options) (s : Settings) {w : World} (hw : w.replies.isSome) :
    ∃ n, w.Served n ((applyOptions o s >>= Migration.run).after w) ∧ (n ≠ 0 → w.Whole n →
      Action.EndsAnswered (fun _ => True) ((applyOptions o s >>= Migration.run) w).1) := by
  -- the options alone ask nothing, whoever can be called
  have hoptions : Action.Served False True (fun _ => True) (applyOptions o s) :=
    served_applyOptions o s
  obtain ⟨n, hserved, hn, -⟩ := hoptions w hw
  obtain rfl : n = 0 := by_contra hn
  cases happly : applyOptions o s w with
  | mk result w' =>
    rw [Action.after_eq happly] at hserved
    cases result with
    | error f =>
      rw [Action.after, Action.bind_of_error happly]
      exact ⟨0, hserved, fun hne => absurd rfl hne⟩
    | ok s' =>
      obtain ⟨m, hserved', hcallable, hends⟩ := Migration.served_run s' w' (hserved.listens hw)
      rw [Action.after_bind_of_ok happly, Action.bind_of_ok happly]
      refine ⟨m, by simpa using hserved.trans hserved', fun hm hwhole => ?_⟩
      rw [← Nat.zero_add m] at hwhole
      exact hends (hcallable hm) trivial (hwhole.behind hserved)

/-- A program that asked something and fails, though it was answered in full each time, does not
fail for want of an answer. Its log ends with the report of the failure, the first error in it. -/
theorem runWith_answered {o : Options} {vars : List (String × String)} {w : World}
    {made : List Request} (hw : w.replies.isSome) (hfailed : (runWith o vars w).exitCode ≠ 0)
    (hmade : (runWith o vars w).world.requests = w.requests ++ made) (hasked : made ≠ [])
    (hwhole : w.Whole made.length) :
    ∃ (lines : List LogLine) (f : Failure),
      (runWith o vars w).world.log = w.log ++ (lines ++ report f) ∧
      (∀ l ∈ lines, l.level ≠ .error) ∧ f.Answered := by
  rcases runWith_failed hfailed with hnothing | ⟨s, loading, f, last, hloading, hrun, hworld⟩
  · exact absurd (List.append_right_eq_self.mp (hmade.symm.trans hnothing)) hasked
  · have hquiet : ∀ l ∈ [loading], l.level ≠ .error := List.forall_mem_singleton.mpr hloading
    have hbegun : w.Served 0 (w.noting [loading]) := .noting w hquiet
    obtain ⟨n, hserved, hends⟩ := run_answered o s (hbegun.listens hw)
    rw [Action.after_eq hrun] at hserved
    rw [hrun] at hends
    obtain ⟨made', hmade', hlength⟩ := (hbegun.trans hserved).requests
    obtain ⟨lines, hlines, hcalm⟩ := (hbegun.trans hserved).log
    rw [hworld] at hmade ⊢
    obtain rfl : made' = made := List.append_cancel_left (hmade'.symm.trans hmade)
    have hn : n ≠ 0 := by
      rw [← Nat.zero_add n, ← hlength]
      exact fun hzero => hasked (List.length_eq_zero_iff.mp hzero)
    rw [hlength] at hwhole
    refine ⟨lines, f, ?_, hcalm, ?_⟩
    · rw [World.noting, hlines, List.append_assoc]
    · cases hends hn (hwhole.behind hbegun) with
      | error hf => exact hf

/-- Of every command line, whatever the settings and the files, and whatever the route manager
says: where the program fails although it has asked something, and each answer arrived in full, it
does not fail for want of an answer. Its log ends with the report of the failure, and has the
advice to check the connection just in case a cause other than the outermost repeats a text, be it
a body, an address, a name or a path, that sounds as if there were none. -/
theorem hint_of_quoted {args : List String} {vars : List (String × String)} {w : World}
    {replies : List Reply} {made : List Request} (hreplies : w.replies = some replies)
    (hfailed : (execute args vars w).exitCode ≠ 0)
    (hmade : (execute args vars w).world.requests = w.requests ++ made) (hasked : made ≠ [])
    (hwhole : ∀ r ∈ replies.take made.length, r.isCutShort = false) :
    ∃ (lines : List LogLine) (f : Failure),
      (execute args vars w).world.log = w.log ++ (lines ++ report f) ∧ f.Answered ∧
      (hintLine ∈ lines ++ report f ↔ ∃ c ∈ f.causes, ∃ t ∈ c.quotes, Phrased t) := by
  unfold execute at hfailed hmade ⊢
  cases hargs : readArguments args with
  | help | version =>
    rw [hargs] at hfailed
    exact absurd rfl hfailed
  | refused =>
    rw [hargs] at hmade
    exact absurd (List.append_right_eq_self.mp hmade.symm) hasked
  | run o =>
    rw [hargs] at hfailed hmade
    have hlistens : w.replies.isSome := by rw [hreplies, Option.isSome_some]
    have hall : w.Whole made.length := by
      intro given hgiven
      obtain rfl := Option.some.inj (hreplies.symm.trans hgiven)
      exact hwhole
    obtain ⟨lines, f, hlog, hquiet, hf⟩ := runWith_answered hlistens hfailed hmade hasked hall
    exact ⟨lines, f, hlog, hf, hintLine_mem_iff hquiet hf⟩

/-! One call that is answered in full, with a failure of the route manager's own. Only where the
answer talks of connections, the log comes with the advice to check them. -/

def refusalVars : List (String × String) :=
  [("RMX_MIGRATION__OPERATION", "encode-queues"), ("RMX_ROUTE_MANAGER__USERNAME", "u"),
   ("RMX_ROUTE_MANAGER__PASSWORD", "p")]

def refusalWorld (body : String) : World where
  files := ⟨[], []⟩
  replies := some [⟨⟨500⟩, body, 0⟩]

def refusal (body : String) : Outcome := execute [] refusalVars (refusalWorld body)

theorem hint_of_quoted_busy :
    (refusal "busy").exitCode ≠ 0 ∧ (refusal "busy").world.requests.length = 1 ∧
    hintLine ∉ (refusal "busy").world.log ∧
    ∃ (lines : List LogLine) (f : Failure), (refusal "busy").world.log = lines ++ report f ∧
      f.Answered ∧ (hintLine ∈ lines ++ report f ↔ ∃ c ∈ f.causes, ∃ t ∈ c.quotes, Phrased t) := by
  have hrun : (refusal "busy").exitCode ≠ 0 ∧ (refusal "busy").world.requests.length = 1 ∧
      hintLine ∉ (refusal "busy").world.log := by decide +kernel
  unfold refusal at hrun ⊢
  obtain ⟨hfailed, hcount, hquiet⟩ := hrun
  have hmade : (execute [] refusalVars (refusalWorld "busy")).world.requests =
      (refusalWorld "busy").requests ++
        (execute [] refusalVars (refusalWorld "busy")).world.requests := by
    rw [refusalWorld, List.nil_append]
  have hwhole : ∀ r ∈ ([⟨⟨500⟩, "busy", 0⟩] : List Reply).take
      (execute [] refusalVars (refusalWorld "busy")).world.requests.length,
      r.isCutShort = false := by
    rw [hcount]
    decide
  obtain ⟨lines, f, hlog, hreport⟩ :=
    hint_of_quoted rfl hfailed hmade (List.ne_nil_of_length_eq_add_one hcount) hwhole
  exact ⟨hfailed, hcount, hquiet, lines, f, hlog, hreport⟩

theorem hint_of_answer_in_full :
    (refusal "connection refused").exitCode ≠ 0 ∧
    (refusal "connection refused").world.requests.length = 1 ∧
    (refusalWorld "connection refused").Whole 1 ∧
    hintLine ∈ (refusal "connection refused").world.log := by
  have hrun : (refusal "connection refused").exitCode ≠ 0 ∧
      (refusal "connection refused").world.requests.length = 1 ∧
      hintLine ∈ (refusal "connection refused").world.log := by decide +kernel
  refine ⟨hrun.1, hrun.2.1, fun replies hreplies => ?_, hrun.2.2⟩
  obtain rfl := Option.some.inj hreplies
  decide

end RouteMigration.CommandLine
