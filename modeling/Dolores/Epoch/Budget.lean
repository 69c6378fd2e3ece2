import Mathlib.Algebra.Order.Group.Nat
import Dolores.Bridge.Isolation
import Dolores.Bridge.Purge
import Dolores.Epoch.Impl

/-!
# The budget of paid panel runs

A live plan reserves a slot; the slot is given back when the outcome carries no panel rows.

* `wp_outcomeFromPipeline`, `wp_evaluateTask`   the rows of an outcome are those of the result, or
                            none;
* `PaidRowsKept`            a step of the loop does not lose the rows of the paid run it makes;
* `evaluateSubmission_budget`   one submission: what it pays comes out of the remaining budget;
* `PaidRowsKeptFrom`        no step of a run of the loop loses them;
* `evaluateEpoch_within_budget`   at most `panel_max_tasks` paid runs, however the epoch ends.
-/

set_option linter.unusedSectionVars false

namespace Dolores
open Crash

/-! ## paid runs -/

/-- a pipeline was given the calibrate panel and returned solver rows -/
def paidRun (cfg : SubnetConfig) : Event → Bool
  | .pipelineRan panelPath result =>
    panelPath == cfg.panelCalibratePath && !(panelRows result).isEmpty
  | _ => false

def paidRuns (cfg : SubnetConfig) (events : List Event) : Nat := events.countP (paidRun cfg)

/-- the new events hold at most `n` paid runs -/
def PaidAtMost (cfg : SubnetConfig) (n : Nat) (w w' : World) : Prop :=
  ∃ events, w'.trace = w.trace ++ events ∧ paidRuns cfg events ≤ n

section
variable {cfg : SubnetConfig} {w w₁ w' : World} {n m : Nat}

theorem PaidAtMost.of_sameTrace (h : SameTrace w w') : PaidAtMost cfg n w w' :=
  ⟨[], by rw [h, List.append_nil], Nat.zero_le n⟩

theorem PaidAtMost.mono (h : PaidAtMost cfg n w w') (hle : n ≤ m) : PaidAtMost cfg m w w' := by
  obtain ⟨events, htrace, hpaid⟩ := h
  exact ⟨events, htrace, hpaid.trans hle⟩

theorem PaidAtMost.trans (h : PaidAtMost cfg n w w₁) (h' : PaidAtMost cfg m w₁ w') :
    PaidAtMost cfg (n + m) w w' := by
  obtain ⟨events, htrace, hpaid⟩ := h
  obtain ⟨events', htrace', hpaid'⟩ := h'
  refine ⟨events ++ events', ?_, ?_⟩
  · rw [htrace', htrace, List.append_assoc]
  · unfold paidRuns at hpaid hpaid' ⊢
    rw [List.countP_append]
    omega

theorem PaidAtMost.trans_same (h : PaidAtMost cfg n w w₁) (h' : SameTrace w₁ w') :
    PaidAtMost cfg n w w' :=
  h.trans (PaidAtMost.of_sameTrace (n := 0) h')

theorem PaidAtMost.same_trans (h : SameTrace w w₁) (h' : PaidAtMost cfg n w₁ w') :
    PaidAtMost cfg n w w' := by
  obtain ⟨events, htrace, hpaid⟩ := h'
  exact ⟨events, by rw [htrace, h], hpaid⟩

end

/-! ## the rows of an outcome -/

section
variable {env : Env} {engine : Engine} {A : FloatOps} {cfg : SubnetConfig}

/-- the outcome keeps the rows of a result that survives, and has none otherwise -/
structure KeepsRows (survives : Prop) (result : PipelineResult) (outcome : SubmissionOutcome) :
    Prop where
  kept : survives → outcome.panelRows = panelRows result
  lost : ¬ survives → outcome.panelRows = []

theorem wp_outcomeFromPipeline (result : PipelineResult) (taskId taskHash : String)
    (gates : Dict String Bool) (holdoutSummary : Obj) (w : World) :
    wp (outcomeFromPipeline env engine A result cfg taskId taskHash gates holdoutSummary)
      ⟨fun outcome w' => KeepsRows (RowsSurvive cfg result) result outcome ∧ SameTrace w w',
        fun _ w' => SameTrace w w', fun w' => SameTrace w w'⟩ w := by
  have hpurge : ∀ outcome : SubmissionOutcome, KeepsRows (RowsSurvive cfg result) result outcome →
      wp (purgeIfHash env engine taskHash >>= fun _ => pure outcome)
        ⟨fun outcome w' => KeepsRows (RowsSurvive cfg result) result outcome ∧ SameTrace w w',
          fun _ w' => SameTrace w w', fun w' => SameTrace w w'⟩ w := by
    intro outcome houtcome
    rw [wp_bind]
    exact wp_mono (sameTraceFrame.purgeIfHash taskHash w) (fun _ _ h => ⟨houtcome, h⟩)
      (fun _ _ h => h) (fun _ h => h)
  have hlost : ¬ RowsSurvive cfg result → ∀ outcome : SubmissionOutcome, outcome.panelRows = [] →
      KeepsRows (RowsSurvive cfg result) result outcome :=
    fun hnot outcome h => ⟨fun hs => (hnot hs).elim, fun _ => h⟩
  unfold outcomeFromPipeline
  dsimp only
  split
  · next hnone =>
    refine ⟨hlost (fun hs => ?_) _ rfl, rfl⟩
    obtain ⟨_, v, hv, _⟩ := hs
    rw [hnone] at hv
    exact nomatch hv
  · next v hv =>
    refine wp_ite (fun herror => ?_) (fun herror => wp_ite (fun hinfra => ?_) (fun hinfra => ?_))
    · exact ⟨hlost (fun hs => herror hs.1) _ rfl, rfl⟩
    · refine hpurge _ (hlost (fun hs => ?_) _ rfl)
      obtain ⟨_, v', hv', hnot, _⟩ := hs
      rw [hv] at hv'
      rw [Option.some.inj hv', hnot] at hinfra
      exact Bool.false_ne_true hinfra
    · split
      · next finding findings hfindings =>
        refine ⟨hlost (fun hs => ?_) _ rfl, rfl⟩
        obtain ⟨_, v', hv', _, hnone, _⟩ := hs
        rw [hv] at hv'
        rw [← Option.some.inj hv', hfindings] at hnone
        exact nomatch hnone
      · next hfindings =>
        refine wp_ite (fun hdocker => ?_) (fun hdocker => ?_)
        · refine hpurge _ (hlost (fun hs => ?_) _ rfl)
          obtain ⟨_, v', hv', _, _, hnot⟩ := hs
          rw [hv] at hv'
          rw [← Option.some.inj hv'] at hnot
          exact hnot hdocker
        · refine ⟨⟨fun _ => rfl, fun hnot => (hnot ?_).elim⟩, rfl⟩
          exact ⟨not_not.mp herror, v, hv, Bool.eq_false_of_not_eq_true hinfra, hfindings, hdocker⟩

/-- what a submission may cost that is sent to this panel -/
def paidFor (cfg : SubnetConfig) (panelPath : String) : Nat :=
  if panelPath = cfg.panelCalibratePath then 1 else 0

theorem paidRuns_pipelineRan (panelPath : String) (result : PipelineResult) :
    paidRuns cfg [.pipelineRan panelPath result] ≤ paidFor cfg panelPath := by
  unfold paidRuns paidFor
  rw [List.countP_singleton]
  by_cases h : panelPath = cfg.panelCalibratePath
  · rw [if_pos h]
    split <;> decide
  · have hnot : paidRun cfg (.pipelineRan panelPath result) = false := by
      show (panelPath == cfg.panelCalibratePath && _) = false
      rw [beq_false_of_ne h]
      rfl
    rw [hnot]
    exact Nat.zero_le _

theorem paidFor_le_one (panelPath : String) : paidFor cfg panelPath ≤ 1 := by
  unfold paidFor
  split <;> omega

theorem paidRuns_of_no_rows (panelPath : String) {result : PipelineResult}
    (h : panelRows result = []) : paidRuns cfg [.pipelineRan panelPath result] ≤ 0 := by
  have hnot : paidRun cfg (.pipelineRan panelPath result) = false := by
    show (_ && !(panelRows result).isEmpty) = false
    rw [h]
    exact Bool.and_false _
  unfold paidRuns
  rw [List.countP_singleton, hnot]
  exact Nat.le_refl 0

/-- what follows the pipeline: no event, and an outcome that keeps the rows exactly when they
survive -/
def KeptSince (env : Env) (engine : Engine) (cfg : SubnetConfig) (task : TaskPackage)
    (taskHash : String) (result : PipelineResult) (w : World) :
    Post World Exn SubmissionOutcome where
  ok outcome w' := SameTrace w w' ∧
    KeepsRows (Survives env engine cfg task taskHash result w) result outcome
  raise _ w' := SameTrace w w'
  killed w' := SameTrace w w'

/-- the branches without a holdout, and the one after a holdout that passed -/
theorem wp_outcome_kept {task : TaskPackage} {taskHash : String} {gates : Dict String Bool}
    {result : PipelineResult} {holdoutSummary : Obj} {w w₁ : World} (hw : SameTrace w w₁)
    (hholdout : ∀ v, result.verification = some v →
      cfg.holdoutRequired = true ∧ v.status = "passed" →
      HoldoutPasses env engine cfg task (holdoutHash engine task taskHash) w) :
    wp (outcomeFromPipeline env engine A result cfg task.taskId taskHash gates holdoutSummary)
      (KeptSince env engine cfg task taskHash result w) w₁ := by
  refine wp_mono (wp_outcomeFromPipeline result task.taskId taskHash gates holdoutSummary w₁) ?_
    (fun _ _ h => trans_of SameTrace hw h) (fun _ h => trans_of SameTrace hw h)
  intro outcome w' h
  obtain ⟨hrows, hsame⟩ := h
  exact ⟨trans_of SameTrace hw hsame, fun hs => hrows.kept hs.1,
    fun hn => hrows.lost fun hs => hn ⟨hs, hholdout⟩⟩

/-- the branch with a holdout -/
theorem wp_holdout_kept {task : TaskPackage} {taskHash : String} {gates : Dict String Bool}
    {result : PipelineResult} {v : Verification} (hv : result.verification = some v)
    (hrequired : cfg.holdoutRequired = true ∧ v.status = "passed") (w : World) :
    wp (do
      let evidence ← evaluateHoldout env engine task (holdoutHash engine task taskHash)
        (cfg.holdoutSecret.getD "") true
      if evidence.passed = false then
        purgeIfHash env engine taskHash
        pure { status := if evidence.status = "infra_error" then "infra_error" else "rejected",
               taskId := task.taskId, packageHash := .str taskHash, taskValue := 0, gates,
               verificationSummary := verificationSummary v,
               holdoutSummary := evidence.toRecord,
               reason := "holdout:" ++ evidence.status ++ ":" ++ evidence.reason }
      else
        outcomeFromPipeline env engine A result cfg task.taskId taskHash gates evidence.toRecord)
      (KeptSince env engine cfg task taskHash result w) w := by
  rw [wp_bind]
  refine wp_mono (wp_and (sameTraceFrame.evaluateHoldout task _ _ true w) (wp_self_ok _ _)) ?_
    (fun _ _ h => h.1) (fun _ h => h.1)
  intro evidence w₁ h
  obtain ⟨hsame, heval⟩ := h
  refine wp_ite (fun hfailed => ?_) (fun hpassed => ?_)
  · rw [wp_bind]
    refine wp_mono (sameTraceFrame.purgeIfHash taskHash w₁) ?_
      (fun _ _ h => trans_of SameTrace hsame h) (fun _ h => trans_of SameTrace hsame h)
    intro _ w₂ h
    refine ⟨trans_of SameTrace hsame h, fun hs => ?_, fun _ => rfl⟩
    have hpasses := hs.2 v hv hrequired evidence w₁ heval
    rw [hfailed] at hpasses
    exact (Bool.false_ne_true hpasses).elim
  · refine wp_outcome_kept hsame fun _ _ _ evidence' w₂ heval' => ?_
    have he := (Prod.mk.inj (heval.symm.trans heval')).1
    rw [← Outcome.ok.inj he]
    exact Bool.eq_true_of_not_eq_false hpassed

/-- the pipeline answers once, and the outcome keeps its rows exactly when they survive -/
theorem wp_evaluateTask (task : TaskPackage) (taskHash : String) (gates : Dict String Bool)
    (panelPath : String) (w : World) :
    wp (evaluateTask env engine A cfg task taskHash gates panelPath)
      ⟨fun outcome w' => ∃ result rows w₁,
          engine.runTaskPipeline w.clock task panelPath = .ok (result, rows) ∧
          w₁.clock = w.clock + 1 ∧ w₁.trace = w.trace ++ [.pipelineRan panelPath result] ∧
          SameTrace w₁ w' ∧
          KeepsRows (Survives env engine cfg task taskHash result w₁) result outcome,
        fun _ w' => PaidAtMost cfg (paidFor cfg panelPath) w w',
        fun w' => PaidAtMost cfg (paidFor cfg panelPath) w w'⟩ w := by
  unfold evaluateTask runPipeline
  rw [wp_bind, wp_bind]
  refine wp_external (fun p hanswer => ?_)
    (fun _ _ => PaidAtMost.of_sameTrace (sameTraceFrame.clock w))
    (PaidAtMost.of_sameTrace (sameTraceFrame.clock w))
  obtain ⟨result, rows⟩ := p
  dsimp only
  rw [wp_bind, wp_modify]
  dsimp only
  rw [wp_bind, wp_logEvent]
  dsimp only
  rw [wp_pure]
  generalize hw₁ : World.log (.pipelineRan panelPath result) _ = w₁
  have hclock : w₁.clock = w.clock + 1 := by rw [← hw₁]; rfl
  have htrace : w₁.trace = w.trace ++ [.pipelineRan panelPath result] := by rw [← hw₁]; rfl
  have hpaid : ∀ w', SameTrace w₁ w' → PaidAtMost cfg (paidFor cfg panelPath) w w' := by
    intro w' hw'
    refine ⟨[.pipelineRan panelPath result], ?_, paidRuns_pipelineRan panelPath result⟩
    rw [show w'.trace = w₁.trace from hw', htrace]
  refine wp_mono (Q := KeptSince env engine cfg task taskHash result w₁) ?_
    (fun _ _ h => ⟨result, rows, w₁, hanswer, hclock, htrace, h⟩) (fun _ _ h => hpaid _ h)
    (fun _ h => hpaid _ h)
  cases hv : result.verification with
  | some v =>
    refine wp_ite (fun hrequired => wp_holdout_kept hv hrequired w₁) (fun hrequired => ?_)
    refine wp_outcome_kept rfl fun v' hv' hr => ?_
    rw [hv] at hv'
    rw [← Option.some.inj hv'] at hr
    exact (hrequired hr).elim
  | none =>
    refine wp_outcome_kept rfl fun v' hv' _ => ?_
    rw [hv] at hv'
    exact nomatch hv'

/-! ## one submission -/

/-- the rows that the paid panel returns for the package survive, when its pipeline is the `n`-th
call -/
def TaskRowsKept (env : Env) (engine : Engine) (cfg : SubnetConfig) (task : TaskPackage) (n : Nat) :
    Prop :=
  ∀ (result : PipelineResult) (rows : List Json) (w : World),
    engine.runTaskPipeline n task cfg.panelCalibratePath = .ok (result, rows) →
    panelRows result ≠ [] → w.clock = n + 1 →
    Survives env engine cfg task (engine.stableHash task) result w

/-- what a submission that was sent to `panelPath` costs; without panel rows it costs nothing -/
def SpentOn (cfg : SubnetConfig) (panelPath : String) (w : World) : Post World Exn SubmissionOutcome where
  ok outcome w' := PaidAtMost cfg (paidFor cfg panelPath) w w' ∧
    (outcome.panelRows = [] → PaidAtMost cfg 0 w w')
  raise _ w' := PaidAtMost cfg (paidFor cfg panelPath) w w'
  killed w' := PaidAtMost cfg (paidFor cfg panelPath) w w'

theorem spentOn_same {outcome : SubmissionOutcome} {panelPath : String} {w w' : World}
    (h : SameTrace w w') : (SpentOn cfg panelPath w).ok outcome w' :=
  ⟨PaidAtMost.of_sameTrace h, fun _ => PaidAtMost.of_sameTrace h⟩

theorem evaluateTask_spends {task : TaskPackage} {gates : Dict String Bool} {panelPath : String}
    {w : World}
    (hkept : panelPath = cfg.panelCalibratePath → TaskRowsKept env engine cfg task w.clock) :
    wp (evaluateTask env engine A cfg task (engine.stableHash task) gates panelPath)
      (SpentOn cfg panelPath w) w := by
  refine wp_mono (wp_evaluateTask task _ gates panelPath w) ?_ (fun _ _ h => h) (fun _ h => h)
  intro outcome w' h
  obtain ⟨result, rows, w₁, hanswer, hclock, htrace, hsame, hrows⟩ := h
  have hevents : w'.trace = w.trace ++ [.pipelineRan panelPath result] := by
    rw [show w'.trace = w₁.trace from hsame, htrace]
  refine ⟨⟨_, hevents, paidRuns_pipelineRan panelPath result⟩, fun hnone => ⟨_, hevents, ?_⟩⟩
  by_cases hpanel : panelPath = cfg.panelCalibratePath
  · apply paidRuns_of_no_rows
    by_contra hne
    rw [hpanel] at hanswer
    have hs := hkept hpanel result rows w₁ hanswer hne hclock
    exact hne ((hrows.kept hs).symm.trans hnone)
  · have hfree : paidRuns cfg [.pipelineRan panelPath result] ≤ paidFor cfg panelPath :=
      paidRuns_pipelineRan panelPath result
    unfold paidFor at hfree
    rw [if_neg hpanel] at hfree
    exact hfree

theorem settleGates_spends {wire : Obj} {context context' : GateContext} {minerHotkey : String}
    {panelPath : Option String} {decision : GateDecision} {w : World}
    (hreserved : ¬ (reservedWireKeys.filter fun key => Dict.contains wire key) ≠ [])
    (hgates : runPreGates env.text engine wire cfg context minerHotkey = .ok (decision, context'))
    (hkept : ∀ task, evaluatedTask env engine cfg wire (some context) minerHotkey = some task →
      panelPath.getD cfg.panelPath = cfg.panelCalibratePath →
        TaskRowsKept env engine cfg task w.clock) :
    wp (settleGates env engine A wire cfg panelPath decision)
      (SpentOn cfg (panelPath.getD cfg.panelPath) w) w := by
  have hraise : ∀ e, (SpentOn cfg (panelPath.getD cfg.panelPath) w).raise e w :=
    fun _ => PaidAtMost.of_sameTrace rfl
  have hevaluated : evaluatedTask env engine cfg wire (some context) minerHotkey =
      if decision.passed then decision.task.filter (holdoutSupports engine cfg) else none := by
    unfold evaluatedTask
    rw [if_neg hreserved, Option.getD_some, hgates]
  unfold settleGates
  rw [wp_bind]
  refine (wp_ofExcept _ _ w).mpr ⟨fun taskId _ => ?_, fun e _ => hraise e⟩
  cases hpassed : decision.passed with
  | false => exact spentOn_same rfl
  | true =>
    obtain ⟨task, _, htask, hhash, _⟩ := runPreGates_task hgates hpassed
    rw [hpassed, htask, if_pos rfl, Option.filter_some] at hevaluated
    rw [htask, hhash]
    dsimp only
    have hspends : holdoutSupports engine cfg task = true →
        wp (evaluateTask env engine A cfg task (engine.stableHash task) decision.gates
          (panelPath.getD cfg.panelPath)) (SpentOn cfg (panelPath.getD cfg.panelPath) w) w := by
      intro hsupports
      rw [if_pos hsupports] at hevaluated
      exact evaluateTask_spends (hkept task hevaluated)
    unfold holdoutSupports at hspends
    unfold evaluateSupported
    refine wp_ite (fun _ => ?_) (fun hrequired => ?_)
    · split
      · exact spentOn_same rfl
      · exact hraise _
      · next hsupport =>
        rw [hsupport] at hspends
        exact hspends rfl
    · apply hspends
      rw [Bool.eq_false_of_not_eq_true hrequired]
      cases validateHoldoutSupport engine task with
      | ok _ => rfl
      | error _ => rfl

theorem SpentOn.after_same {panelPath : String} {w w₁ : World} (h : SameTrace w w₁)
    {p : M SubmissionOutcome} (hp : wp p (SpentOn cfg panelPath w₁) w₁) :
    wp p (SpentOn cfg panelPath w) w₁ :=
  wp_mono hp (fun _ _ h' => ⟨h'.1.same_trans h, fun hn => (h'.2 hn).same_trans h⟩)
    (fun _ _ h' => h'.same_trans h) (fun _ h' => h'.same_trans h)

theorem validateSubmission_spends {wire : Obj} {context : GateContext} {minerHotkey : String}
    {panelPath : Option String} {w : World}
    (hkept : ∀ task, evaluatedTask env engine cfg wire (some context) minerHotkey = some task →
      panelPath.getD cfg.panelPath = cfg.panelCalibratePath →
        TaskRowsKept env engine cfg task (w.clock + 1)) :
    wp (validateSubmission env engine A wire cfg (some context) minerHotkey panelPath)
      ⟨fun p => (SpentOn cfg (panelPath.getD cfg.panelPath) w).ok p.1,
        (SpentOn cfg (panelPath.getD cfg.panelPath) w).raise,
        (SpentOn cfg (panelPath.getD cfg.panelPath) w).killed⟩ w := by
  unfold validateSubmission
  rw [wp_bind]
  refine wp_mono (wp_and (sameTraceFrame.initArchive w) (wp_self_ok _ _)) ?_
    (fun _ _ h => PaidAtMost.of_sameTrace h.1) (fun _ h => PaidAtMost.of_sameTrace h.1)
  intro _ w₁ h
  obtain ⟨hsame, hinit⟩ := h
  have hclock := (initArchive_world hinit).1
  refine wp_ite (fun _ => spentOn_same hsame) (fun hreserved => ?_)
  rw [wp_bind]
  refine (wp_ofExcept _ _ w₁).mpr ⟨fun p hgates => ?_, fun e _ => PaidAtMost.of_sameTrace hsame⟩
  dsimp only
  rw [wp_bind]
  refine SpentOn.after_same hsame (settleGates_spends hreserved hgates ?_)
  rw [hclock]
  exact hkept

end

/-! ## the session -/

section
variable {env : Env} {engine : Engine} {A : FloatOps} {cfg : SubnetConfig}

/-- what is left to spend -/
def PanelSession.remaining (s : PanelSession) : Nat := s.budgetRemaining.toNat

theorem record_budget {s : PanelSession} {plan : PanelPlan} {taskId : String} {taskHash : Json}
    {rows : List Obj} {cachedRate : Json} (w : World) :
    wp (s.record env A plan taskId taskHash rows cachedRate)
      ⟨fun s' w' => s'.budgetRemaining = s.budgetRemaining ∧ SameTrace w w',
        fun _ w' => SameTrace w w', fun w' => SameTrace w w'⟩ w := by
  have hstore : ∀ (cleanRate : ℚ), wp (cacheStore env s taskHash cleanRate rows)
      ⟨fun s' w' => s'.budgetRemaining = s.budgetRemaining ∧ SameTrace w w',
        fun _ w' => SameTrace w w', fun w' => SameTrace w w'⟩ w := by
    intro cleanRate
    unfold cacheStore
    refine wp_ite (fun _ => rfl) (fun _ => ?_)
    rw [wp_bind]
    exact wp_mono (sameTraceFrame.appendPanelCacheLine _ w) (fun _ _ h => ⟨rfl, h⟩) (fun _ _ h => h)
      (fun _ h => h)
  unfold PanelSession.record
  refine wp_ite (fun _ => ⟨rfl, rfl⟩) (fun _ => wp_ite (fun _ => ?_) (fun _ =>
    wp_ite (fun _ => ⟨rfl, rfl⟩) (fun _ => wp_ite (fun _ => ?_) (fun _ => ⟨rfl, rfl⟩))))
  · rw [wp_bind]
    cases cleanSolveRateFromRows A env.text rows with
    | none => exact ⟨rfl, rfl⟩
    | some rate => exact wp_ite (fun _ => hstore rate) (fun _ => ⟨rfl, rfl⟩)
  · rw [wp_bind]
    exact (wp_ofExcept _ _ w).mpr ⟨fun _ _ => ⟨rfl, rfl⟩, fun _ _ => rfl⟩

theorem recordPanel_budget {plan : PanelPlan} {s : PanelSession} {outcome : SubmissionOutcome}
    (w : World) :
    wp (recordPanel env A plan s outcome)
      ⟨fun p w' => p.2.budgetRemaining = s.budgetRemaining ∧ SameTrace w w',
        fun _ w' => SameTrace w w', fun w' => SameTrace w w'⟩ w := by
  unfold recordPanel
  refine wp_ite (fun _ => ?_) (fun _ => wp_ite (fun _ => ?_) (fun _ => ⟨rfl, rfl⟩))
  · rw [wp_bind]
    refine (wp_ofExcept _ _ w).mpr ⟨fun _ _ => ?_, fun _ _ => rfl⟩
    dsimp only
    rw [wp_bind]
    refine (wp_ofExcept _ _ w).mpr ⟨fun _ _ => ?_, fun _ _ => rfl⟩
    dsimp only
    rw [wp_bind]
    exact record_budget w
  · rw [wp_bind]
    exact record_budget w

/-- a plan takes a slot when it is live, and nothing otherwise -/
theorem plan_budget {s s' : PanelSession} {taskHash : Json} {plan : PanelPlan}
    (h : s.plan taskHash = .ok (plan, s')) :
    if plan = .live then s'.remaining + 1 = s.remaining else s' = s := by
  unfold PanelSession.plan at h
  split at h
  · rw [← (Prod.mk.inj (Except.ok.inj h)).1, ← (Prod.mk.inj (Except.ok.inj h)).2]
    rfl
  · obtain ⟨rate, _, h⟩ := Except.bind_ok h
    split at h
    · rw [← (Prod.mk.inj (Except.ok.inj h)).1, ← (Prod.mk.inj (Except.ok.inj h)).2]
      rfl
    · split at h
      · rw [← (Prod.mk.inj (Except.ok.inj h)).1, ← (Prod.mk.inj (Except.ok.inj h)).2]
        rfl
      · split at h
        · rw [← (Prod.mk.inj (Except.ok.inj h)).1, ← (Prod.mk.inj (Except.ok.inj h)).2]
          rfl
        · next hbudget =>
          rw [← (Prod.mk.inj (Except.ok.inj h)).1, ← (Prod.mk.inj (Except.ok.inj h)).2]
          rw [if_pos rfl]
          unfold PanelSession.remaining
          dsimp only
          omega

theorem refund_remaining (s : PanelSession) : s.refund.remaining ≤ s.remaining + 1 := by
  unfold PanelSession.refund PanelSession.remaining
  dsimp only
  omega

/-- only a live plan sends the submission to the paid panel -/
theorem paidFor_plan (hpanels : cfg.panelPath ≠ cfg.panelCalibratePath) (active : Bool)
    (plan : PanelPlan) :
    paidFor cfg ((if active then some (panelPathFor cfg plan) else none).getD cfg.panelPath) ≤
      if plan = .live then 1 else 0 := by
  have hfree : paidFor cfg cfg.panelPath = 0 := if_neg hpanels
  by_cases h : plan = .live
  · rw [if_pos h]
    exact paidFor_le_one _
  · have hpath : panelPathFor cfg plan = cfg.panelPath := if_neg h
    rw [if_neg h, hpath]
    cases active with
    | true => exact hfree.le
    | false => exact hfree.le

/-! ## the loop -/

/-- the paid runs since `w₀` and what the session has left are within the budget `b` -/
def WithinBudget (cfg : SubnetConfig) (b : Nat) (w₀ : World) (s : PanelSession) (w : World) : Prop :=
  ∃ n, PaidAtMost cfg n w₀ w ∧ n + s.remaining ≤ b

theorem WithinBudget.total {b : Nat} {w₀ w : World} {s : PanelSession}
    (h : WithinBudget cfg b w₀ s w) : PaidAtMost cfg b w₀ w := by
  obtain ⟨n, hpaid, hle⟩ := h
  exact hpaid.mono (by omega)

theorem WithinBudget.same {b : Nat} {w₀ w w' : World} {s s' : PanelSession}
    (h : WithinBudget cfg b w₀ s w) (hs : s'.budgetRemaining = s.budgetRemaining)
    (hw : SameTrace w w') : WithinBudget cfg b w₀ s' w' := by
  obtain ⟨n, hpaid, hle⟩ := h
  refine ⟨n, hpaid.trans_same hw, ?_⟩
  unfold PanelSession.remaining at hle ⊢
  rw [hs]
  exact hle

/-- how a part of the loop ends -/
def BudgetPost {α : Type} (cfg : SubnetConfig) (b : Nat) (w₀ : World) (session : α → PanelSession) :
    Post World Exn α where
  ok a w' := WithinBudget cfg b w₀ (session a) w'
  raise _ w' := PaidAtMost cfg b w₀ w'
  killed w' := PaidAtMost cfg b w₀ w'

/-- a step of the loop does not lose the rows of the paid run it makes; its first call opens the
archive, the second is the pipeline -/
def PaidRowsKept (env : Env) (engine : Engine) (cfg : SubnetConfig) (e : Evaluation) (miner : Miner)
    (payload : Obj) (w : World) : Prop :=
  ∀ (s : PanelSession) (task : TaskPackage),
    e.session.plan (payload.get "package_hash") = .ok (.live, s) →
    evaluatedTask env engine cfg payload (some e.context) miner.hotkey = some task →
    TaskRowsKept env engine cfg task (w.clock + 1)

variable (hpanels : cfg.panelPath ≠ cfg.panelCalibratePath) {epochId : Int} {b : Nat} {w₀ : World}
include hpanels

/-- only a live plan is sent to the paid panel -/
theorem live_of_paid {active : Bool} {plan : PanelPlan}
    (h : (if active then some (panelPathFor cfg plan) else none).getD cfg.panelPath =
      cfg.panelCalibratePath) : plan = .live := by
  cases active with
  | false => exact (hpanels h).elim
  | true =>
    by_contra hnot
    have hpath : panelPathFor cfg plan = cfg.panelPath := if_neg hnot
    exact hpanels (hpath.symm.trans h)

/-- a slot is given back only when the submission paid nothing -/
theorem settlePlan_budget {s s₁ : PanelSession} {plan : PanelPlan} {taskHash : Json}
    {outcome : SubmissionOutcome} {w w' : World} (hplan : s.plan taskHash = .ok (plan, s₁))
    (h : WithinBudget cfg b w₀ s w)
    (hspent : (SpentOn cfg ((if s₁.active then some (panelPathFor cfg plan) else none).getD
      cfg.panelPath) w).ok outcome w') :
    WithinBudget cfg b w₀ (settlePlan plan s₁ outcome).2 w' := by
  obtain ⟨n, hpaid, hle⟩ := h
  have hbudget := plan_budget hplan
  obtain ⟨hcost, hfree⟩ := hspent
  have hcost' := hcost.mono (paidFor_plan hpanels s₁.active plan)
  unfold settlePlan
  by_cases hrefund : plan = .live ∧ outcome.panelRows = []
  · rw [if_pos hrefund.1] at hbudget
    rw [if_pos hrefund]
    have hrefunded := refund_remaining s₁
    refine ⟨n + 0, hpaid.trans (hfree hrefund.2), ?_⟩
    show n + 0 + s₁.refund.remaining ≤ b
    omega
  · rw [if_neg hrefund]
    refine ⟨_, hpaid.trans hcost', ?_⟩
    show _ + s₁.remaining ≤ b
    by_cases hlive : plan = .live
    · rw [if_pos hlive] at hbudget ⊢
      omega
    · rw [if_neg hlive] at hbudget ⊢
      rw [hbudget]
      omega

theorem evaluateSubmission_budget {e : Evaluation} {miner : Miner} {payload : Obj} {w : World}
    (hkept : PaidRowsKept env engine cfg e miner payload w)
    (h : WithinBudget cfg b w₀ e.session w) :
    wp (evaluateSubmission env engine A cfg epochId e miner payload)
      (BudgetPost cfg b w₀ (·.session)) w := by
  unfold evaluateSubmission
  rw [wp_bind]
  refine (wp_ofExcept _ _ w).mpr ⟨fun p hplan => ?_, fun _ _ => h.total⟩
  obtain ⟨plan, s₁⟩ := p
  dsimp only
  -- a run that stops inside the submission has spent at most the slot it took
  have hstop : ∀ w', PaidAtMost cfg (paidFor cfg ((if s₁.active then some (panelPathFor cfg plan)
      else none).getD cfg.panelPath)) w w' → PaidAtMost cfg b w₀ w' := by
    intro w' hcost
    obtain ⟨n, hpaid, hle⟩ := h
    have hbudget := plan_budget hplan
    refine (hpaid.trans (hcost.mono (paidFor_plan hpanels s₁.active plan))).mono ?_
    by_cases hlive : plan = .live
    · rw [if_pos hlive] at hbudget ⊢
      omega
    · rw [if_neg hlive]
      omega
  rw [wp_bind]
  have hspends : ∀ task, evaluatedTask env engine cfg payload (some e.context) miner.hotkey =
      some task → (if s₁.active then some (panelPathFor cfg plan) else none).getD cfg.panelPath =
        cfg.panelCalibratePath → TaskRowsKept env engine cfg task (w.clock + 1) := by
    intro task htask hpath
    rw [live_of_paid hpanels hpath] at hplan
    exact hkept s₁ task hplan htask
  refine wp_mono (validateSubmission_spends hspends) ?_ (fun _ w' hc => hstop w' hc)
    (fun w' hc => hstop w' hc)
  intro p w₁ hspent
  obtain ⟨outcome, context⟩ := p
  have h₁ := settlePlan_budget hpanels hplan h hspent
  dsimp only
  rw [wp_bind]
  refine wp_mono (recordPanel_budget w₁) ?_
    (fun _ w' hsame => (h₁.same rfl hsame).total) (fun w' hsame => (h₁.same rfl hsame).total)
  intro p w₂ hrecorded
  obtain ⟨outcome', s₂⟩ := p
  have h₂ : WithinBudget cfg b w₀ s₂ w₂ := h₁.same hrecorded.1 hrecorded.2
  dsimp only
  rw [wp_bind]
  have happend : Moves SameTrace (appendOutcome env epochId miner outcome') :=
    sameTraceFrame.appendSubmission (fun _ _ => rfl) _
  exact wp_mono (happend w₂) (fun _ w' hsame => h₂.same rfl hsame)
    (fun _ w' hsame => (h₂.same rfl hsame).total) (fun w' hsame => (h₂.same rfl hsame).total)

omit hpanels in
/-- no step of the loop over the submissions loses the rows of the paid run it makes -/
def PaidRowsKeptFrom (env : Env) (engine : Engine) (A : FloatOps) (cfg : SubnetConfig)
    (epochId : Int) : List (Miner × Obj) → Evaluation → World → Prop
  | [], _, _ => True
  | (miner, payload) :: rest, e, w => PaidRowsKept env engine cfg e miner payload w ∧
      ∀ e' w', evaluateSubmission env engine A cfg epochId e miner payload w = (.ok e', w') →
        PaidRowsKeptFrom env engine A cfg epochId rest e' w'

omit hpanels in
theorem PaidRowsKeptFrom.of_always {collected : List (Miner × Obj)}
    (h : ∀ p ∈ collected, ∀ e w, PaidRowsKept env engine cfg e p.1 p.2 w) (e : Evaluation)
    (w : World) : PaidRowsKeptFrom env engine A cfg epochId collected e w := by
  induction collected generalizing e w with
  | nil => trivial
  | cons p collected ih =>
    exact ⟨h p List.mem_cons_self e w, fun e' w' _ =>
      ih (fun p hp => h p (List.mem_cons_of_mem _ hp)) e' w'⟩

theorem evaluateAll_budget {collected : List (Miner × Obj)} {e : Evaluation} {w : World}
    (hkept : PaidRowsKeptFrom env engine A cfg epochId collected e w)
    (h : WithinBudget cfg b w₀ e.session w) :
    wp (evaluateAll env engine A cfg epochId collected e) (BudgetPost cfg b w₀ (·.session)) w := by
  induction collected generalizing e w with
  | nil => exact h
  | cons p collected ih =>
    obtain ⟨miner, payload⟩ := p
    obtain ⟨hstep, hrest⟩ := hkept
    show wp (evaluateSubmission env engine A cfg epochId e miner payload >>= _) _ w
    rw [wp_bind]
    exact wp_mono (wp_and (evaluateSubmission_budget hpanels hstep h) (wp_self_ok _ _))
      (fun e' w' h' => ih (hrest e' w' h'.2) h'.1) (fun _ _ h' => h'.1) (fun _ h' => h'.1)

omit hpanels in
theorem sameTrace_terminalOutcomes (miners : List Miner) :
    Moves SameTrace (terminalOutcomes env epochId miners) := by
  induction miners with
  | nil => exact Moves.pure _
  | cons miner miners ih =>
    unfold terminalOutcomes
    cases terminalOutcome miner with
    | none => exact ih
    | some terminal =>
      exact Moves.bind (sameTraceFrame.appendSubmission (fun _ _ => rfl) _) fun _ =>
        Moves.bind ih fun _ => Moves.pure _

omit hpanels in
theorem newPanelSession_budget {cacheFile : Option Log} {s : PanelSession}
    (h : newPanelSession env cfg cacheFile = .ok s) : s.budgetRemaining = cfg.panelMaxTasks := by
  unfold newPanelSession at h
  dsimp only at h
  split at h
  · rw [← Except.ok.inj h]
  · split at h
    · exact nomatch h
    · obtain ⟨_, _, h⟩ := Except.bind_ok h
      obtain ⟨_, _, h⟩ := Except.bind_ok h
      obtain ⟨_, _, h⟩ := Except.bind_ok h
      rw [← Except.ok.inj h]

omit hpanels in
theorem sameTrace_repairJsonlTail : Moves SameTrace (repairJsonlTail env) := by
  refine Moves.bind Moves.get fun w => ?_
  cases w.submissions with
  | none => exact Moves.pure _
  | some log =>
    exact Moves.bind (Moves.ofExcept _) fun _ => Moves.ite (Moves.pure _)
      (sameTraceFrame.effectful (fun _ => rfl) (fun _ => rfl))

omit hpanels in
/-- what `run_epoch` does before it evaluates the submissions -/
def openEvaluation (env : Env) (engine : Engine) (cfg : SubnetConfig) (epochId quota : Int)
    (miners : List Miner) : M Evaluation := do
  initArchive env engine
  repairJsonlTail env
  let w ← Proc.get
  let session ← Proc.ofExcept (newPanelSession env cfg w.panelCache)
  let terminals ← terminalOutcomes env epochId miners
  pure { outcomes := terminals, session, context := { quota } }

omit hpanels in
theorem evaluateEpoch_eq (quota : Int) (miners : List Miner) :
    evaluateEpoch env engine A cfg epochId quota miners =
      openEvaluation env engine cfg epochId quota miners >>=
        evaluateAll env engine A cfg epochId
          (sortedCollected env.text (collect miners epochId quota)) := by
  unfold evaluateEpoch openEvaluation
  simp only [bind_assoc, pure_bind]

omit hpanels in
theorem openEvaluation_budget (quota : Int) (miners : List Miner) (w : World) :
    wp (openEvaluation env engine cfg epochId quota miners)
      (BudgetPost cfg cfg.panelMaxTasks.toNat w (·.session)) w := by
  have hstop : ∀ w', SameTrace w w' → PaidAtMost cfg cfg.panelMaxTasks.toNat w w' :=
    fun _ h => PaidAtMost.of_sameTrace h
  unfold openEvaluation
  rw [wp_bind]
  refine wp_mono (sameTraceFrame.initArchive w) ?_ (fun _ => hstop) hstop
  intro _ w₁ h₁
  dsimp only
  rw [wp_bind]
  refine wp_mono (sameTrace_repairJsonlTail w₁) ?_ (fun _ w' h => hstop w' (trans_of SameTrace h₁ h))
    (fun w' h => hstop w' (trans_of SameTrace h₁ h))
  intro _ w₂ h₂
  have h₂' : SameTrace w w₂ := trans_of SameTrace h₁ h₂
  dsimp only
  rw [wp_bind, wp_get]
  dsimp only
  rw [wp_bind]
  refine (wp_ofExcept _ _ w₂).mpr ⟨fun session hsession => ?_, fun _ _ => hstop w₂ h₂'⟩
  dsimp only
  rw [wp_bind]
  refine wp_mono (sameTrace_terminalOutcomes miners w₂) ?_
    (fun _ w' h => hstop w' (trans_of SameTrace h₂' h))
    (fun w' h => hstop w' (trans_of SameTrace h₂' h))
  intro terminals w₃ h₃
  refine ⟨0, PaidAtMost.of_sameTrace (trans_of SameTrace h₂' h₃), ?_⟩
  show 0 + session.remaining ≤ _
  unfold PanelSession.remaining
  rw [newPanelSession_budget hsession]
  omega

/-- **At most `panel_max_tasks` paid panel runs** in an epoch, however it ends, when no step of its
loop loses the rows of the paid run it makes. -/
theorem evaluateEpoch_within_budget {quota : Int} {miners : List Miner} {w : World}
    (hkept : ∀ e w₁, openEvaluation env engine cfg epochId quota miners w = (.ok e, w₁) →
      PaidRowsKeptFrom env engine A cfg epochId
        (sortedCollected env.text (collect miners epochId quota)) e w₁) :
    PaidAtMost cfg cfg.panelMaxTasks.toNat w
      (evaluateEpoch env engine A cfg epochId quota miners w).2 := by
  rw [evaluateEpoch_eq]
  refine wp_always.mp ?_
  rw [wp_bind]
  refine wp_mono (wp_and (openEvaluation_budget quota miners w) (wp_self_ok _ _)) ?_
    (fun _ _ h => h.1) (fun _ h => h.1)
  intro e w₁ h
  obtain ⟨hbudget, hopen⟩ := h
  exact wp_mono (evaluateAll_budget hpanels (hkept e w₁ hopen) hbudget) (fun _ _ h => h.total)
    (fun _ _ h => h) (fun _ h => h)

end

section

/-- a verified task that the panel has attempted once -/
def sampleResult : PipelineResult where
  status := "accepted"
  error := none
  verification := some (sampleVerification "passed")
  score := none
  solverResults := [.row [("passed", .bool true)]]

/-- an engine whose pipeline always runs the panel and whose runner gives every task `verdict` -/
def sampleEngine (verdict : String) : Engine :=
  { Engine.plain with
    modelValidate := fun package =>
      match Obj.get package "task_id" with
      | .str taskId => .ok (sampleTask taskId)
      | _ => .error (.validationError "task_id: Field required")
    stableHash := fun task => task.taskId
    runTaskPipeline := fun _ _ _ => .ok (sampleResult, [])
    verify := fun _ _ _ => .ok (sampleVerification verdict)
    symbolTable := fun _ slug => some slug }

def paidEnv : Env :=
  { Env.plain with
    environ := fun name => if name = spendEnv then some "1" else none
    panelFile := some { digest := .zero, solvers := .ok [] } }

/-- calibration with a budget of one paid run -/
def paidConfig (holdoutRequired : Bool) : SubnetConfig :=
  { panelMode := .calibrate, panelMaxTasks := 1, allowProviderSpend := true, holdoutRequired,
    holdoutSecret := some "secret" }

/-- one miner with two submissions -/
def busyMiner : Miner :=
  { hotkey := "a", uid := 1, submissions := fun _ _ => [samplePayload "x", samplePayload "y"] }

/-- an engine whose pipeline always runs the panel, and whose holdout catches its probe -/
def keptEngine : Engine :=
  { isolatedEngine with runTaskPipeline := fun _ _ _ => .ok (sampleResult, []) }

def keptTask (taskId : String) : TaskPackage :=
  { sampleTask taskId with starterFiles := [("codec.py", "")] }

theorem keptEngine_task {payload : Obj} {task : TaskPackage}
    (h : parsePackage keptEngine payload = .ok task) : ∃ taskId, task = keptTask taskId := by
  unfold parsePackage at h
  split at h
  · obtain ⟨package, _, h⟩ := Except.bind_ok h
    change (match Obj.get package "task_id" with
      | .str taskId => (Except.ok (keptTask taskId) : Except Exn TaskPackage)
      | _ => .error (.validationError "task_id: Field required")) = _ at h
    split at h
    · exact ⟨_, (Except.ok.inj h).symm⟩
    · exact nomatch h
  · exact nomatch h

/-- the holdout of a task consults its reference and one probe -/
theorem keptEngine_consultedRuns (taskId : String) (n : Nat) :
    consultedRuns paidEnv keptEngine (keptTask taskId) taskId "secret" true n =
      [sampleVerification "passed", sampleVerification "failed"] := by
  -- the support of the holdout does not read the task's id
  have hsupport : holdoutSupports keptEngine (paidConfig true) (keptTask "") = true := by
    decide +kernel
  obtain ⟨plan, hplan⟩ : ∃ plan,
      buildHoldoutPlan paidEnv keptEngine (keptTask taskId) taskId "secret" = .ok plan := by
    unfold holdoutSupports at hsupport
    cases hpolicy : validateHoldoutSupport keptEngine (keptTask "") with
    | error e =>
      rw [hpolicy] at hsupport
      exact (Bool.false_ne_true hsupport).elim
    | ok policy =>
      have hpolicy' : validateHoldoutSupport keptEngine (keptTask taskId) = .ok policy := hpolicy
      have hhash : keptEngine.stableHash (keptTask taskId) = taskId := rfl
      unfold buildHoldoutPlan
      rw [if_neg (by decide), if_neg (not_not.mpr hhash), hpolicy']
      exact ⟨_, rfl⟩
  unfold consultedRuns
  rw [hplan]
  rfl

theorem keptEngine_keeps (e : Evaluation) (miner : Miner) (payload : Obj) (w : World) :
    PaidRowsKept paidEnv keptEngine (paidConfig true) e miner payload w := by
  intro s task _ htask result rows w₁ hanswer _ _
  obtain ⟨taskId, rfl⟩ := keptEngine_task (evaluatedTask_parse htask)
  have hresult : sampleResult = result := (Prod.mk.inj (Except.ok.inj hanswer)).1
  rw [← hresult]
  refine ⟨⟨rfl, sampleVerification "passed", rfl, rfl, rfl, fun h => ?_⟩, fun v _ _ => ?_⟩
  · exact Bool.noConfusion h.2.1
  · rw [ite_self]
    refine HoldoutPasses.of_runs (keptEngine_consultedRuns taskId w₁.clock) rfl rfl
      (List.cons_ne_nil _ _) fun v hv => ?_
    rw [List.mem_singleton.mp hv]
    exact ⟨by decide, rfl⟩

/-- two submissions with a required holdout and a budget of one: the second is sent to the mock
panel -/
theorem evaluateEpoch_within_budget_sample :
    PaidAtMost (paidConfig true) 1 {} (evaluateEpoch paidEnv keptEngine exactOps (paidConfig true) 1
      4 [busyMiner] {}).2 :=
  evaluateEpoch_within_budget (by decide) fun e w₁ _ =>
    PaidRowsKeptFrom.of_always (fun p _ e w => keptEngine_keeps e p.1 p.2 w) e w₁

/-- both submissions run the paid panel and fail the holdout, and both slots are given back -/
theorem failed_holdouts_are_refunded :
    ¬ ∀ (env : Env) (engine : Engine) (A : FloatOps) (cfg : SubnetConfig) (epochId quota : Int)
        (miners : List Miner) (w : World), cfg.panelMode = .calibrate → cfg.panelDryRun = false →
      cfg.panelPath ≠ cfg.panelCalibratePath →
      PaidAtMost cfg cfg.panelMaxTasks.toNat w
        (evaluateEpoch env engine A cfg epochId quota miners w).2 := by
  intro h
  obtain ⟨events, htrace, hpaid⟩ := h paidEnv (sampleEngine "failed") exactOps (paidConfig true) 1 4
    [busyMiner] {} rfl rfl (by decide)
  have hruns : paidRuns (paidConfig true) (evaluateEpoch paidEnv (sampleEngine "failed") exactOps
      (paidConfig true) 1 4 [busyMiner] {}).2.trace = 2 := by
    decide +kernel
  rw [htrace] at hruns
  have hevents : ({} : World).trace ++ events = events := List.nil_append events
  rw [hevents] at hruns
  have hmax : (paidConfig true).panelMaxTasks.toNat = 1 := rfl
  omega

end

end Dolores
