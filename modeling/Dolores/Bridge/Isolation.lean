import Dolores.Bridge.Runs
import Dolores.Score.Recalibrate

/-!
# Value only after every check ran in isolation (`bridge.py`, `holdout.py`)

With the Docker backend and a required holdout, a submission earns value only when its gates, its
pipeline run and its holdout all say so.

* `HoldoutProven`        the reference passed in a container, and every probe failed in one;
* `PaidEvidence`         the evidence behind a positive value of the submitted package;
* `run_evaluateHoldout`  the runs behind a holdout that passed;
* `validateSubmission_value`   the value of every submission that is answered.
-/

set_option linter.unusedSectionVars false

namespace Dolores
open Crash Except

/-- the engine reports `accepted` only for a verification that passed -/
def Engine.AcceptsOnlyPassed (engine : Engine) : Prop :=
  ∀ n task panelPath result rows, engine.runTaskPipeline n task panelPath = .ok (result, rows) →
    ∀ score, result.score = some score → score.lifecycleStatus = "accepted" →
      ∃ v, result.verification = some v ∧ v.status = "passed"

/-- rounding keeps the sign -/
def FloatOps.RoundsNonneg (A : FloatOps) : Prop := ∀ q, 0 ≤ q → 0 ≤ A.round6 q

/-- the verification ran in a container -/
def Verification.Isolated (v : Verification) : Prop := v.executed = true ∧ v.containerized = true

/-- the runs behind the evidence of a holdout of the package that passed, whose reference is the
`n`-th call -/
structure HoldoutProven (env : Env) (engine : Engine) (task : TaskPackage) (secret : String)
    (n : Nat) (evidence : HoldoutEvidence) : Prop where
  passed : evidence.passed = true
  referencePassed : evidence.referencePassed = true
  executed : evidence.executed = true
  containerized : evidence.containerized = true
  /-- every probe of the package is caught, and there is one -/
  caught : evidence.probesCaught = (probeCandidates task).map fun probe => (probe.1, true)
  some_probe : probeCandidates task ≠ []
  /-- the runs on the private task of the plan: the reference, then one for each probe -/
  runs : ∃ reference probes,
    consultedRuns env engine task (engine.stableHash task) secret true n = reference :: probes ∧
      reference.Isolated ∧ reference.status = "passed" ∧
      probes.length = (probeCandidates task).length ∧
      ∀ probe ∈ probes, probe.Isolated ∧ probe.status ≠ "passed"

/-- what is behind a positive value of a submission that was sent to the panel: the archive is the
first call, the pipeline of the submitted package the next one, and then its holdout -/
structure PaidEvidence (env : Env) (engine : Engine) (cfg : SubnetConfig) (task : TaskPackage)
    (panelPath : String) (outcome : SubmissionOutcome) (w w' : World) : Prop where
  gates : outcome.gates = gatesUpTo 6
  packageHash : outcome.packageHash = .str (engine.stableHash task)
  pipeline : ∃ result rows verification score,
    engine.runTaskPipeline (w.clock + 1) task panelPath = .ok (result, rows) ∧
    w'.trace = w.trace ++ [.pipelineRan panelPath result] ∧
    result.verification = some verification ∧ verification.containerized = true ∧
    verification.safetyFindings = [] ∧ result.score = some score ∧
    score.lifecycleStatus = "accepted"
  holdout : ∃ evidence,
    HoldoutProven env engine task (cfg.holdoutSecret.getD "") (w.clock + 2) evidence ∧
      outcome.holdoutSummary = evidence.toRecord

/-! ## the holdout -/

section
variable {env : Env} {engine : Engine} {task : TaskPackage}

theorem isolated_true {v : Verification} (h : isolated true v = true) : v.Isolated := by
  have hboth : (v.containerized && v.executed) = true := h
  rw [Bool.and_eq_true] at hboth
  exact ⟨hboth.2, hboth.1⟩

/-- a run of the probes has one entry for each probe, which is caught when it failed in isolation -/
theorem run_runProbes {probes : List (String × Dict String String)} {caught : Dict String Bool}
    {w w' : World} (h : runProbes env engine task true probes w = (.ok caught, w'))
    (hall : caught.values.all id = true) :
    caught = (probes.map fun probe => (probe.1, true)) ∧
      (probeRuns engine task w.clock probes).length = probes.length ∧
      ∀ v ∈ probeRuns engine task w.clock probes, v.Isolated ∧ v.status ≠ "passed" := by
  induction probes generalizing caught w w' with
  | nil => exact ⟨(run_pure h).1.symm, rfl, fun v hv => (List.not_mem_nil hv).elim⟩
  | cons probe probes ih =>
    obtain ⟨probeId, candidate⟩ := probe
    obtain ⟨v, w₁, hverify, h⟩ := run_bind h
    obtain ⟨rest, w₂, hrest, h⟩ := run_bind h
    have hcaught := (run_pure h).1
    rw [← hcaught] at hall
    have hparts : ((v.status != "passed" && isolated true v) && rest.values.all id) = true := hall
    rw [Bool.and_eq_true] at hparts
    obtain ⟨hentry, hall'⟩ := hparts
    obtain ⟨hrest', hlength, hruns⟩ := ih hrest hall'
    rw [run_external hverify] at hlength hruns
    rw [probeRuns_cons (answer_of_run hverify)]
    refine ⟨?_, congrArg (· + 1) hlength, fun v' hv' => ?_⟩
    · rw [← hcaught, hrest', hentry]
      rfl
    · rcases List.mem_cons.mp hv' with hv' | hv'
      · rw [Bool.and_eq_true] at hentry
        rw [hv']
        exact ⟨isolated_true hentry.2, bne_iff_ne.mp hentry.1⟩
      · exact hruns v' hv'

theorem run_evaluateHoldout {secret : String} {evidence : HoldoutEvidence} {w w' : World}
    (h : evaluateHoldout env engine task (engine.stableHash task) secret true w =
      (.ok evidence, w'))
    (hpassed : evidence.passed = true) :
    HoldoutProven env engine task secret w.clock evidence := by
  unfold evaluateHoldout at h
  cases hplan : buildHoldoutPlan env engine task (engine.stableHash task) secret with
  | error e =>
    -- without a plan the evidence has not passed
    rw [hplan] at h
    cases e with
    | holdoutPolicyError msg =>
      cases hconcepts : conceptMap task.descriptors.concepts with
      | error e =>
        rw [hconcepts] at h
        exact (run_raise h).elim
      | ok concepts =>
        rw [hconcepts] at h
        have he := (run_pure h).1
        rw [← he] at hpassed
        exact (Bool.false_ne_true hpassed).elim
    | _ => exact (run_raise h).elim
  | ok plan =>
    rw [hplan] at h
    obtain ⟨reference, w₁, hreference, h⟩ := run_bind h
    obtain ⟨caught, w₂, hprobes, h⟩ := run_bind h
    have he := (run_pure h).1
    rw [← he] at hpassed ⊢
    dsimp only at hpassed
    rw [Bool.and_eq_true, Bool.and_eq_true, Bool.and_eq_true] at hpassed
    obtain ⟨⟨⟨hreferenceOk, hisolated⟩, hsome⟩, hall⟩ := hpassed
    rw [if_pos (by rw [hreferenceOk, hisolated]; rfl)] at hprobes
    obtain ⟨hcaught, hlength, hfailed⟩ := run_runProbes hprobes hall
    rw [run_external hreference] at hlength hfailed
    have hiso := isolated_true hisolated
    have hstatus : reference.status = "passed" := eq_of_beq hreferenceOk
    refine ⟨?_, hreferenceOk, hiso.1, hiso.2, hcaught, ?_, ?_⟩
    · show (_ && _ && _ && _) = true
      rw [hreferenceOk, hisolated, hsome, hall]
      rfl
    · intro hnil
      rw [hcaught, hnil] at hsome
      exact Bool.false_ne_true hsome
    · refine ⟨reference, _, ?_, hiso, hstatus, hlength, hfailed⟩
      unfold consultedRuns
      rw [hplan]
      dsimp only
      rw [answer_of_run hreference]
      dsimp only
      rw [if_pos ⟨hstatus, hisolated⟩]
      rfl

/-! ## the value -/

variable {A : FloatOps} {cfg : SubnetConfig}

theorem taskValueFromScore_nonneg (hA : A.RoundsNonneg) (score : Score) :
    0 ≤ taskValueFromScore A score := by
  unfold taskValueFromScore
  split
  · exact le_refl 0
  · exact hA _ (le_max_left 0 _)

theorem taskValueFromScore_of_not_accepted {score : Score}
    (h : score.lifecycleStatus ≠ "accepted") : taskValueFromScore A score = 0 := if_pos h

/-- the result of a pipeline that earns value with the Docker backend -/
def PaidResult (result : PipelineResult) : Prop :=
  ∃ verification score, result.verification = some verification ∧
    verification.containerized = true ∧ verification.safetyFindings = [] ∧
    result.score = some score ∧ score.lifecycleStatus = "accepted"

/-- every exit of `_outcome_from_pipeline` -/
theorem run_outcomeFromPipeline (hA : A.RoundsNonneg) (hdocker : cfg.backend = .docker)
    {result : PipelineResult} {taskId taskHash : String} {gates : Dict String Bool}
    {holdoutSummary : Obj} {outcome : SubmissionOutcome} {w w' : World}
    (h : outcomeFromPipeline env engine A result cfg taskId taskHash gates holdoutSummary w =
      (.ok outcome, w')) :
    outcome.taskValue = 0 ∨ 0 < outcome.taskValue ∧ PaidResult result ∧ outcome.gates = gates ∧
      outcome.packageHash = .str taskHash ∧ outcome.holdoutSummary = holdoutSummary := by
  -- an outcome that is written with the value zero
  have hzero : ∀ {o : SubmissionOutcome} {w₁ : World}, o.taskValue = 0 →
      (pure o : M SubmissionOutcome) w₁ = (.ok outcome, w') → outcome.taskValue = 0 := by
    intro o w₁ ho hrun
    rw [← (run_pure hrun).1]
    exact ho
  unfold outcomeFromPipeline at h
  dsimp only at h
  cases hv : result.verification with
  | none =>
    rw [hv] at h
    exact .inl (hzero rfl h)
  | some verification =>
    rw [hv] at h
    dsimp only at h
    by_cases herror : result.error.getD "" ≠ ""
    · rw [if_pos herror] at h
      exact .inl (hzero rfl h)
    rw [if_neg herror] at h
    by_cases hinfra : isInfraError verification = true
    · rw [if_pos hinfra] at h
      obtain ⟨_, w₁, _, h⟩ := run_bind h
      exact .inl (hzero rfl h)
    rw [if_neg hinfra] at h
    cases hsafe : verification.safetyFindings with
    | cons finding findings =>
      rw [hsafe] at h
      exact .inl (hzero rfl h)
    | nil =>
      rw [hsafe] at h
      dsimp only at h
      by_cases hcontainer : cfg.backend = .docker ∧ verification.containerized = false ∧
          (result.score.map (·.lifecycleStatus)).getD result.status ∉
            nonContainerizedAllowedStatuses
      · rw [if_pos hcontainer] at h
        obtain ⟨_, w₁, _, h⟩ := run_bind h
        exact .inl (hzero rfl h)
      rw [if_neg hcontainer] at h
      have ho := (run_pure h).1
      cases hscore : result.score with
      | none =>
        left
        rw [← ho, hscore]
        rfl
      | some score =>
        have hvalue : outcome.taskValue = taskValueFromScore A score := by
          rw [← ho, hscore]
          rfl
        by_cases haccepted : score.lifecycleStatus = "accepted"
        · rcases (taskValueFromScore_nonneg hA score).eq_or_lt with hz | hpos
          · left
            rw [hvalue, ← hz]
          · right
            refine ⟨by rw [hvalue]; exact hpos, ⟨verification, score, hv, ?_, hsafe, hscore,
              haccepted⟩, by rw [← ho], by rw [← ho], by rw [← ho]⟩
            by_contra hnot
            refine hcontainer ⟨hdocker, Bool.eq_false_of_not_eq_true hnot, ?_⟩
            rw [hscore]
            show score.lifecycleStatus ∉ _
            rw [haccepted]
            decide
        · left
          rw [hvalue, taskValueFromScore_of_not_accepted haccepted]

/-! ## one submission -/

theorem run_evaluateTask (hA : A.RoundsNonneg) (hengine : engine.AcceptsOnlyPassed)
    (hdocker : cfg.backend = .docker) (hholdout : cfg.holdoutRequired = true) {panelPath : String}
    {outcome : SubmissionOutcome} {w w₁ w' : World} (hclock : w₁.clock = w.clock + 1)
    (htrace : w₁.trace = w.trace)
    (h : evaluateTask env engine A cfg task (engine.stableHash task) (gatesUpTo 6) panelPath w₁ =
      (.ok outcome, w')) :
    outcome.taskValue = 0 ∨
      0 < outcome.taskValue ∧ PaidEvidence env engine cfg task panelPath outcome w w' := by
  obtain ⟨result, w₂, hpipeline, h⟩ := run_evaluateTask_cases h
  obtain ⟨rows, hanswer, hclock₂, htrace₂, _⟩ := run_runPipeline hpipeline
  cases h with
  | direct hdue h =>
    -- without a holdout the engine has not accepted
    rcases run_outcomeFromPipeline hA hdocker h with hz | ⟨_, hpaid, _⟩
    · exact .inl hz
    · obtain ⟨_, score, _, _, _, hscore, haccepted⟩ := hpaid
      obtain ⟨v, hv, hpassed⟩ := hengine _ _ _ _ _ hanswer score hscore haccepted
      have hdue' := holdoutDue_iff.mpr ⟨hholdout, v, hv, hpassed⟩
      rw [hdue] at hdue'
      exact (Bool.false_ne_true hdue').elim
  | refused _ _ _ _ _ hz => exact .inl hz
  | @heldOut evidence w₃ _ hevidence hpassed h =>
    rw [holdoutHash_stable] at hevidence
    rcases run_outcomeFromPipeline hA hdocker h with hz | ⟨hpos, hpaid, hgates, hhash, hsummary⟩
    · exact .inl hz
    · obtain ⟨v, score, hv, hcontainer, hsafe, hscore, haccepted⟩ := hpaid
      have hsame : SameTrace w₂ w' := trans_of SameTrace
        ((sameTraceFrame.evaluateHoldout _ _ _ _).run hevidence)
        ((sameTraceFrame.outcomeFromPipeline _ _ _ _ _).run h)
      have hproven := run_evaluateHoldout hevidence hpassed
      rw [hclock] at hanswer hclock₂
      rw [hclock₂] at hproven
      refine .inr ⟨hpos, hgates, hhash, ⟨result, rows, v, score, hanswer, ?_, hv, hcontainer, hsafe,
        hscore, haccepted⟩, evidence, hproven, hsummary⟩
      rw [show w'.trace = w₂.trace from hsame, htrace₂, htrace]

/-- **A submission earns value only after every check of its package ran in isolation.** -/
theorem validateSubmission_value (hA : A.RoundsNonneg) (hengine : engine.AcceptsOnlyPassed)
    (hdocker : cfg.backend = .docker) (hholdout : cfg.holdoutRequired = true) {wire : Obj}
    {context : Option GateContext} {minerHotkey : String} {panelPath : Option String}
    {outcome : SubmissionOutcome} {context' : GateContext} {w w' : World}
    (h : validateSubmission env engine A wire cfg context minerHotkey panelPath w =
      (.ok (outcome, context'), w')) :
    outcome.taskValue = 0 ∨ 0 < outcome.taskValue ∧ ∃ task, parsePackage engine wire = .ok task ∧
      PaidEvidence env engine cfg task (panelPath.getD cfg.panelPath) outcome w w' := by
  cases run_validateSubmission_cases h with
  | unevaluated _ hz _ => exact .inl hz
  | evaluated htask hclock htrace _ h =>
    rcases run_evaluateTask hA hengine hdocker hholdout hclock htrace h with hz | ⟨hpos, hpaid⟩
    · exact .inl hz
    · exact .inr ⟨hpos, _, evaluatedTask_parse htask, hpaid⟩

end

section

/-- a supported task of the parser family -/
def sampleTask (taskId : String) : TaskPackage where
  taskId := taskId
  descriptors := { concepts := ["archetype:escape_delim", "target_band:core", "delim:comma",
    "special:slash"], taskType := "parser_roundtrip" }
  starterFiles := []
  referenceFiles := [("codec.py", "pass")]
  publicTests := []
  hiddenTests := []
  canonicalDict := []

def sampleVerification (status : String) : Verification where
  status := status
  backend := "docker"
  requestedBackend := "docker"
  executionMode := "docker"
  executed := true
  containerized := true
  image := none
  fallbackReason := none
  errorSummary := none
  safetyFindings := []
  logsHash := none

def samplePayload (packageHash : String) : Obj := [
  ("schema_version", .str schemaVersion),
  ("package", .obj [("task_id", .str packageHash), ("author_tests", .obj [])]),
  ("package_hash", .str packageHash)]

/-- an engine that accepts every task, and a runner that fails every probe -/
def isolatedEngine : Engine :=
  { Engine.plain with
    modelValidate := fun package =>
      match Obj.get package "task_id" with
      | .str taskId => .ok { sampleTask taskId with starterFiles := [("codec.py", "")] }
      | _ => .error (.validationError "task_id: Field required")
    stableHash := fun task => task.taskId
    runTaskPipeline := fun _ _ _ => .ok
      ({ status := "accepted", error := none, verification := some (sampleVerification "passed"),
         score := some ⟨"accepted", 1 / 2, 0, []⟩, solverResults := [] }, [])
    verify := fun _ _ candidate =>
      .ok (sampleVerification (if candidate.isSome then "failed" else "passed"))
    symbolTable := fun _ slug => some slug }

def dockerConfig : SubnetConfig :=
  { backend := .docker, holdoutRequired := true, holdoutSecret := some "secret" }

theorem isolatedEngine_acceptsOnlyPassed : isolatedEngine.AcceptsOnlyPassed := by
  intro n task panelPath result rows h score _ _
  have hresult := (Prod.mk.inj (Except.ok.inj h)).1
  rw [← hresult]
  exact ⟨sampleVerification "passed", rfl, rfl⟩

theorem exactOps_roundsNonneg : exactOps.RoundsNonneg := fun _ => exactOps_round6_nonneg

theorem doubleOps_roundsNonneg : doubleOps.RoundsNonneg := fun q hq => by
  have hround : (0 : ℚ) ≤ roundHalfEven (q * 1000000) := by
    exact_mod_cast roundHalfEven_nonneg (mul_nonneg hq (by norm_num))
  exact toDouble_nonneg (div_nonneg hround (by norm_num))

/-- the isolated run of the sample package -/
def isolatedRun : Outcome Exn (SubmissionOutcome × GateContext) × World :=
  validateSubmission Env.plain isolatedEngine exactOps (samplePayload "x") dockerConfig none "miner"
    none {}

def earnsValue : Outcome Exn (SubmissionOutcome × GateContext) → Bool
  | .ok (outcome, _) => decide (0 < outcome.taskValue)
  | .raise _ => false
  | .killed => false

theorem isolatedRun_earnsValue : earnsValue isolatedRun.1 = true := by decide +kernel

/-- the submission is paid, and has the evidence -/
theorem validateSubmission_value_sample : ∃ outcome context' w' task,
    isolatedRun = (.ok (outcome, context'), w') ∧ 0 < outcome.taskValue ∧
      parsePackage isolatedEngine (samplePayload "x") = .ok task ∧
      PaidEvidence Env.plain isolatedEngine dockerConfig task dockerConfig.panelPath outcome {}
        w' := by
  have hearns := isolatedRun_earnsValue
  cases hrun : isolatedRun with
  | mk o w' =>
    rw [hrun] at hearns
    cases o with
    | ok p =>
      obtain ⟨outcome, context'⟩ := p
      have hpos : 0 < outcome.taskValue := of_decide_eq_true hearns
      rcases validateSubmission_value exactOps_roundsNonneg isolatedEngine_acceptsOnlyPassed rfl rfl
        hrun with hz | ⟨_, task, hparse, hpaid⟩
      · exact absurd hz hpos.ne'
      · exact ⟨outcome, context', w', task, rfl, hpos, hparse, hpaid⟩
    | raise e => exact (Bool.false_ne_true hearns).elim
    | killed => exact (Bool.false_ne_true hearns).elim

end

end Dolores
