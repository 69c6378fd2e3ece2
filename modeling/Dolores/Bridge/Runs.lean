import Dolores.Bridge.Frame
import Dolores.Bridge.Sound

/-!
# The runs behind an outcome (`bridge.py`, `holdout.py`)

Which package a submission evaluates, and which answers of the engine its outcome is made from.

* `evaluatedTask`               the package that the pipeline is given;
* `run_validateSubmission_cases`, `run_evaluateTask_cases`   how an outcome came about;
* `consultedRuns`               the answers of the runner that a holdout consults;
* `run_evaluateHoldout_cases`   what the evidence says, from the consulted answers;
* `submissionRuns`              the answers that the holdout of a submission consults.
-/

namespace Dolores
open Crash Except

/-! ## the package -/

section
variable (env : Env) (engine : Engine) (cfg : SubnetConfig)

/-- no holdout is required, or the holdout supports the package -/
def holdoutSupports (task : TaskPackage) : Bool :=
  match validateHoldoutSupport engine task with
  | .ok _ => true
  | .error _ => !cfg.holdoutRequired

/-- the package that a submission evaluates, if its payload comes that far -/
def evaluatedTask (wire : Obj) (context : Option GateContext) (minerHotkey : String) :
    Option TaskPackage :=
  if (reservedWireKeys.filter fun key => Dict.contains wire key) ≠ [] then none
  else
    match runPreGates env.text engine wire cfg (context.getD { quota := cfg.quota })
      minerHotkey with
    | .ok (decision, _) =>
      if decision.passed then decision.task.filter (holdoutSupports engine cfg) else none
    | .error _ => none

/-- the holdout is evaluated after this result -/
def holdoutDue (result : PipelineResult) : Bool :=
  match result.verification with
  | some verification => cfg.holdoutRequired && verification.status == "passed"
  | none => false

/-! ## the consulted runs -/

/-- the answers to the probes, from the `n`-th call on -/
def probeRuns (task : TaskPackage) : Nat → List (String × Dict String String) → List Verification
  | _, [] => []
  | n, (_, candidate) :: probes =>
    match engine.verify n task (some candidate) with
    | .ok v => v :: probeRuns task (n + 1) probes
    | .error _ => []

/-- the answers that a holdout consults when the reference is the `n`-th call -/
def consultedRuns (task : TaskPackage) (packageHash secret : String) (requireContainerized : Bool)
    (n : Nat) : List Verification :=
  match buildHoldoutPlan env engine task packageHash secret with
  | .error _ => []
  | .ok plan =>
    match engine.verify n plan.task none with
    | .error _ => []
    | .ok reference =>
      reference :: if reference.status = "passed" ∧ isolated requireContainerized reference = true
        then probeRuns engine plan.task (n + 1) (probeCandidates task) else []

/-- the answers that the holdout of a package consults when its pipeline is the `n`-th call -/
def holdoutRuns (task : TaskPackage) (panelPath : String) (n : Nat) : List Verification :=
  match engine.runTaskPipeline n task panelPath with
  | .ok (result, _) =>
    if holdoutDue cfg result then
      consultedRuns env engine task (engine.stableHash task) (cfg.holdoutSecret.getD "") true
        (n + 1)
    else []
  | .error _ => []

/-- the answers that the holdout of a submission consults; the `n`-th call opens the archive -/
def submissionRuns (wire : Obj) (context : Option GateContext) (minerHotkey : String)
    (panelPath : Option String) (n : Nat) : List Verification :=
  match evaluatedTask env engine cfg wire context minerHotkey with
  | some task => holdoutRuns env engine cfg task (panelPath.getD cfg.panelPath) (n + 1)
  | none => []

end

section
variable {env : Env} {engine : Engine} {task : TaskPackage} {packageHash secret : String}
  {requireContainerized : Bool}

theorem probeRuns_cons {n : Nat} {probeId : String} {candidate : Dict String String}
    {v : Verification} (h : engine.verify n task (some candidate) = .ok v)
    (probes : List (String × Dict String String)) :
    probeRuns engine task n ((probeId, candidate) :: probes) =
      v :: probeRuns engine task (n + 1) probes := by
  rw [probeRuns, h]

/-- the entries of the evidence are those of the consulted probes -/
theorem values_runProbes {probes : List (String × Dict String String)} {caught : Dict String Bool}
    {w w' : World}
    (h : runProbes env engine task requireContainerized probes w = (.ok caught, w')) :
    caught.values = (probeRuns engine task w.clock probes).map fun v =>
      v.status != "passed" && isolated requireContainerized v := by
  induction probes generalizing caught w w' with
  | nil =>
    rw [← (run_pure h).1]
    rfl
  | cons probe probes ih =>
    obtain ⟨probeId, candidate⟩ := probe
    obtain ⟨v, w₁, hverify, h⟩ := run_bind h
    obtain ⟨rest, w₂, hrest, h⟩ := run_bind h
    have ih := ih hrest
    rw [run_external hverify] at ih
    rw [← (run_pure h).1, probeRuns_cons (answer_of_run hverify)]
    show _ :: rest.values = _
    rw [ih]
    rfl

/-- what the evidence says, from the consulted runs -/
inductive EvidenceOf (requireContainerized : Bool) (e : HoldoutEvidence) :
    List Verification → Prop
  | unplanned : e.passed = false → e.status ≠ "passed" → e.status ≠ "failed" →
      EvidenceOf requireContainerized e []
  | planned {reference : Verification} {probes : List Verification} {caught : Dict String Bool} :
      (¬ (reference.status = "passed" ∧ isolated requireContainerized reference = true) →
        probes = []) →
      caught.values = probes.map (fun v =>
        v.status != "passed" && isolated requireContainerized v) →
      e.passed = (reference.status == "passed" && isolated requireContainerized reference
        && !caught.isEmpty && caught.values.all id) →
      e.status = (holdoutStatus requireContainerized reference caught).1 →
      EvidenceOf requireContainerized e (reference :: probes)

theorem run_evaluateHoldout_cases {e : HoldoutEvidence} {w w' : World}
    (h : evaluateHoldout env engine task packageHash secret requireContainerized w =
      (.ok e, w')) :
    EvidenceOf requireContainerized e
      (consultedRuns env engine task packageHash secret requireContainerized w.clock) := by
  unfold consultedRuns
  unfold evaluateHoldout at h
  cases hplan : buildHoldoutPlan env engine task packageHash secret with
  | error exc =>
    rw [hplan] at h
    cases exc with
    | holdoutPolicyError msg =>
      cases hconcepts : conceptMap task.descriptors.concepts with
      | error exc =>
        rw [hconcepts] at h
        exact (run_raise h).elim
      | ok concepts =>
        rw [hconcepts] at h
        rw [← (run_pure h).1]
        refine .unplanned rfl ?_ ?_
        · show (if secret = "" then "infra_error" else "unsupported") ≠ "passed"
          split
          · decide
          · decide
        · show (if secret = "" then "infra_error" else "unsupported") ≠ "failed"
          split
          · decide
          · decide
    | _ => exact (run_raise h).elim
  | ok plan =>
    rw [hplan] at h
    obtain ⟨reference, w₁, hreference, h⟩ := run_bind h
    obtain ⟨caught, w₂, hprobes, h⟩ := run_bind h
    have he := (run_pure h).1
    have hanswer := answer_of_run hreference
    dsimp only
    rw [hanswer]
    dsimp only
    rw [← he]
    refine @EvidenceOf.planned _ _ reference _ caught (fun hc => if_neg hc) ?_ rfl rfl
    by_cases hc : reference.status = "passed" ∧ isolated requireContainerized reference = true
    · have hcond : (reference.status == "passed" && isolated requireContainerized reference) =
          true := by
        rw [hc.1, hc.2]
        rfl
      rw [if_pos hcond] at hprobes
      have hvalues := values_runProbes hprobes
      rw [run_external hreference] at hvalues
      rw [if_pos hc]
      exact hvalues
    · have hcond : ¬ (reference.status == "passed" && isolated requireContainerized reference) =
          true := by
        rw [Bool.and_eq_true, beq_iff_eq]
        exact hc
      rw [if_neg hcond] at hprobes
      rw [if_neg hc, ← (run_pure hprobes).1]
      rfl

end

/-! ## one package -/

section
variable {env : Env} {engine : Engine} {A : FloatOps} {cfg : SubnetConfig} {task : TaskPackage}

theorem holdoutDue_iff {result : PipelineResult} : holdoutDue cfg result = true ↔
    cfg.holdoutRequired = true ∧ ∃ v, result.verification = some v ∧ v.status = "passed" := by
  unfold holdoutDue
  cases result.verification with
  | none => exact iff_of_false Bool.false_ne_true fun h => by simpa using h.2
  | some v =>
    dsimp only
    rw [Bool.and_eq_true, beq_iff_eq]
    exact and_congr_right fun _ => ⟨fun h => ⟨v, rfl, h⟩, fun ⟨_, hv, h⟩ =>
      Option.some.inj hv ▸ h⟩

theorem run_runPipeline {panelPath : String} {result : PipelineResult} {w w' : World}
    (h : runPipeline env engine task panelPath w = (.ok result, w')) :
    ∃ rows, engine.runTaskPipeline w.clock task panelPath = .ok (result, rows) ∧
      w'.clock = w.clock + 1 ∧ w'.trace = w.trace ++ [.pipelineRan panelPath result] ∧
      w'.db = w.db ++ rows.map fun row => (engine.stableHash task, row) := by
  obtain ⟨p, w₁, hpipeline, h⟩ := run_bind h
  obtain ⟨_, w₂, hrows, h⟩ := run_bind h
  obtain ⟨_, w₃, hlog, h⟩ := run_bind h
  obtain ⟨hresult, hw⟩ := run_pure h
  rw [← hresult, ← hw, run_modify hlog, run_modify hrows, run_external hpipeline]
  exact ⟨p.2, answer_of_run hpipeline, rfl, rfl, rfl⟩

/-- the hash that the holdout is asked about -/
def holdoutHash (engine : Engine) (task : TaskPackage) (taskHash : String) : String :=
  if taskHash = "" then engine.stableHash task else taskHash

theorem holdoutHash_stable : holdoutHash engine task (engine.stableHash task) =
    engine.stableHash task := ite_self _

/-- how a package came to its outcome once the pipeline had answered -/
inductive TaskAnswered (env : Env) (engine : Engine) (A : FloatOps) (cfg : SubnetConfig)
    (task : TaskPackage) (taskHash : String) (gates : Dict String Bool) (result : PipelineResult)
    (outcome : SubmissionOutcome) (w w' : World) : Prop
  | direct : holdoutDue cfg result = false →
      outcomeFromPipeline env engine A result cfg task.taskId taskHash gates [] w =
        (.ok outcome, w') → TaskAnswered env engine A cfg task taskHash gates result outcome w w'
  | refused {evidence : HoldoutEvidence} {w₁ : World} : holdoutDue cfg result = true →
      evaluateHoldout env engine task (holdoutHash engine task taskHash)
        (cfg.holdoutSecret.getD "") true w = (.ok evidence, w₁) → evidence.passed = false →
      purgeIfHash env engine taskHash w₁ = (.ok (), w') →
      outcome.status = (if evidence.status = "infra_error" then "infra_error" else "rejected") →
      outcome.taskValue = 0 → TaskAnswered env engine A cfg task taskHash gates result outcome w w'
  | heldOut {evidence : HoldoutEvidence} {w₁ : World} : holdoutDue cfg result = true →
      evaluateHoldout env engine task (holdoutHash engine task taskHash)
        (cfg.holdoutSecret.getD "") true w = (.ok evidence, w₁) → evidence.passed = true →
      outcomeFromPipeline env engine A result cfg task.taskId taskHash gates evidence.toRecord w₁ =
        (.ok outcome, w') → TaskAnswered env engine A cfg task taskHash gates result outcome w w'

theorem run_evaluateTask_cases {taskHash panelPath : String} {gates : Dict String Bool}
    {outcome : SubmissionOutcome} {w w' : World}
    (h : evaluateTask env engine A cfg task taskHash gates panelPath w = (.ok outcome, w')) :
    ∃ result w₁, runPipeline env engine task panelPath w = (.ok result, w₁) ∧
      TaskAnswered env engine A cfg task taskHash gates result outcome w₁ w' := by
  obtain ⟨result, w₁, hpipeline, h⟩ := run_bind h
  refine ⟨result, w₁, hpipeline, ?_⟩
  cases hv : result.verification with
  | none =>
    rw [hv] at h
    refine .direct (Bool.eq_false_of_not_eq_true fun hdue => ?_) h
    obtain ⟨_, v, hv', _⟩ := holdoutDue_iff.mp hdue
    rw [hv] at hv'
    exact Option.some_ne_none v hv'.symm
  | some verification =>
    rw [hv] at h
    dsimp only at h
    by_cases hrequired : cfg.holdoutRequired = true ∧ verification.status = "passed"
    · have hdue : holdoutDue cfg result = true :=
        holdoutDue_iff.mpr ⟨hrequired.1, verification, hv, hrequired.2⟩
      rw [if_pos hrequired] at h
      obtain ⟨evidence, w₂, hevidence, h⟩ := run_bind h
      by_cases hfailed : evidence.passed = false
      · rw [if_pos hfailed] at h
        obtain ⟨_, w₃, hpurge, h⟩ := run_bind h
        obtain ⟨ho, hw⟩ := run_pure h
        rw [hw] at hpurge
        exact .refused hdue hevidence hfailed hpurge (by rw [← ho]) (by rw [← ho])
      · rw [if_neg hfailed] at h
        exact .heldOut hdue hevidence (Bool.eq_true_of_not_eq_false hfailed) h
    · rw [if_neg hrequired] at h
      refine .direct (Bool.eq_false_of_not_eq_true fun hdue => hrequired ?_) h
      obtain ⟨hholdout, v, hv', hpassed⟩ := holdoutDue_iff.mp hdue
      rw [hv] at hv'
      rw [Option.some.inj hv']
      exact ⟨hholdout, hpassed⟩

/-! ## one submission -/

theorem evaluatedTask_parse {wire : Obj} {context : Option GateContext} {minerHotkey : String}
    (h : evaluatedTask env engine cfg wire context minerHotkey = some task) :
    parsePackage engine wire = .ok task := by
  unfold evaluatedTask at h
  split at h
  · exact (Option.some_ne_none task h.symm).elim
  split at h
  · next decision context' hgates =>
    split at h
    · next hpassed =>
      obtain ⟨task', hparse, htask, _⟩ := runPreGates_task hgates hpassed
      rw [htask] at h
      rw [hparse, Option.some.inj (Option.filter_eq_some_iff.mp h).1]
    · exact (Option.some_ne_none task h.symm).elim
  · exact (Option.some_ne_none task h.symm).elim

/-- how a submission came to its outcome -/
inductive Answered (env : Env) (engine : Engine) (A : FloatOps) (cfg : SubnetConfig) (wire : Obj)
    (context : Option GateContext) (minerHotkey : String) (panelPath : Option String)
    (outcome : SubmissionOutcome) (w w' : World) : Prop
  | unevaluated : evaluatedTask env engine cfg wire context minerHotkey = none →
      outcome.taskValue = 0 → outcome.status ≠ "infra_error" →
      Answered env engine A cfg wire context minerHotkey panelPath outcome w w'
  | evaluated {task : TaskPackage} {w₁ : World} :
      evaluatedTask env engine cfg wire context minerHotkey = some task →
      w₁.clock = w.clock + 1 → w₁.trace = w.trace → w₁.db = w.db →
      evaluateTask env engine A cfg task (engine.stableHash task) (gatesUpTo 6)
        (panelPath.getD cfg.panelPath) w₁ = (.ok outcome, w') →
      Answered env engine A cfg wire context minerHotkey panelPath outcome w w'

theorem initArchive_world {u : Unit} {w w' : World} (h : initArchive env engine w = (.ok u, w')) :
    w'.clock = w.clock + 1 ∧ w'.trace = w.trace ∧ w'.db = w.db := by
  obtain ⟨_, w₁, hcall, h⟩ := run_bind h
  rw [run_modify h, run_external hcall]
  exact ⟨rfl, rfl, rfl⟩

theorem run_validateSubmission_cases {wire : Obj} {context : Option GateContext}
    {minerHotkey : String} {panelPath : Option String} {outcome : SubmissionOutcome}
    {context' : GateContext} {w w' : World}
    (h : validateSubmission env engine A wire cfg context minerHotkey panelPath w =
      (.ok (outcome, context'), w')) :
    Answered env engine A cfg wire context minerHotkey panelPath outcome w w' := by
  have hinvalid : "invalid" ≠ "infra_error" := by decide
  have hrejected : "rejected" ≠ "infra_error" := by decide
  obtain ⟨_, w₁, hinit, h⟩ := run_bind h
  obtain ⟨hclock, htrace, hdb⟩ := initArchive_world hinit
  dsimp only at h
  by_cases hreserved : (reservedWireKeys.filter fun key => Dict.contains wire key) ≠ []
  · rw [if_pos hreserved] at h
    have ho := (Prod.mk.inj (run_pure h).1).1
    exact .unevaluated (if_pos hreserved) (by rw [← ho]; rfl) (by rw [← ho]; exact hinvalid)
  rw [if_neg hreserved] at h
  obtain ⟨⟨decision, gateContext⟩, w₂, hgates, h⟩ := run_bind h
  obtain ⟨hgates, hw₂⟩ := run_ofExcept hgates
  obtain ⟨outcome', w₃, hsettle, h⟩ := run_bind h
  obtain ⟨ho, hw₃⟩ := run_pure h
  rw [(Prod.mk.inj ho).1, hw₃, hw₂] at hsettle
  obtain ⟨taskId, w₄, htaskId, hsettle⟩ := run_bind hsettle
  rw [(run_ofExcept htaskId).2] at hsettle
  have htask : evaluatedTask env engine cfg wire context minerHotkey =
      if decision.passed then decision.task.filter (holdoutSupports engine cfg) else none := by
    unfold evaluatedTask
    rw [if_neg hreserved, hgates]
  cases hpassed : decision.passed with
  | false =>
    rw [hpassed] at hsettle htask
    have ho := (run_pure hsettle).1
    exact .unevaluated htask (by rw [← ho]; rfl) (by rw [← ho]; exact hinvalid)
  | true =>
    obtain ⟨task, _, hdecided, hhash, hsix⟩ := runPreGates_task hgates hpassed
    rw [hpassed, hdecided, if_pos rfl, Option.filter_some] at htask
    rw [hpassed, hdecided, hhash, hsix] at hsettle
    dsimp only at hsettle
    unfold evaluateSupported at hsettle
    unfold holdoutSupports at htask
    by_cases hrequired : cfg.holdoutRequired = true
    · rw [if_pos hrequired] at hsettle
      rw [hrequired] at htask
      cases hsupport : validateHoldoutSupport engine task with
      | error e =>
        rw [hsupport] at hsettle htask
        cases e with
        | holdoutPolicyError msg =>
          have ho := (run_pure hsettle).1
          exact .unevaluated htask (by rw [← ho]; rfl) (by rw [← ho]; exact hrejected)
        | _ => exact (run_raise hsettle).elim
      | ok policy =>
        rw [hsupport] at hsettle htask
        exact .evaluated htask hclock htrace hdb hsettle
    · rw [if_neg hrequired] at hsettle
      rw [Bool.eq_false_of_not_eq_true hrequired] at htask
      refine .evaluated ?_ hclock htrace hdb hsettle
      rw [htask]
      cases validateHoldoutSupport engine task with
      | ok _ => rfl
      | error _ => rfl

end

end Dolores
