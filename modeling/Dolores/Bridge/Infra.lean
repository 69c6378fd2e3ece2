import Dolores.Bridge.Purge

/-!
# Infrastructure failures of the private holdout

A run of the holdout consults the reference and, when it passed in isolation, every probe.  A probe
that did not run counts as one that was not caught, so the status is then a failure of the task.

* `holdoutStatus_infra_iff` the status is an infrastructure error for the reference alone;
* `EvidenceOf.honest_iff`   the evidence is honest exactly when every consulted probe ran in
                            isolation;
* `run_evaluateTask_honest` so it is with the outcome of a package;
* `holdout_infra_failures_iff`  and with that of every submission.
-/

namespace Dolores
open Crash

/-! ## honest reports -/

/-- the evidence charges no run that did not execute in isolation to the task -/
structure InfraHonest (requireContainerized : Bool) (runs : List Verification)
    (e : HoldoutEvidence) : Prop where
  passedIff : e.passed = true ↔ e.status = "passed"
  failed : e.status = "failed" → ∀ v ∈ runs, isolated requireContainerized v = true
  infra : (∃ v ∈ runs, isolated requireContainerized v = false) → e.status = "infra_error"

/-- every consulted probe ran in isolation -/
def ProbesIsolated (requireContainerized : Bool) (runs : List Verification) : Prop :=
  ∀ v ∈ runs.tail, isolated requireContainerized v = true

/-! ## the status -/

section
variable {requireContainerized : Bool} {reference : Verification} {caught : Dict String Bool}

theorem isolated_of_executed (h : reference.executed = true)
    (hc : ¬ (requireContainerized = true ∧ reference.containerized = false)) :
    isolated requireContainerized reference = true := by
  unfold isolated
  cases hr : requireContainerized with
  | false => exact h
  | true =>
    have hcontainer : reference.containerized = true := by
      by_contra hnot
      exact hc ⟨hr, Bool.eq_false_of_not_eq_true hnot⟩
    show (reference.containerized && reference.executed) = true
    rw [h, hcontainer]
    rfl

/-- the status is an infrastructure error exactly when the reference was not isolated -/
theorem holdoutStatus_infra_iff :
    (holdoutStatus requireContainerized reference caught).1 = "infra_error" ↔
      isolated requireContainerized reference = false := by
  unfold holdoutStatus
  by_cases hexecuted : reference.executed = false
  · rw [if_pos hexecuted]
    refine iff_of_true rfl ?_
    unfold isolated
    rw [hexecuted, Bool.and_false, ite_self]
  rw [if_neg hexecuted]
  by_cases hcontainer : requireContainerized = true ∧ reference.containerized = false
  · rw [if_pos hcontainer]
    refine iff_of_true rfl ?_
    unfold isolated
    rw [if_pos hcontainer.1, hcontainer.2]
    rfl
  rw [if_neg hcontainer]
  have hisolated := isolated_of_executed (Bool.eq_true_of_not_eq_false hexecuted) hcontainer
  rw [hisolated]
  refine iff_of_false ?_ Bool.noConfusion
  split
  · decide
  · split
    · decide
    · split
      · decide
      · decide

theorem holdoutStatus_passed_iff :
    (holdoutStatus requireContainerized reference caught).1 = "passed" ↔
      (reference.status == "passed" && isolated requireContainerized reference
        && !caught.isEmpty && caught.values.all id) = true := by
  by_cases hisolated : isolated requireContainerized reference = false
  · have hinfra := (@holdoutStatus_infra_iff _ reference caught).mpr hisolated
    rw [hinfra, hisolated, Bool.and_false, Bool.false_and, Bool.false_and]
    exact iff_of_false (by decide) Bool.false_ne_true
  · have hno := hisolated
    rw [← @holdoutStatus_infra_iff _ reference caught] at hno
    have htrue := Bool.eq_true_of_not_eq_false hisolated
    rw [htrue, Bool.and_true, Bool.and_eq_true, Bool.and_eq_true, beq_iff_eq, Bool.not_eq_true']
    unfold holdoutStatus at hno ⊢
    by_cases hexecuted : reference.executed = false
    · rw [if_pos hexecuted] at hno
      exact (hno rfl).elim
    rw [if_neg hexecuted] at hno ⊢
    by_cases hcontainer : requireContainerized = true ∧ reference.containerized = false
    · rw [if_pos hcontainer] at hno
      exact (hno rfl).elim
    rw [if_neg hcontainer]
    by_cases hpassed : reference.status ≠ "passed"
    · rw [if_pos hpassed]
      exact iff_of_false (by decide) fun h => hpassed h.1.1
    rw [if_neg hpassed]
    by_cases hempty : caught.isEmpty = true
    · rw [if_pos hempty, hempty]
      exact iff_of_false (by decide) fun h => Bool.noConfusion h.1.2
    rw [if_neg hempty]
    by_cases hall : caught.values.all id = false
    · rw [if_pos hall, hall]
      exact iff_of_false (by decide) fun h => Bool.noConfusion h.2
    · rw [if_neg hall]
      exact iff_of_true rfl ⟨⟨not_not.mp hpassed, Bool.eq_false_of_not_eq_true hempty⟩,
        Bool.eq_true_of_not_eq_false hall⟩

/-- with an isolated reference the status is one of two -/
theorem holdoutStatus_isolated (h : isolated requireContainerized reference = true)
    (hnot : (holdoutStatus requireContainerized reference caught).1 ≠ "passed") :
    (holdoutStatus requireContainerized reference caught).1 = "failed" := by
  have hinfra : (holdoutStatus requireContainerized reference caught).1 ≠ "infra_error" := by
    rw [ne_eq, holdoutStatus_infra_iff, h]
    exact Bool.noConfusion
  unfold holdoutStatus at hnot hinfra ⊢
  split at hinfra
  · exact (hinfra rfl).elim
  · split at hinfra
    · exact (hinfra rfl).elim
    next hexecuted hcontainer =>
      rw [if_neg hexecuted, if_neg hcontainer] at hnot ⊢
      split at hnot
      next hc => rw [if_pos hc]
      next hc =>
        rw [if_neg hc]
        split at hnot
        next hc => rw [if_pos hc]
        next hc =>
          rw [if_neg hc]
          split at hnot
          next hc => rw [if_pos hc]
          next hc => exact (hnot rfl).elim

end

/-! ## the evidence -/

section
variable {requireContainerized : Bool}

/-- the status is honest exactly when every consulted probe ran in isolation -/
theorem EvidenceOf.honest_iff {runs : List Verification} {e : HoldoutEvidence}
    (h : EvidenceOf requireContainerized e runs) :
    InfraHonest requireContainerized runs e ↔ ProbesIsolated requireContainerized runs := by
  cases h with
  | unplanned hpassed hnot hfailed =>
    refine iff_of_true ⟨?_, fun hs => (hfailed hs).elim, fun hex => ?_⟩ fun v hv => ?_
    · rw [hpassed]
      exact iff_of_false Bool.false_ne_true hnot
    · obtain ⟨v, hv, _⟩ := hex
      exact (List.not_mem_nil hv).elim
    · exact (List.not_mem_nil hv).elim
  | @planned reference probes caught hnone hvalues hpassed hstatus =>
    have hpassedIff : e.passed = true ↔ e.status = "passed" := by
      rw [hpassed, hstatus, holdoutStatus_passed_iff]
    constructor
    · intro hhonest v hv
      by_contra hnot
      have hfalse := Bool.eq_false_of_not_eq_true hnot
      have hinfra := hhonest.infra ⟨v, List.mem_cons_of_mem _ hv, hfalse⟩
      rw [hstatus, holdoutStatus_infra_iff] at hinfra
      have hnil : probes = [] := by
        apply hnone
        rw [hinfra]
        exact fun hc => Bool.noConfusion hc.2
      have hv' : v ∈ probes := hv
      rw [hnil] at hv'
      exact List.not_mem_nil hv'
    · intro hall
      have hinfra : (∃ v ∈ reference :: probes, isolated requireContainerized v = false) →
          e.status = "infra_error" := by
        intro hex
        obtain ⟨v, hv, hfalse⟩ := hex
        rw [hstatus, holdoutStatus_infra_iff]
        rcases List.mem_cons.mp hv with hv | hv
        · rw [← hv]
          exact hfalse
        · have htrue := hall v hv
          rw [hfalse] at htrue
          exact (Bool.false_ne_true htrue).elim
      refine ⟨hpassedIff, fun hfailed v hv => ?_, hinfra⟩
      by_contra hnot
      have hstatus' := hinfra ⟨v, hv, Bool.eq_false_of_not_eq_true hnot⟩
      rw [hfailed] at hstatus'
      exact absurd hstatus' (by decide)

/-- a probe that did not run makes the status a failure -/
theorem EvidenceOf.failed_of_probe {runs : List Verification} {e : HoldoutEvidence}
    (h : EvidenceOf requireContainerized e runs)
    (hnot : ¬ ProbesIsolated requireContainerized runs) :
    e.passed = false ∧ e.status = "failed" := by
  cases h with
  | unplanned => exact (hnot fun v hv => (List.not_mem_nil hv).elim).elim
  | @planned reference probes caught hnone hvalues hpassed hstatus =>
    obtain ⟨v, hv, hfalse⟩ : ∃ v ∈ probes, isolated requireContainerized v = false := by
      by_contra hall
      apply hnot
      intro v hv
      by_contra hfalse
      exact hall ⟨v, hv, Bool.eq_false_of_not_eq_true hfalse⟩
    have hreference : reference.status = "passed" ∧
        isolated requireContainerized reference = true := by
      by_contra hc
      rw [hnone hc] at hv
      exact List.not_mem_nil hv
    have hmissed : caught.values.all id = false := by
      rw [hvalues, List.all_eq_false]
      refine ⟨_, List.mem_map.mpr ⟨v, hv, rfl⟩, ?_⟩
      rw [hfalse, Bool.and_false]
      exact Bool.false_ne_true
    have hfailed : e.passed = false := by
      rw [hpassed, hmissed, Bool.and_false]
    refine ⟨hfailed, ?_⟩
    rw [hstatus]
    apply holdoutStatus_isolated hreference.2
    rw [ne_eq, holdoutStatus_passed_iff, ← hpassed, hfailed]
    exact Bool.false_ne_true

end

/-! ## the outcome -/

/-- an outcome whose holdout consulted a run that was not isolated is an infrastructure error -/
def OutcomeHonest (runs : List Verification) (outcome : SubmissionOutcome) : Prop :=
  (∃ v ∈ runs, isolated true v = false) → outcome.status = "infra_error"

section
variable {env : Env} {engine : Engine} {A : FloatOps} {cfg : SubnetConfig}

/-- an outcome without a consulted run is honest, and no probe of it was lost -/
theorem honest_of_no_runs {runs : List Verification} {outcome : SubmissionOutcome}
    (h : runs = []) : OutcomeHonest runs outcome ↔ ProbesIsolated true runs := by
  rw [h]
  refine iff_of_true (fun hex => ?_) fun v hv => (List.not_mem_nil hv).elim
  obtain ⟨v, hv, _⟩ := hex
  exact (List.not_mem_nil hv).elim

/-- the outcome of a holdout that was refused is honest exactly when its evidence is -/
theorem EvidenceOf.outcome_honest_iff {runs : List Verification} {e : HoldoutEvidence}
    {outcome : SubmissionOutcome} (h : EvidenceOf true e runs)
    (hstatus : e.passed = false →
      outcome.status = if e.status = "infra_error" then "infra_error" else "rejected") :
    OutcomeHonest runs outcome ↔ ProbesIsolated true runs := by
  constructor
  · intro hhonest
    by_contra hnot
    obtain ⟨hfailed, hs⟩ := h.failed_of_probe hnot
    have houtcome := hstatus hfailed
    rw [hs] at houtcome
    have hex : ∃ v ∈ runs, isolated true v = false := by
      by_contra hall
      apply hnot
      intro v hv
      by_contra hfalse
      exact hall ⟨v, List.mem_of_mem_tail hv, Bool.eq_false_of_not_eq_true hfalse⟩
    have hinfra := hhonest hex
    rw [houtcome] at hinfra
    exact absurd hinfra (by decide)
  · intro hisolated hex
    have hhonest := h.honest_iff.mpr hisolated
    have hs := hhonest.infra hex
    have hfailed : e.passed = false := by
      rw [← Bool.not_eq_true, hhonest.passedIff, hs]
      decide
    rw [hstatus hfailed, if_pos hs]

/-- the outcome of a package is honest exactly when every probe that its holdout consulted ran in
isolation -/
theorem run_evaluateTask_honest {task : TaskPackage} {panelPath : String}
    {gates : Dict String Bool} {outcome : SubmissionOutcome} {w w' : World}
    (h : evaluateTask env engine A cfg task (engine.stableHash task) gates panelPath w =
      (.ok outcome, w')) :
    OutcomeHonest (holdoutRuns env engine cfg task panelPath w.clock) outcome ↔
      ProbesIsolated true (holdoutRuns env engine cfg task panelPath w.clock) := by
  obtain ⟨result, w₁, hpipeline, h⟩ := run_evaluateTask_cases h
  obtain ⟨rows, hanswer, hclock, _, _⟩ := run_runPipeline hpipeline
  have hruns : holdoutRuns env engine cfg task panelPath w.clock =
      if holdoutDue cfg result then
        consultedRuns env engine task (engine.stableHash task) (cfg.holdoutSecret.getD "") true
          w₁.clock
      else [] := by
    unfold holdoutRuns
    rw [hanswer, hclock]
  cases h with
  | direct hdue _ =>
    rw [hdue] at hruns
    exact honest_of_no_runs hruns
  | refused hdue hevidence _ _ hstatus _ =>
    rw [holdoutHash_stable] at hevidence
    rw [hruns, if_pos hdue]
    exact (run_evaluateHoldout_cases hevidence).outcome_honest_iff fun _ => hstatus
  | heldOut hdue hevidence hpassed _ =>
    rw [holdoutHash_stable] at hevidence
    rw [hruns, if_pos hdue]
    refine (run_evaluateHoldout_cases hevidence).outcome_honest_iff fun hfailed => ?_
    rw [hpassed] at hfailed
    exact Bool.noConfusion hfailed

end

/-- **Holdout infrastructure failures are never charged to the miner** exactly when every consulted
probe ran in isolation: a probe run that did not execute turns the status of the evidence into
`failed` and the outcome of the submission into `rejected`. -/
theorem holdout_infra_failures_iff (env : Env) (engine : Engine) :
    (∀ (task : TaskPackage) (packageHash secret : String) (requireContainerized : Bool)
        (e : HoldoutEvidence) (w w' : World),
      evaluateHoldout env engine task packageHash secret requireContainerized w = (.ok e, w') →
      (InfraHonest requireContainerized
          (consultedRuns env engine task packageHash secret requireContainerized w.clock) e ↔
        ProbesIsolated requireContainerized
          (consultedRuns env engine task packageHash secret requireContainerized w.clock))) ∧
    ∀ (A : FloatOps) (cfg : SubnetConfig) (wire : Obj) (context : Option GateContext)
        (minerHotkey : String) (panelPath : Option String) (outcome : SubmissionOutcome)
        (context' : GateContext) (w w' : World),
      validateSubmission env engine A wire cfg context minerHotkey panelPath w =
        (.ok (outcome, context'), w') →
      (OutcomeHonest (submissionRuns env engine cfg wire context minerHotkey panelPath w.clock)
          outcome ↔
        ProbesIsolated true
          (submissionRuns env engine cfg wire context minerHotkey panelPath w.clock)) := by
  constructor
  · intro task packageHash secret requireContainerized e w w' h
    exact (run_evaluateHoldout_cases h).honest_iff
  · intro A cfg wire context minerHotkey panelPath outcome context' w w' h
    unfold submissionRuns
    cases run_validateSubmission_cases h with
    | unevaluated htask _ _ =>
      rw [htask]
      exact honest_of_no_runs rfl
    | evaluated htask hclock _ _ h =>
      rw [htask]
      have hhonest := run_evaluateTask_honest h
      rw [hclock] at hhonest
      exact hhonest

/-- the engine of the isolated sample, whose runner does not execute the probes -/
def lostProbeEngine : Engine :=
  { isolatedEngine with
    verify := fun _ _ candidate =>
      .ok { sampleVerification (if candidate.isSome then "error" else "passed") with
            executed := !candidate.isSome } }

def lostProbeTask : TaskPackage := { sampleTask "x" with starterFiles := [("codec.py", "")] }

/-- the evaluation ends, and the evidence says that a probe was missed -/
def reportsMiss : Outcome Exn HoldoutEvidence → Bool
  | .ok e => decide (e.status = "failed")
  | _ => false

/-- a probe run that did not execute is reported as a probe that was missed -/
theorem lost_probe_run_is_charged :
    ¬ ∀ (env : Env) (engine : Engine) (task : TaskPackage) (packageHash secret : String)
        (requireContainerized : Bool) (e : HoldoutEvidence) (w w' : World),
      evaluateHoldout env engine task packageHash secret requireContainerized w = (.ok e, w') →
      InfraHonest requireContainerized
        (consultedRuns env engine task packageHash secret requireContainerized w.clock) e := by
  intro h
  have hruns : (consultedRuns Env.plain lostProbeEngine lostProbeTask "x" "secret" true 0).any
      (fun v => !isolated true v) = true := by decide +kernel
  have hfailed : reportsMiss (evaluateHoldout Env.plain lostProbeEngine lostProbeTask "x" "secret"
      true {}).1 = true := by decide +kernel
  cases hrun : evaluateHoldout Env.plain lostProbeEngine lostProbeTask "x" "secret" true {} with
  | mk o w' =>
    rw [hrun] at hfailed
    cases o with
    | ok e =>
      have hhonest := h _ _ _ _ _ _ e {} w' hrun
      obtain ⟨v, hv, hnot⟩ := List.any_eq_true.mp hruns
      have hinfra := hhonest.infra ⟨v, hv, by rw [← Bool.not_eq_true']; exact hnot⟩
      have hstatus : e.status = "failed" := of_decide_eq_true hfailed
      rw [hstatus] at hinfra
      exact absurd hinfra (by decide)
    | raise exc => exact (Bool.false_ne_true hfailed).elim
    | killed => exact (Bool.false_ne_true hfailed).elim

end Dolores
