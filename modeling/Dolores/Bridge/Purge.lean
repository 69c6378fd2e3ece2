import Dolores.Bridge.Isolation

/-!
# What an infrastructure failure leaves in the archive (`bridge.py`, `archive.py`)

An infrastructure failure is cleaned up by a delete by task hash, on every exit but the last one,
where the engine reports the failure as the lifecycle status.

* `HoldoutPasses`           the holdout of a task passes;
* `Survives`                the evaluation reaches that last exit;
* `run_evaluateTask_db`     the rows after one evaluation;
* `infraError_restores_archive_iff`   when the rows are those from before.
-/

set_option linter.unusedSectionVars false

namespace Dolores
open Crash Except

/-! ## the last exit -/

/-- the lifecycle status that the outcome takes over -/
def lifecycleOf (result : PipelineResult) : String :=
  (result.score.map (·.lifecycleStatus)).getD result.status

/-- the result is neither an error nor an infrastructure failure nor unsafe, and an accepted task
ran in a container where one is required -/
def RowsSurvive (cfg : SubnetConfig) (result : PipelineResult) : Prop :=
  result.error.getD "" = "" ∧ ∃ v, result.verification = some v ∧ isInfraError v = false ∧
    v.safetyFindings = [] ∧ ¬ (cfg.backend = .docker ∧ v.containerized = false ∧
      lifecycleOf result ∉ nonContainerizedAllowedStatuses)

/-- the holdout of the task passes when it is evaluated in `w` -/
def HoldoutPasses (env : Env) (engine : Engine) (cfg : SubnetConfig) (task : TaskPackage)
    (packageHash : String) (w : World) : Prop :=
  ∀ evidence w', evaluateHoldout env engine task packageHash (cfg.holdoutSecret.getD "") true w =
    (.ok evidence, w') → evidence.passed = true

/-- a reference that passed and probes that failed, all of them in isolation, make a holdout pass -/
theorem HoldoutPasses.of_runs {env : Env} {engine : Engine} {cfg : SubnetConfig}
    {task : TaskPackage} {packageHash : String} {w : World} {reference : Verification}
    {probes : List Verification}
    (hruns : consultedRuns env engine task packageHash (cfg.holdoutSecret.getD "") true w.clock =
      reference :: probes)
    (hpassed : reference.status = "passed") (hisolated : isolated true reference = true)
    (hsome : probes ≠ [])
    (hfailed : ∀ v ∈ probes, v.status ≠ "passed" ∧ isolated true v = true) :
    HoldoutPasses env engine cfg task packageHash w := by
  intro evidence w' h
  have hevidence := run_evaluateHoldout_cases h
  rw [hruns] at hevidence
  cases hevidence with
  | @planned _ _ caught _ hvalues he _ =>
    have hall : ∀ caught ∈ probes.map (fun v => v.status != "passed" && isolated true v),
        caught = true := by
      intro caught hmem
      obtain ⟨v, hv, hcaught⟩ := List.mem_map.mp hmem
      rw [← hcaught, bne_iff_ne.mpr (hfailed v hv).1, (hfailed v hv).2]
      rfl
    rw [← hvalues] at hall
    have hcaught : caught.values.all id = true := List.all_eq_true.mpr hall
    rw [he, hpassed, hisolated, hcaught, Bool.and_true, beq_self_eq_true, Bool.true_and,
      Bool.true_and, Bool.not_eq_true', List.isEmpty_eq_false_iff]
    intro hnil
    rw [hnil] at hvalues
    exact hsome (List.map_eq_nil_iff.mp hvalues.symm)

/-- the rows of the result survive, and so they do the holdout if there is one -/
def Survives (env : Env) (engine : Engine) (cfg : SubnetConfig) (task : TaskPackage)
    (taskHash : String) (result : PipelineResult) (w : World) : Prop :=
  RowsSurvive cfg result ∧ ∀ v, result.verification = some v →
    cfg.holdoutRequired = true ∧ v.status = "passed" → HoldoutPasses env engine cfg task
      (if taskHash = "" then engine.stableHash task else taskHash) w

/-! ## the rows -/

/-- the archive holds the same set of rows -/
def SameRows (w w' : World) : Prop := ∀ row, row ∈ w'.db ↔ row ∈ w.db

/-- the rows of the task are deleted, unless it has no hash -/
def purgedRows (taskHash : String) (db : List (String × Json)) : List (String × Json) :=
  if taskHash = "" then db else db.filter fun row => row.1 ≠ taskHash

/-- the rows that the pipeline adds -/
def addedRows (taskHash : String) (rows : List Json) : List (String × Json) :=
  rows.map fun row => (taskHash, row)

/-- the database is as it was -/
def SameDb (w w' : World) : Prop := w'.db = w.db

instance : IsPreorder World SameDb where
  refl _ := rfl
  trans _ _ _ h h' := Eq.trans h' h

theorem sameDbFrame : ClockFrame SameDb where
  clock _ := rfl

section
variable {env : Env} {engine : Engine} {A : FloatOps} {cfg : SubnetConfig}

theorem run_purgeIfHash {taskHash : String} {u : Unit} {w w' : World}
    (h : purgeIfHash env engine taskHash w = (.ok u, w')) : w'.db = purgedRows taskHash w.db := by
  unfold purgeIfHash at h
  unfold purgedRows
  by_cases hempty : taskHash = ""
  · rw [if_pos hempty] at h ⊢
    rw [(run_pure h).2]
  · rw [if_neg hempty] at h ⊢
    obtain ⟨_, w₁, hcall, h⟩ := run_bind h
    rw [run_modify h, run_external hcall]
    rfl

/-- the exits of `_outcome_from_pipeline` that report an infrastructure failure -/
theorem run_outcomeFromPipeline_db {result : PipelineResult} {taskId taskHash : String}
    {gates : Dict String Bool} {holdoutSummary : Obj} {outcome : SubmissionOutcome} {w w' : World}
    (h : outcomeFromPipeline env engine A result cfg taskId taskHash gates holdoutSummary w =
      (.ok outcome, w')) (hstatus : outcome.status = "infra_error") :
    RowsSurvive cfg result ∧ w'.db = w.db ∨
      ¬ RowsSurvive cfg result ∧ w'.db = purgedRows taskHash w.db := by
  -- an exit with another status
  have hother : ∀ {o : SubmissionOutcome} {w₁ : World}, o.status ≠ "infra_error" →
      (pure o : M SubmissionOutcome) w₁ ≠ (.ok outcome, w') := by
    intro o w₁ ho hrun
    rw [← (run_pure hrun).1] at hstatus
    exact ho hstatus
  have hpurged : ∀ {o : SubmissionOutcome}, (purgeIfHash env engine taskHash >>= fun _ => pure o) w =
      (.ok outcome, w') → w'.db = purgedRows taskHash w.db := by
    intro o hrun
    obtain ⟨_, w₁, hpurge, hrun⟩ := run_bind hrun
    rw [← (run_pure hrun).2]
    exact run_purgeIfHash hpurge
  have hinvalid : "invalid" ≠ "infra_error" := by decide
  have hrejected : "rejected" ≠ "infra_error" := by decide
  unfold outcomeFromPipeline at h
  dsimp only at h
  cases hv : result.verification with
  | none =>
    rw [hv] at h
    exact (hother hinvalid h).elim
  | some verification =>
    rw [hv] at h
    dsimp only at h
    by_cases herror : result.error.getD "" ≠ ""
    · rw [if_pos herror] at h
      exact (hother hinvalid h).elim
    rw [if_neg herror] at h
    by_cases hinfra : isInfraError verification = true
    · rw [if_pos hinfra] at h
      refine .inr ⟨fun hs => ?_, hpurged h⟩
      obtain ⟨_, v, hv', hnot, _⟩ := hs
      rw [hv] at hv'
      rw [Option.some.inj hv', hnot] at hinfra
      exact Bool.false_ne_true hinfra
    rw [if_neg hinfra] at h
    cases hsafe : verification.safetyFindings with
    | cons finding findings =>
      rw [hsafe] at h
      exact (hother hrejected h).elim
    | nil =>
      rw [hsafe] at h
      dsimp only at h
      by_cases hcontainer : cfg.backend = .docker ∧ verification.containerized = false ∧
          lifecycleOf result ∉ nonContainerizedAllowedStatuses
      · have hcontainer' := hcontainer
        unfold lifecycleOf at hcontainer'
        rw [if_pos hcontainer'] at h
        refine .inr ⟨fun hs => ?_, hpurged h⟩
        obtain ⟨_, v, hv', _, _, hnot⟩ := hs
        rw [hv] at hv'
        rw [← Option.some.inj hv'] at hnot
        exact hnot hcontainer
      · have hcontainer' := hcontainer
        unfold lifecycleOf at hcontainer'
        rw [if_neg hcontainer'] at h
        left
        refine ⟨⟨not_not.mp herror, verification, hv, Bool.eq_false_of_not_eq_true hinfra, hsafe,
          hcontainer⟩, by rw [(run_pure h).2]⟩

/-- the rows after the evaluation of one task that ends in an infrastructure failure -/
theorem run_evaluateTask_db {task : TaskPackage} {taskHash panelPath : String}
    {gates : Dict String Bool} {outcome : SubmissionOutcome} {w w' : World}
    (h : evaluateTask env engine A cfg task taskHash gates panelPath w = (.ok outcome, w'))
    (hstatus : outcome.status = "infra_error") :
    ∃ result rows w₁, engine.runTaskPipeline w.clock task panelPath = .ok (result, rows) ∧
      w₁.clock = w.clock + 1 ∧
      (Survives env engine cfg task taskHash result w₁ ∧
          w'.db = w.db ++ addedRows (engine.stableHash task) rows ∨
        ¬ Survives env engine cfg task taskHash result w₁ ∧
          w'.db = purgedRows taskHash (w.db ++ addedRows (engine.stableHash task) rows)) := by
  obtain ⟨result, w₁, hpipeline, h⟩ := run_evaluateTask_cases h
  obtain ⟨rows, hanswer, hclock, _, hdb⟩ := run_runPipeline hpipeline
  refine ⟨result, rows, w₁, hanswer, hclock, ?_⟩
  unfold addedRows
  rw [← hdb]
  -- the exits of the pipeline, when the holdout has passed or is not asked for
  have hexit : ∀ {w₂ : World} {summary : Obj}, SameDb w₁ w₂ →
      (∀ v, result.verification = some v → cfg.holdoutRequired = true ∧ v.status = "passed" →
        HoldoutPasses env engine cfg task (holdoutHash engine task taskHash) w₁) →
      outcomeFromPipeline env engine A result cfg task.taskId taskHash gates summary w₂ =
        (.ok outcome, w') →
      Survives env engine cfg task taskHash result w₁ ∧ w'.db = w₁.db ∨
        ¬ Survives env engine cfg task taskHash result w₁ ∧
          w'.db = purgedRows taskHash w₁.db := by
    intro w₂ summary hsame hholdout hrun
    have hdb₂ : w₂.db = w₁.db := hsame
    rcases run_outcomeFromPipeline_db hrun hstatus with ⟨hs, hkept⟩ | ⟨hs, hpurged⟩
    · exact .inl ⟨⟨hs, hholdout⟩, by rw [hkept, hdb₂]⟩
    · exact .inr ⟨fun hboth => hs hboth.1, by rw [hpurged, hdb₂]⟩
  cases h with
  | direct hdue h =>
    refine hexit (refl_of SameDb w₁) (fun v hv hr => ?_) h
    have hdue' := holdoutDue_iff.mpr ⟨hr.1, v, hv, hr.2⟩
    rw [hdue] at hdue'
    exact (Bool.false_ne_true hdue').elim
  | @refused evidence w₂ hdue hevidence hfailed hpurge _ _ =>
    obtain ⟨hholdout, v, hv, hpassed⟩ := holdoutDue_iff.mp hdue
    refine .inr ⟨fun hs => ?_, ?_⟩
    · have hpasses := hs.2 v hv ⟨hholdout, hpassed⟩ evidence w₂ hevidence
      rw [hfailed] at hpasses
      exact Bool.false_ne_true hpasses
    · have hsame : SameDb w₁ w₂ := (sameDbFrame.evaluateHoldout _ _ _ _).run hevidence
      rw [run_purgeIfHash hpurge, show w₂.db = w₁.db from hsame]
  | heldOut _ hevidence hpassed h =>
    refine hexit ((sameDbFrame.evaluateHoldout _ _ _ _).run hevidence)
      (fun v _ _ evidence' w₃ hevidence' => ?_) h
    have hsameRun := (Prod.mk.inj (hevidence.symm.trans hevidence')).1
    rw [← Outcome.ok.inj hsameRun]
    exact hpassed

/-! ## one submission -/

/-- the archive holds no row of a task that is purged, and every row that is added and not purged -/
def UndoesEvaluation (survives : Prop) (taskHash : String) (rows : List Json) (w : World) : Prop :=
  (taskHash ≠ "" ∧ ¬ survives → ∀ row ∈ w.db, row.1 ≠ taskHash) ∧
    (taskHash = "" ∨ survives → ∀ row ∈ rows, (taskHash, row) ∈ w.db)

theorem sameRows_of_purged {taskHash : String} (hne : taskHash ≠ "") (rows : List Json)
    {w w' : World} (h : w'.db = purgedRows taskHash (w.db ++ addedRows taskHash rows)) :
    SameRows w w' ↔ ∀ row ∈ w.db, row.1 ≠ taskHash := by
  have hmem : ∀ row, row ∈ w'.db ↔ row ∈ w.db ∧ row.1 ≠ taskHash := by
    intro row
    unfold purgedRows at h
    rw [h, if_neg hne, List.mem_filter, List.mem_append, decide_eq_true_eq]
    constructor
    · intro hrow
      refine ⟨hrow.1.resolve_right fun hadded => ?_, hrow.2⟩
      obtain ⟨_, _, hrow'⟩ := List.mem_map.mp hadded
      exact hrow.2 (by rw [← hrow'])
    · exact fun hrow => ⟨.inl hrow.1, hrow.2⟩
  constructor
  · exact fun hsame row hrow => ((hmem row).mp ((hsame row).mpr hrow)).2
  · exact fun hnone row => ⟨fun hrow => ((hmem row).mp hrow).1, fun hrow =>
      (hmem row).mpr ⟨hrow, hnone row hrow⟩⟩

theorem sameRows_of_added {taskHash : String} {rows : List Json} {w w' : World}
    (h : w'.db = w.db ++ addedRows taskHash rows) :
    SameRows w w' ↔ ∀ row ∈ rows, (taskHash, row) ∈ w.db := by
  unfold SameRows
  rw [h]
  constructor
  · intro hsame row hrow
    exact (hsame _).mp (List.mem_append_right _ (List.mem_map_of_mem hrow))
  · intro hheld row
    rw [List.mem_append]
    refine ⟨fun hrow => hrow.elim id fun hadded => ?_, .inl⟩
    obtain ⟨row', hmem, hrow'⟩ := List.mem_map.mp hadded
    rw [← hrow']
    exact hheld row' hmem

/-- **An infrastructure failure leaves the archive as it was** exactly when the archive held no
row of the purged hash, or, on the exit that does not purge, when nothing was added. -/
theorem infraError_restores_archive_iff {wire : Obj} {context : Option GateContext}
    {minerHotkey : String} {panelPath : Option String} {outcome : SubmissionOutcome}
    {context' : GateContext} {w w' : World}
    (h : validateSubmission env engine A wire cfg context minerHotkey panelPath w =
      (.ok (outcome, context'), w')) (hstatus : outcome.status = "infra_error") :
    ∃ task result rows w₁, parsePackage engine wire = .ok task ∧
      engine.runTaskPipeline (w.clock + 1) task (panelPath.getD cfg.panelPath) =
        .ok (result, rows) ∧ w₁.clock = w.clock + 2 ∧
      (SameRows w w' ↔ UndoesEvaluation
        (Survives env engine cfg task (engine.stableHash task) result w₁)
        (engine.stableHash task) rows w) := by
  cases run_validateSubmission_cases h with
  | unevaluated _ _ hnot => exact (hnot hstatus).elim
  | @evaluated task w₁ htask hclock _ hdb h =>
    obtain ⟨result, rows, w₂, hpipe, hclock₂, hrows⟩ := run_evaluateTask_db h hstatus
    rw [hclock] at hpipe hclock₂
    refine ⟨task, result, rows, w₂, evaluatedTask_parse htask, hpipe, hclock₂, ?_⟩
    rw [hdb] at hrows
    unfold UndoesEvaluation
    rcases hrows with ⟨hs, hadded⟩ | ⟨hs, hpurged⟩
    · rw [sameRows_of_added hadded]
      exact ⟨fun hheld => ⟨fun hp => (hp.2 hs).elim, fun _ => hheld⟩, fun hu => hu.2 (.inr hs)⟩
    by_cases hempty : engine.stableHash task = ""
    · unfold purgedRows at hpurged
      rw [if_pos hempty] at hpurged
      rw [sameRows_of_added hpurged]
      exact ⟨fun hheld => ⟨fun hp => (hp.1 hempty).elim, fun _ => hheld⟩,
        fun hu => hu.2 (.inl hempty)⟩
    · rw [sameRows_of_purged hempty rows hpurged]
      exact ⟨fun hnone => ⟨fun _ => hnone, fun hk => (hk.elim hempty hs).elim⟩,
        fun hu => hu.1 ⟨hempty, hs⟩⟩

end

section

/-- an engine whose pipeline stores the task and finds no container runtime -/
def unavailableEngine : Engine :=
  { isolatedEngine with
    runTaskPipeline := fun _ _ _ => .ok
      ({ status := "infra_error", error := none,
         verification := some { sampleVerification "error" with
           executed := false, containerized := false,
           fallbackReason := some "docker unavailable" },
         score := none, solverResults := [] }, [.str "stored"]) }

/-- the archive after an epoch that has accepted the task -/
def acceptedBefore : World := { db := [("x", .str "accepted")] }

/-- the task is submitted, and the pipeline cannot run -/
def unavailableRun (w : World) : Outcome Exn (SubmissionOutcome × GateContext) × World :=
  validateSubmission Env.plain unavailableEngine exactOps (samplePayload "x") dockerConfig none
    "miner" none w

/-- the run reports an infrastructure failure -/
def reportsInfraError (r : Outcome Exn (SubmissionOutcome × GateContext) × World) : Bool :=
  match r.1 with
  | .ok (outcome, _) => outcome.status == "infra_error"
  | _ => false

theorem exists_infraError {w : World} (h : reportsInfraError (unavailableRun w) = true) :
    ∃ outcome context', unavailableRun w = (.ok (outcome, context'), (unavailableRun w).2) ∧
      outcome.status = "infra_error" := by
  cases hrun : unavailableRun w with
  | mk o w' =>
    rw [hrun] at h
    cases o with
    | ok p => exact ⟨p.1, p.2, rfl, eq_of_beq h⟩
    | raise e => exact (Bool.false_ne_true h).elim
    | killed => exact (Bool.false_ne_true h).elim

theorem infraError_restores_archive_sample :
    ∃ task result rows w₁, parsePackage unavailableEngine (samplePayload "x") = .ok task ∧
      unavailableEngine.runTaskPipeline 1 task dockerConfig.panelPath = .ok (result, rows) ∧
      w₁.clock = 2 ∧
      (SameRows {} (unavailableRun {}).2 ↔ UndoesEvaluation
        (Survives Env.plain unavailableEngine dockerConfig task
          (unavailableEngine.stableHash task) result w₁)
        (unavailableEngine.stableHash task) rows {}) := by
  obtain ⟨outcome, context', hrun, hstatus⟩ := exists_infraError (w := {}) (by decide +kernel)
  exact infraError_restores_archive_iff hrun hstatus

/-- the record of the accepted task is deleted with the failed evaluation -/
theorem resubmission_deletes_accepted_record :
    ¬ ∀ (env : Env) (engine : Engine) (A : FloatOps) (cfg : SubnetConfig) (wire : Obj)
        (context : Option GateContext) (minerHotkey : String) (panelPath : Option String)
        (outcome : SubmissionOutcome) (context' : GateContext) (w w' : World),
      validateSubmission env engine A wire cfg context minerHotkey panelPath w =
        (.ok (outcome, context'), w') → outcome.status = "infra_error" → SameRows w w' := by
  intro h
  obtain ⟨outcome, context', hrun, hstatus⟩ :=
    exists_infraError (w := acceptedBefore) (by decide +kernel)
  have hsame := h _ _ _ _ _ _ _ _ outcome context' acceptedBefore _ hrun hstatus
  have hheld := (hsame ("x", .str "accepted")).mpr List.mem_cons_self
  have hgone : (unavailableRun acceptedBefore).2.db.length = 0 := by decide +kernel
  rw [List.length_eq_zero_iff.mp hgone] at hheld
  exact List.not_mem_nil hheld

end

end Dolores
