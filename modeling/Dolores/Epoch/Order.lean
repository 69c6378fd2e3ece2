import Dolores.Chain.Live
import Dolores.Chain.Order
import Dolores.Epoch.Budget
import Dolores.Epoch.Permute
import Dolores.Validator.State

/-!
# The order of the miners does not matter

Two runs of `run_epoch`, on one list of miners and on a permutation of it, call
`validate_submission` alike, write the same artifact and hand the same payload to the chain.

* `publishEpoch`               `runEpoch` up to the weights artifact, of which `completeEpoch` is the
                               rest (`runEpoch_eq`);
* `epochCalls`                 the calls of `validate_submission` in a run;
* `blind_phaseHook`            the hook of a tick does not read the submission log;
* `epoch_ignores_miner_order`  the two runs.
-/

set_option linter.unusedSectionVars false

namespace Dolores
open Crash

/-! ## the epoch up to its artifact -/

/-- what an epoch has computed once its artifact is written -/
structure Published where
  taskValues : List (Json × ℚ)
  scores : EpochScores
  chainResult : ChainWeightResult
  artifact : Obj

section
variable (env : Env) (engine : Engine) (substrate : Substrate) (A : FloatOps) (cfg : SubnetConfig)
  (epochId quota : Int)

/-- the part of an epoch before the miners are looked at -/
def openEpoch (phaseHook : Option (String → M Unit)) : M PanelSession := do
  emitPhase phaseHook "evaluating"
  initArchive env engine
  repairJsonlTail env
  let w ← Proc.get
  Proc.ofExcept (newPanelSession env cfg w.panelCache)

/-- the part of an epoch before its first submission -/
def beginEvaluation (miners : List Miner) (phaseHook : Option (String → M Unit)) :
    M Evaluation := do
  let session ← openEpoch env engine cfg phaseHook
  let terminals ← terminalOutcomes env epochId miners
  pure { outcomes := terminals, session, context := { quota } }

def recordArtifact (session : PanelSession) (g : Aggregate) (scores : EpochScores)
    (chainResult : ChainWeightResult) : M Published := do
  let createdAt ← now env
  let w ← Proc.get
  let artifact ← Proc.ofExcept (epochArtifact env cfg epochId quota g scores chainResult createdAt
    (env.durationMs w.clock))
  saveMinerState env epochId scores.emaState
  persistPanelSidecar env cfg session epochId
  atomicWriteJson env (.epoch epochId .weights) (.obj artifact)
  pure { taskValues := g.taskValues, scores, chainResult, artifact }

/-- the weights of the evaluated outcomes, given to the chain and recorded -/
def publishWeights (miners : List Miner) (client : Option ChainClient)
    (phaseHook : Option (String → M Unit)) (e : Evaluation) : M Published := do
  let activeHotkeys := miners.map (·.hotkey)
  let g ← Proc.ofExcept (aggregateOutcomes activeHotkeys e.outcomes)
  let previousEma ← loadMinerState env epochId
  let scores := scoreEpoch A cfg.emaAlpha quota activeHotkeys previousEma g
    (e.outcomes.map (·.2.status))
  emitPhase phaseHook "weights_submitting"
  let chainResult ← (client.getD .null).applyWeights env substrate A
    { epochId, weights := scores.weights, activeHotkeys, specVersion := cfg.specVersion }
    (scores.weightReason.getD "offline")
  recordArtifact env cfg epochId quota e.session g scores chainResult

/-- `run_epoch` until the weights artifact is written -/
def publishEpoch (miners : List Miner) (client : Option ChainClient)
    (phaseHook : Option (String → M Unit)) : M Published := do
  let e ← beginEvaluation env engine cfg epochId quota miners phaseHook
  let e ← evaluateAll env engine A cfg epochId
    (sortedCollected env.text (collect miners epochId quota)) e
  publishWeights env substrate A cfg epochId quota miners client phaseHook e

/-- the rest of `run_epoch`: the marker, the rolling state and the last phase -/
def completeEpoch (phaseHook : Option (String → M Unit)) (p : Published) : M EpochResult :=
  if p.chainResult.mode.text ∉ recoverableChainModes then
    Proc.raise (incompleteOutcome p.chainResult)
  else do
    writeEpochCompletionMarker env epochId p.chainResult
    atomicWriteJson env .minerState (.obj (scoresRecord p.scores.emaState))
    emitPhase phaseHook "committed"
    pure { artifactPath := .epoch epochId .weights, weights := p.scores.weights,
           epochScores := p.scores.epochScores, chainResult := p.chainResult,
           completionMarkerPath := .epoch epochId .completion }

theorem runEpoch_eq (miners : List Miner) (client : Option ChainClient)
    (phaseHook : Option (String → M Unit)) :
    runEpoch env engine substrate A cfg epochId quota miners client phaseHook =
      publishEpoch env engine substrate A cfg epochId quota miners client phaseHook >>=
        completeEpoch env epochId phaseHook := by
  unfold runEpoch publishEpoch beginEvaluation openEpoch evaluateEpoch publishWeights concludeEpoch recordArtifact
    recordEpoch completeEpoch
  simp only [bind_assoc, pure_bind]

/-! ## the calls of `validate_submission` -/

/-- the payloads, hotkeys and plans of the calls in a run of the loop -/
def evaluationCalls : List (Miner × Obj) → Evaluation → World → List (Obj × String × PanelPlan)
  | [], _, _ => []
  | (miner, payload) :: rest, e, w =>
    match e.session.plan (payload.get "package_hash") with
    | .error _ => []
    | .ok (plan, _) =>
      (payload, miner.hotkey, plan) ::
        match evaluateSubmission env engine A cfg epochId e miner payload w with
        | (.ok e', w') => evaluationCalls rest e' w'
        | _ => []

/-- the calls in a run of the epoch from `w` -/
def epochCalls (miners : List Miner) (phaseHook : Option (String → M Unit)) (w : World) :
    List (Obj × String × PanelPlan) :=
  match beginEvaluation env engine cfg epochId quota miners phaseHook w with
  | (.ok e, w') => evaluationCalls env engine A cfg epochId
      (sortedCollected env.text (collect miners epochId quota)) e w'
  | _ => []

end

/-! ## the hooks -/

theorem blind_noHook (phase : String) : Blind (emitPhase none phase) (emitPhase none phase) :=
  blind_pure ()

section
variable {env : Env}

theorem blind_atomicWriteJson (p : Path) (payload : Json) :
    Blind (atomicWriteJson env p payload) (atomicWriteJson env p payload) :=
  (clockAgree_sameButLog.effectful (fun _ _ h => h.put p _) fun _ _ h => h).mono fun _ _ _ => rfl

theorem blind_now : Blind (now env) (now env) := fun _ _ h => .ok (by rw [h.clock]) h

theorem blind_readState : Blind (readState env) (readState env) :=
  Agree.bind Agree.get fun w v h => by
    rw [h.files]
    exact Agree.ofExcept _

theorem blind_writeState (state : ValidatorRuntimeState) :
    Blind (writeState env state) (writeState env state) :=
  (Agree.ofExcept _).bind_eq fun _ => blind_atomicWriteJson _ _

theorem blind_isFile (path : Path) : Blind (isFile path) (isFile path) :=
  Agree.bind Agree.get fun w v h => by
    rw [h.files]
    exact blind_pure _

theorem blind_raiseIfAmbiguousAttempt (epochId : Int) :
    Blind (raiseIfAmbiguousAttempt env epochId) (raiseIfAmbiguousAttempt env epochId) :=
  Agree.bind Agree.get fun w v h => by
    rw [h.files]
    exact Agree.ofExcept _

theorem blind_commitFromCompletion (state : ValidatorRuntimeState) (epochId : Int) :
    Blind (commitFromCompletion env state epochId) (commitFromCompletion env state epochId) := by
  refine (blind_raiseIfAmbiguousAttempt epochId).bind_eq fun _ => (blind_isFile _).bind_eq
    fun marked => Agree.ite Iff.rfl (Agree.raise _) (Agree.bind Agree.get fun w v h => ?_)
  rw [h.files]
  exact (Agree.ofExcept _).bind_eq fun _ => (blind_logEvent _).bind_eq fun _ =>
    (blind_atomicWriteJson _ _).bind_eq fun _ => blind_now.bind_eq fun _ => blind_pure _

theorem blind_transitionLocked (epochId : Int) (phase : ValidatorPhase) :
    Blind (transitionLocked env epochId phase) (transitionLocked env epochId phase) := by
  refine blind_readState.bind_eq fun state => Agree.ite Iff.rfl (Agree.raise _) ?_
  cases state.phase with
  | none => exact Agree.raise _
  | some current =>
    refine Agree.ite Iff.rfl (blind_pure _) (Agree.ite Iff.rfl (Agree.raise _)
      (Agree.ite Iff.rfl ?_ ?_))
    · exact (blind_commitFromCompletion _ _).bind_eq fun _ =>
        (blind_writeState _).bind_eq fun _ => blind_pure _
    · exact blind_now.bind_eq fun _ => (blind_writeState _).bind_eq fun _ => blind_pure _

theorem blind_activeEpoch (id : Nat) (msg : String) :
    Blind (ValidatorTick.activeEpoch id msg) (ValidatorTick.activeEpoch id msg) := by
  have hheld : Blind (lockHeld (.tick id)) (lockHeld (.tick id)) := fun w v h => by
    refine .ok ?_ h
    rw [show w.lockOwner = v.lockOwner from
      show w.withoutLog.lockOwner = v.withoutLog.lockOwner by rw [h.withoutLog_eq]]
  refine Agree.bind Agree.get fun w v h => hheld.bind_eq fun held => ?_
  rw [show w.ticks = v.ticks from
    show w.withoutLog.ticks = v.withoutLog.ticks by rw [h.withoutLog_eq]]
  split
  · exact blind_pure _
  · exact Agree.raise _

/-- the hook that `tick_command` passes -/
theorem blind_phaseHook (id : Nat) (phase : String) :
    Blind (emitPhase (some (ValidatorTick.phaseHook env id)) phase)
      (emitPhase (some (ValidatorTick.phaseHook env id)) phase) := by
  have htransition : ∀ p, Blind (ValidatorTick.transition env id p)
      (ValidatorTick.transition env id p) := fun p =>
    (blind_activeEpoch id _).bind_eq fun _ => blind_transitionLocked _ p
  show Blind (ValidatorTick.phaseHook env id phase) (ValidatorTick.phaseHook env id phase)
  unfold ValidatorTick.phaseHook
  split
  · exact (htransition _).bind_eq fun _ => blind_pure _
  · exact (htransition _).bind_eq fun _ => blind_pure _
  · exact (htransition _).bind_eq fun _ => blind_pure _
  · exact Agree.raise _

end

/-! ## the two runs -/

/-- the same results, dictionaries up to their order -/
structure SamePublication (p p' : Published) : Prop where
  taskValues : p.taskValues = p'.taskValues
  scores : SameScores p.scores p'.scores
  chainResult : p.chainResult = p'.chainResult
  artifact : p.artifact = p'.artifact

section
variable {env : Env} {engine : Engine} {substrate : Substrate} {cfg : SubnetConfig}
  {epochId quota : Int} {miners miners' : List Miner} {client : Option ChainClient}
  {phaseHook : Option (String → M Unit)}

theorem scoresRecord_perm {scores scores' : Dict String ℚ} (h : Dict.SameItems scores scores') :
    scoresRecord scores = scoresRecord scores' := by
  unfold scoresRecord
  rw [h.sorted]

theorem epochArtifact_eq {g g' : Aggregate} (hg : SameAggregate g g') {scores scores' : EpochScores}
    (hs : SameScores scores scores') (chainResult : ChainWeightResult) (createdAt : String)
    (durationMs : Int) :
    epochArtifact env cfg epochId quota g scores chainResult createdAt durationMs =
      epochArtifact env cfg epochId quota g' scores' chainResult createdAt durationMs := by
  unfold epochArtifact
  rw [hg.taskValues, scoresRecord_perm hs.epochScores, hs.emaState, scoresRecord_perm hs.weights,
    hs.degraded]

theorem agree_writeText (p : Path) (payload : Json) :
    Agree (SamePublished epochId) Eq (writeText env p payload) (writeText env p payload) := by
  intro w v h
  unfold writeText
  rw [← h.clock]
  refine Ends.mono (clockAgree_samePublished.effectful ?_ ?_ w v h) (fun _ _ => id)
    fun _ _ _ => rfl
  · exact fun _ _ hw => hw.put (fun _ => rfl) (.inl rfl)
  · exact fun _ _ hw => hw.put (fun _ => rfl) (.inl rfl)

theorem agree_persistPanelSidecar (session : PanelSession) :
    Agree (SamePublished epochId) Eq (persistPanelSidecar env cfg session epochId)
      (persistPanelSidecar env cfg session epochId) := by
  refine (Agree.ofExcept _).bind_eq fun sidecar => Agree.bind_eq ?_ fun _ =>
    agree_atomicWriteJson _ _
  cases sidecar with
  | none => exact Agree.pure rfl
  | some sidecar =>
    refine (agree_writeText _ _).bind_eq fun _ => Agree.bind Agree.get fun w v h => ?_
    have hload : loadJsonObject env w.files (.epoch epochId .panelSidecar) "panel sidecar" =
        loadJsonObject env v.files (.epoch epochId .panelSidecar) "panel sidecar" := by
      unfold loadJsonObject
      rw [h.files _ (by intro e; cases e)]
    rw [hload]
    exact Agree.ofExcept _

theorem agree_recordArtifact (session : PanelSession) {g g' : Aggregate} (hg : SameAggregate g g')
    {scores scores' : EpochScores} (hs : SameScores scores scores')
    (chainResult : ChainWeightResult) :
    Agree (SamePublished epochId) SamePublication
      (recordArtifact env cfg epochId quota session g scores chainResult)
      (recordArtifact env cfg epochId quota session g' scores' chainResult) := by
  have hnow : Agree (SamePublished epochId) Eq (now env) (now env) := fun w v h =>
    .ok (by rw [h.clock]) h
  refine hnow.bind_eq fun createdAt => Agree.bind Agree.get fun w v h => ?_
  rw [epochArtifact_eq hg hs, h.clock, hs.emaState]
  refine (Agree.ofExcept _).bind_eq fun artifact => (agree_atomicWriteJson _ _).bind_eq fun _ => ?_
  exact (agree_persistPanelSidecar session).bind_eq fun _ =>
    (agree_atomicWriteJson _ _).bind_eq fun _ => Agree.pure ⟨hg.taskValues, hs, rfl, rfl⟩

theorem blind_loadMinerState : Blind (loadMinerState env epochId) (loadMinerState env epochId) :=
  Agree.bind Agree.get fun w v h => by
    rw [h.files]
    exact (blind_logEvent _).bind_eq fun _ => Agree.ofExcept _

/-- evaluations of the two lists: the same outcomes after the terminal ones -/
theorem agree_publishWeights {uid : String → Option Int} (huid : FixedUids substrate uid)
    (hhook : Blind (emitPhase phaseHook "weights_submitting")
      (emitPhase phaseHook "weights_submitting"))
    (h : miners.Perm miners') (hn : (miners.map (·.hotkey)).Nodup) {e e' : Evaluation}
    (he : SameAfter (terminalsOf miners) (terminalsOf miners') e e') {w v : World}
    (hw : SameButLog w v) :
    Ends (SamePublished epochId) SamePublication
      (publishWeights env substrate exactOps cfg epochId quota miners client phaseHook e w)
      (publishWeights env substrate exactOps cfg epochId quota miners' client phaseHook e' v) := by
  obtain ⟨hsession, _, new, hnew, hnew'⟩ := he
  have hstatuses : (e.outcomes.map (·.2.status)).Perm (e'.outcomes.map (·.2.status)) := by
    rw [hnew, hnew']
    exact ((terminalsOf_perm h).append_right new).map _
  unfold publishWeights
  dsimp only
  rw [← hsession]
  have hboth : Agree SameButLog SameAggregate
      (Proc.ofExcept (aggregateOutcomes (miners.map (·.hotkey)) e.outcomes))
      (Proc.ofExcept (aggregateOutcomes (miners'.map (·.hotkey)) e'.outcomes)) := by
    rw [hnew, hnew']
    exact Agree.ofBoth (both_aggregateOutcomes h hn)
  have hinto : ∀ w v, SameButLog w v → SamePublished epochId w v := fun _ _ => .of_sameButLog
  refine (hboth w v hw).bind_into hinto fun g g' w v hg hw => ?_
  refine (blind_loadMinerState w v hw).bind_into hinto fun previous previous' w v hprevious hw => ?_
  rw [← hprevious]
  refine (hhook w v hw).bind_into hinto fun _ _ w v _ hw => ?_
  have hscores : SameScores
      (scoreEpoch exactOps cfg.emaAlpha quota (miners.map (·.hotkey)) previous g
        (e.outcomes.map (·.2.status)))
      (scoreEpoch exactOps cfg.emaAlpha quota (miners'.map (·.hotkey)) previous g'
        (e'.outcomes.map (·.2.status))) :=
    sameScores_scoreEpoch hg (h.map _) hn hstatuses
  generalize scoreEpoch exactOps cfg.emaAlpha quota (miners.map (·.hotkey)) previous g
    (e.outcomes.map (·.2.status)) = scores at hscores ⊢
  generalize scoreEpoch exactOps cfg.emaAlpha quota (miners'.map (·.hotkey)) previous g'
    (e'.outcomes.map (·.2.status)) = scores' at hscores ⊢
  have hsubject : SameSubject
      ⟨epochId, scores.weights, miners.map (·.hotkey), cfg.specVersion⟩
      ⟨epochId, scores'.weights, miners'.map (·.hotkey), cfg.specVersion⟩ :=
    ⟨rfl, hscores.weights, h.map _, hn, rfl⟩
  rw [← hscores.weightReason]
  refine (agree_applyWeights huid hsubject _ _ w v (hinto w v hw)).bind fun r r' w v hr hw => ?_
  rw [← hr]
  exact agree_recordArtifact _ hg hscores r w v hw

/-! ## the calls in the two runs -/

theorem evaluationCalls_eq {A : FloatOps} {before before' : List (Miner × SubmissionOutcome)}
    {e e' : Evaluation} (he : SameAfter before before' e e') {w v : World} (hw : SameButLog w v)
    (collected : List (Miner × Obj)) :
    evaluationCalls env engine A cfg epochId collected e w =
      evaluationCalls env engine A cfg epochId collected e' v := by
  induction collected generalizing e e' w v with
  | nil => rfl
  | cons p collected ih =>
    obtain ⟨miner, payload⟩ := p
    have hrun : Ends SameButLog (SameAfter before before')
        (evaluateSubmission env engine A cfg epochId e miner payload w)
        (evaluateSubmission env engine A cfg epochId e' miner payload v) :=
      agree_evaluateSubmission he miner payload w v hw
    unfold evaluationCalls
    rw [← he.session]
    generalize evaluateSubmission env engine A cfg epochId e miner payload w = x at hrun ⊢
    generalize evaluateSubmission env engine A cfg epochId e' miner payload v = y at hrun ⊢
    cases hrun with
    | ok he hw =>
      dsimp only
      rw [ih he hw]
    | raise hw => rfl
    | killed hw => rfl

/-- both runs begin alike: only the order of the terminal outcomes differs -/
theorem ends_beginEvaluation (h : miners.Perm miners') (w : World) :
    Ends SameButLog (SameAfter (terminalsOf miners) (terminalsOf miners'))
      (beginEvaluation env engine cfg epochId quota miners phaseHook w)
      (beginEvaluation env engine cfg epochId quota miners' phaseHook w) := by
  have hopen := Ends.refl (openEpoch env engine cfg phaseHook w)
  unfold beginEvaluation
  refine hopen.bind_into (fun _ v e => e ▸ SameButLog.refl v) fun session session' w v hs hw => ?_
  rw [← hs, ← hw]
  refine (agree_terminalOutcomes h w w (.refl w)).bind fun r r' w v hr hw => ?_
  rw [hr.1, hr.2]
  exact .ok ⟨rfl, rfl, [], (List.append_nil _).symm, (List.append_nil _).symm⟩ hw

theorem epochCalls_eq {A : FloatOps} (h : miners.Perm miners')
    (hhashes : DistinctHashes (collect miners epochId quota)) (w : World) :
    epochCalls env engine A cfg epochId quota miners phaseHook w =
      epochCalls env engine A cfg epochId quota miners' phaseHook w := by
  have hbegin : Ends SameButLog (SameAfter (terminalsOf miners) (terminalsOf miners'))
      (beginEvaluation env engine cfg epochId quota miners phaseHook w)
      (beginEvaluation env engine cfg epochId quota miners' phaseHook w) :=
    ends_beginEvaluation h w
  unfold epochCalls
  rw [← sortedCollected_perm h hhashes]
  generalize beginEvaluation env engine cfg epochId quota miners phaseHook w = x at hbegin ⊢
  generalize beginEvaluation env engine cfg epochId quota miners' phaseHook w = y at hbegin ⊢
  cases hbegin with
  | ok he hw => exact evaluationCalls_eq he hw _
  | raise hw => rfl
  | killed hw => rfl

/-- the same calls of `validate_submission`, the same scores, weights and artifact, and the same
payload for the chain, whatever the order of the miners -/
theorem epoch_ignores_miner_order {uid : String → Option Int} (huid : FixedUids substrate uid)
    (hhook : Blind (emitPhase phaseHook "weights_submitting")
      (emitPhase phaseHook "weights_submitting"))
    (h : miners.Perm miners') (hn : (miners.map (·.hotkey)).Nodup)
    (hhashes : DistinctHashes (collect miners epochId quota)) (w : World) :
    (∀ l, runEpoch env engine substrate exactOps cfg epochId quota l client phaseHook =
      publishEpoch env engine substrate exactOps cfg epochId quota l client phaseHook >>=
        completeEpoch env epochId phaseHook) ∧
    epochCalls env engine exactOps cfg epochId quota miners phaseHook w =
      epochCalls env engine exactOps cfg epochId quota miners' phaseHook w ∧
    Ends (SamePublished epochId) SamePublication
      (publishEpoch env engine substrate exactOps cfg epochId quota miners client phaseHook w)
      (publishEpoch env engine substrate exactOps cfg epochId quota miners' client phaseHook w) := by
  refine ⟨fun l => runEpoch_eq env engine substrate exactOps cfg epochId quota l client phaseHook,
    epochCalls_eq h hhashes w, ?_⟩
  have hinto : ∀ w v, SameButLog w v → SamePublished epochId w v := fun _ _ => .of_sameButLog
  unfold publishEpoch
  rw [← sortedCollected_perm h hhashes]
  refine (ends_beginEvaluation h w).bind_into hinto fun e e' w v he hw => ?_
  refine (agree_evaluateAll _ he w v hw).bind_into hinto fun e e' w v he hw => ?_
  exact agree_publishWeights huid hhook h hn he hw

end

/-- two miners with a submission each, and one that was not reached -/
def threeMiners : List Miner := [
  { hotkey := "a", uid := 1, submissions := fun _ _ => [samplePayload "x"] },
  { hotkey := "b", uid := 2, submissions := fun _ _ => [samplePayload "y"] },
  { hotkey := "c", uid := 3, terminalStatus := some "unreachable" }]

theorem epoch_ignores_miner_order_sample :
    (∀ l, runEpoch paidEnv (sampleEngine "passed") readySubstrate exactOps (paidConfig false) 1 4 l
        (some (.subtensor liveChain)) none =
      publishEpoch paidEnv (sampleEngine "passed") readySubstrate exactOps (paidConfig false) 1 4 l
        (some (.subtensor liveChain)) none >>= completeEpoch paidEnv 1 none) ∧
    epochCalls paidEnv (sampleEngine "passed") exactOps (paidConfig false) 1 4 threeMiners none {} =
      epochCalls paidEnv (sampleEngine "passed") exactOps (paidConfig false) 1 4
        threeMiners.reverse none {} ∧
    Ends (SamePublished 1) SamePublication
      (publishEpoch paidEnv (sampleEngine "passed") readySubstrate exactOps (paidConfig false) 1 4
        threeMiners (some (.subtensor liveChain)) none {})
      (publishEpoch paidEnv (sampleEngine "passed") readySubstrate exactOps (paidConfig false) 1 4
        threeMiners.reverse (some (.subtensor liveChain)) none {}) := by
  refine epoch_ignores_miner_order (fun n => .inl fun hotkey => rfl) (blind_noHook _)
    (List.reverse_perm _).symm (by decide) ⟨["x", "y"], rfl, by decide⟩ {}

end Dolores
