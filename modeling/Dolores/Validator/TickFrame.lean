import Dolores.Validator.TickLawful

/-!
# What the commands of the validator leave alone

Every relation that is closed under the primitive effects of the store is kept by its calls; with
the effects of an epoch it is kept by a whole tick, however it ends.

* `StoreFrame.enter`, `phaseHook`, `exit`, `recoverReceipt`   the calls of the store;
* `StoreFrame.withTick`                                       a tick around its body;
* `TickFrame.runEpoch`, `TickFrame.tickCommand`               an epoch, and the whole command;
* `TraceGrows`                                                no event is ever taken back.
-/

set_option linter.unusedSectionVars false

namespace Dolores
open Crash Except

/-- closed under what the calls of the store do to the world; the submission of weights is not one
of the events -/
structure StoreFrame (R : World → World → Prop) : Prop extends ClockFrame R where
  put : ∀ w path content, R w (w.put path content)
  event : ∀ w e, ¬ e.isCall → R w (w.log e)
  owner : ∀ w lockOwner, R w { w with lockOwner }
  ticks : ∀ w ticks, R w { w with ticks }

/-- closed under what a tick does to the world, but for its epoch -/
structure CommandFrame (R : World → World → Prop) : Prop extends StoreFrame R where
  nextTick : ∀ w nextTick, R w { w with nextTick }
  connected : ∀ w connected, R w { w with connected }

/-- closed under everything that a tick does to the world -/
structure TickFrame (R : World → World → Prop) : Prop extends CommandFrame R, EngineFrame R where
  submissions : ∀ w submissions, R w { w with submissions }

/-! ## the calls of the store -/

namespace StoreFrame

section
variable {R : World → World → Prop} [IsPreorder World R] (F : StoreFrame R) {env : Env}
include F

theorem acquireLock (o : Owner) : Moves R (acquireLock env o) :=
  Moves.bind Moves.get fun _ => Moves.ite (Moves.raise _) (Moves.ite (Moves.raise _)
    (Moves.bind (F.effectful (fun w => refl_of R w) fun w => F.owner w _) fun _ =>
      Moves.modify fun w => F.owner w _))

theorem releaseLock (o : Owner) : Moves R (releaseLock o) := by
  refine Moves.modify fun w => ?_
  split
  · exact F.owner w none
  · exact refl_of R w

theorem now : Moves R (now env) := fun w => refl_of R w

theorem readState : Moves R (readState env) := Moves.bind Moves.get fun _ => Moves.ofExcept _

theorem isFile (path : Path) : Moves R (isFile path) :=
  Moves.bind Moves.get fun _ => Moves.pure _

theorem raiseIfAmbiguousAttempt (epochId : Int) : Moves R (raiseIfAmbiguousAttempt env epochId) :=
  Moves.bind Moves.get fun _ => Moves.ofExcept _

theorem writeJson (path : Path) (payload : Json) : Moves R (atomicWriteJson env path payload) :=
  F.atomicWriteJson (fun w => F.put w path) payload

theorem writeState (state : ValidatorRuntimeState) : Moves R (writeState env state) :=
  Moves.bind (Moves.ofExcept _) fun _ => F.writeJson _ _

theorem commitFromCompletion (state : ValidatorRuntimeState) (epochId : Int) :
    Moves R (commitFromCompletion env state epochId) := by
  refine Moves.bind (F.raiseIfAmbiguousAttempt epochId) fun _ => ?_
  refine Moves.bind (F.isFile _) fun marked => Moves.ite (Moves.raise _) ?_
  refine Moves.bind Moves.get fun w => Moves.bind (Moves.ofExcept _) fun completed => ?_
  refine Moves.bind (Moves.modify fun w => F.event w _ id) fun _ => ?_
  exact Moves.bind (F.writeJson _ _) fun _ => Moves.bind F.now fun _ => Moves.pure _

theorem recoverLocked : Moves R (recoverLocked env) := by
  refine Moves.bind F.readState fun state => ?_
  split
  · refine Moves.bind (F.raiseIfAmbiguousAttempt _) fun _ => ?_
    refine Moves.bind (F.isFile _) fun marked => Moves.ite ?_ ?_
    · exact Moves.bind (F.isFile _) fun _ => Moves.raise _
    · refine Moves.bind (F.commitFromCompletion _ _) fun recovered => ?_
      exact Moves.bind (F.writeState recovered) fun _ => Moves.pure _
  · exact Moves.raise _

theorem ensure {α : Type} {p : M α} {cleanup : M Unit} (hp : Moves R p) (hc : Moves R cleanup) :
    Moves R (p.ensure cleanup) :=
  Moves.bind (Moves.handle hp fun _ => Moves.bind hc fun _ => Moves.raise _) fun _ =>
    Moves.bind hc fun _ => Moves.pure _

theorem recoverReceipt : Moves R (recoverReceipt env) :=
  Moves.bind (F.acquireLock .recovery) fun _ => F.ensure F.recoverLocked (F.releaseLock .recovery)

theorem beginSubmitting (state : ValidatorRuntimeState) (epochId : Int) :
    Moves R (beginSubmitting env state epochId) := by
  refine Moves.bind (F.raiseIfAmbiguousAttempt epochId) fun _ => ?_
  refine Moves.bind (F.isFile _) fun marked => Moves.ite (Moves.raise _) ?_
  refine Moves.bind (F.isFile _) fun received => Moves.ite (Moves.raise _) ?_
  refine Moves.bind Moves.get fun w => Moves.bind (Moves.ofExcept _) fun receipt => ?_
  refine Moves.ite (Moves.raise _) (Moves.bind (Moves.ofExcept _) fun definite => ?_)
  refine Moves.ite (Moves.raise _) (Moves.bind F.now fun updatedAt => ?_)
  exact Moves.bind (F.writeState _) fun _ => Moves.pure _

theorem beginIdle (state : ValidatorRuntimeState) : Moves R (beginIdle env state) := by
  unfold Dolores.beginIdle
  split
  · exact Moves.bind F.now fun _ => Moves.bind (F.writeState _) fun _ => Moves.pure _
  · exact Moves.bind F.now fun _ => Moves.bind (F.writeState _) fun _ => Moves.pure _
  · exact Moves.bind F.now fun _ => Moves.bind (F.writeState _) fun _ => Moves.pure _

theorem beginLocked : Moves R (beginLocked env) := by
  refine Moves.bind F.readState fun state => ?_
  split
  · exact Moves.bind (F.beginSubmitting _ _) fun state => F.beginIdle state
  · exact Moves.raise _
  · exact F.beginIdle _

theorem enter (id : Nat) : Moves R (ValidatorTick.enter env id) := by
  refine Moves.bind (F.acquireLock _) fun _ => Moves.handle ?_ fun exc => ?_
  · refine Moves.bind F.beginLocked fun begun => ?_
    refine Moves.bind (Moves.modify fun w => F.ticks w _) fun _ => ?_
    exact Moves.bind (Moves.modify fun w => F.event w _ fun h => h) fun _ => Moves.pure _
  · exact Moves.bind (F.releaseLock _) fun _ => Moves.raise _

theorem transitionLocked (epochId : Int) (phase : ValidatorPhase) :
    Moves R (transitionLocked env epochId phase) := by
  refine Moves.bind F.readState fun state => Moves.ite (Moves.raise _) ?_
  split
  · exact Moves.raise _
  · refine Moves.ite (Moves.pure _) (Moves.ite (Moves.raise _) (Moves.ite ?_ ?_))
    · refine Moves.bind (F.commitFromCompletion _ _) fun committed => ?_
      exact Moves.bind (F.writeState committed) fun _ => Moves.pure _
    · exact Moves.bind F.now fun _ => Moves.bind (F.writeState _) fun _ => Moves.pure _

theorem failEvaluationLocked (epochId : Int) (error : String) :
    Moves R (failEvaluationLocked env epochId error) := by
  refine Moves.bind F.readState fun state => Moves.ite (Moves.raise _) ?_
  exact Moves.bind F.now fun _ => Moves.bind (F.writeState _) fun _ => Moves.pure _

theorem failWeightsLocked (epochId : Int) (error : String) :
    Moves R (failWeightsLocked env epochId error) := by
  refine Moves.bind F.readState fun state => Moves.ite (Moves.raise _) ?_
  refine Moves.bind (F.isFile _) fun attempted => Moves.ite (Moves.raise _) ?_
  exact Moves.bind F.now fun _ => Moves.bind (F.writeState _) fun _ => Moves.pure _

theorem activeEpoch (id : Nat) (msg : String) : Moves R (ValidatorTick.activeEpoch id msg) :=
  fun w => ValidatorTick.wp_activeEpoch (fun _ _ _ _ => refl_of R w) (refl_of R w)

theorem transition (id : Nat) (phase : ValidatorPhase) :
    Moves R (ValidatorTick.transition env id phase) :=
  Moves.bind (F.activeEpoch id _) fun epochId => F.transitionLocked epochId phase

theorem phaseHook (id : Nat) (phase : String) : Moves R (ValidatorTick.phaseHook env id phase) := by
  unfold ValidatorTick.phaseHook
  split
  · exact Moves.bind (F.transition id _) fun _ => Moves.pure _
  · exact Moves.bind (F.transition id _) fun _ => Moves.pure _
  · exact Moves.bind (F.transition id _) fun _ => Moves.pure _
  · exact Moves.raise _

theorem failWeights (id : Nat) (error : String) : Moves R (ValidatorTick.failWeights env id error) :=
  Moves.bind (F.activeEpoch id _) fun epochId => F.failWeightsLocked epochId error

theorem settleEvaluation (id : Nat) (exc : Option Exn) :
    Moves R (ValidatorTick.settleEvaluation env id exc) := by
  refine Moves.bind Moves.get fun w => ?_
  split
  · refine Moves.bind F.readState fun state => Moves.ite ?_ (Moves.pure _)
    exact Moves.bind (F.failEvaluationLocked _ _) fun _ => Moves.pure _
  · exact Moves.pure _

theorem exit (id : Nat) (exc : Option Exn) : Moves R (ValidatorTick.exit env id exc) := by
  refine F.ensure (F.settleEvaluation id exc) (Moves.bind Moves.get fun w => ?_)
  exact Moves.bind (Moves.modify fun w => F.ticks w _) fun _ => F.releaseLock _

theorem failIncomplete {α : Type} (id : Nat) (exc : Exn) :
    Moves R (failIncomplete env id exc : M α) := by
  unfold Dolores.failIncomplete
  split
  · exact Moves.bind (F.failWeights id _) fun _ => Moves.raise _
  · exact Moves.raise _

end

end StoreFrame

/-! ## the command -/

namespace CommandFrame

section
variable {R : World → World → Prop} [IsPreorder World R] (F : CommandFrame R) {env : Env}
  {substrate : Substrate} {network : MinerNetwork} {args : TickArgs}
include F

theorem newTick : Moves R newTick :=
  Moves.bind Moves.get fun _ => Moves.bind (Moves.modify fun w => F.nextTick w _) fun _ =>
    Moves.pure _

theorem withTick {α : Type} {body : Nat → Int → M α} (hbody : ∀ id epochId, Moves R (body id epochId)) :
    Moves R (withTick env body) := by
  refine Moves.bind F.newTick fun id => Moves.bind (F.enter id) fun epochId => ?_
  refine Moves.bind (Moves.handle (hbody id epochId) fun exc => ?_) fun a => ?_
  · exact Moves.bind (F.exit id _) fun _ => Moves.raise _
  · exact Moves.bind (F.exit id _) fun _ => Moves.pure _

theorem readFrame : ReadFrame R where
  clock := F.clock
  connected w := F.connected w true

theorem chainFrame (hcall : ∀ w e, R w (w.log e)) (epochId : Int) : ChainFrame epochId R where
  clock := F.clock
  connected w := F.connected w true
  receipt w := F.put w _
  attempt w := F.put w _
  setWeights w _ _ _ := hcall w _

theorem applyWeights {A : FloatOps} (hcall : ∀ w e, R w (w.log e)) (client : ChainClient)
    (s : ReceiptSubject) (fallbackReason : String) :
    Moves R (client.applyWeights env substrate A s fallbackReason) :=
  (F.chainFrame hcall s.epochId).applyWeights client fallbackReason

theorem queryMinersForTick (client : ChainClient) (epochId : Int) :
    Moves R (queryMinersForTick env substrate network args client epochId) := by
  refine Moves.bind (Moves.ite (F.external _) ?_) fun _ =>
    Moves.ite (Moves.raise _) (F.external _)
  cases client with
  | null => exact Moves.raise _
  | subtensor chain =>
    refine Moves.bind F.readFrame.connect fun _ => Moves.bind (F.external _) fun hotkey => ?_
    exact Moves.bind (F.external _) fun rows => F.external _

end

end CommandFrame

/-! ## the epoch -/

section
variable {R : World → World → Prop} [IsPreorder World R] {env : Env} {engine : Engine}
  {substrate : Substrate} {A : FloatOps} {cfg : SubnetConfig} {epochId quota : Int}

/-- everything after the evaluation -/
theorem CommandFrame.concludeEpoch (F : CommandFrame R) (miners : List Miner)
    {client : Option ChainClient} {phaseHook : Option (String → M Unit)}
    (happly : ∀ (s : ReceiptSubject) (fallbackReason : String),
      Moves R ((client.getD .null).applyWeights env substrate A s fallbackReason))
    (hhook : ∀ phase, Moves R (emitPhase phaseHook phase))
    (outcomes : List (Miner × SubmissionOutcome)) (session : PanelSession) :
    Moves R (concludeEpoch env substrate A cfg epochId quota miners client phaseHook outcomes
      session) := by
  refine Moves.bind (Moves.ofExcept _) fun g => ?_
  refine Moves.bind (Moves.bind Moves.get fun w =>
    Moves.bind (Moves.modify fun w => F.event w _ id) fun _ => Moves.ofExcept _) fun previousEma => ?_
  refine Moves.bind (hhook _) fun _ => ?_
  refine Moves.bind (happly _ _) fun chainResult => ?_
  refine Moves.bind F.now fun createdAt => Moves.bind Moves.get fun w => ?_
  refine Moves.bind (Moves.ofExcept _) fun artifact => Moves.bind (F.writeJson _ _) fun _ => ?_
  refine Moves.bind (Moves.bind (Moves.ofExcept _) fun sidecar => ?_) fun _ => ?_
  · refine Moves.bind ?_ fun _ => F.writeJson _ _
    cases sidecar with
    | none => exact Moves.pure _
    | some sidecar =>
      refine Moves.bind (F.writeText (fun w => F.put w _) _) fun _ => ?_
      exact Moves.bind Moves.get fun w => Moves.ofExcept _
  refine Moves.bind (F.writeJson _ _) fun _ => Moves.ite (Moves.raise _) ?_
  refine Moves.bind (Moves.ite (Moves.raise _) (Moves.bind (Moves.ofExcept _) fun _ => ?_))
    fun _ => ?_
  · refine Moves.bind Moves.get fun w => Moves.bind (Moves.ofExcept _) fun artifacts => ?_
    refine Moves.bind (F.writeJson _ _) fun _ => Moves.bind Moves.get fun w => ?_
    exact Moves.bind (Moves.ofExcept _) fun _ => Moves.pure _
  exact Moves.bind (F.writeJson _ _) fun _ => Moves.bind (hhook _) fun _ => Moves.pure _

namespace TickFrame

variable (F : TickFrame R)
include F

theorem evaluationFrame : EvaluationFrame R where
  clock := F.clock
  db := F.db
  panelCache := F.panelCache
  createLog := F.createLog
  pipelineRan w _ _ := F.event w _ id

theorem repairJsonlTail : Moves R (repairJsonlTail env) := by
  refine Moves.bind Moves.get fun w => ?_
  split
  · exact Moves.pure _
  · refine Moves.bind (Moves.ofExcept _) fun repaired => Moves.ite (Moves.pure _) ?_
    exact F.effectful (fun w => F.submissions w _) fun w => refl_of R w

theorem appendOutcome (miner : Miner) (outcome : SubmissionOutcome) :
    Moves R (appendOutcome env epochId miner outcome) :=
  F.toEngineFrame.appendSubmission F.submissions _

theorem terminalOutcomes (miners : List Miner) : Moves R (terminalOutcomes env epochId miners) := by
  induction miners with
  | nil => exact Moves.pure _
  | cons miner miners ih =>
    unfold Dolores.terminalOutcomes
    split
    · exact ih
    · exact Moves.bind (F.appendOutcome _ _) fun _ => Moves.bind ih fun _ => Moves.pure _

theorem recordPanel (plan : PanelPlan) (session : PanelSession) (outcome : SubmissionOutcome) :
    Moves R (recordPanel env A plan session outcome) := by
  refine Moves.ite ?_ (Moves.ite ?_ (Moves.pure _))
  · refine Moves.bind (Moves.ofExcept _) fun _ => Moves.bind (Moves.ofExcept _) fun _ => ?_
    exact Moves.bind (F.toEngineFrame.record _ _ _ _ _ _) fun _ => Moves.pure _
  · exact Moves.bind (F.toEngineFrame.record _ _ _ _ _ _) fun _ => Moves.pure _

theorem evaluateSubmission (e : Evaluation) (miner : Miner) (payload : Obj) :
    Moves R (evaluateSubmission env engine A cfg epochId e miner payload) := by
  refine Moves.bind (Moves.ofExcept _) fun planned => ?_
  refine Moves.bind (F.evaluationFrame.validateSubmission _ _ _ _) fun validated => ?_
  refine Moves.bind (F.recordPanel _ _ _) fun recorded => ?_
  exact Moves.bind (F.appendOutcome _ _) fun _ => Moves.pure _

theorem evaluateAll (collected : List (Miner × Obj)) (e : Evaluation) :
    Moves R (evaluateAll env engine A cfg epochId collected e) := by
  induction collected generalizing e with
  | nil => exact Moves.pure _
  | cons p collected ih => exact Moves.bind (F.evaluateSubmission e _ _) fun e => ih e

theorem evaluateEpoch (miners : List Miner) :
    Moves R (evaluateEpoch env engine A cfg epochId quota miners) := by
  refine Moves.bind F.evaluationFrame.initArchive fun _ => Moves.bind F.repairJsonlTail fun _ => ?_
  refine Moves.bind Moves.get fun w => Moves.bind (Moves.ofExcept _) fun session => ?_
  exact Moves.bind (F.terminalOutcomes miners) fun terminals => F.evaluateAll _ _

variable {network : MinerNetwork} {args : TickArgs}

theorem tickBody {client : ChainClient}
    (happly : ∀ (s : ReceiptSubject) (fallbackReason : String),
      Moves R (client.applyWeights env substrate A s fallbackReason)) (id : Nat) (epochId : Int) :
    Moves R (tickBody env substrate network args engine A cfg client id epochId) := by
  refine Moves.bind (F.transition id _) fun _ => ?_
  refine Moves.bind (F.queryMinersForTick client epochId) fun miners => ?_
  have hhook : ∀ phase, Moves R (emitPhase (some (ValidatorTick.phaseHook env id)) phase) :=
    fun phase => F.phaseHook id phase
  refine Moves.bind (Moves.handle ?_ fun exc => F.failIncomplete id exc) fun _ => Moves.pure _
  refine Moves.bind (hhook _) fun _ => Moves.bind (F.evaluateEpoch miners) fun e => ?_
  exact F.toCommandFrame.concludeEpoch miners happly hhook _ _

/-- a whole tick, however it ends -/
theorem tickCommand {input : TickInput}
    (happly : ∀ cfg client, prepareTick args input = .ok (cfg, client) →
      ∀ (s : ReceiptSubject) (fallbackReason : String),
        Moves R (client.applyWeights env substrate A s fallbackReason)) :
    Moves R (tickCommand env substrate network args engine A input) := by
  refine Moves.bind_ofExcept fun prepared hprepared => ?_
  refine Moves.bind (Moves.modify fun w => F.connected w _) fun _ => ?_
  refine Moves.bind (F.withTick fun id epochId => F.tickBody (happly _ _ hprepared) id epochId) fun ended => ?_
  exact Moves.pure _

end TickFrame

end

/-! ## the events -/

/-- the events so far stay, and new ones come after them -/
def TraceGrows (w w' : World) : Prop := ∃ es, w'.trace = w.trace ++ es

instance : IsPreorder World TraceGrows where
  refl w := ⟨[], (List.append_nil _).symm⟩
  trans := by
    rintro w w' w'' ⟨es, h⟩ ⟨es', h'⟩
    exact ⟨es ++ es', by rw [h', h, List.append_assoc]⟩

theorem TraceGrows.of_eq {w w' : World} (h : w'.trace = w.trace) : TraceGrows w w' :=
  ⟨[], by rw [h, List.append_nil]⟩

/-- **No command takes an event back.** -/
theorem traceGrows_frame : TickFrame TraceGrows where
  clock _ := .of_eq rfl
  put _ _ _ := ⟨_, rfl⟩
  event _ _ _ := ⟨_, rfl⟩
  owner _ _ := .of_eq rfl
  ticks _ _ := .of_eq rfl
  nextTick _ _ := .of_eq rfl
  connected _ _ := .of_eq rfl
  db _ _ := .of_eq rfl
  panelCache _ _ := .of_eq rfl
  createLog _ := .of_eq rfl
  submissions _ _ := .of_eq rfl

end Dolores
