import Dolores.Chain.Impl

/-!
# What the chain seam leaves alone

Every relation that is closed under the effects of the seam for one epoch is kept by
`apply_weights`, however it ends.

* `ReadFrame.preflight`, `ReadFrame.mapHotkeys`, `ReadFrame.buildPayload`   the reads;
* `ChainFrame.submitLive`                                                   the live seam;
* `ChainFrame.applyWeights`                                                 both clients.
-/

set_option linter.unusedSectionVars false

namespace Dolores
open Crash

/-- closed under the reads of the substrate -/
structure ReadFrame (R : World → World → Prop) : Prop extends ClockFrame R where
  connected : ∀ w, R w { w with connected := true }

/-- closed under what `apply_weights` does to the world for one epoch -/
structure ChainFrame (epochId : Int) (R : World → World → Prop) : Prop extends ReadFrame R where
  receipt : ∀ w content, R w (w.put (.epoch epochId .chainReceipt) content)
  attempt : ∀ w content, R w (w.put (.epoch epochId .chainAttempt) content)
  setWeights : ∀ w uids weights versionKey,
    R w (w.log (.setWeights epochId uids weights versionKey))

/-! ## the reads -/

namespace ReadFrame

section
variable {R : World → World → Prop} [IsPreorder World R] (F : ReadFrame R) {env : Env}
  {substrate : Substrate} {A : FloatOps} {chain : SubtensorChain}
include F

theorem connect : Moves R (connectSubstrate env substrate chain) :=
  Moves.bind Moves.get fun _ => Moves.ite (Moves.raise _) (Moves.ite (Moves.pure _)
    (Moves.bind (F.external _) fun _ => Moves.modify F.connected))

theorem probeCommitReveal (record : ChainState) :
    Moves R (probeCommitReveal env substrate record) := by
  refine Moves.handle (Moves.bind (F.external _) fun enabled => ?_) fun _ =>
    Moves.ite (Moves.pure _) (Moves.raise _)
  cases enabled with
  | none => exact Moves.pure _
  | some b => exact Moves.pure _

theorem preflight : Moves R (preflight env substrate chain) := by
  refine Moves.bind F.connect fun _ => Moves.bind (F.external _) fun _ =>
    Moves.bind (F.external _) fun _ => Moves.bind (F.external _) fun _ =>
    Moves.ite (Moves.pure _) (Moves.bind (F.external _) fun _ => Moves.bind (F.external _) ?_)
  intro validatorUid
  cases validatorUid with
  | none => exact Moves.pure _
  | some uid =>
    exact Moves.bind (F.external _) fun _ => Moves.bind (F.external _) fun _ =>
      Moves.bind (F.external _) fun _ => F.probeCommitReveal _

theorem readinessState : Moves R (readinessState env substrate chain) :=
  Moves.handle (Moves.bind F.preflight fun _ => Moves.pure _) fun _ =>
    Moves.ite (Moves.pure _) (Moves.raise _)

theorem mapHotkeysLoop (hotkeys : List String) (mapping : Dict String Int)
    (dropped : List String) :
    Moves R (mapHotkeysLoop env substrate chain hotkeys mapping dropped) := by
  induction hotkeys generalizing mapping dropped with
  | nil => exact Moves.pure _
  | cons hotkey hotkeys ih =>
    refine Moves.bind F.connect fun _ => Moves.bind (F.external _) fun uid => ?_
    cases uid with
    | none => exact ih _ _
    | some uid => exact ih _ _

theorem mapHotkeys (hotkeys : List String) : Moves R (mapHotkeys env substrate chain hotkeys) :=
  Moves.bind (F.mapHotkeysLoop _ _ _) fun _ => Moves.pure _

theorem buildPayload (weights : Dict String ℚ) (mapping : HotkeyUidMapping) (specVersion : Int) :
    Moves R (buildPayload env substrate A chain weights mapping specVersion) :=
  Moves.bind (Moves.ite (Moves.pure _) (Moves.bind F.connect fun _ => F.external _)) fun _ =>
    Moves.pure _

end

end ReadFrame

/-! ## the records and the live seam -/

namespace ChainFrame

section
variable {R : World → World → Prop} [IsPreorder World R] {s : ReceiptSubject}
  (F : ChainFrame s.epochId R) {env : Env} {substrate : Substrate} {A : FloatOps}
  {chain : SubtensorChain} {α : Type}
include F

theorem writeReceipt (mode : ChainMode) (reason : String) (detail : ReceiptDetail) :
    Moves R (writeReceipt env chain s mode reason detail) :=
  Moves.bind (F.atomicWriteJson F.receipt _) fun _ => Moves.pure _

theorem writeAttempt (status : AttemptStatus) (payload : ChainPayload) (submission : Option Obj)
    (receiptFile errorType : Option String) :
    Moves R (writeAttempt env chain s status payload submission receiptFile errorType) :=
  F.atomicWriteJson F.attempt _

theorem ambiguousSubmission (payload : ChainPayload) (submission : Option Obj) (exc : Exn) :
    Moves R (ambiguousSubmission env chain s payload submission exc : M α) :=
  Moves.bind (Moves.handle (F.writeAttempt _ _ _ _ _) fun _ => Moves.pure _) fun _ =>
    Moves.raise _

theorem invokeSetWeights (payload : ChainPayload) :
    Moves R (invokeSetWeights env substrate chain s payload) :=
  Moves.bind F.connect fun _ =>
    Moves.bind (Moves.modify fun w => F.setWeights w _ _ _) fun _ =>
      Moves.bind (F.external _) fun _ => Moves.pure _

theorem confirmSubmission (state : ChainState) (mapping : HotkeyUidMapping)
    (payload : ChainPayload) (submission : Obj) :
    Moves R (confirmSubmission env substrate chain s state mapping payload submission) := by
  refine Moves.ite (Moves.raise _) (Moves.bind F.connect fun _ =>
    Moves.bind (F.external _) fun _ => Moves.ite (Moves.raise _) (Moves.ite (Moves.raise _) ?_))
  exact Moves.bind (F.writeReceipt _ _ _) fun _ => Moves.bind (F.writeAttempt _ _ _ _ _) fun _ =>
    Moves.pure _

theorem submitLive (state : ChainState) (mapping : HotkeyUidMapping) (payload : ChainPayload) :
    Moves R (submitLive env substrate chain s state mapping payload) :=
  Moves.bind (Moves.handle (F.invokeSetWeights _) fun _ => F.ambiguousSubmission _ _ _) fun _ =>
    Moves.handle (F.confirmSubmission _ _ _ _) fun _ => F.ambiguousSubmission _ _ _

theorem publishPayload (state : ChainState) (mapping : HotkeyUidMapping) (payload : ChainPayload) :
    Moves R (publishPayload env substrate chain s state mapping payload) :=
  Moves.ite (F.writeReceipt _ _ _) (Moves.ite (F.writeReceipt _ _ _)
    (Moves.bind (F.writeAttempt _ _ _ _ _) fun _ => F.submitLive _ _ _))

theorem publishReady (state : ChainState) :
    Moves R (publishReady env substrate A chain s state) := by
  unfold Dolores.publishReady
  split
  · exact F.writeReceipt _ _ _
  · refine Moves.bind (F.mapHotkeys _) fun mapping => Moves.ite (F.writeReceipt _ _ _) ?_
    exact Moves.bind (F.buildPayload _ _ _) fun _ => F.publishPayload _ _ _

theorem applyWeights (client : ChainClient) (fallbackReason : String) :
    Moves R (client.applyWeights env substrate A s fallbackReason) := by
  cases client with
  | null => exact Moves.pure _
  | subtensor chain =>
    refine Moves.ite (F.writeReceipt _ _ _) (Moves.ite (F.writeReceipt _ _ _) ?_)
    refine Moves.bind F.readinessState fun readiness => ?_
    cases readiness with
    | error exc => exact F.writeReceipt _ _ _
    | ok state => exact F.publishReady _

end

end ChainFrame

end Dolores
