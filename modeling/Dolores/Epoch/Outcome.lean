import Dolores.Epoch.Marker
import Dolores.Chain.Live

/-!
# The files of a chain outcome

In an epoch directory without a receipt and an attempt, every result that `applyWeights` returns
has exactly the files that the marker of its mode calls for.

* `wp_writeReceipt_inPlace`    what the receipt records;
* `wp_applyWeights_outcome`    the files of the result, for both clients.
-/

set_option linter.unusedSectionVars false

namespace Dolores
open Crash

/-- the result has a reason, and the files its mode calls for -/
def OutcomeRecorded (epochId : Int) (r : ChainWeightResult) (w : World) : Prop :=
  OutcomeInPlace w.files epochId r ∧ ∃ reason, r.reason = some reason

/-- no outcome has been recorded for the epoch -/
structure NoOutcome (epochId : Int) (w : World) : Prop where
  receipt : w.files (.epoch epochId .chainReceipt) = none
  attempt : w.files (.epoch epochId .chainAttempt) = none

theorem NoOutcome.congr {epochId : Int} {w w' : World} (h : NoOutcome epochId w)
    (hr : OnlyReads w w') : NoOutcome epochId w' :=
  ⟨by rw [hr.files, h.receipt], by rw [hr.files, h.attempt]⟩

section
variable {env : Env} {substrate : Substrate} {A : FloatOps} {chain : SubtensorChain}
  {s : ReceiptSubject} (hf : env.NoFaults)
include hf

theorem wp_writeReceipt_inPlace (mode : ChainMode) (reason : String) (detail : ReceiptDetail)
    (w : World) :
    wp (writeReceipt env chain s mode reason detail) (Post.returns fun r w' =>
      r.mode = mode ∧ r.reason = some reason ∧ ReceiptInPlace w'.files s.epochId r ∧
        ReceiptFrame s.epochId w w') w := by
  unfold writeReceipt
  rw [wp_bind, wp_atomicWriteJson_of_noFaults hf]
  refine ⟨rfl, rfl, ⟨rfl, (receiptRecord chain s mode reason detail).canon, ?_, ?_⟩, ?_⟩
  · rw [World.put_self, Json.canon_obj']
  · intro p hp
    rw [Obj.get_canon]
    simp only [List.mem_cons, List.not_mem_nil, or_false] at hp
    rcases hp with rfl | rfl | rfl
    · rw [receiptRecord_get_epochId, Json.canon_int]
    · rw [receiptRecord_get_mode, Json.canon_str]
    · rw [receiptRecord_get_reason, Json.canon_str]
      rfl
  · intro p hp
    exact World.written_of_ne hp _ _

/-- a receipt of a definite mode is the whole outcome when there is no attempt -/
theorem wp_writeReceipt_definite {mode : ChainMode} (hmode : mode.definite = true)
    (reason : String) (detail : ReceiptDetail) {w : World} (hw : NoOutcome s.epochId w) :
    wp (writeReceipt env chain s mode reason detail) (Post.onReturn (OutcomeRecorded s.epochId))
      w := by
  refine wp_mono (wp_writeReceipt_inPlace hf mode reason detail w) ?_ (fun _ _ h => h.elim)
    (fun _ h => h.elim)
  intro r w' h
  obtain ⟨hm, hreason, hreceipt, hframe⟩ := h
  have hattempt : w'.files (.epoch s.epochId .chainAttempt) = none := by
    rw [hframe _ (by simp), hw.attempt]
  refine ⟨?_, reason, hreason⟩
  unfold OutcomeInPlace
  rw [hm]
  cases mode with
  | dryRun => exact ⟨hreceipt, hattempt⟩
  | skipped => exact ⟨hreceipt, hattempt⟩
  | error => exact ⟨hreceipt, hattempt⟩
  | fallback => exact nomatch hmode
  | submitted => exact nomatch hmode
  | other name unknown => exact nomatch hmode

theorem wp_ambiguousSubmission_returns {α : Type} (payload : ChainPayload)
    (submission : Option Obj) (exc : Exn) {P : α → World → Prop} (w : World) :
    wp (ambiguousSubmission env chain s payload submission exc) (Post.onReturn P) w := by
  unfold ambiguousSubmission writeAttempt
  rw [wp_bind, wp_handle, wp_atomicWriteJson_of_noFaults hf]
  exact trivial

/-- a confirmed submission leaves its receipt and a completed attempt -/
theorem wp_confirmSubmission_outcome (state : ChainState) (mapping : HotkeyUidMapping)
    (payload : ChainPayload) (submission : Obj) (w : World) :
    wp (confirmSubmission env substrate chain s state mapping payload submission)
      (Post.onReturn (OutcomeRecorded s.epochId)) w := by
  unfold confirmSubmission
  refine wp_ite (fun _ => trivial) (fun _ => ?_)
  dsimp only
  rw [wp_bind]
  refine wp_onReturn_of_moves onlyReadsFrame.connect fun _ w₁ _ => ?_
  rw [wp_bind]
  refine wp_onReturn_of_moves (onlyReadsFrame.external _) fun _ w₂ _ => ?_
  refine wp_ite (fun _ => trivial) (fun _ => wp_ite (fun _ => trivial) fun _ => ?_)
  rw [wp_bind]
  refine wp_mono (wp_writeReceipt_inPlace hf .submitted _ _ w₂) ?_ (fun _ _ h => h.elim)
    (fun _ h => h.elim)
  intro r w₃ h
  obtain ⟨hm, hreason, hreceipt, _⟩ := h
  dsimp only
  unfold writeAttempt
  rw [wp_bind, wp_atomicWriteJson_of_noFaults hf]
  refine ⟨?_, _, hreason⟩
  unfold OutcomeInPlace
  rw [hm]
  refine ⟨⟨hreceipt.1, hreceipt.2.congr ?_⟩,
    (attemptRecord chain s .completed payload (some submission)
      (some (EpochFile.chainReceipt.name s.epochId)) none).canon, ?_, ?_⟩
  · exact World.written_of_ne (by simp) _ _
  · rw [World.put_self, Json.canon_obj']
  · intro p hp
    rw [Obj.get_canon]
    simp only [List.mem_cons, List.not_mem_nil, or_false] at hp
    rcases hp with rfl | rfl | rfl | rfl
    · exact Json.canon_int _
    · exact Json.canon_str _
    · exact Json.canon_str _
    · exact Json.canon_str _

theorem wp_submitLive_outcome (state : ChainState) (mapping : HotkeyUidMapping)
    (payload : ChainPayload) (w : World) :
    wp (submitLive env substrate chain s state mapping payload)
      (Post.onReturn (OutcomeRecorded s.epochId)) w := by
  unfold submitLive
  rw [wp_bind, wp_handle]
  have hrest : ∀ submission w₁, wp (Proc.handle
      (confirmSubmission env substrate chain s state mapping payload submission)
      (ambiguousSubmission env chain s payload (some submission)))
      (Post.onReturn (OutcomeRecorded s.epochId)) w₁ := by
    intro submission w₁
    rw [wp_handle]
    refine wp_mono (wp_confirmSubmission_outcome hf state mapping payload submission w₁)
      (fun _ _ => id) (fun e w₂ _ => ?_) (fun _ => id)
    exact wp_ambiguousSubmission_returns hf payload (some submission) e w₂
  refine wp_mono (wp_self_ok _ w) (fun submission w₁ _ => hrest submission w₁) (fun e w₁ _ => ?_)
    (fun _ => id)
  exact wp_ambiguousSubmission_returns hf payload none e w₁

theorem wp_publishReady_outcome (state : ChainState) {w : World} (hw : NoOutcome s.epochId w) :
    wp (publishReady env substrate A chain s state) (Post.onReturn (OutcomeRecorded s.epochId))
      w := by
  unfold publishReady
  cases readinessSkipReason chain state with
  | some reason =>
    dsimp only
    refine wp_writeReceipt_definite hf ?_ reason _ hw
    split
    · rfl
    · rfl
  | none =>
    dsimp only
    rw [wp_bind]
    refine wp_onReturn_of_moves (onlyReadsFrame.mapHotkeys _) fun mapping w₁ h₁ => ?_
    have hw₁ := hw.congr h₁
    refine wp_ite (fun _ => wp_writeReceipt_definite hf rfl _ _ hw₁) (fun _ => ?_)
    rw [wp_bind]
    refine wp_onReturn_of_moves (onlyReadsFrame.buildPayload _ _ _) fun payload w₂ h₂ => ?_
    have hw₂ := hw₁.congr h₂
    unfold publishPayload
    refine wp_ite (fun _ => wp_writeReceipt_definite hf rfl _ _ hw₂)
      (fun _ => wp_ite (fun _ => wp_writeReceipt_definite hf rfl _ _ hw₂) fun _ => ?_)
    unfold writeAttempt
    rw [wp_bind, wp_atomicWriteJson_of_noFaults hf]
    exact wp_submitLive_outcome hf state mapping payload _

/-- **Every result has its files.** -/
theorem wp_applyWeights_outcome (client : ChainClient) (fallbackReason : String) {w : World}
    (hw : NoOutcome s.epochId w) :
    wp (client.applyWeights env substrate A s fallbackReason)
      (Post.onReturn (OutcomeRecorded s.epochId)) w := by
  cases client with
  | null => exact ⟨⟨rfl, hw.receipt, hw.attempt⟩, _, (apply_ite some _ _ _).symm⟩
  | subtensor chain =>
    show wp (chain.applyWeights env substrate A s fallbackReason) _ w
    unfold SubtensorChain.applyWeights
    refine wp_ite (fun _ => wp_writeReceipt_definite hf rfl _ _ hw)
      (fun _ => wp_ite (fun _ => wp_writeReceipt_definite hf rfl _ _ hw) fun _ => ?_)
    rw [wp_bind]
    refine wp_onReturn_of_moves onlyReadsFrame.readinessState fun readiness w₁ h₁ => ?_
    have hw₁ := hw.congr h₁
    cases readiness with
    | error exc => exact wp_writeReceipt_definite hf rfl _ _ hw₁
    | ok state => exact wp_publishReady_outcome hf state hw₁

end

end Dolores
