import Dolores.Validator.Durable
import Dolores.Validator.Commit

/-!
# After a failure before the signing seam

The receipt that `apply_weights` leaves is what the next tick reads, so the exact condition for a
definite outcome (`PreSeamAnswers`) decides two things together.

* `Submits`                  the state in which a tick calls `apply_weights`;
* `NextTickAdvances`         the process starts again, and its first tick gets a later epoch;
* `nextTick_of_definite`     it does so from a definite receipt;
* `definiteBeforeSeam_iff`   a run that does not invoke `set_weights` has a definite outcome, from
                             which the next tick advances, exactly when the reads answer.
-/

namespace Dolores
open Crash Except

/-- the first tick of a process -/
def nextTick (env : Env) : M Int := do
  let id ← newTick
  ValidatorTick.enter env id

/-- the epoch is active and waits for its weights; nothing has been attempted or completed -/
structure Submits (env : Env) (epochId : Int) (w : World) : Prop where
  state : ∃ state, stateOf env (w.files .state) = .ok state ∧
    state.activeEpochId = some epochId ∧ state.phase = some .weightsSubmitting
  attempt : w.files (.epoch epochId .chainAttempt) = none
  completion : w.files (.epoch epochId .completion) = none

def NextTickAdvances (env : Env) (epochId : Int) (w : World) : Prop :=
  ∃ next w', nextTick env w.restart = (.ok next, w') ∧ epochId < next

/-- the canonical receipt of the epoch says that nothing was submitted -/
def DefiniteReceipt (epochId : Int) (w : World) : Prop :=
  ∃ mode record, ChainMode.definite mode = true ∧
    w.files (.epoch epochId .chainReceipt) = some (.doc (.obj record)) ∧
    Obj.get record "epoch_id" = .int epochId ∧ Obj.get record "mode" = .str mode.text

theorem DefiniteResult.receipt {epochId : Int} {r : ChainWeightResult} {w : World}
    (h : DefiniteResult epochId r w) : DefiniteReceipt epochId w := by
  obtain ⟨hmode, _, record, _, hfile, hepoch, hrecorded, _⟩ := h
  exact ⟨r.mode, record, hmode, hfile, hepoch, hrecorded⟩

/-! ## the next tick -/

section
variable {env : Env} {epochId : Int} {w : World}

theorem checkAttempt_of_none {files : Files} (h : files (.epoch epochId .chainAttempt) = none) :
    checkAttempt env files epochId = .ok () := by
  unfold checkAttempt
  dsimp only
  rw [h]

theorem ChainMode.inNames_definite {mode : ChainMode} (h : mode.definite = true) :
    (Json.str mode.text).inNames ["dry_run", "skipped", "error"] = .ok true := by
  cases mode with
  | dryRun => rfl
  | skipped => rfl
  | error => rfl
  | fallback => exact nomatch h
  | submitted => exact nomatch h
  | other => exact nomatch h

theorem Submits.frame {w' : World} (h : Submits env epochId w) (hframe : ReceiptFrame epochId w w') :
    Submits env epochId w' where
  state := by
    rw [hframe .state (by simp)]
    exact h.state
  attempt := (hframe _ (by simp)).trans h.attempt
  completion := (hframe _ (by simp)).trans h.completion

variable (hf : env.NoFaults)
include hf

/-- the epoch is given up, and stays below the next one -/
theorem wp_beginSubmitting_of_definite {state : ValidatorRuntimeState} (hstate : state.Valid)
    (hw : Submits env epochId w) (hreceipt : DefiniteReceipt epochId w) :
    wp (beginSubmitting env state epochId) (Post.returns fun failed _ => failed.Valid ∧
      failed.phase = none ∧ failed.nextEpochId = state.nextEpochId) w := by
  obtain ⟨mode, record, hmode, hfile, hepoch, hrecorded⟩ := hreceipt
  have hload : loadStateObject env w.files (.epoch epochId .chainReceipt) "chain receipt" =
      .ok record := by
    unfold loadStateObject
    rw [hfile]
    rfl
  unfold beginSubmitting
  rw [wp_bind, wp_raiseIfAmbiguousAttempt, checkAttempt_of_none hw.attempt]
  refine ⟨fun _ _ => ?_, fun _ he => nomatch he⟩
  dsimp only
  rw [wp_bind, wp_isFile, hw.completion]
  dsimp only
  rw [if_neg (by decide), wp_bind, wp_isFile, hfile]
  dsimp only
  rw [if_neg (by simp), wp_bind, wp_get]
  dsimp only
  rw [wp_bind, hload, wp_ofExcept_ok]
  dsimp only
  rw [hepoch, Json.eqInt_int, if_neg (by decide), wp_bind, hrecorded,
    ChainMode.inNames_definite hmode, wp_ofExcept_ok]
  dsimp only
  rw [if_neg (by decide), wp_bind, wp_now]
  dsimp only
  rw [wp_bind]
  exact wp_writeState_of_noFaults hf (failedState_valid hstate _ _)
    ⟨failedState_valid hstate _ _, rfl, rfl⟩

/-- with no epoch active, the next one is allocated -/
theorem wp_beginIdle_of_inactive {state : ValidatorRuntimeState} (hstate : state.Valid)
    (hphase : state.phase = none) :
    wp (beginIdle env state) (Post.returns fun r _ => r.2 = state.nextEpochId) w := by
  have hidle : beginIdle env state = (do
      let updatedAt ← now env
      writeState env (allocatedState state updatedAt)
      pure (allocatedState state updatedAt, state.nextEpochId)) := by
    unfold beginIdle
    rw [hphase]
    rfl
  rw [hidle, wp_bind, wp_now]
  dsimp only
  rw [wp_bind]
  exact wp_writeState_of_noFaults hf (allocatedState_valid hstate _) rfl

theorem wp_beginLocked_of_definite (hw : Submits env epochId w)
    (hreceipt : DefiniteReceipt epochId w) :
    wp (beginLocked env) (Post.returns fun r _ => epochId < r.2) w := by
  obtain ⟨state, hstate, hactive, hphase⟩ := hw.state
  have hvalid := stateOf_valid hstate
  have hbelow : epochId < state.nextEpochId := (hvalid.active epochId hactive).2.1
  unfold beginLocked
  rw [wp_bind, wp_readState, hstate]
  refine ⟨fun state' he => ?_, fun _ he => nomatch he⟩
  obtain rfl := Except.ok.inj he
  dsimp only
  rw [hphase, hactive]
  dsimp only
  rw [wp_bind]
  refine wp_mono (wp_beginSubmitting_of_definite hf hvalid hw hreceipt) ?_ (fun _ _ => id)
    (fun _ => id)
  intro failed w₁ hfailed
  obtain ⟨hvalid₁, hnone, hnext⟩ := hfailed
  refine wp_mono (wp_beginIdle_of_inactive hf hvalid₁ hnone) ?_ (fun _ _ => id) (fun _ => id)
  intro r w₂ hr
  show epochId < r.2
  rw [hr, hnext]
  exact hbelow

/-- **The next tick advances from a definite receipt.** -/
theorem nextTick_of_definite (hw : Submits env epochId w) (hreceipt : DefiniteReceipt epochId w) :
    NextTickAdvances env epochId w := by
  unfold NextTickAdvances
  rw [← wp_returns_iff]
  unfold nextTick newTick ValidatorTick.enter
  rw [wp_bind, wp_bind, wp_get]
  dsimp only
  rw [wp_bind, wp_modify]
  dsimp only
  rw [wp_pure]
  dsimp only
  generalize hw₁ : ({ w.restart with nextTick := w.restart.nextTick + 1 } : World) = w₁
  have hfiles : w₁.files = w.files := by rw [← hw₁]; rfl
  have howner : w₁.lockOwner = none := by rw [← hw₁]; rfl
  unfold acquireLock
  rw [wp_bind, wp_bind, wp_get]
  dsimp only
  rw [howner, if_neg (by simp), if_neg (by simp), wp_bind, wp_effectful_of_noFaults hf]
  dsimp only
  rw [wp_modify]
  dsimp only
  rw [wp_handle, wp_bind]
  generalize hw₂ : ({ id w₁.tickClock with lockOwner := some _ } : World) = w₂
  have hfiles₂ : w₂.files = w.files := by
    rw [← hw₂, ← hfiles]
    rfl
  have hsubmits : Submits env epochId w₂ := by
    refine ⟨?_, ?_, ?_⟩
    · rw [hfiles₂]
      exact hw.state
    · rw [hfiles₂]
      exact hw.attempt
    · rw [hfiles₂]
      exact hw.completion
  have hdefinite : DefiniteReceipt epochId w₂ := by
    unfold DefiniteReceipt
    rw [hfiles₂]
    exact hreceipt
  exact wp_mono (wp_beginLocked_of_definite hf hsubmits hdefinite) (fun _ _ h => h)
    (fun _ _ h => h.elim) (fun _ h => h)

end

/-! ## the condition -/

/-- every run of `apply_weights` that does not invoke `set_weights` returns a definite result that
its receipt records; and where the tick waits for it, the next tick advances -/
def DefiniteBeforeSeam (env : Env) (substrate : Substrate) (A : FloatOps) (chain : SubtensorChain)
    (s : ReceiptSubject) (fallbackReason : String) (w : World) : Prop :=
  ∀ o w', chain.applyWeights env substrate A s fallbackReason w = (o, w') →
    ¬ SeamCrossed s.epochId w w' →
    (∃ r, o = .ok r ∧ DefiniteResult s.epochId r w') ∧
      (Submits env s.epochId w → NextTickAdvances env s.epochId w')

section
variable {env : Env} {substrate : Substrate} {A : FloatOps} {chain : SubtensorChain}

theorem not_seamCrossed_of_onlyReads {epochId : Int} {w w' : World} (h : OnlyReads w w') :
    ¬ SeamCrossed epochId w w' := by
  intro hcrossed
  obtain ⟨es, uids, weights, versionKey, htrace, hmem⟩ := hcrossed
  have hempty : es = [] := by
    rw [h.trace] at htrace
    exact List.self_eq_append_right.mp htrace
  rw [hempty] at hmem
  exact List.not_mem_nil hmem

/-- **Before the seam every outcome is definite**, unless a uid or the payload cannot be read: on
every chain, the outcome of a run that does not invoke `set_weights` is definite and lets the next
tick advance exactly when the reads after the readiness checks answer. -/
theorem definiteBeforeSeam_iff (hf : env.NoFaults) (hc : substrate.Catchable) (s : ReceiptSubject)
    (fallbackReason : String) (w : World) :
    DefiniteBeforeSeam env substrate A chain s fallbackReason w ↔
      PreSeamAnswers substrate chain A s fallbackReason w := by
  have hpost := @wp_applyWeights _ _ A chain hf hc s fallbackReason w
  constructor
  · intro hdefinite
    cases hrun : chain.applyWeights env substrate A s fallbackReason w with
    | mk o w' =>
      have hholds := wp_of_run hpost hrun
      cases o with
      | ok r => exact hholds.1
      | killed => exact hholds.1
      | raise e =>
        rcases hholds with ⟨hanswers, _⟩ | ⟨_, hreads⟩
        · exact hanswers
        · obtain ⟨⟨r, hr, _⟩, _⟩ :=
            hdefinite _ w' hrun (not_seamCrossed_of_onlyReads hreads)
          exact nomatch hr
  · intro hanswers o w' hrun hcrossed
    have hholds := wp_of_run hpost hrun
    cases o with
    | ok r =>
      obtain ⟨_, hseam | ⟨hresult, hframe⟩⟩ := hholds
      · exact (hcrossed hseam).elim
      · exact ⟨⟨r, rfl, hresult⟩, fun hw =>
          nextTick_of_definite hf (hw.frame hframe) hresult.receipt⟩
    | killed => exact (hcrossed hholds.2).elim
    | raise e =>
      rcases hholds with ⟨_, hseam⟩ | ⟨hnot, _⟩
      · exact (hcrossed hseam).elim
      · exact (hnot hanswers).elim

end

section

/-- the uid of a miner cannot be read -/
def unreadableUid : Substrate :=
  { readySubstrate with
    hotkeyUid := fun _ hotkey =>
      if hotkey = "v" then .ok (some 0) else .error (.runtimeError "rpc lost") }

def dryRunChain : SubtensorChain := { liveChain with publish := .dryRun }

theorem unreadableUid_catchable : unreadableUid.Catchable where
  connect _ := OnlyRaises.ok _
  block _ := OnlyRaises.ok _
  subnetExists _ := OnlyRaises.ok _
  validatorHotkey _ := OnlyRaises.ok _
  hotkeyUid _ hotkey := by
    intro e he
    by_cases hv : hotkey = "v"
    · exact nomatch (if_pos hv).symm.trans he
    · rw [← Except.error.inj ((if_neg hv).symm.trans he)]
      rfl
  validatorPermit _ _ := OnlyRaises.ok _
  weightsRateLimit _ := OnlyRaises.ok _
  blocksSinceLastUpdate _ _ := OnlyRaises.ok _
  commitRevealEnabled _ := OnlyRaises.ok _

theorem readySubstrate_catchable : readySubstrate.Catchable where
  connect _ := OnlyRaises.ok _
  block _ := OnlyRaises.ok _
  subnetExists _ := OnlyRaises.ok _
  validatorHotkey _ := OnlyRaises.ok _
  hotkeyUid _ _ := OnlyRaises.ok _
  validatorPermit _ _ := OnlyRaises.ok _
  weightsRateLimit _ := OnlyRaises.ok _
  blocksSinceLastUpdate _ _ := OnlyRaises.ok _
  commitRevealEnabled _ := OnlyRaises.ok _

/-- epoch 1 waits for its weights -/
def waitingWorld : World where
  files := fun
    | .state => some (.doc (.obj (sampleState .weightsSubmitting none).toDict))
    | _ => none

def waitingSubject : ReceiptSubject := { liveSubject with epochId := 1 }

theorem definiteBeforeSeam_sample :
    Submits Env.plain 1 waitingWorld ∧
      DefiniteBeforeSeam Env.plain readySubstrate exactOps dryRunChain waitingSubject ""
        waitingWorld := by
  refine ⟨⟨⟨sampleState .weightsSubmitting none, rfl, rfl, rfl⟩, rfl, rfl⟩, ?_⟩
  refine (definiteBeforeSeam_iff (fun _ => rfl) readySubstrate_catchable waitingSubject ""
    waitingWorld).mpr (.inr (.inr (.inr ⟨?_, .inr (.inr ⟨_, rfl⟩)⟩)))
  exact ⟨⟨_, rfl⟩, ⟨_, rfl⟩, trivial⟩

def raised {α : Type} : Outcome Exn α → Bool
  | .raise _ => true
  | _ => false

/-- a dry run of a ready chain that loses its connection while the uids are mapped -/
theorem lost_uid_is_not_definite :
    ¬ ∀ (env : Env) (substrate : Substrate) (A : FloatOps) (chain : SubtensorChain)
        (s : ReceiptSubject) (fallbackReason : String) (w : World), env.NoFaults →
      substrate.Catchable → DefiniteBeforeSeam env substrate A chain s fallbackReason w := by
  intro h
  have hraised : raised (dryRunChain.applyWeights Env.plain unreadableUid exactOps waitingSubject ""
      waitingWorld).1 = true := by decide +kernel
  have htrace : (dryRunChain.applyWeights Env.plain unreadableUid exactOps waitingSubject ""
      waitingWorld).2.trace.isEmpty = true := by decide +kernel
  cases hrun : dryRunChain.applyWeights Env.plain unreadableUid exactOps waitingSubject ""
      waitingWorld with
  | mk o w' =>
    rw [hrun] at hraised htrace
    have hcrossed : ¬ SeamCrossed waitingSubject.epochId waitingWorld w' := by
      intro hcrossed
      obtain ⟨es, uids, weights, versionKey, hes, hmem⟩ := hcrossed
      have hnil : waitingWorld.trace ++ es = [] := hes.symm.trans (List.isEmpty_iff.mp htrace)
      rw [(List.append_eq_nil_iff.mp hnil).2] at hmem
      exact List.not_mem_nil hmem
    obtain ⟨⟨r, hr, _⟩, _⟩ := h Env.plain unreadableUid exactOps dryRunChain waitingSubject ""
      waitingWorld (fun _ => rfl) unreadableUid_catchable o w' hrun hcrossed
    rw [hr] at hraised
    exact Bool.false_ne_true hraised

end

end Dolores
