import Dolores.Validator.State
import Dolores.Epoch.Marker
import Dolores.Chain.Live

/-!
# What a commit has verified

A commit writes the rolling state and `state.json` only after `verifyEpochCompletion` accepted the
marker of its epoch and the attempt of the epoch, if there is one, is completed.

* `CompletedTogether`       what the files of a committed epoch say together;
* `completedTogether_of_verified`   the checks of the marker and of the attempt amount to it;
* `wp_commitLocked`         the commit, with or without a failing write;
* `commit_sound`            the commit through either of its two operations.
-/

set_option linter.unusedSectionVars false

namespace Dolores
open Crash Except

/-! ## what the checks have read -/

/-- the file holds this object -/
def Holds (env : Env) (files : Files) (path : Path) (record : Obj) : Prop :=
  (files path).map (Content.decoded env) = some (.value (.obj record))

/-- the marker records the digest of the file, under its canonical path -/
def RecordsDigest (env : Env) (files : Files) (epochId : Int) (artifacts : Obj)
    (p : String × EpochFile) : Prop :=
  ∃ content entry, files (.epoch epochId p.2) = some content ∧ artifacts.get p.1 = .obj entry ∧
    Obj.get entry "path" = .str (Path.epoch epochId p.2).relative ∧
    Obj.get entry "sha256" = .str (env.sha256 content).text

/-- the marker names the epoch, the mode and the reason, and the digests of all required files -/
def MarkerNames (env : Env) (files : Files) (epochId : Int) (mode reason : String) : Prop :=
  ∃ marker artifacts, Holds env files (.epoch epochId .completion) marker ∧
    (marker.get "epoch_id").eqInt epochId = true ∧ marker.get "mode" = .str mode ∧
    marker.get "reason" = .str reason ∧ marker.get "artifacts" = .obj artifacts ∧
    ∀ p ∈ canonicalArtifacts, p.1 ∈ requiredArtifacts mode →
      RecordsDigest env files epochId artifacts p

/-- the weights artifact carries the epoch, the mode and the reason; no reason reads as `""` -/
def WeightsAgree (env : Env) (files : Files) (epochId : Int) (mode reason : String) : Prop :=
  ∃ weights result, Holds env files (.epoch epochId .weights) weights ∧
    (weights.get "epoch_id").eqInt epochId = true ∧ weights.get "weight_result" = .obj result ∧
    Obj.get result "mode" = .str mode ∧ orJson (Obj.get result "reason") (.str "") = .str reason

def ReceiptAgrees (env : Env) (files : Files) (epochId : Int) (mode reason : String) : Prop :=
  ∃ receipt, Holds env files (.epoch epochId .chainReceipt) receipt ∧
    (receipt.get "epoch_id").eqInt epochId = true ∧ receipt.get "mode" = .str mode ∧
    receipt.get "reason" = .str reason

def AttemptAgrees (env : Env) (files : Files) (epochId : Int) : Prop :=
  ∃ attempt, Holds env files (.epoch epochId .chainAttempt) attempt ∧
    (attempt.get "epoch_id").eqInt epochId = true ∧ attempt.get "mode" = .str "live_attempt" ∧
    attempt.get "status" = .str "completed"

/-- the files of the epoch were produced together, with this outcome and this miner state -/
structure CompletedTogether (env : Env) (files : Files) (epochId : Int) (mode reason : String)
    (minerState : Obj) : Prop where
  recoverable : mode ∈ recoverableChainModes
  marker : MarkerNames env files epochId mode reason
  forbidden : ∀ p ∈ canonicalArtifacts, p.1 ∉ requiredArtifacts mode →
    files (.epoch epochId p.2) = none
  snapshot : Holds env files (.epoch epochId .minerState) minerState
  numeric : minerState.values.all Json.isNumber = true
  weights : WeightsAgree env files epochId mode reason
  panel : ∃ panel, Holds env files (.epoch epochId .panelSidecar) panel ∧
    (panel.get "epoch_id").eqInt epochId = true
  receipt : mode ≠ "fallback" → ReceiptAgrees env files epochId mode reason
  attempt : files (.epoch epochId .chainAttempt) ≠ none → AttemptAgrees env files epochId

section
variable {env : Env} {files : Files} {epochId : Int}

theorem Json.inNames_true {j : Json} {names : List String} (h : j.inNames names = .ok true) :
    ∃ s ∈ names, j = .str s := by
  unfold Json.inNames at h
  by_cases hj : j.hashable = true
  · rw [if_pos hj] at h
    obtain ⟨s, hs, heq⟩ := List.any_eq_true.mp (Except.ok.inj h)
    exact ⟨s, hs, Json.eqStr_iff.mp heq⟩
  · rw [if_neg hj] at h
    exact nomatch h

theorem holds_of_loadJsonObject {path : Path} {label : String} {record : Obj}
    (h : loadJsonObject env files path label = .ok record) : Holds env files path record := by
  unfold loadJsonObject at h
  unfold Holds
  split at h
  · next payload heq =>
    rw [← Except.ok.inj h]
    exact heq
  · exact nomatch h
  · exact nomatch h

theorem holds_of_loadStateObject {path : Path} {label : String} {record : Obj}
    (h : loadStateObject env files path label = .ok record) : Holds env files path record := by
  unfold loadStateObject at h
  unfold Holds
  split at h
  · next payload heq =>
    rw [← Except.ok.inj h]
    exact heq
  · exact nomatch h
  · exact nomatch h

theorem marker_of_verified {v : VerifiedCompletion}
    (h : verifyEpochCompletion env files epochId = .ok v) :
    (files (.epoch epochId .completion)).isSome = true := by
  unfold verifyEpochCompletion at h
  obtain ⟨marker, hload, _⟩ := bind_ok h
  have hholds := holds_of_loadJsonObject hload
  unfold Holds at hholds
  cases hfile : files (.epoch epochId .completion) with
  | none =>
    rw [hfile] at hholds
    exact nomatch hholds
  | some content => rfl

/-! ## the checks of the marker -/

theorem verifyArtifact_required {mode : String} {artifacts : Obj} {p : String × EpochFile}
    (hp : p.1 ∈ requiredArtifacts mode)
    (h : verifyArtifact env files epochId mode artifacts p = .ok ()) :
    RecordsDigest env files epochId artifacts p := by
  unfold verifyArtifact at h
  dsimp only at h
  rw [if_neg (not_not_intro hp)] at h
  cases hentry : Obj.get artifacts p.1 with
  | obj entry =>
    rw [hentry] at h
    dsimp only at h
    by_cases hpath : (Obj.get entry "path").eqStr (Path.epoch epochId p.2).relative = false
    · rw [if_pos hpath] at h
      exact nomatch h
    rw [if_neg hpath] at h
    cases hdigest : Obj.get entry "sha256" with
    | str digest =>
      rw [hdigest] at h
      dsimp only at h
      by_cases hlength : digest.length ≠ 64
      · rw [if_pos hlength] at h
        exact nomatch h
      rw [if_neg hlength] at h
      cases hfile : files (.epoch epochId p.2) with
      | none =>
        rw [hfile] at h
        exact nomatch h
      | some content =>
        rw [hfile] at h
        dsimp only at h
        by_cases hsha : (env.sha256 content).text ≠ digest
        · rw [if_pos hsha] at h
          exact nomatch h
        · exact ⟨content, entry, hfile, hentry,
            Json.eqStr_iff.mp (Bool.eq_true_of_not_eq_false hpath),
            by rw [hdigest, not_not.mp hsha]⟩
    | null => rw [hdigest] at h; exact nomatch h
    | bool => rw [hdigest] at h; exact nomatch h
    | int => rw [hdigest] at h; exact nomatch h
    | float => rw [hdigest] at h; exact nomatch h
    | arr => rw [hdigest] at h; exact nomatch h
    | obj => rw [hdigest] at h; exact nomatch h
  | null => rw [hentry] at h; exact nomatch h
  | bool => rw [hentry] at h; exact nomatch h
  | int => rw [hentry] at h; exact nomatch h
  | float => rw [hentry] at h; exact nomatch h
  | arr => rw [hentry] at h; exact nomatch h
  | str => rw [hentry] at h; exact nomatch h

theorem verifyArtifact_forbidden {mode : String} {artifacts : Obj} {p : String × EpochFile}
    (hp : p.1 ∉ requiredArtifacts mode)
    (h : verifyArtifact env files epochId mode artifacts p = .ok ()) :
    files (.epoch epochId p.2) = none := by
  unfold verifyArtifact at h
  dsimp only at h
  rw [if_pos hp] at h
  split at h
  · next hfile => exact hfile
  · exact nomatch h
  · exact nomatch h

theorem verifyMarkerHeader_ok {marker artifacts : Obj} {mode reason : String}
    (h : verifyMarkerHeader env epochId marker = .ok (mode, reason, artifacts)) :
    (marker.get "epoch_id").eqInt epochId = true ∧ mode ∈ recoverableChainModes ∧
      marker.get "mode" = .str mode ∧ marker.get "reason" = .str reason ∧
      marker.get "artifacts" = .obj artifacts := by
  unfold verifyMarkerHeader at h
  split at h
  · exact nomatch h
  split at h
  · exact nomatch h
  next hid =>
  obtain ⟨recoverable, hnames, h⟩ := bind_ok h
  split at h
  · next mode' reason' hmode hreason =>
    split at h
    · next artifacts' hartifacts =>
      obtain ⟨rfl, hrest⟩ := Prod.mk.inj (Except.ok.inj h)
      obtain ⟨rfl, rfl⟩ := Prod.mk.inj hrest
      obtain ⟨s, hs, heq⟩ := Json.inNames_true hnames
      rw [hmode] at heq
      rw [← Json.str.inj heq] at hs
      exact ⟨Bool.eq_true_of_not_eq_false hid, hs, hmode, hreason, hartifacts⟩
    · exact nomatch h
  · exact nomatch h

theorem verifyWeights_ok {mode reason : String} {weights : Obj}
    (h : verifyWeights epochId mode reason weights = .ok ()) :
    (weights.get "epoch_id").eqInt epochId = true ∧ ∃ result, weights.get "weight_result" =
      .obj result ∧ Obj.get result "mode" = .str mode ∧
      orJson (Obj.get result "reason") (.str "") = .str reason := by
  unfold verifyWeights at h
  split at h
  · next result hid hresult =>
    split at h
    · exact nomatch h
    · next hagree =>
      rw [not_or] at hagree
      exact ⟨hid, result, hresult,
        Json.eqStr_iff.mp (Bool.eq_true_of_not_eq_false hagree.1),
        Json.eqStr_iff.mp (Bool.eq_true_of_not_eq_false hagree.2)⟩
  · exact nomatch h

theorem verifyReceipt_ok {mode reason : String} {receipt : Obj}
    (h : verifyReceipt epochId mode reason receipt = .ok ()) :
    (receipt.get "epoch_id").eqInt epochId = true ∧ receipt.get "mode" = .str mode ∧
      receipt.get "reason" = .str reason := by
  unfold verifyReceipt at h
  split at h
  · exact nomatch h
  next hid =>
  split at h
  · exact nomatch h
  next hagree =>
  rw [not_or] at hagree
  exact ⟨Bool.eq_true_of_not_eq_false hid,
    Json.eqStr_iff.mp (Bool.eq_true_of_not_eq_false hagree.1),
    Json.eqStr_iff.mp (Bool.eq_true_of_not_eq_false hagree.2)⟩

/-- an attempt that does not stop the commit is completed -/
theorem attemptAgrees_of_checkAttempt (h : checkAttempt env files epochId = .ok ())
    (hfile : files (.epoch epochId .chainAttempt) ≠ none) : AttemptAgrees env files epochId := by
  obtain ⟨content, hcontent⟩ := Option.ne_none_iff_exists'.mp hfile
  unfold checkAttempt at h
  dsimp only at h
  rw [hcontent] at h
  dsimp only at h
  obtain ⟨attempt, hload, h⟩ := bind_ok h
  split at h
  · exact nomatch h
  next hheader =>
  obtain ⟨known, _, h⟩ := bind_ok h
  split at h
  · exact nomatch h
  split at h
  · exact nomatch h
  next hstatus =>
  rw [not_or] at hheader
  exact ⟨attempt, holds_of_loadStateObject hload,
    Bool.eq_true_of_not_eq_false hheader.1,
    Json.eqStr_iff.mp (Bool.eq_true_of_not_eq_false hheader.2),
    Json.eqStr_iff.mp (Bool.eq_true_of_not_eq_false hstatus)⟩

/-- **The checks of the marker and of the attempt**, taken together. -/
theorem completedTogether_of_verified {v : VerifiedCompletion}
    (h : verifyEpochCompletion env files epochId = .ok v)
    (hattempt : checkAttempt env files epochId = .ok ()) :
    CompletedTogether env files epochId v.mode v.reason v.minerState := by
  unfold verifyEpochCompletion at h
  obtain ⟨marker, hmarker, h⟩ := bind_ok h
  obtain ⟨⟨mode, reason, artifacts⟩, hheader, h⟩ := bind_ok h
  dsimp only at h
  obtain ⟨_, hartifacts, h⟩ := bind_ok h
  obtain ⟨minerState, hminerState, h⟩ := bind_ok h
  split at h
  · exact nomatch h
  next hnumeric =>
  obtain ⟨weights, hweights, h⟩ := bind_ok h
  obtain ⟨_, hweightsOk, h⟩ := bind_ok h
  obtain ⟨panel, hpanel, h⟩ := bind_ok h
  split at h
  · exact nomatch h
  next hpanelId =>
  obtain ⟨details, hreceipt, h⟩ := bind_ok h
  obtain ⟨_, _, h⟩ := bind_ok h
  obtain ⟨hid, hrecoverable, hmode, hreason, hentries⟩ := verifyMarkerHeader_ok hheader
  obtain ⟨hweightsId, result, hresult, hresultMode, hresultReason⟩ := verifyWeights_ok hweightsOk
  have hall := of_forM_ok hartifacts
  rw [← Except.ok.inj h]
  exact {
    recoverable := hrecoverable
    marker := ⟨marker, artifacts, holds_of_loadJsonObject hmarker, hid, hmode, hreason, hentries,
      fun p hp hrequired => verifyArtifact_required hrequired (hall p hp)⟩
    forbidden := fun p hp hrequired => verifyArtifact_forbidden hrequired (hall p hp)
    snapshot := holds_of_loadJsonObject hminerState
    numeric := Bool.eq_true_of_not_eq_false hnumeric
    weights := ⟨weights, result, holds_of_loadJsonObject hweights, hweightsId, hresult, hresultMode,
      hresultReason⟩
    panel := ⟨panel, holds_of_loadJsonObject hpanel, Bool.eq_true_of_not_eq_false hpanelId⟩
    receipt := by
      intro hfallback
      rw [if_neg hfallback] at hreceipt
      obtain ⟨receipt, hload, hreceipt⟩ := bind_ok hreceipt
      obtain ⟨_, hagrees, _⟩ := bind_ok hreceipt
      exact ⟨receipt, holds_of_loadJsonObject hload, verifyReceipt_ok hagrees⟩
    attempt := attemptAgrees_of_checkAttempt hattempt }

/-! ## the effects of a commit -/

theorem checkAttempt_congr {files' : Files}
    (h : files' (.epoch epochId .chainAttempt) = files (.epoch epochId .chainAttempt)) :
    checkAttempt env files' epochId = checkAttempt env files epochId := by
  unfold checkAttempt loadStateObject
  dsimp only
  rw [h]

/-- `files` with the accepted marker's miner state as the rolling one -/
def EmaCommitted (env : Env) (epochId : Int) (files files' : Files) : Prop :=
  ∃ v, verifyEpochCompletion env files epochId = .ok v ∧
    checkAttempt env files epochId = .ok () ∧
    files' = Function.update files .minerState (some (.doc (Json.canon (.obj v.minerState))))

/-- the epoch's files were produced together and the rolling state is theirs -/
def CommitSound (env : Env) (epochId : Int) (files : Files) : Prop :=
  ∃ mode reason minerState, CompletedTogether env files epochId mode reason minerState ∧
    files .minerState = some (.doc (Json.canon (.obj minerState)))

theorem EmaCommitted.sound {files₁ files' : Files} (h : EmaCommitted env epochId files files₁)
    (hstate : ∀ p, p ≠ .state → files' p = files₁ p) : CommitSound env epochId files' := by
  obtain ⟨v, hv, hattempt, rfl⟩ := h
  have hepoch : ∀ file, files' (.epoch epochId file) = files (.epoch epochId file) := by
    intro file
    rw [hstate _ (by simp), Function.update_of_ne (by simp)]
  refine ⟨v.mode, v.reason, v.minerState, completedTogether_of_verified ?_ ?_, ?_⟩
  · rw [verifyEpochCompletion_congr hepoch, hv]
  · rw [checkAttempt_congr (hepoch _), hattempt]
  · rw [hstate _ (by simp), Function.update_self]

theorem onlyReads_acquireLock (o : Owner) : Moves OnlyReads (acquireLock env o) := by
  refine Moves.bind Moves.get fun w => Moves.ite (Moves.raise _) (Moves.ite (Moves.raise _) ?_)
  exact Moves.bind (onlyReadsFrame.effectful (fun _ => ⟨rfl, rfl⟩) fun _ => ⟨rfl, rfl⟩) fun _ =>
    Moves.modify fun _ => ⟨rfl, rfl⟩

theorem onlyReads_releaseLock (o : Owner) : Moves OnlyReads (releaseLock o) := by
  refine Moves.modify fun w => ?_
  split
  · exact ⟨rfl, rfl⟩
  · exact ⟨rfl, rfl⟩

variable (hf : env.WritesAtomically)
include hf

theorem wp_writeState (state : ValidatorRuntimeState) (w : World) :
    wp (writeState env state)
      ⟨fun _ w' => w'.files =
          Function.update w.files .state (some (.doc (Json.canon (.obj state.toDict)))),
        fun _ w' => w'.files = w.files, fun _ => True⟩ w := by
  unfold writeState
  rw [wp_bind, wp_ofExcept]
  refine ⟨fun _ _ => ?_, fun _ _ => rfl⟩
  exact wp_atomicWriteJson_atomic hf rfl (fun _ => rfl) trivial trivial

theorem wp_commitFromCompletion (state : ValidatorRuntimeState) (epochId : Int) (w : World) :
    wp (commitFromCompletion env state epochId)
      ⟨fun st w' => EmaCommitted env epochId w.files w'.files ∧
          st.activeEpochId = state.activeEpochId,
        fun _ w' => w'.files = w.files, fun _ => True⟩ w := by
  unfold commitFromCompletion
  rw [wp_bind, wp_raiseIfAmbiguousAttempt]
  refine ⟨fun _ hattempt => ?_, fun _ _ => rfl⟩
  dsimp only
  rw [wp_bind, wp_isFile]
  dsimp only
  refine wp_ite (fun _ => rfl) (fun _ => ?_)
  rw [wp_bind, wp_get]
  dsimp only
  rw [wp_bind, wp_ofExcept]
  refine ⟨fun completed hverified => ?_, fun _ _ => rfl⟩
  have hv : verifyEpochCompletion env w.files epochId = .ok completed := by
    unfold verifiedCompletion at hverified
    split at hverified
    · exact nomatch hverified
    · exact hverified
  dsimp only
  rw [wp_bind, wp_logEvent]
  dsimp only
  rw [wp_bind]
  exact wp_atomicWriteJson_atomic hf ⟨⟨completed, hv, hattempt, rfl⟩, rfl⟩ (fun _ => rfl) trivial
    trivial

/-- the commit and the write of the committed state -/
theorem wp_commitLocked (state : ValidatorRuntimeState) (epochId : Int) (w : World) :
    wp (do
        let committed ← commitFromCompletion env state epochId
        writeState env committed
        pure committed)
      ⟨fun st w' => CommitSound env epochId w'.files ∧ st.activeEpochId = state.activeEpochId,
        fun _ w' => w'.files = w.files ∨ EmaCommitted env epochId w.files w'.files,
        fun _ => True⟩ w := by
  rw [wp_bind]
  refine wp_mono (wp_commitFromCompletion hf state epochId w) ?_ (fun _ _ h => .inl h) (fun _ => id)
  intro st w₁ h
  obtain ⟨hema, hactive⟩ := h
  dsimp only
  rw [wp_bind]
  refine wp_mono (wp_writeState hf st w₁) ?_ ?_ (fun _ => id)
  · intro _ w₂ hw₂
    refine ⟨hema.sound fun p hp => ?_, hactive⟩
    rw [hw₂, Function.update_of_ne hp]
  · intro _ w₂ hw₂
    have hfiles : w₂.files = w₁.files := hw₂
    show w₂.files = w.files ∨ EmaCommitted env epochId w.files w₂.files
    rw [hfiles]
    exact .inr hema

end

/-! ## the two operations -/

/-- the operations that commit an epoch -/
inductive CommitCall where
  | recoverReceipt
  | transition (tick : Nat)

namespace CommitCall

def run (env : Env) : CommitCall → M ValidatorRuntimeState
  | .recoverReceipt => Dolores.recoverReceipt env
  | .transition tick => ValidatorTick.transition env tick .committed

/-- the epoch that the call is about -/
def epoch (env : Env) (w : World) : CommitCall → Option Int
  | .recoverReceipt =>
    match stateOf env (w.files .state) with
    | .ok state => state.activeEpochId
    | .error _ => none
  | .transition tick => (w.ticks tick).epochId

end CommitCall

/-- the files of the epoch agree, or the epoch was committed before and nothing has changed -/
def CommitReturns (env : Env) (call : CommitCall) (w w' : World) : Prop :=
  ∃ epochId, call.epoch env w = some epochId ∧ (CommitSound env epochId w'.files ∨
    (∃ tick, call = .transition tick) ∧ w'.files = w.files ∧
      ∃ state, stateOf env (w.files .state) = .ok state ∧ state.activeEpochId = some epochId ∧
        state.phase = some .committed)

/-- `state.json` is unchanged, and so is the rolling state unless the files of the epoch agreed -/
def CommitRaises (env : Env) (call : CommitCall) (w w' : World) : Prop :=
  w'.files .state = w.files .state ∧ (w'.files .minerState = w.files .minerState ∨
    ∃ epochId mode reason minerState, call.epoch env w = some epochId ∧
      CompletedTogether env w.files epochId mode reason minerState ∧
      w'.files .minerState = some (.doc (Json.canon (.obj minerState))))

section
variable {env : Env} {call : CommitCall} {w : World} {epochId : Int}

theorem CommitRaises.refl {w' : World} (h : w'.files = w.files) : CommitRaises env call w w' := by
  unfold CommitRaises
  rw [h]
  exact ⟨rfl, .inl rfl⟩

theorem CommitRaises.of_ema {w' : World} (hepoch : call.epoch env w = some epochId)
    (h : EmaCommitted env epochId w.files w'.files) : CommitRaises env call w w' := by
  obtain ⟨v, hv, hattempt, hfiles⟩ := h
  refine ⟨?_, .inr ⟨epochId, v.mode, v.reason, v.minerState, hepoch,
    completedTogether_of_verified hv hattempt, ?_⟩⟩
  · rw [hfiles, Function.update_of_ne (by simp)]
  · rw [hfiles, Function.update_self]

/-- the outcome of a call, in a form that a later release of the lock does not change -/
def CommitCall.post (env : Env) (call : CommitCall) (w : World) :
    Post World Exn ValidatorRuntimeState :=
  ⟨fun st w' => st.activeEpochId = call.epoch env w ∧ CommitReturns env call w w',
    fun _ w' => CommitRaises env call w w', fun _ => True⟩

/-- only the files and the epoch of the call matter before it -/
theorem CommitCall.post_congr {w₁ : World} (hfiles : w₁.files = w.files)
    (hepoch : call.epoch env w₁ = call.epoch env w) : call.post env w₁ = call.post env w := by
  unfold CommitCall.post CommitReturns CommitRaises
  rw [hfiles, hepoch]

theorem CommitReturns.congr {w' w'' : World} (h : w''.files = w'.files)
    (hr : CommitReturns env call w w') : CommitReturns env call w w'' := by
  unfold CommitReturns at hr ⊢
  rw [h]
  exact hr

theorem CommitRaises.congr {w' w'' : World} (h : w''.files = w'.files)
    (hr : CommitRaises env call w w') : CommitRaises env call w w'' := by
  unfold CommitRaises at hr ⊢
  rw [h]
  exact hr

variable (hf : env.WritesAtomically)
include hf

/-- the commit of the active epoch of `state.json`, inside a call -/
theorem wp_commitLocked_call {state : ValidatorRuntimeState}
    (hactive : state.activeEpochId = some epochId) (hepoch : call.epoch env w = some epochId) :
    wp (do
        let committed ← commitFromCompletion env state epochId
        writeState env committed
        pure committed) (call.post env w) w := by
  refine wp_mono (wp_commitLocked hf state epochId w) ?_ ?_ (fun _ => id)
  · intro st w' h
    obtain ⟨hsound, hst⟩ := h
    exact ⟨by rw [hst, hactive, hepoch], epochId, hepoch, .inl hsound⟩
  · intro _ w' h
    rcases h with h | h
    · exact CommitRaises.refl h
    · exact CommitRaises.of_ema hepoch h

theorem wp_transitionLocked {tick : Nat} (htick : (w.ticks tick).epochId = some epochId) :
    wp (transitionLocked env epochId .committed) ((CommitCall.transition tick).post env w) w := by
  have hepoch : (CommitCall.transition tick).epoch env w = some epochId := htick
  have hrefl : CommitRaises env (.transition tick) w w := CommitRaises.refl rfl
  unfold transitionLocked
  rw [wp_bind, wp_readState]
  refine ⟨fun state hstate => ?_, fun _ _ => hrefl⟩
  dsimp only
  refine wp_ite (fun _ => hrefl) (fun hactive => ?_)
  have hactive' : state.activeEpochId = some epochId := not_not.mp hactive
  cases hphase : state.phase with
  | none => exact hrefl
  | some current =>
    dsimp only
    refine wp_ite (fun hsame => ?_) (fun _ => wp_ite (fun _ => hrefl) fun _ => ?_)
    · -- nothing is done for a state that is committed already
      exact ⟨by rw [hactive', hepoch], epochId, hepoch, .inr ⟨⟨tick, rfl⟩, rfl, state, hstate,
        hactive', by rw [hphase, hsame]⟩⟩
    · rw [if_pos rfl]
      exact wp_commitLocked_call hf hactive' hepoch

theorem wp_recoverLocked : wp (recoverLocked env) (CommitCall.recoverReceipt.post env w) w := by
  have hrefl : CommitRaises env .recoverReceipt w w := CommitRaises.refl rfl
  unfold recoverLocked
  rw [wp_bind, wp_readState]
  refine ⟨fun state hstate => ?_, fun _ _ => hrefl⟩
  dsimp only
  split
  · next epochId hphase hactive =>
    have hepoch : CommitCall.recoverReceipt.epoch env w = some epochId := by
      unfold CommitCall.epoch
      rw [hstate]
      exact hactive
    rw [wp_bind, wp_raiseIfAmbiguousAttempt]
    refine ⟨fun _ _ => ?_, fun _ _ => hrefl⟩
    dsimp only
    rw [wp_bind, wp_isFile]
    dsimp only
    refine wp_ite (fun _ => ?_) (fun _ => ?_)
    · rw [wp_bind, wp_isFile]
      exact hrefl
    · exact wp_commitLocked_call hf hactive hepoch
  · exact hrefl

/-- **Commit soundness and error atomicity.** Whatever the files hold: a commit that succeeds leaves
an epoch whose files were produced together and its miner state as the rolling one, unless the
transition finds the epoch committed already; one that raises leaves `state.json` as it was, and the
rolling state too unless the files agreed. -/
theorem commit_sound (call : CommitCall) (w : World) : wp (call.run env) (call.post env w) w := by
  cases call with
  | recoverReceipt =>
    show wp (recoverReceipt env) _ w
    unfold recoverReceipt
    rw [wp_bind]
    refine wp_mono (onlyReads_acquireLock .recovery w) (fun _ w₁ h₁ => ?_)
      (fun _ w₁ h₁ => CommitRaises.refl h₁.files) (fun _ _ => trivial)
    have hepoch : CommitCall.recoverReceipt.epoch env w₁ =
        CommitCall.recoverReceipt.epoch env w := by
      unfold CommitCall.epoch
      rw [h₁.files]
    have hlocked := wp_recoverLocked (w := w₁) hf
    rw [CommitCall.post_congr h₁.files hepoch] at hlocked
    show wp (Proc.ensure _ _) _ w₁
    rw [wp_ensure]
    -- the release of the lock leaves the files as they are
    have hrelease : ∀ w₂, wp (releaseLock .recovery) (Post.always (OnlyReads w₂)) w₂ :=
      onlyReads_releaseLock .recovery
    refine wp_mono hlocked (fun st w₂ h₂ => ?_) (fun e w₂ h₂ => ?_) (fun _ _ => trivial)
    · exact ⟨h₂.1, h₂.2.congr (OnlyReads.files (hrelease w₂))⟩
    · exact CommitRaises.congr (OnlyReads.files (hrelease w₂)) h₂
  | transition tick =>
    show wp (ValidatorTick.transition env tick .committed) _ w
    unfold ValidatorTick.transition
    rw [wp_bind]
    exact ValidatorTick.wp_activeEpoch (fun epochId _ hepoch _ => wp_transitionLocked hf hepoch)
      (CommitRaises.refl rfl)

end

section

/-- the state of a validator in epoch 1 -/
def sampleState (phase : ValidatorPhase) (lastCompletedEpoch : Option Int) :
    ValidatorRuntimeState :=
  { activeEpochId := some 1, nextEpochId := 2, phase := some phase, attempt := 1,
    lastCompletedEpoch }

def sampleArtifact : EpochFile → Option Obj
  | .minerState => some [("a", .num 1)]
  | .weights => some [("epoch_id", .int 1),
      ("weight_result", .obj [("mode", .str "fallback"), ("reason", .str "offline")])]
  | .panelSidecar => some [("epoch_id", .int 1)]
  | _ => none

def sampleMarker : Obj :=
  markerRecord 1 { mode := .fallback, reason := some "offline" }
    ([("miner_state", EpochFile.minerState), ("weights", .weights),
      ("panel_sidecar", .panelSidecar)].map fun p =>
        (p.1, .obj (digestRecord Env.plain 1 p.2 (.doc .null))))

/-- epoch 1 has its marker and waits for recovery -/
def recoveringFiles : Files
  | .state => some (.doc (.obj (sampleState .weightsSubmitting none).toDict))
  | .epoch 1 .completion => some (.doc (.obj sampleMarker))
  | .epoch 1 file => (sampleArtifact file).map fun record => .doc (.obj record)
  | _ => none

theorem plain_writesAtomically : Env.plain.WritesAtomically := by
  intro n i h
  exact Fault.noConfusion h

theorem commit_sound_sample :
    (∃ st w', recoverReceipt Env.plain { files := recoveringFiles } = (.ok st, w')) ∧
      wp (recoverReceipt Env.plain) (CommitCall.recoverReceipt.post Env.plain
        { files := recoveringFiles }) { files := recoveringFiles } :=
  ⟨⟨_, _, rfl⟩, commit_sound plain_writesAtomically .recoverReceipt { files := recoveringFiles }⟩

/-- only `state.json` is there, and it says that epoch 1 is committed -/
def committedWorld : World where
  files := fun
    | .state => some (.doc (.obj (sampleState .committed (some 1)).toDict))
    | _ => none
  lockOwner := some (.tick 0)
  ticks _ := { entered := true, epochId := some 1 }

/-- a transition to the phase that the state has already needs no marker -/
theorem repeated_commit_needs_no_marker :
    ¬ ∀ (env : Env) (call : CommitCall) (w w' : World) (st : ValidatorRuntimeState),
      env.WritesAtomically → call.run env w = (.ok st, w') →
      ∃ epochId, st.activeEpochId = some epochId ∧ CommitSound env epochId w'.files := by
  intro h
  have hrun : (CommitCall.transition 0).run Env.plain committedWorld =
      (.ok (sampleState .committed (some 1)), committedWorld) := rfl
  obtain ⟨epochId, _, mode, reason, minerState, hcompleted, _⟩ :=
    h Env.plain _ _ _ _ plain_writesAtomically hrun
  obtain ⟨marker, _, hmarker, _⟩ := hcompleted.marker
  exact nomatch hmarker

end

end Dolores
