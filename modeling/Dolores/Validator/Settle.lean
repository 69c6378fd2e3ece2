import Dolores.Epoch.Outcome
import Dolores.Epoch.Replay
import Dolores.Epoch.Conclude
import Dolores.Validator.Commit
import Dolores.Validator.Durable

/-!
# From a chain outcome to the committed state

A tick in `weights_submitting` whose chain client has answered commits the epoch, unless the weights
artifact cannot be built.

* `Ticking`, `Submitting`    a tick in a phase, and in phase `weights_submitting`;
* `wp_phaseHook_committed`   the hook of the tick commits an accepted marker;
* `chainAnswers_of_tick`     the hook of the tick returns in the rest of the epoch;
* `Settles`                  the epoch is marked and committed with the client's outcome;
* `settles_iff`              it is, exactly when the hashes are comparable.
-/

set_option linter.unusedSectionVars false

namespace Dolores
open Crash Except

/-- the tick holds the lock, and its epoch is active in this phase -/
structure Ticking (env : Env) (id : Nat) (epochId : Int) (phase : ValidatorPhase) (w : World) :
    Prop where
  tick : w.ticks id = { entered := true, epochId := some epochId }
  held : w.lockOwner = some (.tick id)
  state : ∃ state, stateOf env (w.files .state) = .ok state ∧
    state.activeEpochId = some epochId ∧ state.phase = some phase

/-- the tick holds the lock, and its epoch is the one whose weights are being submitted -/
abbrev Submitting (env : Env) (id : Nat) (epochId : Int) (w : World) : Prop :=
  Ticking env id epochId .weightsSubmitting w

/-- the state is committed, and its last receipt has this mode and reason -/
def CommittedWith (env : Env) (epochId : Int) (mode reason : Json) (w : World) : Prop :=
  ∃ state receipt, stateOf env (w.files .state) = .ok state ∧
    state.activeEpochId = some epochId ∧ state.phase = some .committed ∧
    state.lastReceipt = some receipt ∧ Obj.get receipt "mode" = mode ∧
    Obj.get receipt "reason" = reason

section
variable {env : Env} {files : Files} {epochId : Int} {r : ChainWeightResult} {w : World}

/-! ## the commit succeeds -/

/-- the files of a recorded outcome hold no open attempt -/
theorem checkAttempt_of_outcome (h : OutcomeInPlace files epochId r) :
    checkAttempt env files epochId = .ok () := by
  unfold checkAttempt
  dsimp only
  by_cases hm : r.mode = .submitted
  · obtain ⟨record, hfile, hfields⟩ := h.attempt hm
    have hload : loadStateObject env files (.epoch epochId .chainAttempt) "chain attempt" =
        .ok record := by
      unfold loadStateObject
      rw [hfile]
      rfl
    have hid : record.get "epoch_id" = .int epochId := hfields _ List.mem_cons_self
    have hmode : record.get "mode" = .str "live_attempt" := hfields ("mode", _) (by simp)
    have hstatus : record.get "status" = .str "completed" := hfields ("status", _) (by simp)
    rw [hfile, hload, ok_bind, hid, hmode, hstatus, Json.eqInt_int]
    rfl
  · have hnone : files (.epoch epochId .chainAttempt) = none := by
      have hsome := h.attempt_isSome
      rw [beq_eq_false_iff_ne.mpr hm] at hsome
      exact Option.isNone_iff_eq_none.mp (by rw [← Option.not_isSome, hsome]; rfl)
    rw [hnone]

/-- the summary of a verified completion begins with its mode and reason -/
theorem verified_receipt {v : VerifiedCompletion}
    (h : verifyEpochCompletion env files epochId = .ok v) :
    Obj.get v.receipt "mode" = .str v.mode ∧ Obj.get v.receipt "reason" = .str v.reason := by
  unfold verifyEpochCompletion at h
  obtain ⟨_, _, h⟩ := bind_ok h
  obtain ⟨⟨mode, reason, artifacts⟩, _, h⟩ := bind_ok h
  dsimp only at h
  obtain ⟨_, _, h⟩ := bind_ok h
  obtain ⟨_, _, h⟩ := bind_ok h
  split at h
  · exact nomatch h
  obtain ⟨_, _, h⟩ := bind_ok h
  obtain ⟨_, _, h⟩ := bind_ok h
  obtain ⟨_, _, h⟩ := bind_ok h
  split at h
  · exact nomatch h
  obtain ⟨_, _, h⟩ := bind_ok h
  obtain ⟨_, _, h⟩ := bind_ok h
  rw [← Except.ok.inj h]
  exact ⟨rfl, rfl⟩

theorem committedState_valid {state : ValidatorRuntimeState} (h : state.Valid)
    (hactive : state.activeEpochId = some epochId) (receipt : Obj) (updatedAt : String) :
    (committedState state epochId receipt updatedAt).Valid where
  version := h.version
  next := h.next
  attempt := h.attempt
  together := by
    show state.activeEpochId.isNone = false
    rw [hactive]
    rfl
  active := h.active
  committed := fun _ => hactive.symm

/-- the commit of an epoch whose marker is accepted -/
theorem wp_commitLocked_of_accepted (hf : env.NoFaults) {minerState : Obj}
    (hO : OutcomeInPlace w.files epochId r) (ha : Accepted env w.files epochId r minerState)
    {state : ValidatorRuntimeState} (hstate : state.Valid)
    (hactive : state.activeEpochId = some epochId) :
    wp (do
        let committed ← commitFromCompletion env state epochId
        writeState env committed
        pure committed) (Post.returns fun _ w' =>
      (∀ file, w'.files (.epoch epochId file) = w.files (.epoch epochId file)) ∧
        CommittedWith env epochId (.str r.mode.text) (.str (r.reason.getD "")) w') w := by
  obtain ⟨v, hv, hmode, hreason, _⟩ := ha
  have hcompleted : verifiedCompletion env w.files epochId = .ok v := by
    unfold verifiedCompletion
    rw [hv]
  unfold commitFromCompletion
  rw [wp_bind, wp_bind, wp_raiseIfAmbiguousAttempt, checkAttempt_of_outcome hO]
  refine ⟨fun _ _ => ?_, fun _ he => nomatch he⟩
  dsimp only
  rw [wp_bind, wp_isFile, marker_of_verified hv]
  dsimp only
  rw [if_neg (by decide), wp_bind, wp_get]
  dsimp only
  rw [wp_bind, hcompleted, wp_ofExcept_ok]
  dsimp only
  rw [wp_bind, wp_logEvent]
  dsimp only
  rw [wp_bind, wp_atomicWriteJson_of_noFaults hf]
  dsimp only
  rw [wp_bind, wp_now]
  dsimp only
  rw [wp_pure]
  dsimp only
  generalize hcommitted : committedState state epochId (canonicalReceipt env epochId v.receipt) _ =
    committed
  have hvalid : committed.Valid := by
    rw [← hcommitted]
    exact committedState_valid hstate hactive _ _
  unfold writeState
  rw [wp_bind, wp_bind, (ValidatorRuntimeState.validate_ok_iff _).mpr hvalid, wp_ofExcept_ok]
  dsimp only
  rw [wp_atomicWriteJson_of_noFaults hf]
  have hkept : ∀ key, key ≠ "completion_marker" →
      Obj.get (canonicalReceipt env epochId v.receipt).canon key =
        (Obj.get v.receipt key).canon := by
    intro key hkey
    rw [Obj.get_canon]
    unfold canonicalReceipt Obj.get
    rw [Dict.get?_set, if_neg hkey]
  refine ⟨fun file => ?_, committed.canon, (canonicalReceipt env epochId v.receipt).canon, ?_, ?_,
    ?_, ?_, ?_, ?_⟩
  · rw [World.written_of_ne (by simp), World.put_of_ne (by simp)]
    rfl
  · rw [World.put_self, stateOf_written env hvalid]
  · rw [← hcommitted]
    exact hactive
  · rw [← hcommitted]
    rfl
  · rw [← hcommitted]
    rfl
  · rw [hkept _ (by decide), (verified_receipt hv).1, hmode, Json.canon_str]
  · rw [hkept _ (by decide), (verified_receipt hv).2, hreason, Json.canon_str]

theorem Ticking.wp_activeEpoch {id : Nat} {phase : ValidatorPhase}
    (ht : Ticking env id epochId phase w) {msg : String}
    {Q : Post World Exn Int} (hQ : Q.ok epochId w) :
    wp (ValidatorTick.activeEpoch id msg) Q w := by
  unfold ValidatorTick.activeEpoch
  rw [wp_bind, wp_get]
  dsimp only
  rw [wp_bind, wp_lockHeld, ht.tick, ht.held]
  dsimp only
  rw [decide_eq_true rfl]
  exact hQ

/-- **The hook of the tick commits an accepted marker.** -/
theorem wp_phaseHook_committed (hf : env.NoFaults) {id : Nat} {minerState : Obj}
    (hO : OutcomeInPlace w.files epochId r) (ha : Accepted env w.files epochId r minerState)
    (ht : Submitting env id epochId w) :
    wp (ValidatorTick.phaseHook env id "committed") (Post.returns fun _ w' =>
      (∀ file, w'.files (.epoch epochId file) = w.files (.epoch epochId file)) ∧
        CommittedWith env epochId (.str r.mode.text) (.str (r.reason.getD "")) w') w := by
  obtain ⟨state, hstate, hactive, hphase⟩ := ht.state
  have hhook : ValidatorTick.phaseHook env id "committed" = (do
      let _ ← ValidatorTick.transition env id .committed) := rfl
  rw [hhook]
  unfold ValidatorTick.transition transitionLocked
  rw [wp_bind, wp_bind]
  refine ht.wp_activeEpoch ?_
  dsimp only
  rw [wp_bind, wp_readState, hstate]
  refine ⟨fun state' he => ?_, fun _ he => nomatch he⟩
  obtain rfl := Except.ok.inj he
  dsimp only
  rw [if_neg (not_not_intro hactive), hphase]
  dsimp only
  rw [if_neg (by decide), if_neg (by decide), if_pos rfl]
  exact wp_commitLocked_of_accepted hf hO ha (stateOf_valid hstate) hactive

theorem Ticking.congr {id : Nat} {phase : ValidatorPhase} {w' : World}
    (ht : Ticking env id epochId phase w) (hstate : w'.files .state = w.files .state)
    (hticks : SameTicks w w') : Ticking env id epochId phase w' := by
  refine ⟨?_, ?_, ?_⟩
  · rw [hticks.ticks, ht.tick]
  · rw [hticks.lockOwner, ht.held]
  · rw [hstate]
    exact ht.state

theorem movedState_valid {state : ValidatorRuntimeState} (h : state.Valid)
    (hactive : state.activeEpochId = some epochId) {phase : ValidatorPhase}
    (hphase : phase ≠ .committed) (updatedAt : String) :
    { state with phase := some phase, updatedAt }.Valid where
  version := h.version
  next := h.next
  attempt := h.attempt
  together := by
    show state.activeEpochId.isNone = false
    rw [hactive]
    rfl
  active := h.active
  committed := fun hcommitted => (hphase (Option.some.inj hcommitted)).elim

/-- **The hook of the tick begins the submission.** -/
theorem wp_phaseHook_weightsSubmitting (hf : env.NoFaults) {id : Nat}
    (ht : Ticking env id epochId .evaluating w) :
    wp (ValidatorTick.phaseHook env id "weights_submitting") (Post.returns fun _ w' =>
      Submitting env id epochId w' ∧
        ∀ file, w'.files (.epoch epochId file) = w.files (.epoch epochId file)) w := by
  obtain ⟨state, hstate, hactive, hphase⟩ := ht.state
  have hhook : ValidatorTick.phaseHook env id "weights_submitting" = (do
      let _ ← ValidatorTick.transition env id .weightsSubmitting) := rfl
  rw [hhook]
  unfold ValidatorTick.transition transitionLocked
  rw [wp_bind, wp_bind]
  refine ht.wp_activeEpoch ?_
  dsimp only
  rw [wp_bind, wp_readState, hstate]
  refine ⟨fun state' he => ?_, fun _ he => nomatch he⟩
  obtain rfl := Except.ok.inj he
  dsimp only
  rw [if_neg (not_not_intro hactive), hphase]
  dsimp only
  rw [if_neg (by decide), if_neg (by decide), if_neg (by decide), wp_bind, wp_now]
  dsimp only
  generalize hmoved : { state with phase := some .weightsSubmitting, updatedAt := _ } = moved
  have hvalid : moved.Valid := by
    rw [← hmoved]
    exact movedState_valid (stateOf_valid hstate) hactive (by decide) _
  unfold writeState
  rw [wp_bind, wp_bind, (ValidatorRuntimeState.validate_ok_iff _).mpr hvalid, wp_ofExcept_ok]
  dsimp only
  rw [wp_atomicWriteJson_of_noFaults hf]
  refine ⟨⟨ht.tick, ht.held, moved.canon, ?_, ?_, ?_⟩, fun file => ?_⟩
  · rw [World.put_self, stateOf_written env hvalid]
  · rw [← hmoved]
    exact hactive
  · rw [← hmoved]
    rfl
  · exact World.written_of_ne (by simp) _ _

end

/-! ## the rest of the epoch in a tick -/

/-- the state file, the lock and the tick objects are as they were -/
structure TickStands (w w' : World) : Prop extends SameTicks w w' where
  state : w'.files .state = w.files .state

instance : IsPreorder World TickStands where
  refl _ := ⟨⟨rfl, rfl⟩, rfl⟩
  trans _ _ _ h h' :=
    ⟨trans_of SameTicks h.toSameTicks h'.toSameTicks, h'.state.trans h.state⟩

theorem tickStandsFrame (epochId : Int) : ChainFrame epochId TickStands where
  clock _ := ⟨⟨rfl, rfl⟩, rfl⟩
  connected _ := ⟨⟨rfl, rfl⟩, rfl⟩
  receipt w content := ⟨⟨rfl, rfl⟩, World.put_of_ne (by simp) content w⟩
  attempt w content := ⟨⟨rfl, rfl⟩, World.put_of_ne (by simp) content w⟩
  setWeights _ _ _ _ := ⟨⟨rfl, rfl⟩, rfl⟩

section
variable {env : Env} {substrate : Substrate} {A : FloatOps} {cfg : SubnetConfig}
  {epochId quota : Int} {id : Nat} {w : World}

/-- in a tick whose epoch has no outcome yet, the hook returns wherever the rest of the epoch calls
it, once the chain client has answered -/
theorem chainAnswers_of_tick (hf : env.NoFaults) (miners : List Miner) {client : ChainClient}
    (outcomes : List (Miner × SubmissionOutcome)) (ht : Ticking env id epochId .evaluating w)
    (hempty : NoOutcome epochId w)
    (hreturns : ∀ (s : ReceiptSubject) (fallbackReason : String) (w₁ : World), s.epochId = epochId →
      Submitting env id epochId w₁ → NoOutcome epochId w₁ →
      ∃ r w₂, client.applyWeights env substrate A s fallbackReason w₁ = (.ok r, w₂)) :
    ChainAnswers env substrate A cfg epochId quota miners (some client)
      (some (ValidatorTick.phaseHook env id)) outcomes w := by
  intro g previousEma _ _ scores
  have hlogged : Ticking env id epochId .evaluating
      (w.log (.emaLoaded epochId (w.files .minerState))) := ⟨ht.tick, ht.held, ht.state⟩
  obtain ⟨_, w₁, hrun, hsubmitting, hkept⟩ :=
    wp_returns_iff.mp (wp_phaseHook_weightsSubmitting hf hlogged)
  have hempty₁ : NoOutcome epochId w₁ :=
    ⟨(hkept _).trans hempty.receipt, (hkept _).trans hempty.attempt⟩
  obtain ⟨r, w₂, hr⟩ := hreturns ⟨epochId, scores.weights, miners.map (·.hotkey), cfg.specVersion⟩
    (scores.weightReason.getD "offline") w₁ rfl hsubmitting hempty₁
  refine ⟨w₁, r, w₂, hrun, hempty₁, hr, fun w₃ hmarked => ?_⟩
  have hstands := ((tickStandsFrame epochId).applyWeights client _).run hr
  have ht₂ : Submitting env id epochId w₂ := hsubmitting.congr hstands.state hstands.toSameTicks
  obtain ⟨_, w₄, hcommit, hkept', _⟩ := wp_returns_iff.mp (wp_phaseHook_committed hf
    hmarked.outcome hmarked.accepted (ht₂.congr hmarked.state hmarked.ticks))
  exact ⟨w₄, hcommit, hkept'⟩

/-- tick 0 has evaluated epoch 1 -/
def evaluatingWorld : World where
  files := fun
    | .state => some (.doc (.obj (sampleState .evaluating none).toDict))
    | _ => none
  lockOwner := some (.tick 0)
  ticks _ := { entered := true, epochId := some 1 }

theorem chainAnswers_tick (outcomes : List (Miner × SubmissionOutcome)) :
    ChainAnswers Env.plain offlineSubstrate exactOps {} 1 4 sampleMiners (some .null)
      (some (ValidatorTick.phaseHook Env.plain 0)) outcomes evaluatingWorld :=
  chainAnswers_of_tick (fun _ => rfl) _ _ ⟨rfl, rfl, sampleState .evaluating none, rfl, rfl, rfl⟩
    ⟨rfl, rfl⟩ fun _ _ w₁ _ _ _ => ⟨_, w₁, rfl⟩

theorem concludeEpoch_completes_sample :
    Completes Env.plain offlineSubstrate exactOps {} 1 4 sampleMiners (some .null)
      (some (ValidatorTick.phaseHook Env.plain 0)) (sampleOutcomes (.str "x") (.str "y"))
      idleSession evaluatingWorld :=
  (concludeEpoch_completes_iff (fun _ => rfl) (mem_sampleOutcomes _ _) rfl (chainAnswers_tick _)
    fun _ h => (List.not_mem_nil h).elim).mpr (.inl fun p hp _ => by
      unfold sampleOutcomes at hp
      rcases List.mem_cons.mp hp with hp | hp
      · rw [hp]
        rfl
      · rw [List.mem_singleton.mp hp]
        rfl)

end

/-! ## the tick settles -/

/-- the record of the epoch returns: its marker is accepted and the state is committed, both with
the mode and the reason of the result -/
def Settles (env : Env) (cfg : SubnetConfig) (epochId quota : Int) (session : PanelSession)
    (g : Aggregate) (scores : EpochScores) (r : ChainWeightResult) (id : Nat) (w : World) : Prop :=
  ∃ res w', recordEpoch env cfg epochId quota session g scores r
      (some (ValidatorTick.phaseHook env id)) w = (.ok res, w') ∧
    (∃ v, verifyEpochCompletion env w'.files epochId = .ok v ∧ v.mode = r.mode.text ∧
      v.reason = r.reason.getD "") ∧
    CommittedWith env epochId (.str r.mode.text) (.ofOption .str r.reason) w'

section
variable {env : Env} {engine : Engine} {substrate : Substrate} {A : FloatOps} {cfg : SubnetConfig}
  {epochId quota : Int} {session : PanelSession} {g : Aggregate} {scores : EpochScores}
  {r : ChainWeightResult} {id : Nat} {w : World}

theorem settles_of_sorted (hf : env.NoFaults) (hs : session.Summable) {items : List (Json × ℚ)}
    (hitems : sortItems g.taskValues = .ok items) (hO : OutcomeRecorded epochId r w)
    (ht : Submitting env id epochId w) :
    Settles env cfg epochId quota session g scores r id w := by
  obtain ⟨hin, reason, hreason⟩ := hO
  unfold Settles
  rw [← wp_returns_iff]
  refine wp_recordEpoch_of_hook hf hs hitems hin fun w₁ hmarked => ?_
  have ht₁ := ht.congr hmarked.state hmarked.ticks
  refine wp_mono (wp_phaseHook_committed hf hmarked.outcome hmarked.accepted ht₁) ?_
    (fun _ _ h => h) (fun _ h => h)
  intro _ w₂ h
  obtain ⟨hepoch, hcommitted⟩ := h
  obtain ⟨v, hv, hmode, hreasonV, _⟩ := hmarked.accepted.congr hepoch
  refine ⟨⟨v, hv, hmode, hreasonV⟩, ?_⟩
  rw [hreason] at hcommitted ⊢
  exact hcommitted

variable {miners : List Miner} {e : Evaluation} {s : ReceiptSubject} {client : ChainClient}
  {fallbackReason : String} {w₀ w₁ w' : World}

theorem comparable_of_settles
    (he : evaluateEpoch env engine A cfg epochId quota miners w₀ = (.ok e, w₁))
    (hg : aggregateOutcomes (miners.map (·.hotkey)) e.outcomes = .ok g)
    (h : Settles env cfg epochId quota session g scores r id w) : HashesComparable e.outcomes := by
  have hminers : ∀ p ∈ e.outcomes, p.1 ∈ miners := fun p hp =>
    (((evaluateEpoch_logged he).2 p.1).mp (List.mem_map_of_mem hp)).1
  obtain ⟨res, w₂, hrun, _⟩ := h
  have hsorts := recordEpoch_sorts (P := fun _ _ => True) (wp_returns_iff.mpr ⟨res, w₂, hrun, trivial⟩)
  exact (taskValues_sorted_iff (hotkeys_active hminers)).mp ⟨g, hg, hsorts⟩

theorem settles_of_comparable (hf : env.NoFaults)
    (he : evaluateEpoch env engine A cfg epochId quota miners w₀ = (.ok e, w₁))
    (hg : aggregateOutcomes (miners.map (·.hotkey)) e.outcomes = .ok g)
    (ht : Submitting env id epochId w) (hempty : ∀ file, w.files (.epoch epochId file) = none)
    (hs : s.epochId = epochId)
    (hr : client.applyWeights env substrate A s fallbackReason w = (.ok r, w'))
    (h : HashesComparable e.outcomes) :
    Settles env cfg epochId quota e.session g scores r id w' := by
  have hminers : ∀ p ∈ e.outcomes, p.1 ∈ miners := fun p hp =>
    (((evaluateEpoch_logged he).2 p.1).mp (List.mem_map_of_mem hp)).1
  obtain ⟨g', hg', items, hitems⟩ := (taskValues_sorted_iff (hotkeys_active hminers)).mpr h
  rw [← Except.ok.inj (hg.symm.trans hg')] at hitems
  have hO := wp_onReturn_iff.mp (wp_applyWeights_outcome hf client fallbackReason
    ⟨by rw [hs, hempty], by rw [hs, hempty]⟩) r w' hr
  rw [hs] at hO
  have F : ChainFrame s.epochId TickStands := tickStandsFrame s.epochId
  have hstands := (F.applyWeights client fallbackReason).run hr
  exact settles_of_sorted hf (summable_evaluateEpoch he) hitems hO
    (ht.congr hstands.state hstands.toSameTicks)

/-- **A chain outcome settles the tick**, unless the package hashes of the epoch cannot be sorted:
when `apply_weights` has answered for an epoch whose directory was empty, the epoch is marked and
committed with the mode and the reason of the answer exactly when the hashes are comparable. -/
theorem settles_iff (hf : env.NoFaults)
    (he : evaluateEpoch env engine A cfg epochId quota miners w₀ = (.ok e, w₁))
    (hg : aggregateOutcomes (miners.map (·.hotkey)) e.outcomes = .ok g)
    (ht : Submitting env id epochId w) (hempty : ∀ file, w.files (.epoch epochId file) = none)
    (hs : s.epochId = epochId)
    (hr : client.applyWeights env substrate A s fallbackReason w = (.ok r, w')) :
    Settles env cfg epochId quota e.session g scores r id w' ↔ HashesComparable e.outcomes :=
  ⟨comparable_of_settles he hg, settles_of_comparable hf he hg ht hempty hs hr⟩

end

section

/-- a miner with one submission, of which only the claimed hash matters -/
def claimant (hotkey : String) (uid : Int) (packageHash : Json) : Miner :=
  { hotkey, uid, submissions := fun _ _ => [[("package_hash", packageHash)]] }

/-- tick 0 submits the weights of epoch 1 -/
def submittingWorld : World where
  files := fun
    | .state => some (.doc (.obj (sampleState .weightsSubmitting none).toDict))
    | _ => none
  lockOwner := some (.tick 0)
  ticks _ := { entered := true, epochId := some 1 }

theorem submittingWorld_submitting : Submitting Env.plain 0 1 submittingWorld :=
  ⟨rfl, rfl, sampleState .weightsSubmitting none, rfl, rfl, rfl⟩

def noWeights : ReceiptSubject :=
  { epochId := 1, weights := [], activeHotkeys := [], specVersion := 0 }

def fallbackResult : ChainWeightResult := { mode := .fallback, reason := some "offline" }

def someScores : EpochScores :=
  { epochScores := [], emaState := [], weights := [], degraded := false, weightReason := none }

theorem null_answers : ChainClient.null.applyWeights Env.plain offlineSubstrate exactOps noWeights
    "" submittingWorld = (.ok fallbackResult, submittingWorld) := rfl

theorem texts_evaluated : ∃ e w₁ g,
    evaluateEpoch Env.plain Engine.plain exactOps {} 1 4
        [claimant "a" 1 (.str "x"), claimant "b" 2 (.str "y")] {} = (.ok e, w₁) ∧
      aggregateOutcomes ["a", "b"] e.outcomes = .ok g ∧
      e.outcomes.map (fun p => p.2.packageHash) = [.str "x", .str "y"] :=
  ⟨_, _, _, rfl, rfl, rfl⟩

theorem mixed_evaluated : ∃ e w₁ g,
    evaluateEpoch Env.plain Engine.plain exactOps {} 1 4
        [claimant "a" 1 (.str "x"), claimant "b" 2 (.int 1)] {} = (.ok e, w₁) ∧
      aggregateOutcomes ["a", "b"] e.outcomes = .ok g ∧
      e.outcomes.map (fun p => p.2.packageHash) = [.int 1, .str "x"] :=
  ⟨_, _, _, rfl, rfl, rfl⟩

theorem settles_iff_sample : ∃ (e : Evaluation) (g : Aggregate),
    e.outcomes.map (fun p => p.2.packageHash) = [.str "x", .str "y"] ∧
      Settles Env.plain {} 1 4 e.session g someScores fallbackResult 0 submittingWorld := by
  obtain ⟨e, w₁, g, he, hg, hhashes⟩ := texts_evaluated
  refine ⟨e, g, hhashes, (settles_iff (fun _ => rfl) he hg submittingWorld_submitting
    (fun _ => rfl) rfl null_answers).mpr (.inl fun p hp _ => ?_)⟩
  have hmem : p.2.packageHash ∈ e.outcomes.map (fun p => p.2.packageHash) :=
    List.mem_map_of_mem hp
  rw [hhashes] at hmem
  rcases List.mem_cons.mp hmem with h | h
  · rw [h]
    rfl
  · rw [List.mem_singleton.mp h]
    rfl

/-- two miners whose rejected submissions claim the hashes `"x"` and `1` -/
theorem mixed_hashes_do_not_settle :
    ¬ ∀ (env : Env) (engine : Engine) (substrate : Substrate) (A : FloatOps) (cfg : SubnetConfig)
        (epochId quota : Int) (miners : List Miner) (e : Evaluation) (g : Aggregate)
        (scores : EpochScores) (r : ChainWeightResult) (s : ReceiptSubject) (client : ChainClient)
        (fallbackReason : String) (id : Nat) (w₀ w₁ w w' : World), env.NoFaults →
      evaluateEpoch env engine A cfg epochId quota miners w₀ = (.ok e, w₁) →
      aggregateOutcomes (miners.map (·.hotkey)) e.outcomes = .ok g →
      Submitting env id epochId w → (∀ file, w.files (.epoch epochId file) = none) →
      s.epochId = epochId →
      client.applyWeights env substrate A s fallbackReason w = (.ok r, w') →
      Settles env cfg epochId quota e.session g scores r id w' := by
  intro h
  obtain ⟨e, w₁, g, he, hg, hhashes⟩ := mixed_evaluated
  have hcomparable := comparable_of_settles he hg (h Env.plain Engine.plain offlineSubstrate
    exactOps {} 1 4 _ e g someScores fallbackResult noWeights .null "" 0 _ _ _ _ (fun _ => rfl) he hg
    submittingWorld_submitting (fun _ => rfl) rfl null_answers)
  have hclaimed : ∀ hash ∈ [Json.int 1, .str "x"], ∃ p ∈ e.outcomes, p.2.packageHash = hash := by
    intro hash hmem
    rw [← hhashes] at hmem
    exact List.mem_map.mp hmem
  obtain ⟨p, hp, hnumber⟩ := hclaimed (.int 1) List.mem_cons_self
  obtain ⟨q, hq, htext⟩ := hclaimed (.str "x") (List.mem_cons_of_mem _ (List.mem_singleton_self _))
  rcases hcomparable with hall | hall
  · have htextual := hall p hp (by rw [hnumber]; rfl)
    rw [hnumber] at htextual
    exact Bool.false_ne_true htextual
  · have hnumeric := hall q hq (by rw [htext]; rfl)
    rw [htext] at hnumeric
    exact Bool.false_ne_true hnumeric

end

end Dolores
