import Dolores.Validator.Calls

/-!
# The epoch ledger over all runs of the store

A run is any sequence of calls of the store and of its ticks on one archive, from an empty one.
Between the calls the process may be killed, the other files of the archive may be written, and
the clock of the calls that leave the program may move on.

* `StoreCall`, `StoreRun`   the calls and the runs;
* `EpochLedger`             what the ledger says of the epochs so far;
* `epochLedger_holds`       it holds in every world that a run reaches.
-/

namespace Dolores
open Crash Except Journal

/-- the calls of the store and of its ticks -/
inductive StoreCall where
  | enter (tick : Nat)
  | transition (tick : Nat) (phase : ValidatorPhase)
  | phaseHook (tick : Nat) (phase : String)
  | failEvaluation (tick : Nat) (detail : String)
  | failWeights (tick : Nat) (detail : String)
  | exit (tick : Nat) (exc : Option Exn)
  | recoverReceipt

def StoreCall.run (env : Env) : StoreCall → M Unit
  | .enter tick => do
    let _ ← ValidatorTick.enter env tick
  | .transition tick phase => do
    let _ ← ValidatorTick.transition env tick phase
  | .phaseHook tick phase => ValidatorTick.phaseHook env tick phase
  | .failEvaluation tick detail => do
    let _ ← ValidatorTick.failEvaluation env tick detail
  | .failWeights tick detail => do
    let _ ← ValidatorTick.failWeights env tick detail
  | .exit tick exc => ValidatorTick.exit env tick exc
  | .recoverReceipt => do
    let _ ← Dolores.recoverReceipt env

/-- the worlds that a run reaches -/
inductive StoreRun (env : Env) : World → Prop
  | start {w : World} (hfiles : w.files = fun _ => none) (htrace : w.trace = []) : StoreRun env w
  | call {w w' : World} {o : Outcome Exn Unit} (call : StoreCall) (h : StoreRun env w)
      (hr : call.run env w = (o, w')) : StoreRun env w'
  | kill {w : World} (h : StoreRun env w) : StoreRun env w.restart
  | write {w : World} {p : Path} (c : Content) (hp : p ≠ .state) (h : StoreRun env w) :
      StoreRun env (w.put p c)
  | pass {w : World} (clock : Nat) (h : StoreRun env w) : StoreRun env { w with clock }

/-- what the states that `state.json` has held say of the epochs -/
structure EpochLedger (env : Env) (w : World) : Prop where
  valid : ∃ s, Persisted env w.files s ∧ s.validate = .ok ()
  readable : ∀ c, Event.wrote .state c ∈ w.trace → ∃ s, stateOf env (some c) = .ok s
  next : ∀ p ∈ pairs (persistedStates env w.trace), p.1.nextEpochId ≤ p.2.nextEpochId
  /-- completed once or failed once -/
  settled : ∀ s, Persisted env w.files s → ∀ epochId, 1 ≤ epochId → epochId < s.nextEpochId →
    s.activeEpochId ≠ some epochId →
    completions (persistedStates env w.trace) epochId +
      failures (persistedStates env w.trace) epochId = 1
  /-- a tick is given an epoch that never passed `querying` -/
  reissued : ∀ before epochId after, w.trace = before ++ .tickEntered epochId :: after →
    ∀ x ∈ persistedStates env before, x.activeEpochId = some epochId → Early x.phase
  increases : ∀ p ∈ pairs (persistedStates env w.trace),
    p.2.lastCompletedEpoch = p.1.lastCompletedEpoch ∨
      ∃ epochId, p.2.lastCompletedEpoch = some epochId ∧
        ∀ done, p.1.lastCompletedEpoch = some done → done < epochId
  below : ∀ x ∈ persistedStates env w.trace, ∀ done, x.lastCompletedEpoch = some done →
    done < x.nextEpochId
  success : ∀ s, Persisted env w.files s →
    s.lastSuccessfulWeightReceipt = latestSuccess (persistedStates env w.trace)
  /-- the receipt of a committed epoch is that of its marker -/
  receipts : ∀ before c after s, w.trace = before ++ .wrote .state c :: after →
    stateOf env (some c) = .ok s → s.phase = some .committed →
    ∃ epochId v, s.activeEpochId = some epochId ∧
      verifyEpochCompletion env (archiveOf before) epochId = .ok v ∧
      s.lastReceipt = some (canonicalReceipt env epochId v.receipt).canon

section
variable {env : Env} {w : World}

/-- giving up weights is always allowed by the ledger -/
theorem ledgerLaw_failWeights (hJ : Journaled (LedgerLaw env) w) (epochId : Int) (error : String)
    (s : ValidatorRuntimeState) (updatedAt : String) (hs : Persisted env w.files s)
    (hphase : s.phase = some .weightsSubmitting) (hactive : s.activeEpochId = some epochId)
    (hattempt : w.files (.epoch epochId .chainAttempt) = none)
    (hvalid : (failedState s error updatedAt).Valid) :
    LedgerLaw env w.trace (.wrote .state (stateContent (failedState s error updatedAt))) := by
  have hfollows : Follows env w.files s (failedState s error updatedAt) :=
    .weightsFailed _ _ hphase hactive (.inl hattempt)
  rw [hJ.files] at hs hfollows
  exact ⟨s, _, hs, hfollows, hvalid, rfl⟩

/-- how a call of the store ends -/
theorem wp_storeCall (hJ : Journaled (LedgerLaw env) w) (call : StoreCall) :
    wp (call.run env) (CallPost env (LedgerLaw env) w fun _ _ => True) w := by
  have hlaw := ledgerLaw_store env
  -- the result of the call is dropped
  have hdrop : ∀ {α : Type} {p : M α} {R : α → World → Prop},
      wp p (CallPost env (LedgerLaw env) w R) w →
      wp (do
        let _ ← p
        pure ()) (CallPost env (LedgerLaw env) w fun _ _ => True) w := by
    intro α p R h
    rw [wp_bind]
    exact wp_mono h (fun _ _ h => ⟨h.1, trivial⟩) (fun _ _ h => h) (fun _ h => h)
  cases call with
  | enter tick => exact hdrop (wp_enter hlaw hJ tick)
  | transition tick phase => exact hdrop (wp_transition hlaw hJ tick phase)
  | phaseHook tick phase =>
    show wp (ValidatorTick.phaseHook env tick phase) _ w
    unfold ValidatorTick.phaseHook
    split
    · exact hdrop (wp_transition hlaw hJ tick .evaluating)
    · exact hdrop (wp_transition hlaw hJ tick .weightsSubmitting)
    · exact hdrop (wp_transition hlaw hJ tick .committed)
    · exact hJ.raise_of_reads (refl_of OnlyReads w)
  | failEvaluation tick detail => exact hdrop (wp_failEvaluation hlaw hJ tick detail)
  | failWeights tick detail =>
    refine hdrop (R := fun _ _ => True) ?_
    unfold ValidatorTick.failWeights
    rw [wp_bind]
    exact ValidatorTick.wp_activeEpoch
      (fun epochId _ _ _ => wp_failWeightsLocked_call hlaw hJ epochId detail
        (ledgerLaw_failWeights hJ epochId detail))
      (hJ.raise_of_reads (refl_of OnlyReads w))
  | exit tick exc => exact wp_exit hlaw hJ tick exc
  | recoverReceipt => exact hdrop (wp_recoverReceipt hlaw hJ)

theorem StoreRun.journaled (h : StoreRun env w) : Journaled (LedgerLaw env) w := by
  induction h with
  | start hfiles htrace =>
    refine ⟨?_, ?_⟩
    · rw [hfiles, htrace, archiveOf_nil]
    · rw [htrace]
      exact .nil
  | @call w w' o call h hr ih =>
    have hpost := wp_of_run (wp_storeCall ih call) hr
    cases o with
    | ok a => exact hpost.1
    | raise e => exact hpost.1
    | killed => exact hpost
  | kill h ih => exact ih.of_reads ⟨rfl, rfl⟩
  | @write w p c hp h ih =>
    refine ih.put ?_
    cases p with
    | state => exact (hp rfl).elim
    | minerState => trivial
    | epoch => trivial
  | pass clock h ih => exact ih.of_reads ⟨rfl, rfl⟩

theorem Journaled.epochLedger (hJ : Journaled (LedgerLaw env) w) : EpochLedger env w := by
  obtain ⟨s, hs, hledger⟩ := hJ.ledger (ledgerLaw_store env)
  have hcurrent : ∀ s', Persisted env w.files s' → s' = s := fun s' hs' =>
    Except.ok.inj (hs'.symm.trans hs)
  refine ⟨⟨s, hs, ?_⟩, ?_, ledger_next hledger, ?_, ?_, ledger_completed hledger, ?_, ?_, ?_⟩
  · exact (ValidatorRuntimeState.validate_ok_iff s).mpr hledger.valid.1
  · intro c hc
    obtain ⟨before, after, htrace⟩ := List.append_of_mem hc
    have hlawful := hJ.lawful
    rw [htrace] at hlawful
    obtain ⟨_, t, _, _, hvalid, rfl⟩ := hlawful.at
    exact ⟨t.canon, stateOf_stateContent hvalid⟩
  · intro s' hs' epochId hpos hlt hne
    obtain rfl := hcurrent s' hs'
    exact ledger_settled hledger hpos hlt hne
  · intro before epochId after htrace
    have hlawful := hJ.lawful
    rw [htrace] at hlawful
    obtain ⟨t, ht, hactive, hphase⟩ := hlawful.at
    obtain ⟨t', ht', hbefore⟩ := ledger_of_lawful hlawful.of_append
    obtain rfl : t' = t := Except.ok.inj (ht'.symm.trans ht)
    exact ledger_early hbefore hactive (.inl hphase)
  · exact hledger.forall_states (P := fun x => ∀ done, x.lastCompletedEpoch = some done →
      done < x.nextEpochId) fun h done hd => (ledger_lastCompleted h done hd).1
  · intro s' hs'
    obtain rfl := hcurrent s' hs'
    exact ledger_success hledger
  · intro before c after x htrace hx hphase
    have hlawful := hJ.lawful
    rw [htrace] at hlawful
    obtain ⟨s₀, t, _, hfollows, hvalid, rfl⟩ := hlawful.at
    obtain rfl : t.canon = x := Except.ok.inj ((stateOf_stateContent hvalid).symm.trans hx)
    cases hfollows with
    | @committed epochId v updatedAt _ hactive _ hverified _ =>
      exact ⟨epochId, v, hactive, hverified, rfl⟩
    | retried => exact nomatch hphase
    | allocated => exact nomatch hphase
    | abandoned => exact nomatch hphase
    | moved _ _ _ hne => exact (hne (Option.some.inj hphase)).elim
    | evaluationFailed => exact nomatch hphase
    | weightsFailed => exact nomatch hphase

/-- **The epoch ledger.** In every world that a run of the store reaches, the persisted state is
valid, the epochs that are over are settled once each, and the other facts of the ledger hold; and
where a write that raises has had no effect, a call that raises leaves the persisted state as it was
or with the active epoch recorded as failed. -/
theorem epochLedger_holds (h : StoreRun env w) : EpochLedger env w ∧
    (env.WritesAtomically → ∀ (call : StoreCall) (exc : Exn) (w' : World),
      call.run env w = (.raise exc, w') →
      w'.files .state = w.files .state ∨ FailedRecorded env w w') := by
  refine ⟨h.journaled.epochLedger, fun hatomic call exc w' hr => ?_⟩
  obtain ⟨_, hleaves⟩ := wp_of_run (wp_storeCall h.journaled call) hr
  rcases hleaves with hsame | hfailed | ⟨n, i, hfault⟩
  · exact .inl hsame
  · exact .inr hfailed
  · exact (hatomic n i hfault).elim

end

section

/-- the world after these calls -/
def afterCalls (env : Env) (calls : List StoreCall) (w : World) : World :=
  calls.foldl (fun w call => (call.run env w).2) w

theorem StoreRun.calls {env : Env} {w : World} (h : StoreRun env w) (calls : List StoreCall) :
    StoreRun env (afterCalls env calls w) := by
  induction calls generalizing w with
  | nil => exact h
  | cons call calls ih => exact ih (.call call h rfl)

/-- the first epoch waits for its weights -/
def attemptedWorld : World :=
  afterCalls .plain [.enter 0, .transition 0 .querying, .phaseHook 0 "evaluating",
    .phaseHook 0 "weights_submitting"] {}

def offlineResult : ChainWeightResult := { mode := .fallback, reason := some "chain_off" }

/-- the files of the first epoch, but for its marker -/
def epochFilesWorld : World :=
  ((attemptedWorld.put (.epoch 1 .minerState) (.doc (.obj []))).put (.epoch 1 .weights)
    (.doc (.obj [("epoch_id", .int 1),
      ("weight_result", .obj [("mode", .str "fallback"), ("reason", .str "chain_off")])]))).put
    (.epoch 1 .panelSidecar) (.doc (.obj [("epoch_id", .int 1)]))

/-- the marker, and the second epoch, whose evaluation fails -/
def ledgerWorld : World :=
  let marker := ((completionMarker .plain epochFilesWorld.files 1 offlineResult).toOption).getD []
  afterCalls .plain [.transition 0 .committed, .exit 0 none, .enter 1, .transition 1 .querying,
      .phaseHook 1 "evaluating", .failEvaluation 1 "lost", .exit 1 none]
    ((epochFilesWorld.put (.epoch 1 .completion) (.doc (Json.canon (.obj marker)))).put .minerState
      (.doc (.obj [])))

theorem ledgerWorld_reached : StoreRun Env.plain ledgerWorld := by
  have hstart : StoreRun Env.plain attemptedWorld := (StoreRun.start (w := {}) rfl rfl).calls _
  have hfiles : StoreRun Env.plain epochFilesWorld :=
    ((hstart.write _ (by decide)).write _ (by decide)).write _ (by decide)
  exact ((hfiles.write _ (by decide)).write _ (by decide)).calls _

/-- the first epoch is committed once, the second fails once -/
theorem epochLedger_sample : EpochLedger Env.plain ledgerWorld ∧
    (∀ (call : StoreCall) (exc : Exn) (w' : World),
      call.run Env.plain ledgerWorld = (.raise exc, w') →
      w'.files .state = ledgerWorld.files .state ∨
        FailedRecorded Env.plain ledgerWorld w') ∧
    completions (persistedStates Env.plain ledgerWorld.trace) 1 = 1 ∧
    failures (persistedStates Env.plain ledgerWorld.trace) 2 = 1 :=
  ⟨(epochLedger_holds ledgerWorld_reached).1,
    (epochLedger_holds ledgerWorld_reached).2 plain_writesAtomically, by decide +kernel⟩

/-- the second effect, which is the write of the state, raises once it has happened -/
def raisesLate : Env :=
  { Env.plain with fault := fun n => if n = 1 then .raiseAfter (.os "fsync failed") else .none }

/-- a tick that cannot enter because its state was written and then not synced -/
theorem late_raise_changes_the_state :
    ¬ ∀ (env : Env) (w : World), StoreRun env w → ∀ (call : StoreCall) (exc : Exn) (w' : World),
      call.run env w = (.raise exc, w') →
      w'.files .state = w.files .state ∨ FailedRecorded env w w' := by
  intro h
  have hrun : (StoreCall.enter 0).run raisesLate {} = (.raise (.osError "fsync failed"),
      ((StoreCall.enter 0).run raisesLate {}).2) := rfl
  rcases h raisesLate {} (.start rfl rfl) _ _ _ hrun with hsame | hfailed
  · exact nomatch hsame
  · obtain ⟨s, t, epochId, hs, _, hactive, _⟩ := hfailed
    obtain rfl : {} = s := Except.ok.inj hs
    exact nomatch hactive

end

end Dolores
