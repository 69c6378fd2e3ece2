import Dolores.Validator.Ledger
import Dolores.Validator.Commit

/-!
# The calls of the store, against the ledger

Every call of the store, however it ends, adds events that a law of the store allows; under the
ledger's law this makes the states of `state.json` a history.

* `Journaled law w`    the files of `w` are those that its lawful journal leaves;
* `StoreLaw env law`   what the calls need of a law;
* `CallPost`           how a call ends;
* `wp_enter`, `wp_transition`, `wp_failEvaluation`, `wp_failWeightsLocked_call`, `wp_exit`,
  `wp_recoverReceipt`  the calls.
-/

set_option linter.unusedSectionVars false

namespace Dolores
open Crash Except Journal

/-! ## the journal of a world -/

/-- the files are those that the journal leaves, and the journal is lawful -/
structure Journaled (law : List Event → Event → Prop) (w : World) : Prop where
  files : w.files = archiveOf w.trace
  lawful : Lawful law w.trace

section
variable {law : List Event → Event → Prop} {w w' : World}

theorem Journaled.of_reads (h : Journaled law w) (hr : OnlyReads w w') : Journaled law w' := by
  refine ⟨?_, ?_⟩
  · rw [hr.files, hr.trace]
    exact h.files
  · rw [hr.trace]
    exact h.lawful

theorem Journaled.put (h : Journaled law w) {p : Path} {c : Content}
    (hlaw : law w.trace (.wrote p c)) : Journaled law (w.put p c) := by
  refine ⟨?_, .snoc h.lawful hlaw⟩
  show Function.update w.files p (some c) = archiveOf (w.trace ++ [.wrote p c])
  rw [archiveOf_wrote, h.files]

theorem Journaled.log (h : Journaled law w) {e : Event} (he : e.writesNothing)
    (hlaw : law w.trace e) : Journaled law (w.log e) := by
  refine ⟨?_, .snoc h.lawful hlaw⟩
  show w.files = archiveOf (w.trace ++ [e])
  rw [archiveOf_snoc, Event.apply_of_writesNothing he]
  exact h.files

end

/-! ## laws of the store -/

/-- an epoch whose weights are not committed is only given up while it has no marker -/
def MarkerGuard (files : Files) (s t : ValidatorRuntimeState) : Prop :=
  ∀ epochId, s.activeEpochId = some epochId → s.phase = some .weightsSubmitting →
    t.phase ≠ some .committed → files (.epoch epochId .completion) = none

/-- a law that allows what the calls of the store do -/
structure StoreLaw (env : Env) (law : List Event → Event → Prop) : Prop where
  ledger : ∀ past e, law past e → LedgerLaw env past e
  advance : ∀ {past s t}, Persisted env (archiveOf past) s → Follows env (archiveOf past) s t →
    t.Valid → MarkerGuard (archiveOf past) s t → law past (.wrote .state (stateContent t))
  entered : ∀ {past s epochId}, Persisted env (archiveOf past) s → s.activeEpochId = some epochId →
    s.phase = some .allocated → law past (.tickEntered epochId)
  verified : ∀ past epochId minerState, law past (.verified epochId minerState)
  rolling : ∀ {past s epochId v}, Persisted env (archiveOf past) s →
    s.activeEpochId = some epochId → s.phase = some .weightsSubmitting →
    verifyEpochCompletion env (archiveOf past) epochId = .ok v →
    law past (.wrote .minerState (.doc (Json.canon (.obj v.minerState))))

theorem ledgerLaw_store (env : Env) : StoreLaw env (LedgerLaw env) where
  ledger _ _ h := h
  advance hs hfollows hvalid _ := ⟨_, _, hs, hfollows, hvalid, rfl⟩
  entered hs hactive hphase := ⟨_, hs, hactive, hphase⟩
  verified _ _ _ := trivial
  rolling _ _ _ _ := trivial

section
variable {env : Env} {law : List Event → Event → Prop} {w w' : World}

/-- the persisted state of a journaled world ends the history of its journal -/
theorem Journaled.ledger (h : Journaled law w) (hlaw : StoreLaw env law) :
    ∃ s, Persisted env w.files s ∧ Ledger env (persistedStates env w.trace) s := by
  rw [h.files]
  exact ledger_of_lawful (h.lawful.mono hlaw.ledger)

theorem Journaled.persisted (h : Journaled law w) (hlaw : StoreLaw env law)
    {s : ValidatorRuntimeState} (hs : Persisted env w.files s) :
    Ledger env (persistedStates env w.trace) s := by
  obtain ⟨s', hs', hledger⟩ := h.ledger hlaw
  obtain rfl : s' = s := Except.ok.inj (hs'.symm.trans hs)
  exact hledger

/-! ## how a call ends -/

/-- the epoch that was active is recorded as failed -/
def FailedRecorded (env : Env) (w w' : World) : Prop :=
  ∃ s t epochId, Persisted env w.files s ∧ Persisted env w'.files t ∧
    s.activeEpochId = some epochId ∧ t.activeEpochId = none ∧ t.lastFailedEpoch = some epochId

/-- `state.json` is unchanged or records the active epoch as failed, unless some write raised after
it had taken effect -/
def RaiseLeaves (env : Env) (w w' : World) : Prop :=
  w'.files .state = w.files .state ∨ FailedRecorded env w w' ∨
    ∃ n i, env.fault n = .raiseAfter i

/-- the journal stays lawful; a call that raises leaves the state as `RaiseLeaves` says -/
def CallPost (env : Env) (law : List Event → Event → Prop) (w : World) {α : Type}
    (R : α → World → Prop) : Post World Exn α where
  ok a w' := Journaled law w' ∧ R a w'
  raise _ w' := Journaled law w' ∧ RaiseLeaves env w w'
  killed w' := Journaled law w'

theorem RaiseLeaves.of_reads (h : OnlyReads w w') : RaiseLeaves env w w' :=
  .inl (by rw [h.files])

theorem RaiseLeaves.congr {w₁ w₁' : World} (h : RaiseLeaves env w w')
    (hw : w₁.files .state = w.files .state) (hw' : w₁'.files .state = w'.files .state) :
    RaiseLeaves env w₁ w₁' := by
  unfold RaiseLeaves FailedRecorded Persisted at h ⊢
  rw [hw, hw']
  exact h

theorem Journaled.raise_of_reads (hJ : Journaled law w) (h : OnlyReads w w') :
    Journaled law w' ∧ RaiseLeaves env w w' :=
  ⟨hJ.of_reads h, .of_reads h⟩

/-- a call that starts later, from the same state -/
theorem CallPost.weaken {α : Type} {R R' : α → World → Prop} {w₁ : World} {p : M α} {w₂ : World}
    (h : wp p (CallPost env law w₁ R) w₂) (hw : w₁.files .state = w.files .state)
    (hR : ∀ a w', R a w' → R' a w') : wp p (CallPost env law w R') w₂ :=
  wp_mono h (fun a w' h => ⟨h.1, hR a w' h.2⟩)
    (fun _ _ h => ⟨h.1, h.2.congr hw.symm rfl⟩) (fun _ h => h)

/-! ## writing the state -/

/-- the state was written, and nothing else -/
structure StateWritten (law : List Event → Event → Prop) (t : ValidatorRuntimeState)
    (w w' : World) : Prop where
  journaled : Journaled law w'
  files : w'.files = Function.update w.files .state (some (stateContent t))
  trace : w'.trace = w.trace ++ [.wrote .state (stateContent t)]
  valid : t.Valid

theorem StateWritten.persisted {t : ValidatorRuntimeState} (h : StateWritten law t w w') :
    Persisted env w'.files t.canon := by
  unfold Persisted
  rw [h.files, Function.update_self]
  exact stateOf_stateContent h.valid

theorem stateWritten_put {t : ValidatorRuntimeState} (hJ : Journaled law w) (hvalid : t.Valid)
    (hlaw : law w.trace (.wrote .state (stateContent t))) :
    StateWritten law t w (w.tickClock.put .state (stateContent t)) := by
  have hclock : Journaled law w.tickClock := hJ.of_reads ⟨rfl, rfl⟩
  exact ⟨hclock.put hlaw, rfl, rfl, hvalid⟩

theorem wp_writeState_journaled {t : ValidatorRuntimeState} (hJ : Journaled law w)
    (hlaw : t.Valid → law w.trace (.wrote .state (stateContent t))) :
    wp (writeState env t)
      ⟨fun _ w' => StateWritten law t w w',
        fun _ w' => OnlyReads w w' ∨ StateWritten law t w w' ∧ ∃ n i, env.fault n = .raiseAfter i,
        fun w' => OnlyReads w w' ∨ StateWritten law t w w'⟩ w := by
  unfold writeState
  rw [wp_bind, wp_ofExcept]
  refine ⟨fun _ hvalid => ?_, fun _ _ => .inl (refl_of OnlyReads w)⟩
  have hvalid := (ValidatorRuntimeState.validate_ok_iff t).mp hvalid
  have hwritten := stateWritten_put hJ hvalid (hlaw hvalid)
  have hcut : OnlyReads w w.tickClock := ⟨rfl, rfl⟩
  show Post.holds _ (effectful env (World.put .state (stateContent t)) id w)
  unfold effectful
  cases hfault : env.fault w.clock with
  | none => exact hwritten
  | raiseBefore i => exact .inl hcut
  | raiseAfter i => exact .inr ⟨hwritten, w.clock, i, hfault⟩
  | killBefore => exact .inl hcut
  | killAfter => exact .inr hwritten

/-- a call that ends with a write of the state -/
theorem wp_writeState_call {t : ValidatorRuntimeState} {α : Type} {a : α} {R : α → World → Prop}
    {w₀ : World} (hJ : Journaled law w) (hw : RaiseLeaves env w₀ w)
    (hlaw : t.Valid → law w.trace (.wrote .state (stateContent t)))
    (hR : ∀ w', StateWritten law t w w' → R a w') :
    wp (do
        writeState env t
        pure a) (CallPost env law w₀ R) w := by
  rw [wp_bind]
  refine wp_mono (wp_writeState_journaled hJ hlaw) ?_ ?_ ?_
  · intro _ w' h
    exact ⟨h.journaled, hR w' h⟩
  · intro _ w' h
    rcases h with h | ⟨h, hfault⟩
    · exact ⟨hJ.of_reads h, hw.congr rfl (by rw [h.files])⟩
    · exact ⟨h.journaled, .inr (.inr hfault)⟩
  · intro w' h
    rcases h with h | h
    · exact hJ.of_reads h
    · exact h.journaled

/-! ## the operations -/

/-- the state that is read -/
theorem wp_readState_journaled (hlaw : StoreLaw env law) (hJ : Journaled law w)
    {Q : Post World Exn ValidatorRuntimeState}
    (hQ : ∀ s, Persisted env w.files s → Ledger env (persistedStates env w.trace) s → Q.ok s w) :
    wp (readState env) Q w := by
  obtain ⟨s, hs, hledger⟩ := hJ.ledger hlaw
  rw [wp_readState]
  refine ⟨fun s' hs' => ?_, fun e he => ?_⟩
  · obtain rfl : s = s' := Except.ok.inj (hs.symm.trans hs')
    exact hQ s hs hledger
  · exact nomatch hs.symm.trans he

theorem Journaled.advance (hlaw : StoreLaw env law) (hJ : Journaled law w)
    {s t : ValidatorRuntimeState} (hs : Persisted env w.files s) (hfollows : Follows env w.files s t)
    (hguard : MarkerGuard w.files s t) (hvalid : t.Valid) :
    law w.trace (.wrote .state (stateContent t)) := by
  rw [hJ.files] at hs hfollows hguard
  exact hlaw.advance hs hfollows hvalid hguard

theorem markerGuard_of_phase {files : Files} {s t : ValidatorRuntimeState}
    (h : s.phase ≠ some .weightsSubmitting) : MarkerGuard files s t :=
  fun _ _ hphase => (h hphase).elim

/-- a state that no operation holds submitting -/
theorem failedState_canonical {s : ValidatorRuntimeState} (h : s.Canonical) (error updatedAt : String) :
    (failedState s error updatedAt).Canonical := by
  have hfailed : (failedState s error updatedAt).canon = failedState s.canon error updatedAt := rfl
  unfold ValidatorRuntimeState.Canonical at h ⊢
  rw [hfailed, h]

variable (hlaw : StoreLaw env law)
include hlaw

/-- the submission of an epoch is given up -/
theorem wp_beginSubmitting_call (hJ : Journaled law w) {s : ValidatorRuntimeState} {epochId : Int}
    (hs : Persisted env w.files s) (hphase : s.phase = some .weightsSubmitting)
    (hactive : s.activeEpochId = some epochId) :
    wp (beginSubmitting env s epochId) (CallPost env law w fun t w' => Persisted env w'.files t ∧
      t.phase = none ∧ FailedRecorded env w w') w := by
  have hledger := hJ.persisted hlaw hs
  have hrefl : OnlyReads w w := refl_of OnlyReads w
  have hraise : Journaled law w ∧ RaiseLeaves env w w := hJ.raise_of_reads hrefl
  unfold beginSubmitting
  rw [wp_bind, wp_raiseIfAmbiguousAttempt]
  refine ⟨fun _ hattempt => ?_, fun _ _ => hraise⟩
  dsimp only
  rw [wp_bind, wp_isFile]
  dsimp only
  refine wp_ite (fun _ => hraise) (fun hmarked => ?_)
  rw [wp_bind, wp_isFile]
  dsimp only
  refine wp_ite (fun _ => hraise) (fun _ => ?_)
  rw [wp_bind, wp_get]
  dsimp only
  rw [wp_bind, wp_ofExcept]
  refine ⟨fun receipt hreceipt => ?_, fun _ _ => hraise⟩
  dsimp only
  refine wp_ite (fun _ => hraise) (fun _ => ?_)
  rw [wp_bind, wp_ofExcept]
  refine ⟨fun definite hdefinite => ?_, fun _ _ => hraise⟩
  dsimp only
  refine wp_ite (fun _ => hraise) (fun hmode => ?_)
  rw [wp_bind, wp_now]
  dsimp only
  generalize hfailed : failedState s _ _ = failed
  have hmode : definite = true := Bool.eq_true_of_not_eq_false hmode
  rw [hmode] at hdefinite
  have hfollows : Follows env w.files s failed := by
    rw [← hfailed]
    exact .weightsFailed _ _ hphase hactive (.inr ⟨hattempt, receipt, hreceipt, hdefinite⟩)
  have hguard : MarkerGuard w.files s failed := by
    intro epochId' hactive' _ _
    obtain rfl := Option.some.inj (hactive.symm.trans hactive')
    exact Option.not_isSome_iff_eq_none.mp hmarked
  have hcanonical : failed.canon = failed := by
    rw [← hfailed]
    exact failedState_canonical hledger.valid.2 _ _
  refine wp_writeState_call hJ (.of_reads hrefl) (hJ.advance hlaw hs hfollows hguard) fun w' h => ?_
  have hpersisted : Persisted env w'.files failed.canon := h.persisted
  rw [hcanonical] at hpersisted
  refine ⟨hpersisted, ?_, s, failed, epochId, hs, hpersisted, hactive, ?_, ?_⟩
  · rw [← hfailed]
    rfl
  · rw [← hfailed]
    rfl
  · rw [← hfailed]
    exact hactive

omit hlaw in
theorem beginIdle_early {s : ValidatorRuntimeState} {epochId : Int}
    (hactive : s.activeEpochId = some epochId)
    (hearly : s.phase = some .allocated ∨ s.phase = some .querying) :
    beginIdle env s = (do
      let updatedAt ← now env
      writeState env (retriedState s updatedAt)
      pure (retriedState s updatedAt, epochId)) := by
  cases s
  cases hactive
  rcases hearly with h | h
  · cases h
    rfl
  · cases h
    rfl

/-- with no submission pending, an epoch is allocated or tried again -/
theorem wp_beginIdle_call {w₀ : World} (hw : RaiseLeaves env w₀ w) (hJ : Journaled law w)
    {s : ValidatorRuntimeState} (hs : Persisted env w.files s)
    (hphase : s.phase ≠ some .weightsSubmitting) :
    wp (beginIdle env s) (CallPost env law w₀ fun r w' => ∃ t, Persisted env w'.files t ∧
      t.activeEpochId = some r.2 ∧ t.phase = some .allocated) w := by
  have hvalid := (hJ.persisted hlaw hs).valid.1
  have hadvance : ∀ {t : ValidatorRuntimeState}, Follows env w.files s t → t.Valid →
      law w.trace (.wrote .state (stateContent t)) := fun hfollows =>
    hJ.advance hlaw hs hfollows (markerGuard_of_phase hphase)
  -- an early epoch is tried again
  have hretry : ∀ epochId, s.activeEpochId = some epochId →
      s.phase = some .allocated ∨ s.phase = some .querying →
      wp (beginIdle env s) (CallPost env law w₀ fun r w' => ∃ t, Persisted env w'.files t ∧
        t.activeEpochId = some r.2 ∧ t.phase = some .allocated) w := by
    intro epochId hactive hearly
    rw [beginIdle_early hactive hearly, wp_bind, wp_now]
    dsimp only
    refine wp_writeState_call hJ hw (hadvance (.retried _ hearly)) fun w' h => ?_
    exact ⟨_, h.persisted, hactive, rfl⟩
  -- otherwise the next one is allocated
  have hallocate : ∀ base updatedAt, Follows env w.files s (allocatedState base updatedAt) →
      base.nextEpochId = s.nextEpochId →
      wp (do
          writeState env (allocatedState base updatedAt)
          pure (allocatedState base updatedAt, base.nextEpochId))
        (CallPost env law w₀ fun r w' => ∃ t, Persisted env w'.files t ∧
          t.activeEpochId = some r.2 ∧ t.phase = some .allocated) w := by
    intro base updatedAt hfollows hnext
    refine wp_writeState_call hJ hw (hadvance hfollows) fun w' h => ?_
    exact ⟨_, h.persisted, rfl, rfl⟩
  have hnew : ∀ updatedAt, s.phase = none ∨ s.phase = some .committed →
      Follows env w.files s (allocatedState s updatedAt) := fun updatedAt h => .allocated updatedAt h
  cases hs' : s.phase with
  | none =>
    unfold beginIdle
    rw [hs']
    dsimp only
    rw [wp_bind, wp_now]
    exact hallocate s _ (hnew _ (.inl hs')) rfl
  | some phase =>
    obtain ⟨epochId, hactive⟩ := hvalid.isSome_active hs'
    cases phase with
    | allocated => exact hretry epochId hactive (.inl hs')
    | querying => exact hretry epochId hactive (.inr hs')
    | evaluating =>
      unfold beginIdle
      rw [hs']
      dsimp only
      rw [wp_bind, wp_now]
      exact hallocate (failedState s _ _) _ (.abandoned _ hs') rfl
    | weightsSubmitting => exact (hphase hs').elim
    | committed =>
      unfold beginIdle
      rw [hs']
      dsimp only
      rw [wp_bind, wp_now]
      exact hallocate s _ (hnew _ (.inr hs')) rfl

theorem wp_beginLocked_call (hJ : Journaled law w) :
    wp (beginLocked env) (CallPost env law w fun r w' => ∃ t, Persisted env w'.files t ∧
      t.activeEpochId = some r.2 ∧ t.phase = some .allocated) w := by
  have hrefl : RaiseLeaves env w w := .inl rfl
  unfold beginLocked
  rw [wp_bind]
  refine wp_readState_journaled hlaw hJ fun s hs hledger => ?_
  dsimp only
  by_cases hphase : s.phase = some .weightsSubmitting
  · obtain ⟨epochId, hactive⟩ := hledger.valid.1.isSome_active hphase
    rw [hphase, hactive]
    dsimp only
    rw [wp_bind]
    refine wp_mono (wp_beginSubmitting_call hlaw hJ hs hphase hactive) ?_ (fun _ _ h => h)
      (fun _ h => h)
    intro t w₁ h
    obtain ⟨hJ₁, ht, hnone, hfailed⟩ := h
    refine wp_beginIdle_call hlaw (.inr (.inl hfailed)) hJ₁ ht ?_
    rw [hnone]
    exact fun he => nomatch he
  · split
    · next h _ => exact (hphase h).elim
    · next h _ => exact (hphase h).elim
    · exact wp_beginIdle_call hlaw hrefl hJ hs hphase

theorem wp_enter (hJ : Journaled law w) (id : Nat) :
    wp (ValidatorTick.enter env id) (CallPost env law w fun epochId w' =>
      ∃ t, Persisted env w'.files t ∧ t.activeEpochId = some epochId ∧
        t.phase = some .allocated) w := by
  unfold ValidatorTick.enter
  rw [wp_bind]
  refine wp_mono (onlyReads_acquireLock (.tick id) w) ?_
    (fun _ w₁ h₁ => hJ.raise_of_reads h₁) (fun w₁ h₁ => hJ.of_reads h₁)
  intro _ w₁ h₁
  have hstate : w₁.files .state = w.files .state := by rw [h₁.files]
  dsimp only
  rw [wp_handle, wp_bind]
  refine wp_mono (wp_beginLocked_call hlaw (hJ.of_reads h₁)) ?_ ?_ (fun _ h => h)
  · intro r w₂ h₂
    obtain ⟨hJ₂, t, ht, hactive, hphase⟩ := h₂
    have hentered : law w₂.trace (.tickEntered r.2) := by
      rw [hJ₂.files] at ht
      exact hlaw.entered ht hactive hphase
    have hobject : Journaled law
        { w₂ with ticks := Function.update w₂.ticks id { entered := true, epochId := some r.2 } } :=
      hJ₂.of_reads ⟨rfl, rfl⟩
    exact ⟨hobject.log trivial hentered, t, ht, hactive, hphase⟩
  · intro e w₂ h₂
    obtain ⟨hJ₂, hleaves⟩ := h₂
    have hrelease : OnlyReads w₂ _ := wp_always.mp (onlyReads_releaseLock (.tick id) w₂)
    dsimp only
    rw [wp_bind]
    exact ⟨hJ₂.of_reads hrelease, hleaves.congr hstate.symm (congrFun hrelease.files .state)⟩

/-- the commit of the active epoch, whose marker and attempt are checked -/
theorem wp_commit_call (hJ : Journaled law w) {s : ValidatorRuntimeState} {epochId : Int}
    (hs : Persisted env w.files s) (hphase : s.phase = some .weightsSubmitting)
    (hactive : s.activeEpochId = some epochId) :
    wp (do
        let committed ← commitFromCompletion env s epochId
        writeState env committed
        pure committed) (CallPost env law w fun _ w' => ∃ t, Persisted env w'.files t ∧
          t.activeEpochId = some epochId ∧ t.phase = some .committed) w := by
  have hraise : Journaled law w ∧ RaiseLeaves env w w := hJ.raise_of_reads (refl_of OnlyReads w)
  rw [wp_bind]
  unfold commitFromCompletion
  rw [wp_bind, wp_raiseIfAmbiguousAttempt]
  refine ⟨fun _ hattempt => ?_, fun _ _ => hraise⟩
  dsimp only
  rw [wp_bind, wp_isFile]
  dsimp only
  refine wp_ite (fun _ => hraise) (fun _ => ?_)
  rw [wp_bind, wp_get]
  dsimp only
  rw [wp_bind, wp_ofExcept]
  refine ⟨fun v hcompleted => ?_, fun _ _ => hraise⟩
  have hverified : verifyEpochCompletion env w.files epochId = .ok v := by
    unfold verifiedCompletion at hcompleted
    split at hcompleted
    · exact nomatch hcompleted
    · exact hcompleted
  dsimp only
  rw [wp_bind, wp_logEvent]
  dsimp only
  rw [wp_bind]
  have hJ₁ : Journaled law (w.log (.verified epochId v.minerState)).tickClock := by
    have hlogged := hJ.log (e := .verified epochId v.minerState) trivial (hlaw.verified _ _ _)
    exact hlogged.of_reads ⟨rfl, rfl⟩
  generalize hw₁ : (w.log (.verified epochId v.minerState)).tickClock = w₁ at hJ₁
  have hfiles₁ : w₁.files = w.files := by rw [← hw₁]; rfl
  rw [← hfiles₁] at hs hverified hattempt
  have hrolling : law w₁.trace (.wrote .minerState (.doc (Json.canon (.obj v.minerState)))) := by
    have hs' := hs
    have hverified' := hverified
    rw [hJ₁.files] at hs' hverified'
    exact hlaw.rolling hs' hactive hphase hverified'
  have hJ₂ := hJ₁.put hrolling
  have hcut : OnlyReads w₁ w₁ := refl_of OnlyReads w₁
  have hstate₁ : RaiseLeaves env w w₁ := .inl (by rw [hfiles₁])
  have hstate₂ : RaiseLeaves env w (w₁.put .minerState (.doc (Json.canon (.obj v.minerState)))) := by
    refine .inl ?_
    rw [World.put_of_ne (by simp), hfiles₁]
  unfold atomicWriteJson
  refine wp_effectful ?_ ?_ ?_ ?_ ?_
  all_goals rw [hw₁]
  · -- the rolling state is that of the marker
    dsimp only
    rw [wp_bind, wp_now]
    dsimp only
    rw [wp_pure]
    generalize hw₂ : w₁.put .minerState (.doc (Json.canon (.obj v.minerState))) = w₂ at hJ₂ hstate₂
    have hkept : ∀ p, p ≠ .minerState → w₂.files p = w₁.files p := by
      intro p hp
      rw [← hw₂, World.put_of_ne hp]
    have hs₂ : Persisted env w₂.files s := by
      unfold Persisted
      rw [hkept .state (by simp)]
      exact hs
    refine wp_writeState_call hJ₂ hstate₂ (hJ₂.advance hlaw hs₂ ?_ ?_) fun w' h => ?_
    · refine .committed _ hphase hactive ?_ ?_ ?_
      · rw [checkAttempt_congr (hkept _ (by simp)), hattempt]
      · rw [verifyEpochCompletion_congr fun file => hkept _ (by simp), hverified]
      · rw [← hw₂, World.put_self]
    · exact fun _ _ _ hne => (hne rfl).elim
    · exact ⟨_, h.persisted, hactive, rfl⟩
  · exact fun _ => ⟨hJ₁, hstate₁⟩
  · exact fun _ => ⟨hJ₂, hstate₂⟩
  · exact hJ₁
  · exact hJ₂

/-- nothing but the state file was written -/
structure OnlyState (w w' : World) : Prop where
  files : ∀ p, p ≠ .state → w'.files p = w.files p
  trace : Adds (fun e => ∃ c, e = .wrote .state c) w w'

omit hlaw in
theorem StateWritten.onlyState {t : ValidatorRuntimeState} (h : StateWritten law t w w') :
    OnlyState w w' where
  files p hp := by rw [h.files, Function.update_of_ne hp]
  trace := ⟨_, h.trace, fun e he => ⟨_, List.mem_singleton.mp he⟩⟩

theorem wp_transitionLocked_call (hJ : Journaled law w) (epochId : Int) (phase : ValidatorPhase) :
    wp (transitionLocked env epochId phase) (CallPost env law w fun _ w' =>
      (∃ s, Persisted env w.files s ∧ s.activeEpochId = some epochId) ∧
      ∃ t, Persisted env w'.files t ∧ t.activeEpochId = some epochId ∧ t.phase = some phase ∧
        (phase ≠ .committed → OnlyState w w')) w := by
  have hraise : Journaled law w ∧ RaiseLeaves env w w := hJ.raise_of_reads (refl_of OnlyReads w)
  unfold transitionLocked
  rw [wp_bind]
  refine wp_readState_journaled hlaw hJ fun s hs hledger => ?_
  dsimp only
  refine wp_ite (fun _ => hraise) (fun hactive => ?_)
  have hactive : s.activeEpochId = some epochId := not_not.mp hactive
  cases hphase : s.phase with
  | none => exact hraise
  | some current =>
    dsimp only
    refine wp_ite (fun hsame => ?_) (fun _ => wp_ite (fun _ => hraise) fun hallowed =>
      wp_ite (fun hcommitted => ?_) fun hcommitted => ?_)
    · -- the state has the phase already
      refine ⟨hJ, ⟨s, hs, hactive⟩, s, hs, hactive, by rw [hphase, hsame],
        fun _ => ⟨fun _ _ => rfl, ?_⟩⟩
      exact Adds.of_reads (refl_of OnlyReads w)
    · have hallowed := not_not.mp hallowed
      rw [hcommitted] at hallowed
      have hcurrent : current = .weightsSubmitting := by
        cases current with
        | allocated => exact absurd hallowed (by decide)
        | querying => exact absurd hallowed (by decide)
        | evaluating => exact absurd hallowed (by decide)
        | weightsSubmitting => rfl
        | committed => exact absurd hallowed (by decide)
      rw [hcurrent] at hphase
      refine wp_mono (wp_commit_call hlaw hJ hs hphase hactive) ?_ (fun _ _ h => h) (fun _ h => h)
      intro _ w' h
      obtain ⟨hJ', t, ht, hactive', hphase'⟩ := h
      exact ⟨hJ', ⟨s, hs, hactive⟩, t, ht, hactive', by rw [hphase', hcommitted],
        fun hne => (hne hcommitted).elim⟩
    · have hallowed := not_not.mp hallowed
      rw [wp_bind, wp_now]
      dsimp only
      have hguard : MarkerGuard w.files s { s with phase := some phase, updatedAt := env.now w.clock } := by
        intro _ _ hweights _
        rw [hphase] at hweights
        rw [Option.some.inj hweights] at hallowed
        exact (hcommitted (List.mem_singleton.mp hallowed)).elim
      refine wp_writeState_call hJ hraise.2
        (hJ.advance hlaw hs (.moved _ hphase hallowed hcommitted) hguard) fun w' h => ?_
      exact ⟨⟨s, hs, hactive⟩, _, h.persisted, hactive, rfl, fun _ => h.onlyState⟩

theorem wp_transition (hJ : Journaled law w) (id : Nat) (phase : ValidatorPhase) :
    wp (ValidatorTick.transition env id phase) (CallPost env law w fun _ w' => ∃ epochId,
      (∃ s, Persisted env w.files s ∧ s.activeEpochId = some epochId) ∧
      ∃ t, Persisted env w'.files t ∧ t.activeEpochId = some epochId ∧ t.phase = some phase ∧
        (phase ≠ .committed → OnlyState w w')) w := by
  unfold ValidatorTick.transition
  rw [wp_bind]
  refine ValidatorTick.wp_activeEpoch (fun epochId _ _ _ => ?_)
    (hJ.raise_of_reads (refl_of OnlyReads w))
  refine wp_mono (wp_transitionLocked_call hlaw hJ epochId phase) ?_ (fun _ _ h => h) (fun _ h => h)
  intro _ w' h
  exact ⟨h.1, epochId, h.2⟩

theorem wp_failEvaluationLocked_call (hJ : Journaled law w) (epochId : Int) (error : String) :
    wp (failEvaluationLocked env epochId error) (CallPost env law w fun _ _ => True) w := by
  have hraise : Journaled law w ∧ RaiseLeaves env w w := hJ.raise_of_reads (refl_of OnlyReads w)
  unfold failEvaluationLocked
  rw [wp_bind]
  refine wp_readState_journaled hlaw hJ fun s hs hledger => ?_
  dsimp only
  refine wp_ite (fun _ => hraise) (fun hevaluating => ?_)
  rw [not_or] at hevaluating
  have hphase : s.phase = some .evaluating := not_not.mp hevaluating.2
  rw [wp_bind, wp_now]
  dsimp only
  refine wp_writeState_call hJ hraise.2 (hJ.advance hlaw hs (.evaluationFailed _ _ hphase) ?_)
    fun _ _ => trivial
  refine markerGuard_of_phase ?_
  rw [hphase]
  exact fun he => nomatch he

/-- giving up the weights of an epoch, if the law allows it -/
theorem wp_failWeightsLocked_call (hJ : Journaled law w) (epochId : Int) (error : String)
    (hfail : ∀ s updatedAt, Persisted env w.files s → s.phase = some .weightsSubmitting →
      s.activeEpochId = some epochId → w.files (.epoch epochId .chainAttempt) = none →
      (failedState s error updatedAt).Valid →
      law w.trace (.wrote .state (stateContent (failedState s error updatedAt)))) :
    wp (failWeightsLocked env epochId error) (CallPost env law w fun _ _ => True) w := by
  have hraise : Journaled law w ∧ RaiseLeaves env w w := hJ.raise_of_reads (refl_of OnlyReads w)
  unfold failWeightsLocked
  rw [wp_bind]
  refine wp_readState_journaled hlaw hJ fun s hs hledger => ?_
  dsimp only
  refine wp_ite (fun _ => hraise) (fun hsubmitting => ?_)
  rw [not_or] at hsubmitting
  have hactive : s.activeEpochId = some epochId := not_not.mp hsubmitting.1
  have hphase : s.phase = some .weightsSubmitting := not_not.mp hsubmitting.2
  rw [wp_bind, wp_isFile]
  dsimp only
  refine wp_ite (fun _ => hraise) (fun hattempt => ?_)
  rw [wp_bind, wp_now]
  dsimp only
  exact wp_writeState_call hJ hraise.2 (hfail s _ hs hphase hactive
    (Option.not_isSome_iff_eq_none.mp hattempt)) fun _ _ => trivial

theorem wp_failEvaluation (hJ : Journaled law w) (id : Nat) (error : String) :
    wp (ValidatorTick.failEvaluation env id error) (CallPost env law w fun _ _ => True) w := by
  unfold ValidatorTick.failEvaluation
  rw [wp_bind]
  exact ValidatorTick.wp_activeEpoch
    (fun epochId _ _ _ => wp_failEvaluationLocked_call hlaw hJ epochId error)
    (hJ.raise_of_reads (refl_of OnlyReads w))

theorem wp_settleEvaluation_call (hJ : Journaled law w) (id : Nat) (exc : Option Exn) :
    wp (ValidatorTick.settleEvaluation env id exc) (CallPost env law w fun _ _ => True) w := by
  unfold ValidatorTick.settleEvaluation
  rw [wp_bind, wp_get]
  dsimp only
  split
  · next epochId _ _ =>
    rw [wp_bind]
    refine wp_readState_journaled hlaw hJ fun s hs hledger => ?_
    dsimp only
    refine wp_ite (fun _ => ?_) (fun _ => ⟨hJ, trivial⟩)
    rw [wp_bind]
    exact wp_mono (wp_failEvaluationLocked_call hlaw hJ epochId _) (fun _ _ h => ⟨h.1, trivial⟩)
      (fun _ _ h => h) (fun _ h => h)
  · exact ⟨hJ, trivial⟩

omit hlaw in
/-- a call and then a clean-up that only touches the lock and the tick objects -/
theorem wp_ensure_call {α : Type} {p : M α} {cleanup : M Unit} {R : α → World → Prop} {w₀ : World}
    (hp : wp p (CallPost env law w₀ R) w)
    (hcleanup : ∀ w₁, wp cleanup (Post.returns fun _ w' => OnlyReads w₁ w') w₁)
    (hR : ∀ a w₁ w', OnlyReads w₁ w' → R a w₁ → R a w') :
    wp (p.ensure cleanup) (CallPost env law w₀ R) w := by
  rw [wp_ensure]
  refine wp_mono hp ?_ ?_ (fun _ h => h)
  · intro a w₁ h
    refine wp_mono (hcleanup w₁) ?_ (fun _ _ => False.elim) (fun _ => False.elim)
    exact fun _ w' hr => ⟨h.1.of_reads hr, hR a w₁ w' hr h.2⟩
  · intro e w₁ h
    refine wp_mono (hcleanup w₁) ?_ (fun _ _ => False.elim) (fun _ => False.elim)
    intro _ w' hr
    exact ⟨h.1.of_reads hr, h.2.congr rfl (congrFun hr.files .state)⟩

omit hlaw in
theorem wp_releaseLock (o : Owner) (w : World) :
    wp (releaseLock o) (Post.returns fun _ w' => OnlyReads w w') w := by
  have hreads : OnlyReads w _ := wp_always.mp (onlyReads_releaseLock o w)
  exact hreads

theorem wp_exit (hJ : Journaled law w) (id : Nat) (exc : Option Exn) :
    wp (ValidatorTick.exit env id exc) (CallPost env law w fun _ _ => True) w := by
  refine wp_ensure_call (wp_settleEvaluation_call hlaw hJ id exc) (fun w₁ => ?_)
    (fun _ _ _ _ _ => trivial)
  rw [wp_bind, wp_get]
  dsimp only
  unfold ValidatorTick.setObject
  rw [wp_bind, wp_modify]
  dsimp only
  refine wp_mono (wp_releaseLock (.tick id) _) ?_ (fun _ _ h => h) (fun _ h => h)
  exact fun _ w' hr => ⟨hr.files, hr.trace⟩

theorem wp_recoverReceipt (hJ : Journaled law w) :
    wp (recoverReceipt env) (CallPost env law w fun _ _ => True) w := by
  unfold recoverReceipt
  rw [wp_bind]
  refine wp_mono (onlyReads_acquireLock .recovery w) ?_ (fun _ w₁ h₁ => hJ.raise_of_reads h₁)
    (fun w₁ h₁ => hJ.of_reads h₁)
  intro _ w₁ h₁
  have hJ₁ : Journaled law w₁ := hJ.of_reads h₁
  have hraise : Journaled law w₁ ∧ RaiseLeaves env w₁ w₁ :=
    hJ₁.raise_of_reads (refl_of OnlyReads w₁)
  have hstate : w₁.files .state = w.files .state := congrFun h₁.files .state
  refine CallPost.weaken ?_ hstate (fun _ _ h => h)
  refine wp_ensure_call ?_ (wp_releaseLock .recovery) (fun _ _ _ _ _ => trivial)
  unfold recoverLocked
  rw [wp_bind]
  refine wp_readState_journaled hlaw hJ₁ fun s hs hledger => ?_
  dsimp only
  split
  · next epochId hphase hactive =>
    rw [wp_bind, wp_raiseIfAmbiguousAttempt]
    refine ⟨fun _ _ => ?_, fun _ _ => hraise⟩
    dsimp only
    rw [wp_bind, wp_isFile]
    dsimp only
    refine wp_ite (fun _ => ?_) (fun _ => ?_)
    · rw [wp_bind, wp_isFile]
      exact hraise
    · exact wp_mono (wp_commit_call hlaw hJ₁ hs hphase hactive) (fun _ _ h => ⟨h.1, trivial⟩)
        (fun _ _ h => h) (fun _ h => h)
  · exact hraise

end

end Dolores
