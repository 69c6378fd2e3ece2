import Dolores.Lib.Except
import Dolores.Validator.State

/-!
# What the store reads back

* `ValidatorRuntimeState.Valid`   the checks of `validate`, one field each;
* `stateOf_valid`                 a state that is read is valid;
* `stateOf_written`               a valid state is read back as it was written, with the keys of its
                                  receipts sorted.
-/

namespace Dolores
open Crash Except

namespace ValidatorRuntimeState

/-- what `validate` checks -/
structure Valid (s : ValidatorRuntimeState) : Prop where
  version : s.version = stateVersion
  next : 1 ≤ s.nextEpochId
  attempt : 0 ≤ s.attempt
  together : s.activeEpochId.isNone = s.phase.isNone
  active : ∀ epochId, s.activeEpochId = some epochId →
    1 ≤ epochId ∧ epochId < s.nextEpochId ∧ 1 ≤ s.attempt
  committed : s.phase = some .committed → s.lastCompletedEpoch = s.activeEpochId

theorem validateActive_ok_iff (s : ValidatorRuntimeState) (epochId : Int) :
    s.validateActive epochId = .ok () ↔ 1 ≤ epochId ∧ epochId < s.nextEpochId ∧ 1 ≤ s.attempt := by
  unfold validateActive
  constructor
  · intro h
    split at h
    · exact nomatch h
    next hid =>
    split at h
    · exact nomatch h
    next hattempt =>
    omega
  · intro h
    rw [if_neg (by omega), if_neg (by omega)]

theorem validate_ok_iff (s : ValidatorRuntimeState) : s.validate = .ok () ↔ s.Valid := by
  unfold validate
  constructor
  · intro h
    split at h
    · exact nomatch h
    next hversion =>
    split at h
    · exact nomatch h
    next hnext =>
    split at h
    · exact nomatch h
    next hattempt =>
    split at h
    · exact nomatch h
    next htogether =>
    obtain ⟨_, hactive, h⟩ := bind_ok h
    split at h
    · exact nomatch h
    next hcommitted =>
    refine ⟨not_not.mp hversion, by omega, by omega, not_not.mp htogether, fun epochId he => ?_,
      fun hc => ?_⟩
    · rw [he] at hactive
      exact (validateActive_ok_iff s epochId).mp hactive
    · by_contra hne
      exact hcommitted ⟨hc, hne⟩
  · intro h
    have hnext := h.next
    have hattempt := h.attempt
    have hcommitted : ¬ (s.phase = some .committed ∧ s.lastCompletedEpoch ≠ s.activeEpochId) :=
      fun hc => hc.2 (h.committed hc.1)
    rw [if_neg (not_not_intro h.version), if_neg (by omega), if_neg (by omega),
      if_neg (not_not_intro h.together), if_neg hcommitted]
    cases he : s.activeEpochId with
    | none => rfl
    | some epochId =>
      show (s.validateActive epochId >>= fun _ => Except.ok ()) = .ok ()
      rw [(validateActive_ok_iff s epochId).mpr (h.active epochId he), ok_bind]

theorem valid_default : Valid {} where
  version := rfl
  next := le_refl 1
  attempt := le_refl 0
  together := rfl
  active := fun _ h => nomatch h
  committed := fun h => nomatch h

/-- the state with the keys of its receipts sorted -/
def canon (s : ValidatorRuntimeState) : ValidatorRuntimeState :=
  { s with
    lastReceipt := s.lastReceipt.map Obj.canon
    lastSuccessfulWeightReceipt := s.lastSuccessfulWeightReceipt.map Obj.canon }

theorem Valid.canon {s : ValidatorRuntimeState} (h : s.Valid) : s.canon.Valid :=
  ⟨h.version, h.next, h.attempt, h.together, h.active, h.committed⟩

/-! ## the fields of a written state -/

section
variable (T : PyText)

theorem optionalInt_written (o : Option Int) :
    optionalInt (Json.canon (.ofOption .int o)) = .ok o := by
  cases o with
  | none =>
    show optionalInt (Json.canon .null) = _
    rw [Json.canon_null]
    rfl
  | some i =>
    show optionalInt (Json.canon (.int i)) = _
    rw [Json.canon_int]
    rfl

theorem optionalString_written (o : Option String) :
    optionalString T (Json.canon (.ofOption .str o)) = o := by
  cases o with
  | none =>
    show optionalString T (Json.canon .null) = _
    rw [Json.canon_null]
    rfl
  | some text =>
    show optionalString T (Json.canon (.str text)) = _
    rw [Json.canon_str]
    rfl

theorem optionalDict_written (o : Option Obj) :
    optionalDict (Json.canon (.ofOption .obj o)) = .ok (o.map Obj.canon) := by
  cases o with
  | none =>
    show optionalDict (Json.canon .null) = _
    rw [Json.canon_null]
    rfl
  | some record =>
    show optionalDict (Json.canon (.obj record)) = _
    rw [Json.canon_obj']
    rfl

theorem optionalPhase_written (o : Option ValidatorPhase) :
    optionalPhase T (Json.canon (.ofOption (fun phase => .str phase.text) o)) = .ok o := by
  cases o with
  | none =>
    show optionalPhase T (Json.canon .null) = _
    rw [Json.canon_null]
    rfl
  | some phase =>
    show optionalPhase T (Json.canon (.str phase.text)) = _
    rw [Json.canon_str]
    have htext : ValidatorPhase.ofText ((Json.str phase.text).pyStr T) = some phase :=
      ValidatorPhase.ofText_text phase
    unfold optionalPhase
    dsimp only
    rw [htext]

theorem fields_written (s : ValidatorRuntimeState) : fields T s.toDict.canon = .ok s.canon := by
  have hzero : ∀ key, getZero s.toDict.canon key =
      ((Dict.get? s.toDict key).map Json.canon).getD (.int 0) := by
    intro key
    unfold getZero
    rw [Obj.get?_canon]
  have hget : ∀ key, Obj.get s.toDict.canon key = (Obj.get s.toDict key).canon :=
    fun key => Obj.get_canon _ key
  have hversion : getZero s.toDict.canon "version" = .int s.version := by
    rw [hzero]
    exact Json.canon_int _
  have hnext : getZero s.toDict.canon "next_epoch_id" = .int s.nextEpochId := by
    rw [hzero]
    exact Json.canon_int _
  have hattempt : getZero s.toDict.canon "attempt" = .int s.attempt := by
    rw [hzero]
    exact Json.canon_int _
  have hupdated : (Dict.get? s.toDict.canon "updated_at").getD (.str "") = .str s.updatedAt := by
    rw [Obj.get?_canon]
    exact Json.canon_str _
  have hactive : optionalInt (s.toDict.canon.get "active_epoch_id") = .ok s.activeEpochId := by
    rw [hget]
    exact optionalInt_written _
  have hphase : optionalPhase T (s.toDict.canon.get "phase") = .ok s.phase := by
    rw [hget]
    exact optionalPhase_written T _
  have hcompleted : optionalInt (s.toDict.canon.get "last_completed_epoch") =
      .ok s.lastCompletedEpoch := by
    rw [hget]
    exact optionalInt_written _
  have hfailed : optionalInt (s.toDict.canon.get "last_failed_epoch") = .ok s.lastFailedEpoch := by
    rw [hget]
    exact optionalInt_written _
  have herror : optionalString T (s.toDict.canon.get "last_error") = s.lastError := by
    rw [hget]
    exact optionalString_written T _
  have hreceipt : optionalDict (s.toDict.canon.get "last_receipt") =
      .ok (s.lastReceipt.map Obj.canon) := by
    rw [hget]
    exact optionalDict_written _
  have hsuccessful : optionalDict (s.toDict.canon.get "last_successful_weight_receipt") =
      .ok (s.lastSuccessfulWeightReceipt.map Obj.canon) := by
    rw [hget]
    exact optionalDict_written _
  unfold fields
  rw [hversion, hnext, hattempt, hactive, hphase, hcompleted, hfailed, hreceipt, hsuccessful,
    herror, hupdated]
  rfl

end

end ValidatorRuntimeState

/-! ## the state file -/

section
variable {env : Env}

theorem fromDict_valid {T : PyText} {payload : Obj} {s : ValidatorRuntimeState}
    (h : ValidatorRuntimeState.fromDict T payload = .ok s) : s.Valid := by
  unfold ValidatorRuntimeState.fromDict at h
  split at h
  · exact nomatch h
  · exact nomatch h
  · exact nomatch h
  · next state _ =>
    obtain ⟨_, hvalid, h⟩ := bind_ok h
    rw [← Except.ok.inj h]
    exact (ValidatorRuntimeState.validate_ok_iff state).mp hvalid

theorem stateOf_valid {content : Option Content} {s : ValidatorRuntimeState}
    (h : stateOf env content = .ok s) : s.Valid := by
  unfold stateOf at h
  split at h
  · rw [← Except.ok.inj h]
    exact ValidatorRuntimeState.valid_default
  · exact nomatch h
  · exact nomatch h
  · exact fromDict_valid h
  · exact nomatch h

variable (env) in
/-- **A valid state is read back as it was written.** -/
theorem stateOf_written {s : ValidatorRuntimeState} (h : s.Valid) :
    stateOf env (some (.doc (Json.canon (.obj s.toDict)))) = .ok s.canon := by
  have hvalid := (ValidatorRuntimeState.validate_ok_iff s.canon).mpr h.canon
  rw [Json.canon_obj']
  show ValidatorRuntimeState.fromDict env.text s.toDict.canon = _
  unfold ValidatorRuntimeState.fromDict
  rw [ValidatorRuntimeState.fields_written]
  dsimp only
  rw [hvalid]
  rfl

/-! ## the states of a tick -/

theorem failedState_valid {s : ValidatorRuntimeState} (h : s.Valid) (error updatedAt : String) :
    (failedState s error updatedAt).Valid where
  version := h.version
  next := h.next
  attempt := le_refl 0
  together := rfl
  active := fun _ he => nomatch he
  committed := fun hc => nomatch hc

/-- the state in which the next epoch is allocated -/
def allocatedState (state : ValidatorRuntimeState) (updatedAt : String) : ValidatorRuntimeState :=
  { state with
    nextEpochId := state.nextEpochId + 1, activeEpochId := some state.nextEpochId,
    phase := some .allocated, attempt := 1, updatedAt }

theorem allocatedState_valid {s : ValidatorRuntimeState} (h : s.Valid) (updatedAt : String) :
    (allocatedState s updatedAt).Valid where
  version := h.version
  next := by
    have hnext := h.next
    show 1 ≤ s.nextEpochId + 1
    omega
  attempt := Int.one_nonneg
  together := rfl
  active := by
    intro epochId he
    have hnext := h.next
    have hepoch : s.nextEpochId = epochId := Option.some.inj he
    refine ⟨by omega, ?_, le_refl 1⟩
    show epochId < s.nextEpochId + 1
    omega
  committed := fun hc => nomatch hc

theorem wp_writeState_of_noFaults (hf : env.NoFaults) {s : ValidatorRuntimeState} (h : s.Valid)
    {Q : Post World Exn Unit} {w : World}
    (hQ : Q.ok () (World.put .state (.doc (Json.canon (.obj s.toDict))) w.tickClock)) :
    wp (writeState env s) Q w := by
  unfold writeState
  rw [wp_bind, (ValidatorRuntimeState.validate_ok_iff s).mpr h, wp_ofExcept_ok]
  dsimp only
  rw [wp_atomicWriteJson_of_noFaults hf]
  exact hQ

end

end Dolores
