import Dolores.Validator.State

/-!
# What the operations of a tick raise

`tick_command` gives an epoch up when `run_epoch` raises `EpochCompletionError`.  None of the checks
and writes of a commit raises it.

* `Exn.Other`                    any other exception;
* `other_verifyEpochCompletion`  the marker is not accepted;
* `other_stateOf`                the state is not read;
* `other_transition`             a change of the phase, the commit included.
-/

namespace Dolores
open Crash Except

/-- any exception but `EpochCompletionError` -/
def Exn.Other (e : Exn) : Prop := ∀ mode reason, e ≠ .epochCompletionError mode reason

theorem Interrupt.other (i : Interrupt) : i.exn.Other := by
  cases i with
  | os => exact nofun
  | «exception» => exact nofun
  | base => exact nofun

section
variable {env : Env} {files : Files} {epochId : Int} {α : Type}

theorem other_invalidCompletion (msg : String) :
    OnlyRaises Exn.Other (invalidCompletion msg : Except Exn α) := OnlyRaises.error nofun

theorem other_corrupted (msg : String) : OnlyRaises Exn.Other (corrupted msg : Except Exn α) :=
  OnlyRaises.error nofun

theorem other_inNames (j : Json) (names : List String) : OnlyRaises Exn.Other (j.inNames names) := by
  unfold Json.inNames
  cases j with
  | arr => exact OnlyRaises.error nofun
  | obj => exact OnlyRaises.error nofun
  | null => exact OnlyRaises.ok _
  | bool => exact OnlyRaises.ok _
  | int => exact OnlyRaises.ok _
  | float => exact OnlyRaises.ok _
  | str => exact OnlyRaises.ok _

theorem other_loadJsonObject (path : Path) (label : String) :
    OnlyRaises Exn.Other (loadJsonObject env files path label) := by
  unfold loadJsonObject
  split
  · exact OnlyRaises.ok _
  · exact other_invalidCompletion _
  · exact other_invalidCompletion _

theorem other_verifyMarkerHeader (marker : Obj) :
    OnlyRaises Exn.Other (verifyMarkerHeader env epochId marker) := by
  refine OnlyRaises.ite (other_invalidCompletion _) (OnlyRaises.ite (other_invalidCompletion _) ?_)
  refine OnlyRaises.bind (other_inNames _ _) fun recoverable _ => ?_
  split
  · split
    · exact OnlyRaises.ok _
    · exact other_invalidCompletion _
  · exact other_invalidCompletion _

theorem other_verifyArtifact (mode : String) (artifacts : Obj) (p : String × EpochFile) :
    OnlyRaises Exn.Other (verifyArtifact env files epochId mode artifacts p) := by
  refine OnlyRaises.ite ?_ ?_
  · split
    · exact OnlyRaises.ok _
    · exact other_invalidCompletion _
    · exact other_invalidCompletion _
  · split
    · refine OnlyRaises.ite (other_invalidCompletion _) ?_
      split
      · refine OnlyRaises.ite (other_invalidCompletion _) ?_
        split
        · exact other_invalidCompletion _
        · exact OnlyRaises.ite (other_invalidCompletion _) (OnlyRaises.ok _)
      · exact other_invalidCompletion _
    · exact other_invalidCompletion _

theorem other_verifyWeights (mode reason : String) (weights : Obj) :
    OnlyRaises Exn.Other (verifyWeights epochId mode reason weights) := by
  unfold verifyWeights
  split
  · exact OnlyRaises.ite (other_invalidCompletion _) (OnlyRaises.ok _)
  · exact other_invalidCompletion _

theorem other_verifyReceipt (mode reason : String) (receipt : Obj) :
    OnlyRaises Exn.Other (verifyReceipt epochId mode reason receipt) :=
  OnlyRaises.ite (other_invalidCompletion _)
    (OnlyRaises.ite (other_invalidCompletion _) (OnlyRaises.ok _))

theorem other_verifyAttempt (attempt : Obj) :
    OnlyRaises Exn.Other (verifyAttempt epochId attempt) :=
  OnlyRaises.ite (other_invalidCompletion _) (OnlyRaises.ok _)

theorem other_verifyEpochCompletion :
    OnlyRaises Exn.Other (verifyEpochCompletion env files epochId) := by
  refine OnlyRaises.bind (other_loadJsonObject _ _) fun marker _ => ?_
  refine OnlyRaises.bind (other_verifyMarkerHeader marker) fun header _ => ?_
  refine OnlyRaises.bind (OnlyRaises.forM (other_verifyArtifact _ _)) fun _ _ => ?_
  refine OnlyRaises.bind (other_loadJsonObject _ _) fun minerState _ => ?_
  refine OnlyRaises.ite (other_invalidCompletion _) ?_
  refine OnlyRaises.bind (other_loadJsonObject _ _) fun weights _ => ?_
  refine OnlyRaises.bind (other_verifyWeights _ _ weights) fun _ _ => ?_
  refine OnlyRaises.bind (other_loadJsonObject _ _) fun panel _ => ?_
  refine OnlyRaises.ite (other_invalidCompletion _) ?_
  refine OnlyRaises.bind (OnlyRaises.ite (OnlyRaises.ok _) ?_) fun details _ => ?_
  · refine OnlyRaises.bind (other_loadJsonObject _ _) fun receipt _ => ?_
    exact OnlyRaises.bind (other_verifyReceipt _ _ receipt) fun _ _ => OnlyRaises.ok _
  · refine OnlyRaises.bind (OnlyRaises.ite ?_ (OnlyRaises.ok _)) fun _ _ => OnlyRaises.ok _
    exact OnlyRaises.bind (other_loadJsonObject _ _) fun attempt _ => other_verifyAttempt attempt

theorem other_verifiedCompletion :
    OnlyRaises Exn.Other (verifiedCompletion env files epochId) := by
  unfold verifiedCompletion
  split
  · exact other_corrupted _
  · exact other_verifyEpochCompletion

theorem other_loadStateObject (path : Path) (label : String) :
    OnlyRaises Exn.Other (loadStateObject env files path label) := by
  unfold loadStateObject
  split
  · exact OnlyRaises.ok _
  · exact other_corrupted _
  · exact other_corrupted _

theorem other_checkAttempt : OnlyRaises Exn.Other (checkAttempt env files epochId) := by
  unfold checkAttempt
  dsimp only
  split
  · exact OnlyRaises.ok _
  · refine OnlyRaises.bind (other_loadStateObject _ _) fun attempt _ => ?_
    refine OnlyRaises.ite (other_corrupted _) ?_
    refine OnlyRaises.bind (other_inNames _ _) fun known _ => ?_
    exact OnlyRaises.ite (other_corrupted _)
      (OnlyRaises.ite (OnlyRaises.error nofun) (OnlyRaises.ok _))

theorem other_validate (s : ValidatorRuntimeState) : OnlyRaises Exn.Other s.validate := by
  refine OnlyRaises.ite (other_corrupted _) (OnlyRaises.ite (other_corrupted _)
    (OnlyRaises.ite (other_corrupted _) (OnlyRaises.ite (other_corrupted _) ?_)))
  refine OnlyRaises.bind ?_ fun _ _ => OnlyRaises.ite (other_corrupted _) (OnlyRaises.ok _)
  split
  · exact OnlyRaises.ok _
  · exact OnlyRaises.ite (other_corrupted _)
      (OnlyRaises.ite (other_corrupted _) (OnlyRaises.ok _))

theorem other_effectful {whole cut : World → World} :
    RaisesOnly Exn.Other (effectful env whole cut) := fun _ =>
  wp_effectful trivial Interrupt.other Interrupt.other trivial trivial

theorem other_writeState (s : ValidatorRuntimeState) : RaisesOnly Exn.Other (writeState env s) :=
  RaisesOnly.bind (RaisesOnly.ofExcept (other_validate s)) fun _ => other_effectful

theorem other_commitFromCompletion (s : ValidatorRuntimeState) :
    RaisesOnly Exn.Other (commitFromCompletion env s epochId) := by
  refine RaisesOnly.bind (RaisesOnly.bind RaisesOnly.get fun w =>
    RaisesOnly.ofExcept other_checkAttempt) fun _ => ?_
  refine RaisesOnly.bind (RaisesOnly.bind RaisesOnly.get fun w => RaisesOnly.pure _) fun marked => ?_
  refine RaisesOnly.ite (RaisesOnly.raise nofun) ?_
  refine RaisesOnly.bind RaisesOnly.get fun w => ?_
  refine RaisesOnly.bind (RaisesOnly.ofExcept other_verifiedCompletion) fun completed => ?_
  refine RaisesOnly.bind (RaisesOnly.modify _) fun _ => RaisesOnly.bind other_effectful fun _ => ?_
  exact RaisesOnly.bind (fun _ => trivial) fun updatedAt => RaisesOnly.pure _

theorem other_toInt (j : Json) : OnlyRaises Exn.Other j.toInt := by
  unfold Json.toInt
  split
  · exact OnlyRaises.ok _
  · exact OnlyRaises.ok _
  · exact OnlyRaises.ok _
  · exact OnlyRaises.error nofun
  · exact OnlyRaises.error nofun
  · split
    · exact OnlyRaises.ok _
    · exact OnlyRaises.error nofun
  · exact OnlyRaises.error nofun

theorem other_optionalInt (j : Json) : OnlyRaises Exn.Other (optionalInt j) := by
  unfold optionalInt
  split
  · exact OnlyRaises.ok _
  · exact OnlyRaises.bind (other_toInt _) fun _ _ => OnlyRaises.ok _

theorem other_optionalDict (j : Json) : OnlyRaises Exn.Other (optionalDict j) := by
  unfold optionalDict
  split
  · exact OnlyRaises.ok _
  · exact OnlyRaises.ok _
  · exact OnlyRaises.error nofun

theorem other_optionalPhase (T : PyText) (j : Json) :
    OnlyRaises Exn.Other (optionalPhase T j) := by
  unfold optionalPhase
  split
  · exact OnlyRaises.ok _
  · split
    · exact OnlyRaises.ok _
    · exact OnlyRaises.error nofun

theorem other_fields (T : PyText) (payload : Obj) :
    OnlyRaises Exn.Other (ValidatorRuntimeState.fields T payload) := by
  refine OnlyRaises.bind (other_toInt _) fun _ _ => OnlyRaises.bind (other_toInt _) fun _ _ => ?_
  refine OnlyRaises.bind (other_optionalInt _) fun _ _ => ?_
  refine OnlyRaises.bind (other_optionalPhase T _) fun _ _ => ?_
  refine OnlyRaises.bind (other_toInt _) fun _ _ => OnlyRaises.bind (other_optionalInt _) fun _ _ => ?_
  refine OnlyRaises.bind (other_optionalInt _) fun _ _ => ?_
  refine OnlyRaises.bind (other_optionalDict _) fun _ _ => ?_
  exact OnlyRaises.bind (other_optionalDict _) fun _ _ => OnlyRaises.ok _

theorem other_fromDict (T : PyText) (payload : Obj) :
    OnlyRaises Exn.Other (ValidatorRuntimeState.fromDict T payload) := by
  unfold ValidatorRuntimeState.fromDict
  split
  · exact other_corrupted _
  · exact other_corrupted _
  · next exc _ _ hfields => exact OnlyRaises.error (other_fields T payload exc hfields)
  · exact OnlyRaises.bind (other_validate _) fun _ _ => OnlyRaises.ok _

theorem other_stateOf (content : Option Content) : OnlyRaises Exn.Other (stateOf env content) := by
  unfold stateOf
  split
  · exact OnlyRaises.ok _
  · exact OnlyRaises.error nofun
  · exact other_corrupted _
  · exact other_fromDict _ _
  · exact other_corrupted _

theorem other_transition (id : Nat) (phase : ValidatorPhase) :
    RaisesOnly Exn.Other (ValidatorTick.transition env id phase) := by
  refine RaisesOnly.bind (fun w => ?_) fun epochId => ?_
  · exact ValidatorTick.wp_activeEpoch (fun _ _ _ _ => trivial) nofun
  refine RaisesOnly.bind ?_ fun s => RaisesOnly.ite (RaisesOnly.raise nofun) ?_
  · exact RaisesOnly.bind RaisesOnly.get fun w => RaisesOnly.ofExcept (other_stateOf _)
  split
  · exact RaisesOnly.raise nofun
  · refine RaisesOnly.ite (RaisesOnly.pure _) (RaisesOnly.ite (RaisesOnly.raise nofun) ?_)
    refine RaisesOnly.ite ?_ ?_
    · refine RaisesOnly.bind (other_commitFromCompletion s) fun committed => ?_
      exact RaisesOnly.bind (other_writeState committed) fun _ => RaisesOnly.pure _
    · refine RaisesOnly.bind (fun _ => trivial) fun updatedAt => ?_
      exact RaisesOnly.bind (other_writeState _) fun _ => RaisesOnly.pure _

end

end Dolores
