import Dolores.Epoch.Completion

/-!
# The validator's durable state (`validator_state.py`)

* `ValidatorRuntimeState`   the content of `state.json`, with `toDict`, `fromDict`, `validate`;
* `readState`, `writeState`  the store's access to it;
* `beginLocked`, `transitionLocked`, `failEvaluationLocked`, `failWeightsLocked`,
  `recoverReceipt`         the operations of the store;
* `ValidatorTick`           the context that holds the lock across a tick, one object per number.
-/

namespace Dolores
open Crash

inductive ValidatorPhase where
  | allocated
  | querying
  | evaluating
  | weightsSubmitting
  | committed
deriving DecidableEq, Repr

namespace ValidatorPhase

def text : ValidatorPhase → String
  | .allocated => "allocated"
  | .querying => "querying"
  | .evaluating => "evaluating"
  | .weightsSubmitting => "weights_submitting"
  | .committed => "committed"

/-- `PHASES` -/
def all : List ValidatorPhase := [.allocated, .querying, .evaluating, .weightsSubmitting, .committed]

def ofText (text : String) : Option ValidatorPhase := all.find? fun phase => phase.text == text

/-- the phases that may follow -/
def allowed : ValidatorPhase → List ValidatorPhase
  | .allocated => [.querying, .evaluating]
  | .querying => [.evaluating]
  | .evaluating => [.weightsSubmitting]
  | .weightsSubmitting => [.committed]
  | .committed => []

theorem ofText_text (phase : ValidatorPhase) : ofText phase.text = some phase := by
  cases phase <;> decide

end ValidatorPhase

def stateVersion : Int := 1

structure ValidatorRuntimeState where
  version : Int := stateVersion
  nextEpochId : Int := 1
  activeEpochId : Option Int := none
  phase : Option ValidatorPhase := none
  attempt : Int := 0
  lastCompletedEpoch : Option Int := none
  lastFailedEpoch : Option Int := none
  lastError : Option String := none
  lastReceipt : Option Obj := none
  lastSuccessfulWeightReceipt : Option Obj := none
  updatedAt : String := ""

def corrupted {α : Type} (msg : String) : Except Exn α := .error (.stateCorruptionError msg)

namespace ValidatorRuntimeState

def toDict (s : ValidatorRuntimeState) : Obj := [
  ("version", .int s.version),
  ("next_epoch_id", .int s.nextEpochId),
  ("active_epoch_id", .ofOption .int s.activeEpochId),
  ("phase", .ofOption (fun phase => .str phase.text) s.phase),
  ("attempt", .int s.attempt),
  ("last_completed_epoch", .ofOption .int s.lastCompletedEpoch),
  ("last_failed_epoch", .ofOption .int s.lastFailedEpoch),
  ("last_error", .ofOption .str s.lastError),
  ("last_receipt", .ofOption .obj s.lastReceipt),
  ("last_successful_weight_receipt", .ofOption .obj s.lastSuccessfulWeightReceipt),
  ("updated_at", .str s.updatedAt)]

/-- the checks on an active epoch -/
def validateActive (s : ValidatorRuntimeState) (epochId : Int) : Except Exn Unit :=
  if epochId < 1 ∨ s.nextEpochId ≤ epochId then
    corrupted "active epoch must be allocated below next_epoch_id"
  else if s.attempt < 1 then corrupted "active epoch must have a positive attempt"
  else .ok ()

def validate (s : ValidatorRuntimeState) : Except Exn Unit :=
  if s.version ≠ stateVersion then
    corrupted s!"unsupported validator state version: {s.version}"
  else if s.nextEpochId < 1 then corrupted "next_epoch_id must be positive"
  else if s.attempt < 0 then corrupted "attempt must be non-negative"
  else if s.activeEpochId.isNone ≠ s.phase.isNone then
    corrupted "active_epoch_id and phase must be set together"
  else do
    (match s.activeEpochId with
      | none => .ok ()
      | some epochId => s.validateActive epochId : Except Exn Unit)
    if s.phase = some .committed ∧ s.lastCompletedEpoch ≠ s.activeEpochId then
      corrupted "committed phase must match last_completed_epoch"
    else .ok ()

end ValidatorRuntimeState

/-! ## reading the fields -/

section
variable (T : PyText)

/-- `_optional_int` -/
def optionalInt : Json → Except Exn (Option Int)
  | .null => .ok none
  | j => do
    let i ← j.toInt
    .ok (some i)

/-- `_optional_string` -/
def optionalString : Json → Option String
  | .null => none
  | j => some (j.pyStr T)

/-- `_optional_dict` -/
def optionalDict : Json → Except Exn (Option Obj)
  | .null => .ok none
  | .obj fields => .ok (some fields)
  | _ => .error (.typeError "last_receipt must be an object")

/-- `_optional_phase` -/
def optionalPhase : Json → Except Exn (Option ValidatorPhase)
  | .null => .ok none
  | j =>
    match ValidatorPhase.ofText (j.pyStr T) with
    | some phase => .ok (some phase)
    | none => .error (.valueError ("unknown validator phase: " ++ j.pyStr T))

/-- `payload.get(key, 0)` -/
def getZero (payload : Obj) (key : String) : Json := (Dict.get? payload key).getD (.int 0)

namespace ValidatorRuntimeState

/-- the call of the class in `from_dict` -/
def fields (payload : Obj) : Except Exn ValidatorRuntimeState := do
  let version ← (getZero payload "version").toInt
  let nextEpochId ← (getZero payload "next_epoch_id").toInt
  let activeEpochId ← optionalInt (payload.get "active_epoch_id")
  let phase ← optionalPhase T (payload.get "phase")
  let attempt ← (getZero payload "attempt").toInt
  let lastCompletedEpoch ← optionalInt (payload.get "last_completed_epoch")
  let lastFailedEpoch ← optionalInt (payload.get "last_failed_epoch")
  let lastReceipt ← optionalDict (payload.get "last_receipt")
  let lastSuccessfulWeightReceipt ← optionalDict (payload.get "last_successful_weight_receipt")
  .ok { version, nextEpochId, activeEpochId, phase, attempt, lastCompletedEpoch, lastFailedEpoch,
        lastError := optionalString T (payload.get "last_error"), lastReceipt,
        lastSuccessfulWeightReceipt,
        updatedAt := ((Dict.get? payload "updated_at").getD (.str "")).pyStr T }

def fromDict (payload : Obj) : Except Exn ValidatorRuntimeState :=
  match fields T payload with
  | .error (.typeError msg) => corrupted ("invalid validator state fields: " ++ msg)
  | .error (.valueError msg) => corrupted ("invalid validator state fields: " ++ msg)
  | .error exc => .error exc
  | .ok state => do
    state.validate
    .ok state

end ValidatorRuntimeState

end

/-! ## the store -/

section
variable (env : Env)

/-- `ValidatorStateStore.read`, of the content of `state.json` -/
def stateOf (content : Option Content) : Except Exn ValidatorRuntimeState :=
  match content.map (Content.decoded env) with
  | none => .ok {}
  | some .badUtf8 => .error (.unicodeDecodeError "invalid utf-8")
  | some .badJson => corrupted "cannot read validator state: Expecting value"
  | some (.value (.obj payload)) => ValidatorRuntimeState.fromDict env.text payload
  | some (.value _) => corrupted "validator state must be a JSON object"

def readState : M ValidatorRuntimeState := do
  let w ← Proc.get
  Proc.ofExcept (stateOf env (w.files .state))

def writeState (state : ValidatorRuntimeState) : M Unit := do
  Proc.ofExcept state.validate
  atomicWriteJson env .state (.obj state.toDict)

/-- `_load_json_object` -/
def loadStateObject (files : Files) (path : Path) (label : String) : Except Exn Obj :=
  match (files path).map (Content.decoded env) with
  | some (.value (.obj payload)) => .ok payload
  | some (.value _) => corrupted (label ++ " must be a JSON object")
  | _ => corrupted ("cannot read " ++ label ++ " " ++ env.fullPath path)

/-- `path.is_file()` -/
def isFile (path : Path) : M Bool := do
  let w ← Proc.get
  pure (w.files path).isSome

/-- `repr(value)` -/
def Json.pyRepr (T : PyText) : Json → String
  | .str s => T.reprStr s
  | j => j.pyStr T

def attemptStatuses : List String := ["started", "ambiguous", "completed"]

/-- `_raise_if_ambiguous_attempt` -/
def checkAttempt (files : Files) (epochId : Int) : Except Exn Unit :=
  let path := Path.epoch epochId .chainAttempt
  match files path with
  | none => .ok ()
  | some _ => do
    let attempt ← loadStateObject env files path "chain attempt"
    if (attempt.get "epoch_id").eqInt epochId = false ∨
        (attempt.get "mode").eqStr "live_attempt" = false then
      corrupted ("invalid canonical chain attempt: " ++ env.fullPath path)
    else
      let status := attempt.get "status"
      let known ← status.inNames attemptStatuses
      if known = false then
        corrupted ("unknown chain attempt status: " ++ status.pyRepr env.text)
      else if status.eqStr "completed" = false then
        .error (.ambiguousWeightSubmissionError
          (s!"epoch {epochId} has an ambiguous live chain attempt at " ++ env.fullPath path ++
            "; automatic recovery and resubmission are forbidden"))
      else .ok ()

def raiseIfAmbiguousAttempt (epochId : Int) : M Unit := do
  let w ← Proc.get
  Proc.ofExcept (checkAttempt env w.files epochId)

/-! ### the commit -/

/-- `_receipt_succeeded` -/
def receiptSucceeded (receipt : Obj) : Bool := ["dry_run", "submitted"].any (receipt.get "mode").eqStr

/-- `verify_epoch_completion` under the handler of `_commit_from_completion` -/
def verifiedCompletion (files : Files) (epochId : Int) : Except Exn VerifiedCompletion :=
  match verifyEpochCompletion env files epochId with
  | .error (.epochCompletionValidationError msg) => corrupted ("invalid epoch completion: " ++ msg)
  | result => result

/-- `canonical_receipt` -/
def canonicalReceipt (epochId : Int) (receipt : Obj) : Obj :=
  Dict.set receipt "completion_marker" (.str (env.fullPath (.epoch epochId .completion)))

def committedState (state : ValidatorRuntimeState) (epochId : Int) (receipt : Obj)
    (updatedAt : String) : ValidatorRuntimeState :=
  { state with
    phase := some .committed
    lastCompletedEpoch := some epochId
    lastError := none
    lastReceipt := some receipt
    lastSuccessfulWeightReceipt :=
      if receiptSucceeded receipt then some receipt else state.lastSuccessfulWeightReceipt
    updatedAt }

/-- `_commit_from_completion` -/
def commitFromCompletion (state : ValidatorRuntimeState) (epochId : Int) :
    M ValidatorRuntimeState := do
  raiseIfAmbiguousAttempt env epochId
  let marked ← isFile (.epoch epochId .completion)
  if marked = false then
    Proc.raise (.ambiguousWeightSubmissionError
      s!"epoch {epochId} has no canonical completion marker")
  else
    let w ← Proc.get
    let completed ← Proc.ofExcept (verifiedCompletion env w.files epochId)
    logEvent (.verified epochId completed.minerState)
    atomicWriteJson env .minerState (.obj completed.minerState)
    let updatedAt ← now env
    pure (committedState state epochId (canonicalReceipt env epochId completed.receipt) updatedAt)

/-- the body of `recover_receipt` -/
def recoverLocked : M ValidatorRuntimeState := do
  let state ← readState env
  match state.phase, state.activeEpochId with
  | some .weightsSubmitting, some epochId => do
    raiseIfAmbiguousAttempt env epochId
    let marked ← isFile (.epoch epochId .completion)
    if marked = false then
      let receipt ← isFile (.epoch epochId .chainReceipt)
      Proc.raise (.ambiguousWeightSubmissionError (if receipt then
        s!"epoch {epochId} has a receipt written before artifacts but no canonical completion marker"
        else s!"epoch {epochId} has no canonical completion marker"))
    else
      let recovered ← commitFromCompletion env state epochId
      writeState env recovered
      pure recovered
  | _, _ => Proc.raise (.validatorStateError "no weights-submitting epoch is awaiting recovery")

def recoverReceipt : M ValidatorRuntimeState := do
  acquireLock env .recovery
  Proc.ensure (recoverLocked env) (releaseLock .recovery)

/-! ### the operations of a tick -/

/-- no epoch is active any more, and the last one failed -/
def failedState (state : ValidatorRuntimeState) (error updatedAt : String) :
    ValidatorRuntimeState :=
  { state with
    activeEpochId := none, phase := none, attempt := 0, lastFailedEpoch := state.activeEpochId,
    lastError := some error, updatedAt }

/-- the weights-submitting branch of `_begin_locked`: only an epoch whose receipt says that nothing
was submitted is given up -/
def beginSubmitting (state : ValidatorRuntimeState) (epochId : Int) : M ValidatorRuntimeState := do
  raiseIfAmbiguousAttempt env epochId
  let marker := Path.epoch epochId .completion
  let marked ← isFile marker
  if marked then
    Proc.raise (.receiptRecoveryRequired (s!"epoch {epochId} has a completion marker at " ++
      env.fullPath marker ++ "; call recover_receipt() explicitly"))
  else
    let received ← isFile (.epoch epochId .chainReceipt)
    if received = false then
      Proc.raise (.ambiguousWeightSubmissionError
        (s!"epoch {epochId} stopped during weights_submitting without a canonical completion " ++
          "marker; reconcile chain state before continuing"))
    else
      let w ← Proc.get
      let receipt ← Proc.ofExcept
        (loadStateObject env w.files (.epoch epochId .chainReceipt) "chain receipt")
      if (receipt.get "epoch_id").eqInt epochId = false then
        Proc.raise (.stateCorruptionError "canonical chain receipt epoch mismatch")
      else
        let mode := receipt.get "mode"
        let definite ← Proc.ofExcept (mode.inNames ["dry_run", "skipped", "error"])
        if definite = false then
          Proc.raise (.ambiguousWeightSubmissionError
            (s!"epoch {epochId} has a receipt but no canonical completion marker; " ++
              "chain state requires reconciliation"))
        else
          let updatedAt ← now env
          let state := failedState state
            ("interrupted_after_" ++ mode.pyStr env.text ++ "_receipt_before_completion") updatedAt
          writeState env state
          pure state

/-- `_begin_locked`, once no submission is pending -/
def beginIdle (state : ValidatorRuntimeState) : M (ValidatorRuntimeState × Int) := do
  match state.phase, state.activeEpochId with
  | some .allocated, some epochId | some .querying, some epochId => do
    let updatedAt ← now env
    let retried :=
      { state with phase := some .allocated, attempt := state.attempt + 1, updatedAt }
    writeState env retried
    pure (retried, epochId)
  | phase, _ => do
    let updatedAt ← now env
    let state := if phase = some .evaluating then
      failedState state "interrupted_during_evaluation" updatedAt else state
    let epochId := state.nextEpochId
    let allocated := { state with nextEpochId := epochId + 1, activeEpochId := some epochId,
                                  phase := some .allocated, attempt := 1, updatedAt }
    writeState env allocated
    pure (allocated, epochId)

def beginLocked : M (ValidatorRuntimeState × Int) := do
  let state ← readState env
  match state.phase, state.activeEpochId with
  | some .weightsSubmitting, some epochId => do
    let state ← beginSubmitting env state epochId
    beginIdle env state
  | some .weightsSubmitting, none => Proc.raise (.assertionError "")
  | _, _ => beginIdle env state

def transitionLocked (epochId : Int) (phase : ValidatorPhase) : M ValidatorRuntimeState := do
  let state ← readState env
  if state.activeEpochId ≠ some epochId then
    Proc.raise (.validatorStateError s!"epoch {epochId} is not the active validator tick")
  else
    match state.phase with
    | none => Proc.raise (.validatorStateError s!"epoch {epochId} is not the active validator tick")
    | some current =>
      if phase = current then pure state
      else if phase ∉ current.allowed then
        Proc.raise (.validatorStateError
          ("invalid phase transition: " ++ current.text ++ " -> " ++ phase.text))
      else if phase = .committed then do
        let committed ← commitFromCompletion env state epochId
        writeState env committed
        pure committed
      else do
        let updatedAt ← now env
        let transitioned := { state with phase := some phase, updatedAt }
        writeState env transitioned
        pure transitioned

def failEvaluationLocked (epochId : Int) (error : String) : M ValidatorRuntimeState := do
  let state ← readState env
  if state.activeEpochId ≠ some epochId ∨ state.phase ≠ some .evaluating then
    Proc.raise (.validatorStateError s!"epoch {epochId} is not in evaluating phase")
  else
    let updatedAt ← now env
    let failed := failedState state error updatedAt
    writeState env failed
    pure failed

def failWeightsLocked (epochId : Int) (error : String) : M ValidatorRuntimeState := do
  let state ← readState env
  if state.activeEpochId ≠ some epochId ∨ state.phase ≠ some .weightsSubmitting then
    Proc.raise (.validatorStateError s!"epoch {epochId} is not in weights_submitting phase")
  else
    let attempted ← isFile (.epoch epochId .chainAttempt)
    if attempted then
      Proc.raise (.ambiguousWeightSubmissionError
        s!"epoch {epochId} has a live chain attempt and cannot be failed automatically")
    else
      let updatedAt ← now env
      let failed := failedState state error updatedAt
      writeState env failed
      pure failed

end

/-! ## ticks -/

/-- `store.tick()` -/
def newTick : M Nat := do
  let w ← Proc.get
  Proc.modify fun w => { w with nextTick := w.nextTick + 1 }
  pure w.nextTick

namespace ValidatorTick

section
variable (env : Env) (id : Nat)

def setObject (object : TickObject) : M Unit :=
  Proc.modify fun w => { w with ticks := Function.update w.ticks id object }

/-- `__enter__` -/
def enter : M Int := do
  acquireLock env (.tick id)
  Proc.handle
    (do
      let (_, epochId) ← beginLocked env
      setObject id { entered := true, epochId := some epochId }
      logEvent (.tickEntered epochId)
      pure epochId)
    fun exc => do
      releaseLock (.tick id)
      Proc.raise exc

/-- an interrupted evaluation is failed on the way out -/
def settleEvaluation (exc : Option Exn) : M Unit := do
  let w ← Proc.get
  match (w.ticks id).entered, (w.ticks id).epochId with
  | true, some epochId => do
    let state ← readState env
    if state.activeEpochId = some epochId ∧ state.phase = some .evaluating then
      let detail := (exc.map Exn.str).getD "evaluation_exited_without_result"
      let _ ← failEvaluationLocked env epochId detail
      pure ()
    else pure ()
  | _, _ => pure ()

/-- `__exit__` -/
def exit (exc : Option Exn) : M Unit :=
  Proc.ensure (settleEvaluation env id exc) do
    let w ← Proc.get
    setObject id { w.ticks id with entered := false }
    releaseLock (.tick id)

/-- the tick's epoch, if the tick is entered and holds its lock -/
def activeEpoch (msg : String) : M Int := do
  let w ← Proc.get
  let held ← lockHeld (.tick id)
  match (w.ticks id).entered, (w.ticks id).epochId, held with
  | true, some epochId, true => pure epochId
  | _, _, _ => Proc.raise (.validatorStateError msg)

def transition (phase : ValidatorPhase) : M ValidatorRuntimeState := do
  let epochId ← activeEpoch id "phase transition requires an active locked tick"
  transitionLocked env epochId phase

def markQuerying : M ValidatorRuntimeState := transition env id .querying

def phaseHook (phase : String) : M Unit :=
  match phase with
  | "evaluating" => do
    let _ ← transition env id .evaluating
  | "weights_submitting" => do
    let _ ← transition env id .weightsSubmitting
  | "committed" => do
    let _ ← transition env id .committed
  | phase => Proc.raise (.validatorStateError ("run_epoch emitted an unknown phase: " ++ phase))

def failEvaluation (error : String) : M ValidatorRuntimeState := do
  let epochId ← activeEpoch id "evaluation failure requires an active locked tick"
  failEvaluationLocked env epochId error

def failWeights (error : String) : M ValidatorRuntimeState := do
  let epochId ← activeEpoch id "weights failure requires an active locked tick"
  failWeightsLocked env epochId error

end

end ValidatorTick

/-! ## rules -/

section
variable {env : Env} {w : World}

theorem wp_readState (Q : Post World Exn ValidatorRuntimeState) :
    wp (readState env) Q w ↔ (∀ state, stateOf env (w.files .state) = .ok state → Q.ok state w) ∧
      (∀ e, stateOf env (w.files .state) = .error e → Q.raise e w) := by
  unfold readState
  rw [wp_bind, wp_get]
  exact wp_ofExcept _ _ _

theorem wp_raiseIfAmbiguousAttempt (epochId : Int) (Q : Post World Exn Unit) :
    wp (raiseIfAmbiguousAttempt env epochId) Q w ↔
      (∀ u, checkAttempt env w.files epochId = .ok u → Q.ok u w) ∧
        (∀ e, checkAttempt env w.files epochId = .error e → Q.raise e w) := by
  unfold raiseIfAmbiguousAttempt
  rw [wp_bind, wp_get]
  exact wp_ofExcept _ _ _

@[simp] theorem wp_isFile (path : Path) (Q : Post World Exn Bool) :
    wp (isFile path) Q w ↔ Q.ok (w.files path).isSome w := Iff.rfl

theorem ValidatorTick.wp_activeEpoch {id : Nat} {msg : String} {Q : Post World Exn Int}
    (hok : ∀ epochId, (w.ticks id).entered = true → (w.ticks id).epochId = some epochId →
      w.lockOwner = some (.tick id) → Q.ok epochId w)
    (hraise : Q.raise (.validatorStateError msg) w) : wp (activeEpoch id msg) Q w := by
  unfold activeEpoch
  rw [wp_bind, wp_get]
  dsimp only
  rw [wp_bind, wp_lockHeld]
  dsimp only
  split
  · next epochId hentered hepoch hheld => exact hok epochId hentered hepoch (of_decide_eq_true hheld)
  · exact hraise

end

end Dolores
