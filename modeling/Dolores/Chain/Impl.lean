import Dolores.Archive.World

/-!
# The chain seam (`chain.py`)

`applyWeights` for the two chain clients.  The substrate is not part of the repository: each of
its methods is a function of the number of calls made so far in the run, and may raise.  The
event `setWeights` is logged when `set_weights` is invoked.
-/

namespace Dolores
open Crash

def liveConfirmation : String := "I-UNDERSTAND-THIS-WILL-SUBMIT-WEIGHTS"

/-- `RECOVERABLE_CHAIN_MODES` -/
def recoverableChainModes : List String := ["dry_run", "submitted", "fallback", "skipped", "error"]

/-- one of the modes of the two clients, or any other text -/
inductive ChainMode where
  | fallback
  | dryRun
  | submitted
  | skipped
  | error
  | other (name : String) (unknown : name ∉ recoverableChainModes)
deriving DecidableEq

def ChainMode.text : ChainMode → String
  | .fallback => "fallback"
  | .dryRun => "dry_run"
  | .submitted => "submitted"
  | .skipped => "skipped"
  | .error => "error"
  | .other name _ => name

structure ChainWeightResult where
  mode : ChainMode
  receipt : Option Obj := none
  reason : Option String := none

def ChainWeightResult.toRecord (r : ChainWeightResult) : Obj := [
  ("mode", .str r.mode.text),
  ("receipt", .ofOption .obj r.receipt),
  ("reason", .ofOption .str r.reason)]

inductive PublishMode where
  | dryRun
  | live
deriving DecidableEq, Repr

structure SubtensorChain where
  network : String
  netuid : Option Int
  publish : PublishMode
  allowExtrinsics : Bool
  allowCommitReveal : Bool
  confirmation : String

inductive ChainClient where
  | null
  | subtensor (chain : SubtensorChain)

structure HotkeyUidMapping where
  hotkeyToUid : Dict String Int
  droppedHotkeys : List String

/-- the response of the SDK: a `dict`, or an object with attributes -/
structure SetWeightsResponse where
  isDict : Bool
  fields : Obj

structure Substrate where
  connect : Nat → Except Exn Unit
  block : Nat → Except Exn Int
  subnetExists : Nat → Except Exn Bool
  validatorHotkey : Nat → Except Exn String
  hotkeyUid : Nat → String → Except Exn (Option Int)
  validatorPermit : Nat → Int → Except Exn Bool
  weightsRateLimit : Nat → Except Exn Int
  blocksSinceLastUpdate : Nat → Int → Except Exn (Option Int)
  commitRevealEnabled : Nat → Except Exn (Option Bool)
  processAndConvert : Nat → List Int → List ℚ → Except Exn (List Int × List Int)
  setWeights : Nat → List Int → List Int → Int → Except Exn SetWeightsResponse
  readBackWeights : Nat → Int → Except Exn (Option Obj)
  minerEndpoints : Nat → String → Except Exn (List Obj)

/-- the record of `preflight` -/
structure ChainState where
  mode : String := "read_only"
  reason : String := "ok"
  block : Int
  subnetExists : Bool
  validatorHotkey : String
  validatorUid : Option Int := none
  validatorPermit : Bool := false
  weightsRateLimit : Option Int := none
  blocksSinceLastUpdate : Option Int := none
  commitRevealEnabled : Option Bool := none
  commitRevealProbeFailed : Bool := false
  commitRevealProbeError : Option String := none

structure ChainPayload where
  netuid : Int
  uidsEmitted : List Int
  weightsU16 : List Int
  versionKey : Int
  payloadDigest : String

def payloadBody (netuid : Int) (uids weights : List Int) (versionKey : Int) : Obj := [
  ("netuid", .int netuid),
  ("uids_emitted", .arr (uids.map .int)),
  ("weights_u16", .arr (weights.map .int)),
  ("version_key", .int versionKey)]

def ChainPayload.toRecord (p : ChainPayload) : Obj :=
  payloadBody p.netuid p.uidsEmitted p.weightsU16 p.versionKey ++
    [("payload_digest", .str p.payloadDigest)]

def ChainState.toRecord (network : String) (netuid : Option Int) (s : ChainState) : Obj := [
  ("mode", .str s.mode),
  ("reason", .str s.reason),
  ("network", .str network),
  ("netuid", .ofOption .int netuid),
  ("block", .int s.block),
  ("subnet_exists", .bool s.subnetExists),
  ("validator_hotkey", .str s.validatorHotkey),
  ("validator_uid", .ofOption .int s.validatorUid),
  ("validator_registered", .bool s.validatorUid.isSome),
  ("validator_permit", .bool s.validatorPermit),
  ("weights_rate_limit", .ofOption .int s.weightsRateLimit),
  ("blocks_since_last_update", .ofOption .int s.blocksSinceLastUpdate),
  ("commit_reveal_enabled", .ofOption .bool s.commitRevealEnabled),
  ("commit_reveal_probe_failed", .bool s.commitRevealProbeFailed)] ++
  match s.commitRevealProbeError with
  | some e => [("commit_reveal_probe_error", .str e)]
  | none => []

/-! ## submissions -/

/-- `_metadata_value` -/
def metadataValue (source : Json) (names : List String) : Json :=
  match source with
  | .obj fields =>
    ((names.map fun name => Obj.get fields name).find? fun j =>
      match j with
      | .null => false
      | _ => true).getD .null
  | _ => .null

section
variable (T : PyText)

def jsonScalar (j : Json) : Json :=
  match j with
  | .arr _ | .obj _ => .str (j.pyStr T)
  | _ => j

/-- `a or b` -/
def orJson (a b : Json) : Json := if a.truthy then a else b

/-- `a if a is not None else b` -/
def unlessNone (a b : Json) : Json :=
  match a with
  | .null => b
  | _ => a

def optionalField (target : String) (source : Json) (names : List String) : Obj :=
  match metadataValue source names with
  | .null => []
  | value => [(target, jsonScalar T value)]

/-- `_submission_from_response`, with the names the response's kind uses -/
def submissionFromResponse (response : SetWeightsResponse) : Obj :=
  let f := response.fields
  let receipt := f.get "extrinsic_receipt"
  let message := (Dict.get? f "message").getD
    ((Dict.get? f (if response.isDict then "error" else "error_message")).getD (.str ""))
  let included := f.get (if response.isDict then "included" else "is_included")
  let finalized := f.get (if response.isDict then "finalized" else "is_finalized")
  [("success", .bool ((Dict.get? f "success").getD
      ((Dict.get? f "is_success").getD (.bool false))).truthy),
    ("message", .str (if message.truthy then message.pyStr T else "")),
    ("block_hash", jsonScalar T (orJson (f.get "block_hash") (metadataValue receipt ["block_hash"]))),
    ("extrinsic_hash",
      jsonScalar T (orJson (f.get "extrinsic_hash") (metadataValue receipt ["extrinsic_hash"]))),
    ("included",
      jsonScalar T (unlessNone included (metadataValue receipt ["is_included", "included"]))),
    ("finalized",
      jsonScalar T (unlessNone finalized (metadataValue receipt ["is_finalized", "finalized"])))] ++
    optionalField T "block_number" receipt ["block_number"] ++
    optionalField T "extrinsic_index" receipt ["extrinsic_idx", "extrinsic_index"] ++
    optionalField T "receipt_success" receipt ["is_success"]

end

def submissionFromError (exc : Exn) : Obj := [
  ("success", .bool false),
  ("message", .str exc.str),
  ("block_hash", .null),
  ("extrinsic_hash", .null),
  ("included", .bool false),
  ("finalized", .bool false)]

/-- `value == [[uid, weight], ..]` -/
def eqPairs (value : Json) (expected : List (Int × Int)) : Bool :=
  match value with
  | .arr rows =>
    rows.length == expected.length && (rows.zip expected).all fun p =>
      match p.1 with
      | .arr [uid, weight] => uid.eqInt p.2.1 && weight.eqInt p.2.2
      | _ => false
  | _ => false

section
variable (env : Env) (substrate : Substrate) (A : FloatOps) (chain : SubtensorChain)

/-! ## reading the chain -/

/-- the `substrate` property -/
def connectSubstrate : M Unit := do
  let w ← Proc.get
  if chain.netuid = none then Proc.raise (.chainSetupError "netuid_unset")
  else if w.connected then pure ()
  else
    external env substrate.connect
    Proc.modify fun w => { w with connected := true }

/-- the commit-reveal probe, which fails closed -/
def probeCommitReveal (record : ChainState) : M ChainState :=
  let failed : ChainState :=
    { record with commitRevealProbeFailed := true, mode := "error",
                  reason := "commit_reveal_probe_failed" }
  Proc.handle
    (do
      let enabled ← external env substrate.commitRevealEnabled
      match enabled with
      | none => pure failed
      | some b => pure { record with commitRevealEnabled := some b })
    fun exc =>
      if exc.isException then pure { failed with commitRevealProbeError := some exc.str }
      else Proc.raise exc

/-- the part of `preflight` after the validator's uid is known -/
def preflightRegistered (record : ChainState) (uid : Int) : M ChainState := do
  let permit ← external env fun n => substrate.validatorPermit n uid
  let limit ← external env substrate.weightsRateLimit
  let since ← external env fun n => substrate.blocksSinceLastUpdate n uid
  probeCommitReveal env substrate
    { record with validatorUid := some uid, validatorPermit := permit,
                  weightsRateLimit := some limit, blocksSinceLastUpdate := since }

def preflight : M ChainState := do
  connectSubstrate env substrate chain
  let block ← external env substrate.block
  let subnetExists ← external env substrate.subnetExists
  let validatorHotkey ← external env substrate.validatorHotkey
  let record : ChainState := { block, subnetExists, validatorHotkey }
  if subnetExists = false then pure { record with mode := "error", reason := "netuid_absent" }
  else do
    let hotkey ← external env substrate.validatorHotkey
    let validatorUid ← external env fun n => substrate.hotkeyUid n hotkey
    match validatorUid with
    | none => pure { record with mode := "error", reason := "validator_unregistered" }
    | some uid => preflightRegistered env substrate record uid

/-- both numbers are known and the rate limit has not passed -/
def rateLimited : Option Int → Option Int → Bool
  | some limit, some since => decide (since < limit)
  | _, _ => false

def readinessSkipReason (state : ChainState) : Option String :=
  if state.subnetExists = false then some "netuid_absent"
  else if state.validatorUid = none then some "validator_unregistered"
  else if state.validatorPermit = false then some "no_permit"
  else if rateLimited state.weightsRateLimit state.blocksSinceLastUpdate then some "rate_limited"
  else
    match state.commitRevealEnabled with
    | none => some "commit_reveal_probe_failed"
    | some enabled =>
      if state.commitRevealProbeFailed then some "commit_reveal_probe_failed"
      else if enabled && !chain.allowCommitReveal then some "commit_reveal_enabled"
      else none

/-- the loop of `map_hotkeys`: the uids in the order of the hotkeys, and the unregistered -/
def mapHotkeysLoop : List String → Dict String Int → List String →
    M (Dict String Int × List String)
  | [], mapping, dropped => pure (mapping, dropped)
  | hotkey :: hotkeys, mapping, dropped => do
    connectSubstrate env substrate chain
    let uid ← external env fun n => substrate.hotkeyUid n hotkey
    match uid with
    | none => mapHotkeysLoop hotkeys mapping (dropped ++ [hotkey])
    | some uid => mapHotkeysLoop hotkeys (Dict.set mapping hotkey uid) dropped

def mapHotkeys (activeHotkeys : List String) : M HotkeyUidMapping := do
  let (mapping, dropped) ← mapHotkeysLoop env substrate chain activeHotkeys [] []
  pure { hotkeyToUid := Dict.sorted mapping, droppedHotkeys := dropped }

/-- the registered hotkeys with positive weight, by uid -/
def mappedWeights (weights : Dict String ℚ) (mapping : HotkeyUidMapping) : List (Int × ℚ) :=
  ((mapping.hotkeyToUid.insertionSort fun a b => a.2 ≤ b.2).map fun p =>
    (p.2, weights.getD p.1 0)).filter fun p => 0 < p.2

def buildPayload (weights : Dict String ℚ) (mapping : HotkeyUidMapping) (specVersion : Int) :
    M ChainPayload := do
  let mapped := mappedWeights weights mapping
  let total := A.sum (mapped.map (·.2))
  let (uids, u16) ← (if mapped.isEmpty then pure ([], [])
    else do
      connectSubstrate env substrate chain
      external env fun n => substrate.processAndConvert n (mapped.map (·.1))
        (mapped.map fun p => A.div p.2 total) : M (List Int × List Int))
  let netuid := chain.netuid.getD 0
  let canonical := canonicalJson env.text (.obj (payloadBody netuid uids u16 specVersion))
  pure { netuid, uidsEmitted := uids, weightsU16 := u16, versionKey := specVersion,
         payloadDigest := (env.sha256Text canonical).text }

/-! ## durable records -/

/-- what a receipt is about -/
structure ReceiptSubject where
  epochId : Int
  weights : Dict String ℚ
  activeHotkeys : List String
  specVersion : Int

/-- the optional parts of a receipt -/
structure ReceiptDetail where
  state : Option ChainState := none
  mapping : Option HotkeyUidMapping := none
  payload : Option ChainPayload := none
  submission : Option Obj := none
  readBack : Option Obj := none
  extra : Obj := []

def receiptRecord (s : ReceiptSubject) (mode : ChainMode) (reason : String)
    (detail : ReceiptDetail) : Obj :=
  let mapping := detail.mapping.getD { hotkeyToUid := [], droppedHotkeys := s.activeHotkeys }
  [("epoch_id", .int s.epochId),
    ("mode", .str mode.text),
    ("reason", .str reason),
    ("network", .str chain.network),
    ("netuid", .ofOption .int chain.netuid),
    ("spec_version", .int s.specVersion),
    ("validator", .obj [
      ("hotkey", .ofOption (fun st => .str st.validatorHotkey) detail.state),
      ("uid", (detail.state.map fun st => Json.ofOption .int st.validatorUid).getD .null)]),
    ("chain_state", .obj ((detail.state.map (ChainState.toRecord chain.network chain.netuid)).getD [])),
    ("active_hotkey_to_uid", .obj (Dict.mapValues .int mapping.hotkeyToUid)),
    ("dropped_hotkeys", .arr (mapping.droppedHotkeys.map .str)),
    ("normalized_weights", .obj (Dict.ofPairs ((s.activeHotkeys.insertionSort (· ≤ ·)).map
      fun hotkey => (hotkey, .num (s.weights.getD hotkey 0))))),
    ("payload", .ofOption (fun p => .obj p.toRecord) detail.payload),
    ("payload_digest", .ofOption (fun p => .str p.payloadDigest) detail.payload),
    ("submission", .ofOption .obj detail.submission),
    ("read_back", .ofOption .obj detail.readBack)] ++
    if detail.extra.isEmpty then [] else [("extra", .obj detail.extra)]

/-- what `_write_receipt` returns -/
def receiptSummary (epochId : Int) (payload : Option ChainPayload) : Obj := [
  ("receipt_file", .str (EpochFile.chainReceipt.name epochId)),
  ("payload_digest", .ofOption (fun p => .str p.payloadDigest) payload),
  ("netuid", .ofOption .int chain.netuid),
  ("n_uids", .int ((payload.map fun p => p.uidsEmitted.length).getD 0 : Nat))]

/-- write the receipt and return the result of the same mode and reason -/
def writeReceipt (s : ReceiptSubject) (mode : ChainMode) (reason : String)
    (detail : ReceiptDetail) : M ChainWeightResult := do
  atomicWriteJson env (.epoch s.epochId .chainReceipt)
    (.obj (receiptRecord chain s mode reason detail))
  pure { mode, receipt := some (receiptSummary chain s.epochId detail.payload), reason }

inductive AttemptStatus where
  | started
  | ambiguous
  | completed
deriving DecidableEq, Repr

def AttemptStatus.text : AttemptStatus → String
  | .started => "started"
  | .ambiguous => "ambiguous"
  | .completed => "completed"

def attemptRecord (s : ReceiptSubject) (status : AttemptStatus) (payload : ChainPayload)
    (submission : Option Obj) (receiptFile errorType : Option String) : Obj := [
  ("version", .int 1),
  ("epoch_id", .int s.epochId),
  ("mode", .str "live_attempt"),
  ("status", .str status.text),
  ("network", .str chain.network),
  ("netuid", .ofOption .int chain.netuid),
  ("spec_version", .int s.specVersion),
  ("payload_digest", .str payload.payloadDigest),
  ("payload", .obj payload.toRecord),
  ("submission", .ofOption .obj submission),
  ("receipt_file", .ofOption .str receiptFile),
  ("error_type", .ofOption .str errorType)]

def writeAttempt (s : ReceiptSubject) (status : AttemptStatus) (payload : ChainPayload)
    (submission : Option Obj) (receiptFile errorType : Option String) : M Unit :=
  atomicWriteJson env (.epoch s.epochId .chainAttempt)
    (.obj (attemptRecord chain s status payload submission receiptFile errorType))

/-! ## the live seam -/

def missingExtrinsicGates : List String :=
  (if chain.allowExtrinsics then [] else ["client_flag"]) ++
  (if env.environ "DOLORES_ALLOW_EXTRINSICS" = some "1" then [] else ["env"]) ++
  (if chain.publish = .live then [] else ["cli_live"]) ++
  (if chain.confirmation = liveConfirmation then [] else ["confirmation"])

/-- the handler of the live seam; `submission` is what the response has yielded so far -/
def ambiguousSubmission {α : Type} (s : ReceiptSubject) (payload : ChainPayload)
    (submission : Option Obj) (exc : Exn) : M α := do
  Proc.handle
    (writeAttempt env chain s .ambiguous payload
      (some (submission.getD (submissionFromError exc))) none (some exc.typeName))
    fun _ => pure ()
  let path := env.fullPath (.epoch s.epochId .chainAttempt)
  Proc.raise (.chainAmbiguousSubmissionError
    (s!"live set_weights outcome is ambiguous for epoch {s.epochId}; reconcile " ++ path ++
      " against chain before continuing") path)

/-- `set_weights` and the reading of its response -/
def invokeSetWeights (s : ReceiptSubject) (payload : ChainPayload) : M Obj := do
  connectSubstrate env substrate chain
  logEvent (.setWeights s.epochId payload.uidsEmitted payload.weightsU16 s.specVersion)
  let response ← external env fun n =>
    substrate.setWeights n payload.uidsEmitted payload.weightsU16 s.specVersion
  pure (submissionFromResponse env.text response)

def readBackMatches (readBack : Option Obj) (payload : ChainPayload) : Bool :=
  match readBack with
  | none => false
  | some record =>
    match Dict.get? record "matches_submitted" with
    | some j => j.truthy
    | none => !record.isEmpty &&
        eqPairs (Obj.get record "weights_u16") (payload.uidsEmitted.zip payload.weightsU16)

/-- the rest of the live seam, once the submission is known -/
def confirmSubmission (s : ReceiptSubject) (state : ChainState) (mapping : HotkeyUidMapping)
    (payload : ChainPayload) (submission : Obj) : M ChainWeightResult := do
  if (submission.get "success").truthy = false then
    let message := submission.get "message"
    Proc.raise (.runtimeError (if message.truthy then message.pyStr env.text
      else "set_weights returned non-success"))
  else
    let revealed := decide (state.commitRevealEnabled = some true)
    let reason := if revealed then "submitted_commit_reveal" else "submitted_ok"
    connectSubstrate env substrate chain
    let readBack ← external env fun n => substrate.readBackWeights n (state.validatorUid.getD 0)
    if !revealed && payload.uidsEmitted.length != payload.weightsU16.length then
      Proc.raise (.valueError "zip() arguments have different lengths")
    else if !revealed && !readBackMatches readBack payload then
      Proc.raise (.runtimeError "post-submit weight read-back mismatch")
    else
      let result ← writeReceipt env chain s .submitted reason
        { state := some state, mapping := some mapping, payload := some payload,
          submission := some submission, readBack }
      writeAttempt env chain s .completed payload (some submission)
        (some (EpochFile.chainReceipt.name s.epochId)) none
      pure result

def submitLive (s : ReceiptSubject) (state : ChainState) (mapping : HotkeyUidMapping)
    (payload : ChainPayload) : M ChainWeightResult := do
  let submission ← Proc.handle (invokeSetWeights env substrate chain s payload)
    (ambiguousSubmission env chain s payload none)
  Proc.handle (confirmSubmission env substrate chain s state mapping payload submission)
    (ambiguousSubmission env chain s payload (some submission))

/-! ## `apply_weights` -/

def degenerateReasons : List String := ["all_zero", "epoch_degraded_all_infra"]

/-- once the chain is ready and some miner is registered -/
def publishPayload (s : ReceiptSubject) (state : ChainState) (mapping : HotkeyUidMapping)
    (payload : ChainPayload) : M ChainWeightResult := do
  let detail : ReceiptDetail :=
    { state := some state, mapping := some mapping, payload := some payload }
  if chain.publish = .dryRun then writeReceipt env chain s .dryRun "dry_run_ok" detail
  else if missingExtrinsicGates env chain ≠ [] then
    writeReceipt env chain s .error "extrinsics_not_allowed"
      { detail with
        extra := [("missing_gates", .arr ((missingExtrinsicGates env chain).map .str))] }
  else
    writeAttempt env chain s .started payload none none none
    submitLive env substrate chain s state mapping payload

/-- once the readiness has been read -/
def publishReady (s : ReceiptSubject) (state : ChainState) : M ChainWeightResult :=
  match readinessSkipReason chain state with
  | some reason =>
    writeReceipt env chain s
      (if reason = "netuid_absent" ∨ reason = "validator_unregistered" then .error else .skipped)
      reason { state := some state }
  | none => do
    let mapping ← mapHotkeys env substrate chain s.activeHotkeys
    if mapping.hotkeyToUid.isEmpty then
      writeReceipt env chain s .skipped "no_registered_miners"
        { state := some state, mapping := some mapping }
    else
      let payload ← buildPayload env substrate A chain s.weights mapping s.specVersion
      publishPayload env substrate chain s state mapping payload

/-- the readiness, or the exception that kept it from being read -/
def readinessState : M (Except Exn ChainState) :=
  Proc.handle (do let state ← preflight env substrate chain; pure (.ok state)) fun exc =>
    if exc.isException then pure (.error exc) else Proc.raise exc

def SubtensorChain.applyWeights (s : ReceiptSubject) (fallbackReason : String) :
    M ChainWeightResult :=
  if fallbackReason ∈ degenerateReasons ∨ s.weights.values.all (· = 0) then
    writeReceipt env chain s .skipped
      (if fallbackReason ∈ degenerateReasons then fallbackReason else "all_zero") {}
  else if chain.netuid = none then writeReceipt env chain s .error "netuid_unset" {}
  else do
    let readiness ← readinessState env substrate chain
    match readiness with
    | .error exc =>
      writeReceipt env chain s .error "rpc_unreachable" { extra := [("error", .str exc.str)] }
    | .ok state => publishReady env substrate A chain s state

end

section
variable (env : Env) (substrate : Substrate) (A : FloatOps)

def ChainClient.applyWeights (client : ChainClient) (s : ReceiptSubject)
    (fallbackReason : String) : M ChainWeightResult :=
  match client with
  | .null => pure { mode := .fallback,
                    reason := if fallbackReason = "" then "offline" else fallbackReason }
  | .subtensor chain => chain.applyWeights env substrate A s fallbackReason

end

end Dolores
