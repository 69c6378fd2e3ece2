import Dolores.Lib.Except
import Dolores.Chain.Impl

/-!
# The completion marker (`epoch.py`)

An epoch is complete when its marker is there and every artifact the marker names, at its
canonical path, has the hash the marker records.

* `writeEpochCompletionMarker`   publishes the marker and reads it back;
* `verifyEpochCompletion`        accepts a marker and returns what the commit needs.
-/

namespace Dolores
open Crash

abbrev Files : Type := Path → Option Content

def completionMarkerVersion : Int := 1

def invalidCompletion {α : Type} (msg : String) : Except Exn α :=
  .error (.epochCompletionValidationError msg)

section
variable (env : Env) (files : Files)

/-- `json.loads(path.read_text(encoding="utf-8"))` -/
def Content.decoded : Content → Decoded
  | .doc j => .value j
  | .raw bytes => env.decode bytes

/-- `_load_json_object` -/
def loadJsonObject (path : Path) (label : String) : Except Exn Obj :=
  match (files path).map (Content.decoded env) with
  | some (.value (.obj payload)) => .ok payload
  | some (.value _) => invalidCompletion (label ++ " must be a JSON object")
  | _ => invalidCompletion ("cannot read " ++ label ++ " " ++ env.fullPath path)

/-! ## the artifacts -/

def canonicalArtifacts : List (String × EpochFile) :=
  [("miner_state", .minerState), ("weights", .weights), ("panel_sidecar", .panelSidecar),
    ("chain_receipt", .chainReceipt), ("chain_attempt", .chainAttempt)]

def requiredArtifacts (mode : String) : List String :=
  ["miner_state", "weights", "panel_sidecar"] ++
  (if mode ≠ "fallback" then ["chain_receipt"] else []) ++
  (if mode = "submitted" then ["chain_attempt"] else [])

def digestRecord (epochId : Int) (file : EpochFile) (content : Content) : Obj :=
  [("path", .str (Path.epoch epochId file).relative), ("sha256", .str (env.sha256 content).text)]

/-- `_artifact_record` -/
def artifactRecord (epochId : Int) (file : EpochFile) : Except Exn Json :=
  match files (.epoch epochId file) with
  | none => invalidCompletion ("completion artifact is missing: " ++ file.name epochId)
  | some content => .ok (.obj (digestRecord env epochId file content))

/-- one round of the loop of `verify_epoch_completion` -/
def verifyArtifact (epochId : Int) (mode : String) (artifacts : Obj) (p : String × EpochFile) :
    Except Exn Unit :=
  let path := Path.epoch epochId p.2
  if p.1 ∉ requiredArtifacts mode then
    match artifacts.get p.1, files path with
    | .null, none => .ok ()
    | .null, some _ =>
      invalidCompletion ("unexpected canonical " ++ p.1 ++ " exists for mode " ++ mode)
    | _, _ => invalidCompletion
        ("completion marker has unexpected " ++ p.1 ++ " artifact for mode " ++ mode)
  else
    match artifacts.get p.1 with
    | .obj entry =>
      if (Obj.get entry "path").eqStr path.relative = false then
        invalidCompletion
          ("completion artifact " ++ p.1 ++ " must use canonical path " ++ path.relative)
      else
        match Obj.get entry "sha256" with
        | .str digest =>
          if digest.length ≠ 64 then invalidCompletion ("invalid sha256 for " ++ p.1)
          else
            match files path with
            | none => invalidCompletion ("missing completion artifact file: " ++ p.1)
            | some content =>
              if (env.sha256 content).text ≠ digest then
                invalidCompletion ("completion artifact hash mismatch: " ++ p.1)
              else .ok ()
        | _ => invalidCompletion ("invalid sha256 for " ++ p.1)
    | _ => invalidCompletion ("missing completion artifact: " ++ p.1)

/-! ## verification -/

/-- what `verify_epoch_completion` returns -/
structure VerifiedCompletion where
  markerPath : String
  epochId : Int
  mode : String
  reason : String
  receipt : Obj
  minerState : Obj

/-- `isinstance(value, (int, float))` -/
def Json.isNumber : Json → Bool
  | .bool _ | .int _ | .float _ => true
  | _ => false

def verifyMarkerHeader (epochId : Int) (marker : Obj) : Except Exn (String × String × Obj) :=
  if (marker.get "version").eqInt completionMarkerVersion = false then
    invalidCompletion "unsupported completion marker version"
  else if (marker.get "epoch_id").eqInt epochId = false then
    invalidCompletion ("completion marker epoch " ++ (marker.get "epoch_id").pyStr env.text ++
      s!" != {epochId}")
  else do
    let recoverable ← (marker.get "mode").inNames recoverableChainModes
    match recoverable, marker.get "mode", marker.get "reason" with
    | true, .str mode, .str reason =>
      match marker.get "artifacts" with
      | .obj artifacts => .ok (mode, reason, artifacts)
      | _ => invalidCompletion "completion marker artifacts must be an object"
    | _, _, _ =>
      invalidCompletion "completion marker must have a recoverable mode and string reason"

def verifyWeights (epochId : Int) (mode reason : String) (weights : Obj) : Except Exn Unit :=
  match (weights.get "epoch_id").eqInt epochId, weights.get "weight_result" with
  | true, .obj weightResult =>
    if (Obj.get weightResult "mode").eqStr mode = false ∨
        (orJson (Obj.get weightResult "reason") (.str "")).eqStr reason = false then
      invalidCompletion "weights artifact mode/reason mismatch"
    else .ok ()
  | _, _ => invalidCompletion "weights artifact epoch or result is invalid"

def verifyReceipt (epochId : Int) (mode reason : String) (receipt : Obj) : Except Exn Unit :=
  if (receipt.get "epoch_id").eqInt epochId = false then
    invalidCompletion "chain receipt epoch mismatch"
  else if (receipt.get "mode").eqStr mode = false ∨ (receipt.get "reason").eqStr reason = false then
    invalidCompletion "chain receipt mode/reason mismatch"
  else .ok ()

def verifyAttempt (epochId : Int) (attempt : Obj) : Except Exn Unit :=
  if (attempt.get "epoch_id").eqInt epochId = false ∨
      (attempt.get "mode").eqStr "live_attempt" = false ∨
      (attempt.get "status").eqStr "completed" = false ∨
      (attempt.get "receipt_file").eqStr (EpochFile.chainReceipt.name epochId) = false then
    invalidCompletion "submitted epoch requires a completed canonical chain attempt"
  else .ok ()

/-- the receipt part of the summary, for a mode that has a receipt -/
def receiptDetails (epochId : Int) (receipt : Obj) : Obj := [
  ("path", .str (env.fullPath (.epoch epochId .chainReceipt))),
  ("payload_digest", receipt.get "payload_digest"),
  ("sha256", .ofOption (fun c => .str (env.sha256 c).text) (files (.epoch epochId .chainReceipt)))]

def verifyEpochCompletion (epochId : Int) : Except Exn VerifiedCompletion := do
  let marker ← loadJsonObject env files (.epoch epochId .completion) "completion marker"
  let (mode, reason, artifacts) ← verifyMarkerHeader env epochId marker
  canonicalArtifacts.forM (verifyArtifact env files epochId mode artifacts)
  let minerState ← loadJsonObject env files (.epoch epochId .minerState) "miner state"
  if minerState.values.all Json.isNumber = false then
    invalidCompletion "miner state values must be numeric"
  else
    let weights ← loadJsonObject env files (.epoch epochId .weights) "weights artifact"
    verifyWeights epochId mode reason weights
    let panel ← loadJsonObject env files (.epoch epochId .panelSidecar) "panel sidecar"
    if (panel.get "epoch_id").eqInt epochId = false then
      invalidCompletion "panel sidecar epoch mismatch"
    else
      let details ← (if mode = "fallback" then .ok [] else do
        let receipt ← loadJsonObject env files (.epoch epochId .chainReceipt) "chain receipt"
        verifyReceipt epochId mode reason receipt
        .ok (receiptDetails env files epochId receipt) : Except Exn Obj)
      (if mode = "submitted" then do
        let attempt ← loadJsonObject env files (.epoch epochId .chainAttempt) "chain attempt"
        verifyAttempt epochId attempt
      else .ok () : Except Exn Unit)
      .ok { markerPath := env.fullPath (.epoch epochId .completion), epochId, mode, reason,
            receipt := [("mode", .str mode), ("reason", .str reason)] ++ details, minerState }

/-! ## publication -/

/-- the optional artifact records of the marker -/
def optionalRecord (present : Bool) (epochId : Int) (file : EpochFile) : Except Exn Json :=
  if present then artifactRecord env files epochId file else .ok .null

/-- the checks on the chain result: a receipt exactly when the mode is not `fallback` -/
def checkCanonicalReceipt (epochId : Int) (r : ChainWeightResult) : Except Exn Unit :=
  if r.mode ≠ .fallback then
    if (Obj.get (r.receipt.getD []) "receipt_file").eqStr (EpochFile.chainReceipt.name epochId) =
        false then
      invalidCompletion (r.mode.text ++ " epoch requires canonical receipt " ++
        EpochFile.chainReceipt.name epochId)
    else .ok ()
  else if r.receipt.isSome then
    invalidCompletion "fallback epoch cannot carry a chain receipt"
  else .ok ()

def markerRecord (epochId : Int) (r : ChainWeightResult) (artifacts : Obj) : Obj := [
  ("version", .int completionMarkerVersion),
  ("epoch_id", .int epochId),
  ("mode", .str r.mode.text),
  ("reason", .str (r.reason.getD "")),
  ("artifacts", .obj artifacts)]

def completionMarker (epochId : Int) (r : ChainWeightResult) : Except Exn Obj := do
  let minerState ← artifactRecord env files epochId .minerState
  let weights ← artifactRecord env files epochId .weights
  let panel ← artifactRecord env files epochId .panelSidecar
  let receipt ← optionalRecord env files (r.mode != .fallback) epochId .chainReceipt
  let attempt ← optionalRecord env files (r.mode == .submitted) epochId .chainAttempt
  .ok (markerRecord epochId r [("miner_state", minerState), ("weights", weights),
    ("panel_sidecar", panel), ("chain_receipt", receipt), ("chain_attempt", attempt)])

/-- `mode:reason` of an outcome that cannot complete an epoch -/
def incompleteOutcome (r : ChainWeightResult) : Exn :=
  .epochCompletionError r.mode.text (if r.reason.getD "" = "" then "unknown" else r.reason.getD "")

end

section
variable (env : Env)

def writeEpochCompletionMarker (epochId : Int) (r : ChainWeightResult) : M Unit := do
  if r.mode.text ∉ recoverableChainModes then Proc.raise (incompleteOutcome r)
  else
    Proc.ofExcept (checkCanonicalReceipt epochId r)
    let w ← Proc.get
    let marker ← Proc.ofExcept (completionMarker env w.files epochId r)
    atomicWriteJson env (.epoch epochId .completion) (.obj marker)
    let w ← Proc.get
    let _ ← Proc.ofExcept (verifyEpochCompletion env w.files epochId)
    pure ()

end

end Dolores
