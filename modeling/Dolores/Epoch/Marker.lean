import Dolores.Epoch.Completion

/-!
# A published marker is accepted

When the artifacts of an epoch and the files of its chain outcome are in place,
`writeEpochCompletionMarker` returns, and the marker it leaves is accepted by
`verifyEpochCompletion` with the outcome and the miner state of the epoch.

* `OutcomeInPlace`     the receipt and the attempt that the mode of a chain result calls for;
* `ArtifactsInPlace`   the three artifacts that every epoch has;
* `wp_writeEpochCompletionMarker`   the publication.
-/

namespace Dolores
open Crash Except

/-- the file is a written object, with the given values at the given keys -/
def Recorded (files : Files) (path : Path) (fields : Obj) : Prop :=
  ∃ record : Obj, files path = some (.doc (.obj record)) ∧
    ∀ p ∈ fields, Obj.get record p.1 = p.2

/-- the receipt of the epoch records the outcome -/
def ReceiptInPlace (files : Files) (epochId : Int) (r : ChainWeightResult) : Prop :=
  (Obj.get (r.receipt.getD []) "receipt_file") = .str (EpochFile.chainReceipt.name epochId) ∧
    Recorded files (.epoch epochId .chainReceipt) [("epoch_id", .int epochId),
      ("mode", .str r.mode.text), ("reason", .str (r.reason.getD ""))]

/-- the attempt of the epoch is a completed one -/
def AttemptCompleted (files : Files) (epochId : Int) : Prop :=
  Recorded files (.epoch epochId .chainAttempt) [("epoch_id", .int epochId),
    ("mode", .str "live_attempt"), ("status", .str "completed"),
    ("receipt_file", .str (EpochFile.chainReceipt.name epochId))]

/-- the receipt and the attempt are there exactly as the mode of the result calls for -/
def OutcomeInPlace (files : Files) (epochId : Int) (r : ChainWeightResult) : Prop :=
  match r.mode with
  | .fallback => r.receipt = none ∧ files (.epoch epochId .chainReceipt) = none ∧
      files (.epoch epochId .chainAttempt) = none
  | .submitted => ReceiptInPlace files epochId r ∧ AttemptCompleted files epochId
  | .dryRun | .skipped | .error => ReceiptInPlace files epochId r ∧
      files (.epoch epochId .chainAttempt) = none
  | .other _ _ => False

/-- the epoch's snapshot, weights artifact and panel sidecar are there -/
structure ArtifactsInPlace (files : Files) (epochId : Int) (r : ChainWeightResult)
    (minerState : Obj) : Prop where
  snapshot : files (.epoch epochId .minerState) = some (.doc (.obj minerState))
  numeric : minerState.values.all Json.isNumber = true
  weights : ∃ weightResult : Obj, Recorded files (.epoch epochId .weights)
      [("epoch_id", .int epochId), ("weight_result", .obj weightResult)] ∧
    Obj.get weightResult "mode" = .str r.mode.text ∧
    Obj.get weightResult "reason" = .ofOption .str r.reason
  panel : Recorded files (.epoch epochId .panelSidecar) [("epoch_id", .int epochId)]

section
variable {env : Env} {files : Files} {epochId : Int}

theorem Json.eqInt_int (i : Int) : (Json.int i).eqInt i = true := by
  show (some (i : ℚ) == some (i : ℚ)) = true
  exact beq_self_eq_true _

variable (env) in
theorem loadJsonObject_of_recorded {path : Path} {fields : Obj} (h : Recorded files path fields)
    (label : String) : ∃ record : Obj, loadJsonObject env files path label = .ok record ∧
      ∀ p ∈ fields, Obj.get record p.1 = p.2 := by
  obtain ⟨record, hfile, hfields⟩ := h
  refine ⟨record, ?_, hfields⟩
  unfold loadJsonObject
  rw [hfile]
  rfl

/-! ## the artifacts of the marker -/

theorem artifactRecord_of_some {file : EpochFile} {content : Content}
    (h : files (.epoch epochId file) = some content) :
    artifactRecord env files epochId file = .ok (.obj (digestRecord env epochId file content)) := by
  unfold artifactRecord
  rw [h]

theorem verifyArtifact_present {mode name : String} {file : EpochFile} {content : Content}
    {artifacts : Obj} (hrequired : name ∈ requiredArtifacts mode)
    (hfile : files (.epoch epochId file) = some content)
    (hentry : artifacts.get name = Json.canon (.obj (digestRecord env epochId file content))) :
    verifyArtifact env files epochId mode artifacts (name, file) = .ok () := by
  unfold verifyArtifact
  dsimp only
  rw [if_neg (not_not_intro hrequired), hentry, Json.canon_obj']
  dsimp only
  have hpath : Obj.get (digestRecord env epochId file content).canon "path" =
      .str (Path.epoch epochId file).relative := by
    rw [Obj.get_canon]
    rfl
  have hdigest : Obj.get (digestRecord env epochId file content).canon "sha256" =
      .str (env.sha256 content).text := by
    rw [Obj.get_canon]
    rfl
  rw [hpath, Json.eqStr_str, if_neg (by decide), hdigest]
  dsimp only
  rw [if_neg (not_not_intro (env.sha256 content).length_eq), hfile]
  dsimp only
  exact if_neg (not_not_intro rfl)

theorem verifyArtifact_absent {mode name : String} {file : EpochFile} {artifacts : Obj}
    (hrequired : name ∉ requiredArtifacts mode) (hfile : files (.epoch epochId file) = none)
    (hentry : artifacts.get name = .null) :
    verifyArtifact env files epochId mode artifacts (name, file) = .ok () := by
  unfold verifyArtifact
  dsimp only
  rw [if_pos hrequired, hentry, hfile]

/-- the optional record of a file, and what the loop makes of it -/
theorem verifyArtifact_optional {mode name : String} {file : EpochFile} {artifacts : Obj}
    {present : Bool} {record : Json}
    (hpresent : present = true ↔ name ∈ requiredArtifacts mode)
    (hfile : (files (.epoch epochId file)).isSome = present)
    (hrecord : optionalRecord env files present epochId file = .ok record)
    (hentry : artifacts.get name = record.canon) :
    verifyArtifact env files epochId mode artifacts (name, file) = .ok () := by
  unfold optionalRecord at hrecord
  cases hp : present with
  | true =>
    rw [hp] at hfile hrecord
    obtain ⟨content, hcontent⟩ := Option.isSome_iff_exists.mp hfile
    rw [if_pos rfl, artifactRecord_of_some hcontent] at hrecord
    rw [← Except.ok.inj hrecord] at hentry
    exact verifyArtifact_present (hpresent.mp hp) hcontent hentry
  | false =>
    rw [hp] at hfile hrecord
    have hnone : files (.epoch epochId file) = none := Option.isNone_iff_eq_none.mp (by
      rw [← Option.not_isSome, hfile]
      rfl)
    rw [if_neg Bool.false_ne_true] at hrecord
    rw [← Except.ok.inj hrecord, Json.canon_null] at hentry
    refine verifyArtifact_absent (fun hn => ?_) hnone hentry
    have htrue : present = true := hpresent.mpr hn
    rw [hp] at htrue
    exact Bool.false_ne_true htrue

/-! ## the outcome of the chain -/

variable {r : ChainWeightResult}

theorem OutcomeInPlace.recoverable (h : OutcomeInPlace files epochId r) :
    r.mode.text ∈ recoverableChainModes := by
  unfold OutcomeInPlace at h
  cases hm : r.mode with
  | other name unknown =>
    rw [hm] at h
    exact h.elim
  | fallback => decide
  | dryRun => decide
  | submitted => decide
  | skipped => decide
  | error => decide

theorem OutcomeInPlace.receipt_isSome (h : OutcomeInPlace files epochId r) :
    (files (.epoch epochId .chainReceipt)).isSome = (r.mode != .fallback) := by
  unfold OutcomeInPlace at h
  have hsome : ReceiptInPlace files epochId r →
      (files (.epoch epochId .chainReceipt)).isSome = true := by
    intro hr
    obtain ⟨record, hfile, _⟩ := hr.2
    rw [hfile]
    rfl
  cases hm : r.mode with
  | other name unknown =>
    rw [hm] at h
    exact h.elim
  | fallback =>
    rw [hm] at h
    rw [h.2.1]
    rfl
  | submitted =>
    rw [hm] at h
    exact hsome h.1
  | dryRun =>
    rw [hm] at h
    exact hsome h.1
  | skipped =>
    rw [hm] at h
    exact hsome h.1
  | error =>
    rw [hm] at h
    exact hsome h.1

theorem OutcomeInPlace.attempt_isSome (h : OutcomeInPlace files epochId r) :
    (files (.epoch epochId .chainAttempt)).isSome = (r.mode == .submitted) := by
  unfold OutcomeInPlace at h
  cases hm : r.mode with
  | other name unknown =>
    rw [hm] at h
    exact h.elim
  | submitted =>
    rw [hm] at h
    obtain ⟨record, hfile, _⟩ := h.2
    rw [hfile]
    rfl
  | fallback =>
    rw [hm] at h
    rw [h.2.2]
    rfl
  | dryRun =>
    rw [hm] at h
    rw [h.2]
    rfl
  | skipped =>
    rw [hm] at h
    rw [h.2]
    rfl
  | error =>
    rw [hm] at h
    rw [h.2]
    rfl

theorem OutcomeInPlace.receipt (h : OutcomeInPlace files epochId r) (hm : r.mode ≠ .fallback) :
    ReceiptInPlace files epochId r := by
  unfold OutcomeInPlace at h
  split at h
  · next hmode => exact (hm hmode).elim
  · exact h.1
  · exact h.1
  · exact h.1
  · exact h.1
  · exact h.elim

theorem OutcomeInPlace.attempt (h : OutcomeInPlace files epochId r) (hm : r.mode = .submitted) :
    AttemptCompleted files epochId := by
  unfold OutcomeInPlace at h
  rw [hm] at h
  exact h.2

theorem requires_receipt (h : r.mode.text ∈ recoverableChainModes) :
    (r.mode != .fallback) = true ↔ "chain_receipt" ∈ requiredArtifacts r.mode.text := by
  cases hm : r.mode with
  | other name unknown =>
    rw [hm] at h
    exact (unknown h).elim
  | fallback => exact iff_of_false (by decide) (by decide)
  | dryRun => exact iff_of_true (by decide) (by decide)
  | submitted => exact iff_of_true (by decide) (by decide)
  | skipped => exact iff_of_true (by decide) (by decide)
  | error => exact iff_of_true (by decide) (by decide)

theorem requires_attempt (h : r.mode.text ∈ recoverableChainModes) :
    (r.mode == .submitted) = true ↔ "chain_attempt" ∈ requiredArtifacts r.mode.text := by
  cases hm : r.mode with
  | other name unknown =>
    rw [hm] at h
    exact (unknown h).elim
  | fallback => exact iff_of_false (by decide) (by decide)
  | dryRun => exact iff_of_false (by decide) (by decide)
  | submitted => exact iff_of_true (by decide) (by decide)
  | skipped => exact iff_of_false (by decide) (by decide)
  | error => exact iff_of_false (by decide) (by decide)

theorem mode_text_eq_iff (h : r.mode.text ∈ recoverableChainModes) :
    (r.mode.text = "fallback" ↔ r.mode = .fallback) ∧
      (r.mode.text = "submitted" ↔ r.mode = .submitted) := by
  cases hm : r.mode with
  | other name unknown =>
    rw [hm] at h
    exact (unknown h).elim
  | fallback => decide
  | dryRun => decide
  | submitted => decide
  | skipped => decide
  | error => decide

/-! ## the marker -/

/-- the records of the marker are those of the files -/
structure MarkerArtifacts (env : Env) (files : Files) (epochId : Int) (r : ChainWeightResult)
    (artifacts : Obj) : Prop where
  required : ∀ name file, (name, file) ∈ canonicalArtifacts.take 3 → ∃ content,
    files (.epoch epochId file) = some content ∧
      artifacts.get name = .obj (digestRecord env epochId file content)
  receipt : optionalRecord env files (r.mode != .fallback) epochId .chainReceipt =
    .ok (artifacts.get "chain_receipt")
  attempt : optionalRecord env files (r.mode == .submitted) epochId .chainAttempt =
    .ok (artifacts.get "chain_attempt")

variable (env) in
theorem optionalRecord_ok {present : Bool} {file : EpochFile}
    (h : (files (.epoch epochId file)).isSome = present) :
    ∃ record, optionalRecord env files present epochId file = .ok record := by
  unfold optionalRecord
  cases hp : present with
  | false => exact ⟨.null, rfl⟩
  | true =>
    rw [hp] at h
    obtain ⟨content, hcontent⟩ := Option.isSome_iff_exists.mp h
    exact ⟨_, artifactRecord_of_some hcontent⟩

variable (env) in
theorem completionMarker_ok {minerState : Obj} (hA : ArtifactsInPlace files epochId r minerState)
    (hO : OutcomeInPlace files epochId r) :
    ∃ artifacts, completionMarker env files epochId r = .ok (markerRecord epochId r artifacts) ∧
      MarkerArtifacts env files epochId r artifacts := by
  obtain ⟨_, ⟨weights, hweights, _⟩, _⟩ := hA.weights
  obtain ⟨panel, hpanel, _⟩ := hA.panel
  obtain ⟨receipt, hreceipt⟩ := optionalRecord_ok env hO.receipt_isSome
  obtain ⟨attempt, hattempt⟩ := optionalRecord_ok env hO.attempt_isSome
  refine ⟨[("miner_state", .obj (digestRecord env epochId .minerState (.doc (.obj minerState)))),
    ("weights", .obj (digestRecord env epochId .weights (.doc (.obj weights)))),
    ("panel_sidecar", .obj (digestRecord env epochId .panelSidecar (.doc (.obj panel)))),
    ("chain_receipt", receipt), ("chain_attempt", attempt)], ?_, ?_, hreceipt, hattempt⟩
  · unfold completionMarker
    rw [artifactRecord_of_some hA.snapshot, artifactRecord_of_some hweights,
      artifactRecord_of_some hpanel, hreceipt, hattempt]
    rfl
  · intro name file hmem
    have hcases : (name = "miner_state" ∧ file = .minerState) ∨
        (name = "weights" ∧ file = .weights) ∨ (name = "panel_sidecar" ∧ file = .panelSidecar) := by
      simpa [canonicalArtifacts] using hmem
    rcases hcases with ⟨rfl, rfl⟩ | ⟨rfl, rfl⟩ | ⟨rfl, rfl⟩
    · exact ⟨_, hA.snapshot, rfl⟩
    · exact ⟨_, hweights, rfl⟩
    · exact ⟨_, hpanel, rfl⟩

theorem verifyMarkerHeader_of_marker (h : r.mode.text ∈ recoverableChainModes) (artifacts : Obj) :
    verifyMarkerHeader env epochId (markerRecord epochId r artifacts).canon =
      .ok (r.mode.text, r.reason.getD "", artifacts.canon) := by
  have hversion : Obj.get (markerRecord epochId r artifacts).canon "version" = .int 1 := by
    rw [Obj.get_canon]
    exact Json.canon_int 1
  have hepoch : Obj.get (markerRecord epochId r artifacts).canon "epoch_id" = .int epochId := by
    rw [Obj.get_canon]
    exact Json.canon_int epochId
  have hmode : Obj.get (markerRecord epochId r artifacts).canon "mode" = .str r.mode.text := by
    rw [Obj.get_canon]
    exact Json.canon_str _
  have hreason : Obj.get (markerRecord epochId r artifacts).canon "reason" =
      .str (r.reason.getD "") := by
    rw [Obj.get_canon]
    exact Json.canon_str _
  have hartifacts : Obj.get (markerRecord epochId r artifacts).canon "artifacts" =
      .obj artifacts.canon := by
    rw [Obj.get_canon]
    exact Json.canon_obj' _
  have hnames : (Json.str r.mode.text).inNames recoverableChainModes = .ok true := by
    show Except.ok (recoverableChainModes.any fun name => r.mode.text == name) = .ok true
    rw [List.any_eq_true.mpr ⟨_, h, beq_self_eq_true _⟩]
  unfold verifyMarkerHeader
  rw [hversion, hepoch, hmode, hreason, hartifacts, Json.eqInt_int, hnames]
  rfl

variable (env) in
theorem verifyWeights_of_artifacts {minerState : Obj}
    (hA : ArtifactsInPlace files epochId r minerState) :
    ∃ weights, loadJsonObject env files (.epoch epochId .weights) "weights artifact" = .ok weights ∧
      verifyWeights epochId r.mode.text (r.reason.getD "") weights = .ok () := by
  obtain ⟨weightResult, hrecorded, hmode, hreason⟩ := hA.weights
  obtain ⟨weights, hload, hfields⟩ := loadJsonObject_of_recorded env hrecorded
    "weights artifact"
  refine ⟨weights, hload, ?_⟩
  have hid : weights.get "epoch_id" = .int epochId := hfields _ List.mem_cons_self
  have hresult : weights.get "weight_result" = .obj weightResult :=
    hfields _ (List.mem_cons_of_mem _ List.mem_cons_self)
  have hreason' : (orJson (Obj.get weightResult "reason") (.str "")).eqStr (r.reason.getD "") =
      true := by
    rw [hreason]
    cases hr : r.reason with
    | none => rfl
    | some reason =>
      show (orJson (.str reason) (.str "")).eqStr reason = true
      unfold orJson
      by_cases he : reason = ""
      · rw [he]
        rfl
      · have htruthy : (Json.str reason).truthy = true := bne_iff_ne.mpr he
        rw [if_pos htruthy]
        exact Json.eqStr_str reason
  unfold verifyWeights
  rw [hid, hresult, Json.eqInt_int]
  dsimp only
  rw [hmode, Json.eqStr_str, hreason', if_neg (by decide)]

/-- the digests of the marker are those of the files -/
theorem verifyArtifacts_of_marker {artifacts : Obj} (hO : OutcomeInPlace files epochId r)
    (hM : MarkerArtifacts env files epochId r artifacts) :
    canonicalArtifacts.forM (verifyArtifact env files epochId r.mode.text artifacts.canon) =
      .ok () := by
  have hentry : ∀ name, Obj.get artifacts.canon name = (Obj.get artifacts name).canon :=
    fun name => Obj.get_canon _ name
  have hpresent : ∀ name file, (name, file) ∈ canonicalArtifacts.take 3 →
      verifyArtifact env files epochId r.mode.text artifacts.canon (name, file) = .ok () := by
    intro name file hmem
    obtain ⟨content, hfile, hget⟩ := hM.required name file hmem
    have hrequired : name ∈ requiredArtifacts r.mode.text := by
      have hname : name ∈ (canonicalArtifacts.take 3).map Prod.fst :=
        List.mem_map.mpr ⟨(name, file), hmem, rfl⟩
      unfold requiredArtifacts
      rw [List.append_assoc]
      exact List.mem_append_left _ hname
    refine verifyArtifact_present hrequired hfile ?_
    rw [hentry, hget]
  apply forM_ok
  intro p hp
  have hsplit : p ∈ canonicalArtifacts.take 3 ∨ p = ("chain_receipt", .chainReceipt) ∨
      p = ("chain_attempt", .chainAttempt) := by
    simpa [canonicalArtifacts, or_assoc] using hp
  rcases hsplit with hmem | rfl | rfl
  · exact hpresent p.1 p.2 hmem
  · exact verifyArtifact_optional (requires_receipt hO.recoverable) hO.receipt_isSome hM.receipt
      (hentry _)
  · exact verifyArtifact_optional (requires_attempt hO.recoverable) hO.attempt_isSome hM.attempt
      (hentry _)

variable (env) in
/-- the receipt is read unless the outcome is a fallback, and agrees with the marker -/
theorem verifyReceipt_of_outcome (hO : OutcomeInPlace files epochId r) :
    ∃ details : Obj, (if r.mode.text = "fallback" then Except.ok [] else do
      let receipt ← loadJsonObject env files (.epoch epochId .chainReceipt) "chain receipt"
      verifyReceipt epochId r.mode.text (r.reason.getD "") receipt
      Except.ok (receiptDetails env files epochId receipt) : Except Exn Obj) = .ok details := by
  have hfallback := (mode_text_eq_iff hO.recoverable).1
  by_cases hm : r.mode = .fallback
  · exact ⟨[], if_pos (hfallback.mpr hm)⟩
  · obtain ⟨record, hrecord, hfields⟩ := loadJsonObject_of_recorded env
      (hO.receipt hm).2 "chain receipt"
    have hid : record.get "epoch_id" = .int epochId := hfields _ List.mem_cons_self
    have hmode : record.get "mode" = .str r.mode.text :=
      hfields _ (List.mem_cons_of_mem _ List.mem_cons_self)
    have hreason : record.get "reason" = .str (r.reason.getD "") :=
      hfields _ (List.mem_cons_of_mem _ (List.mem_cons_of_mem _ List.mem_cons_self))
    refine ⟨receiptDetails env files epochId record, ?_⟩
    rw [if_neg (fun h => hm (hfallback.mp h)), hrecord]
    show (verifyReceipt epochId r.mode.text (r.reason.getD "") record >>= fun _ => _) = _
    unfold verifyReceipt
    rw [hid, hmode, hreason, Json.eqInt_int, Json.eqStr_str, Json.eqStr_str]
    rfl

variable (env) in
/-- the attempt is read after a submission, and is completed -/
theorem verifyAttempt_of_outcome (hO : OutcomeInPlace files epochId r) :
    (if r.mode.text = "submitted" then do
      let attempt ← loadJsonObject env files (.epoch epochId .chainAttempt) "chain attempt"
      verifyAttempt epochId attempt
    else Except.ok () : Except Exn Unit) = .ok () := by
  have hsubmitted := (mode_text_eq_iff hO.recoverable).2
  by_cases hm : r.mode = .submitted
  · obtain ⟨record, hrecord, hfields⟩ := loadJsonObject_of_recorded env
      (hO.attempt hm) "chain attempt"
    have hid : record.get "epoch_id" = .int epochId := hfields _ List.mem_cons_self
    have hmode : record.get "mode" = .str "live_attempt" :=
      hfields ("mode", _) (by simp)
    have hstatus : record.get "status" = .str "completed" := hfields ("status", _) (by simp)
    have hfile : record.get "receipt_file" = .str (EpochFile.chainReceipt.name epochId) :=
      hfields ("receipt_file", _) (by simp)
    rw [if_pos (hsubmitted.mpr hm), hrecord]
    show verifyAttempt epochId record = .ok ()
    unfold verifyAttempt
    rw [hid, hmode, hstatus, hfile, Json.eqInt_int, Json.eqStr_str, Json.eqStr_str,
      Json.eqStr_str]
    rfl
  · exact if_neg fun h => hm (hsubmitted.mp h)

/-- a marker made from the files in place is accepted, with the outcome and the snapshot -/
theorem verifyEpochCompletion_of_marker {minerState artifacts : Obj}
    (hA : ArtifactsInPlace files epochId r minerState) (hO : OutcomeInPlace files epochId r)
    (hM : MarkerArtifacts env files epochId r artifacts)
    (hmarker : files (.epoch epochId .completion) =
      some (.doc (Json.canon (.obj (markerRecord epochId r artifacts))))) :
    ∃ v, verifyEpochCompletion env files epochId = .ok v ∧ v.mode = r.mode.text ∧
      v.reason = r.reason.getD "" ∧ v.minerState = minerState := by
  have hload : loadJsonObject env files (.epoch epochId .completion) "completion marker" =
      .ok (markerRecord epochId r artifacts).canon := by
    unfold loadJsonObject
    rw [hmarker, Json.canon_obj']
    rfl
  have hsnapshot : loadJsonObject env files (.epoch epochId .minerState) "miner state" =
      .ok minerState := by
    unfold loadJsonObject
    rw [hA.snapshot]
    rfl
  obtain ⟨weights, hweights, hweightsOk⟩ := verifyWeights_of_artifacts env hA
  obtain ⟨panel, hpanel, hpanelFields⟩ := loadJsonObject_of_recorded env hA.panel
    "panel sidecar"
  have hpanelId : panel.get "epoch_id" = .int epochId := hpanelFields _ List.mem_cons_self
  obtain ⟨details, hdetails⟩ := verifyReceipt_of_outcome env hO
  refine ⟨⟨env.fullPath (.epoch epochId .completion), epochId, r.mode.text, r.reason.getD "",
    [("mode", .str r.mode.text), ("reason", .str (r.reason.getD ""))] ++ details, minerState⟩, ?_,
    rfl, rfl, rfl⟩
  unfold verifyEpochCompletion
  rw [hload, ok_bind, verifyMarkerHeader_of_marker hO.recoverable artifacts, ok_bind]
  dsimp only
  rw [verifyArtifacts_of_marker hO hM, ok_bind, hsnapshot, ok_bind, hA.numeric,
    if_neg (by decide), hweights, ok_bind, hweightsOk, ok_bind, hpanel, ok_bind, hpanelId,
    Json.eqInt_int, if_neg (by decide), hdetails, ok_bind, verifyAttempt_of_outcome env hO,
    ok_bind]

/-! ## publication -/

/-- the files of the epoch are the same, but for the marker -/
def SameArtifacts (epochId : Int) (files files' : Files) : Prop :=
  ∀ file, file ≠ .completion → files' (.epoch epochId file) = files (.epoch epochId file)

variable {files' : Files}

theorem Recorded.congr {path : Path} {fields : Obj} (h : files' path = files path)
    (hr : Recorded files path fields) : Recorded files' path fields := by
  obtain ⟨record, hfile, hfields⟩ := hr
  exact ⟨record, by rw [h, hfile], hfields⟩

theorem ArtifactsInPlace.congr {minerState : Obj} (h : SameArtifacts epochId files files')
    (hA : ArtifactsInPlace files epochId r minerState) :
    ArtifactsInPlace files' epochId r minerState := by
  obtain ⟨weightResult, hrecorded, hfields⟩ := hA.weights
  exact ⟨by rw [h .minerState (by decide), hA.snapshot], hA.numeric,
    ⟨weightResult, hrecorded.congr (h .weights (by decide)), hfields⟩,
    hA.panel.congr (h .panelSidecar (by decide))⟩

theorem OutcomeInPlace.outcome_congr
    (hreceipt : files' (.epoch epochId .chainReceipt) = files (.epoch epochId .chainReceipt))
    (hattempt : files' (.epoch epochId .chainAttempt) = files (.epoch epochId .chainAttempt))
    (hO : OutcomeInPlace files epochId r) : OutcomeInPlace files' epochId r := by
  have hin : ReceiptInPlace files epochId r → ReceiptInPlace files' epochId r :=
    fun hr => ⟨hr.1, hr.2.congr hreceipt⟩
  have hdefinite : ReceiptInPlace files epochId r ∧ files (.epoch epochId .chainAttempt) = none →
      ReceiptInPlace files' epochId r ∧ files' (.epoch epochId .chainAttempt) = none := by
    intro hd
    exact ⟨hin hd.1, by rw [hattempt, hd.2]⟩
  unfold OutcomeInPlace at hO ⊢
  cases hm : r.mode with
  | other name unknown =>
    rw [hm] at hO
    exact hO
  | fallback =>
    rw [hm] at hO
    exact ⟨hO.1, by rw [hreceipt, hO.2.1], by rw [hattempt, hO.2.2]⟩
  | submitted =>
    rw [hm] at hO
    exact ⟨hin hO.1, Recorded.congr hattempt hO.2⟩
  | dryRun =>
    rw [hm] at hO
    exact hdefinite hO
  | skipped =>
    rw [hm] at hO
    exact hdefinite hO
  | error =>
    rw [hm] at hO
    exact hdefinite hO

theorem OutcomeInPlace.congr (h : SameArtifacts epochId files files')
    (hO : OutcomeInPlace files epochId r) : OutcomeInPlace files' epochId r :=
  hO.outcome_congr (h .chainReceipt (by decide)) (h .chainAttempt (by decide))

theorem MarkerArtifacts.congr {artifacts : Obj} (h : SameArtifacts epochId files files')
    (hM : MarkerArtifacts env files epochId r artifacts) :
    MarkerArtifacts env files' epochId r artifacts := by
  have hoptional : ∀ present file, file ≠ .completion →
      optionalRecord env files' present epochId file =
        optionalRecord env files present epochId file := by
    intro present file hne
    unfold optionalRecord artifactRecord
    rw [h file hne]
  refine ⟨fun name file hmem => ?_, ?_, ?_⟩
  · obtain ⟨content, hfile, hget⟩ := hM.required name file hmem
    have hne : file ≠ .completion := by
      intro he
      rw [he] at hmem
      revert hmem
      simp [canonicalArtifacts]
    exact ⟨content, by rw [h file hne, hfile], hget⟩
  · rw [hoptional _ _ (by decide), hM.receipt]
  · rw [hoptional _ _ (by decide), hM.attempt]

/-- `verify_epoch_completion` accepts the epoch with this outcome and miner state -/
def Accepted (env : Env) (files : Files) (epochId : Int) (r : ChainWeightResult)
    (minerState : Obj) : Prop :=
  ∃ v, verifyEpochCompletion env files epochId = .ok v ∧ v.mode = r.mode.text ∧
    v.reason = r.reason.getD "" ∧ v.minerState = minerState

theorem verifyEpochCompletion_congr
    (h : ∀ file, files' (.epoch epochId file) = files (.epoch epochId file)) :
    verifyEpochCompletion env files' epochId = verifyEpochCompletion env files epochId := by
  have hload : ∀ file label, loadJsonObject env files' (.epoch epochId file) label =
      loadJsonObject env files (.epoch epochId file) label := by
    intro file label
    unfold loadJsonObject
    rw [h file]
  have hartifact : verifyArtifact env files' epochId = verifyArtifact env files epochId := by
    funext mode artifacts p
    unfold verifyArtifact
    dsimp only
    rw [h p.2]
  have hdetails : receiptDetails env files' epochId = receiptDetails env files epochId := by
    funext receipt
    unfold receiptDetails
    rw [h .chainReceipt]
  unfold verifyEpochCompletion
  simp only [hload, hartifact, hdetails]

theorem Accepted.congr {minerState : Obj}
    (h : ∀ file, files' (.epoch epochId file) = files (.epoch epochId file))
    (ha : Accepted env files epochId r minerState) : Accepted env files' epochId r minerState := by
  unfold Accepted
  rw [verifyEpochCompletion_congr h]
  exact ha

theorem checkCanonicalReceipt_of_outcome (hO : OutcomeInPlace files epochId r) :
    checkCanonicalReceipt epochId r = .ok () := by
  unfold checkCanonicalReceipt
  by_cases hm : r.mode = .fallback
  · unfold OutcomeInPlace at hO
    rw [hm] at hO
    rw [if_neg (not_not_intro hm), hO.1]
    rfl
  · rw [if_pos hm, (hO.receipt hm).1, Json.eqStr_str, if_neg (by decide)]

/-- the marker is the only file that is written, and it is accepted -/
theorem wp_writeEpochCompletionMarker (hf : env.NoFaults) {w : World} {minerState : Obj}
    (hA : ArtifactsInPlace w.files epochId r minerState)
    (hO : OutcomeInPlace w.files epochId r) :
    wp (writeEpochCompletionMarker env epochId r)
      (Post.returns fun _ w' => (∃ content, w' = World.put (.epoch epochId .completion) content
        w.tickClock) ∧ Accepted env w'.files epochId r minerState) w := by
  obtain ⟨artifacts, hmarker, hM⟩ := completionMarker_ok env hA hO
  unfold writeEpochCompletionMarker
  rw [if_neg (not_not_intro hO.recoverable), checkCanonicalReceipt_of_outcome hO, wp_bind,
    wp_ofExcept_ok]
  dsimp only
  rw [wp_bind, wp_get]
  dsimp only
  rw [wp_bind, hmarker, wp_ofExcept_ok]
  dsimp only
  unfold atomicWriteJson
  rw [wp_bind, wp_effectful_of_noFaults hf]
  dsimp only
  rw [wp_bind, wp_get]
  dsimp only
  have hsame : SameArtifacts epochId w.files
      (World.put (.epoch epochId .completion)
        (.doc (Json.canon (.obj (markerRecord epochId r artifacts)))) w.tickClock).files := by
    intro file hne
    exact World.written_of_ne (by simpa using hne) _ _
  have haccepted := verifyEpochCompletion_of_marker (hA.congr hsame) (hO.congr hsame)
    (hM.congr hsame) (World.put_self _ _ _)
  obtain ⟨v, hv, hfields⟩ := haccepted
  rw [wp_bind, hv, wp_ofExcept_ok]
  exact ⟨⟨_, rfl⟩, v, hv, hfields⟩

end

end Dolores
