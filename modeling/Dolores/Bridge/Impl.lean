import Dolores.Gate.Impl
import Dolores.Holdout.Impl

/-!
# From a wire submission to an outcome (`bridge.py`)
-/

namespace Dolores
open Crash

def reservedWireKeys : List String := ["wire_error"]
def nonContainerizedAllowedStatuses : List String := ["rejected", "review", "invalid", "infra_error"]

structure SubmissionOutcome where
  status : String
  taskId : String
  /-- copied from the wire when a gate fails, so any JSON value -/
  packageHash : Json
  taskValue : ℚ
  gates : Dict String Bool
  components : Obj := []
  verificationSummary : Obj := []
  holdoutSummary : Obj := []
  reason : String := ""
  panelRows : List Obj := []

def SubmissionOutcome.toRecord (o : SubmissionOutcome) (epochId : Int) (minerHotkey : String)
    (minerUid : Option Int) : Obj := [
  ("epoch_id", .int epochId),
  ("miner_hotkey", .str minerHotkey),
  ("miner_uid", .ofOption .int minerUid),
  ("task_id", .str o.taskId),
  ("package_hash", o.packageHash),
  ("status", .str o.status),
  ("reason", .str o.reason),
  ("pre_gates", .obj (Dict.mapValues .bool o.gates)),
  ("task_value", .num o.taskValue),
  ("components", .obj o.components),
  ("verification", .obj o.verificationSummary),
  ("holdout", .obj o.holdoutSummary)]

/-! ## summaries -/

def isWordChar (c : Char) : Bool := c.isAlphanum || c.toNat == 95

/-- the rest of the text after a match of `in \d+(?:\.\d+)?s\b` at its start -/
def matchDuration (text : List Char) : Option (List Char) :=
  if "in ".toList.isPrefixOf text then
    let afterIn := text.drop 3
    let whole := afterIn.takeWhile Char.isDigit
    let afterWhole := afterIn.dropWhile Char.isDigit
    let afterNumber :=
      match afterWhole with
      | c :: cs =>
        if c.toNat = 46 && !(cs.takeWhile Char.isDigit).isEmpty then cs.dropWhile Char.isDigit
        else afterWhole
      | [] => afterWhole
    match afterNumber with
    | c :: cs =>
      if !whole.isEmpty && c.toNat == 115 && !((cs.head?.map isWordChar).getD false) then some cs
      else none
    | [] => none
  else none

/-- every match is replaced; `word` says whether the character before the text is a word
character, and `fuel` bounds the length of the text -/
def replaceDurations : Nat → Bool → List Char → List Char
  | 0, _, text => text
  | _, _, [] => []
  | fuel + 1, word, c :: cs =>
    match (if word then none else matchDuration (c :: cs)) with
    | some rest => "in <duration>s".toList ++ replaceDurations fuel true rest
    | none => c :: replaceDurations fuel (isWordChar c) cs

def stableErrorSummary (value : String) : String :=
  String.ofList (replaceDurations value.length false value.toList)

def verificationSummary (v : Verification) : Obj := [
  ("status", .str v.status),
  ("backend", .str v.backend),
  ("requested_backend", .str v.requestedBackend),
  ("execution_mode", .str v.executionMode),
  ("executed", .bool v.executed),
  ("containerized", .bool v.containerized),
  ("image", .ofOption .str v.image),
  ("fallback_reason", .ofOption .str v.fallbackReason),
  ("error_summary", .ofOption (fun s => .str (stableErrorSummary s)) v.errorSummary),
  ("safety_findings", .arr (v.safetyFindings.map (·.record)))]

def isInfraError (v : Verification) : Bool :=
  !v.executed && v.fallbackReason.isSome && v.safetyFindings.isEmpty

def panelRows (result : PipelineResult) : List Obj :=
  result.solverResults.filterMap fun run =>
    match run with
    | .row fields => some fields
    | .other => none

/-- `text or default` -/
def orElse (text : Option String) (default : String) : String :=
  if text.getD "" = "" then default else text.getD ""

section
variable (env : Env) (engine : Engine) (A : FloatOps)

/-! ## the result of the pipeline -/

def purgeIfHash (taskHash : String) : M Unit :=
  if taskHash = "" then pure () else purgeTask env engine taskHash

def outcomeFromPipeline (result : PipelineResult) (cfg : SubnetConfig) (taskId taskHash : String)
    (gates : Dict String Bool) (holdoutSummary : Obj) : M SubmissionOutcome := do
  let outcome (status : String) (summary : Obj) (reason : String) : SubmissionOutcome :=
    { status, taskId, packageHash := .str taskHash, taskValue := 0, gates,
      verificationSummary := summary, holdoutSummary, reason }
  match result.verification with
  | none => pure (outcome "invalid" [] ("pipeline:" ++ orElse result.error result.status))
  | some verification =>
    let summary := verificationSummary verification
    if result.error.getD "" ≠ "" then
      pure (outcome "invalid" [] ("pipeline:" ++ orElse result.error result.status))
    else if isInfraError verification then
      purgeIfHash env engine taskHash
      pure (outcome "infra_error" summary
        (orElse verification.fallbackReason "infrastructure failure"))
    else
      match verification.safetyFindings with
      | finding :: _ => pure (outcome "rejected" summary ("safety:" ++ finding.message))
      | [] =>
        let lifecycle := (result.score.map (·.lifecycleStatus)).getD result.status
        if cfg.backend = .docker ∧ verification.containerized = false ∧
            lifecycle ∉ nonContainerizedAllowedStatuses then
          purgeIfHash env engine taskHash
          pure (outcome "infra_error" summary "docker accepted without containerized execution")
        else
          pure { status := lifecycle, taskId, packageHash := .str taskHash,
                 taskValue := (result.score.map (taskValueFromScore A)).getD 0, gates,
                 components := (result.score.map (·.components)).getD [],
                 verificationSummary := summary, holdoutSummary,
                 reason := if verification.status = "failed" ∧ verification.executed = true
                   then "verification failed" else lifecycle,
                 panelRows := panelRows result }

/-! ## `validate_submission` -/

def runPipeline (task : TaskPackage) (panelPath : String) : M PipelineResult := do
  let (result, rows) ← external env fun n => engine.runTaskPipeline n task panelPath
  Proc.modify fun w => { w with db := w.db ++ rows.map fun row => (engine.stableHash task, row) }
  logEvent (.pipelineRan panelPath result)
  pure result

/-- the part after the gates have passed -/
def evaluateTask (cfg : SubnetConfig) (task : TaskPackage) (taskHash : String)
    (gates : Dict String Bool) (panelPath : String) : M SubmissionOutcome := do
  let result ← runPipeline env engine task panelPath
  match result.verification with
  | some verification =>
    if cfg.holdoutRequired = true ∧ verification.status = "passed" then
      let packageHash := if taskHash = "" then engine.stableHash task else taskHash
      let evidence ← evaluateHoldout env engine task packageHash (cfg.holdoutSecret.getD "") true
      if evidence.passed = false then
        purgeIfHash env engine taskHash
        pure { status := if evidence.status = "infra_error" then "infra_error" else "rejected",
               taskId := task.taskId, packageHash := .str taskHash, taskValue := 0, gates,
               verificationSummary := verificationSummary verification,
               holdoutSummary := evidence.toRecord,
               reason := "holdout:" ++ evidence.status ++ ":" ++ evidence.reason }
      else
        outcomeFromPipeline env engine A result cfg task.taskId taskHash gates evidence.toRecord
    else outcomeFromPipeline env engine A result cfg task.taskId taskHash gates []
  | none => outcomeFromPipeline env engine A result cfg task.taskId taskHash gates []

def unsupportedOutcome (task : TaskPackage) (taskHash : String) (gates : Dict String Bool)
    (msg : String) : SubmissionOutcome :=
  { status := "rejected", taskId := task.taskId, packageHash := .str taskHash, taskValue := 0,
    gates, reason := "holdout:unsupported:" ++ msg,
    holdoutSummary := [
      ("passed", .bool false),
      ("status", .str "unsupported"),
      ("reason", .str msg),
      ("policy_version", .str policyVersion),
      ("base_package_hash", .str taskHash)] }

def evaluateSupported (cfg : SubnetConfig) (task : TaskPackage) (taskHash : String)
    (gates : Dict String Bool) (panelPath : String) : M SubmissionOutcome :=
  if cfg.holdoutRequired = true then
    match validateHoldoutSupport engine task with
    | .error (.holdoutPolicyError msg) => pure (unsupportedOutcome task taskHash gates msg)
    | .error e => Proc.raise e
    | .ok _ => evaluateTask env engine A cfg task taskHash gates panelPath
  else evaluateTask env engine A cfg task taskHash gates panelPath

def reservedOutcome (wire : Obj) (reserved : List String) : SubmissionOutcome :=
  let packageTaskId :=
    match Dict.get? wire "package" with
    | some (.obj package) => Obj.get package "task_id"
    | _ => .null
  { status := "invalid",
    taskId := ((Dict.get? wire "task_id").getD
      (if packageTaskId.truthy then packageTaskId else .str "unknown")).pyStr env.text,
    packageHash := wire.get "package_hash", taskValue := 0, gates := [("reserved_keys", false)],
    reason := "invalid:reserved_key:" ++ ",".intercalate (reserved.insertionSort (· ≤ ·)) }

/-- `str(wire.get("task_id", wire.get("package", {}).get("task_id", "unknown")))`: the default
is evaluated also when the payload has a `task_id` -/
def wireTaskId (wire : Obj) : Except Exn String :=
  match (Dict.get? wire "package").getD (.obj []) with
  | .obj package =>
    .ok (((Dict.get? wire "task_id").getD
      ((Dict.get? package "task_id").getD (.str "unknown"))).pyStr env.text)
  | j => .error (.attributeError ("'" ++ j.typeName ++ "' object has no attribute 'get'"))

def gateFailedOutcome (wire : Obj) (taskId : String) (decision : GateDecision) :
    SubmissionOutcome :=
  { status := "invalid", taskId, packageHash := wire.get "package_hash", taskValue := 0,
    gates := decision.gates, reason := (decision.failure.map (·.reason)).getD "invalid" }

/-- the part after the gates have run -/
def settleGates (wire : Obj) (cfg : SubnetConfig) (panelPath : Option String)
    (decision : GateDecision) : M SubmissionOutcome := do
  let taskId ← Proc.ofExcept (wireTaskId env wire)
  match decision.passed, decision.task with
  | true, some task =>
    evaluateSupported env engine A cfg task (decision.taskHash.getD "") decision.gates
      (panelPath.getD cfg.panelPath)
  | true, none => Proc.raise (.assertionError "")
  | false, _ => pure (gateFailedOutcome wire taskId decision)

def validateSubmission (wire : Obj) (cfg : SubnetConfig) (context : Option GateContext)
    (minerHotkey : String) (panelPath : Option String) : M (SubmissionOutcome × GateContext) := do
  initArchive env engine
  let gateContext := context.getD { quota := cfg.quota }
  let reserved := reservedWireKeys.filter fun key => Dict.contains wire key
  if reserved ≠ [] then
    pure (reservedOutcome env wire reserved, gateContext)
  else
    let (decision, gateContext) ←
      Proc.ofExcept (runPreGates env.text engine wire cfg gateContext minerHotkey)
    let outcome ← settleGates env engine A wire cfg panelPath decision
    pure (outcome, gateContext)

end

end Dolores
