import Dolores.Lib.Sort
import Dolores.Bridge.Impl
import Dolores.Panel.Impl
import Dolores.Epoch.Completion
import Dolores.Epoch.Jsonl

/-!
# One epoch (`epoch.py`)

`runEpoch` evaluates the submissions of all miners, aggregates the outcomes, hands the weights to
the chain and records the result.  Its parts are the definitions before it, in the order in which
they run; `replayEpoch` derives the scores and the weights again from what was recorded.
-/

namespace Dolores
open Crash

structure Miner where
  hotkey : String
  uid : Int
  terminalStatus : Option String := none
  terminalReason : String := ""
  submissions : Int → Int → List Obj := fun _ _ => []

def Miner.terminal (m : Miner) : Bool := m.terminalStatus.getD "" != ""

/-- `_terminal_outcome` -/
def terminalOutcome (m : Miner) : Option SubmissionOutcome :=
  if m.terminal = false then none
  else
    let status := m.terminalStatus.getD ""
    some { status, taskId := s!"terminal_{status}_{m.uid}", packageHash := .null, taskValue := 0,
           gates := if status = "unreachable" then [("transport", false)] else [("wire", false)],
           reason := if m.terminalReason = "" then status else m.terminalReason }

/-- `_collect` -/
def collect (miners : List Miner) (epochId quota : Int) : List (Miner × Obj) :=
  miners.flatMap fun miner =>
    if miner.terminal then []
    else (miner.submissions epochId quota).map fun payload => (miner, payload)

/-- `str(payload.get("package_hash", ""))` -/
def submissionKey (T : PyText) (payload : Obj) : String :=
  ((Dict.get? payload "package_hash").getD (.str "")).pyStr T

def sortedCollected (T : PyText) (collected : List (Miner × Obj)) : List (Miner × Obj) :=
  collected.insertionSort fun a b => submissionKey T a.2 ≤ submissionKey T b.2

/-! ## evaluation -/

structure Evaluation where
  outcomes : List (Miner × SubmissionOutcome)
  session : PanelSession
  context : GateContext

section
variable (env : Env) (engine : Engine) (A : FloatOps) (cfg : SubnetConfig) (epochId : Int)

def appendOutcome (miner : Miner) (outcome : SubmissionOutcome) : M Unit :=
  appendSubmission env (outcome.toRecord epochId miner.hotkey miner.uid)

/-- the terminal outcomes, appended to the log in the order of the miners -/
def terminalOutcomes : List Miner → M (List (Miner × SubmissionOutcome))
  | [] => pure []
  | miner :: miners =>
    match terminalOutcome miner with
    | none => terminalOutcomes miners
    | some terminal => do
      appendOutcome env epochId miner terminal
      let rest ← terminalOutcomes miners
      pure ((miner, terminal) :: rest)

/-- the override of the task value by a cached measurement, and the evidence -/
def recordPanel (plan : PanelPlan) (session : PanelSession) (outcome : SubmissionOutcome) :
    M (SubmissionOutcome × PanelSession) :=
  if plan = .cache then do
    let cachedRate ← Proc.ofExcept (session.cachedSolveRate outcome.packageHash)
    let taskValue ← Proc.ofExcept
      (recalibratedTaskValue A env.text outcome.taskValue outcome.components cachedRate)
    let session ← session.record env A plan outcome.taskId outcome.packageHash [] cachedRate
    pure ({ outcome with taskValue }, session)
  else if plan ≠ .mock then do
    let session ←
      session.record env A plan outcome.taskId outcome.packageHash outcome.panelRows .null
    pure (outcome, session)
  else pure (outcome, session)

/-- a live plan without panel rows gives its slot back -/
def settlePlan (plan : PanelPlan) (session : PanelSession) (outcome : SubmissionOutcome) :
    PanelPlan × PanelSession :=
  if plan = .live ∧ outcome.panelRows = [] then (.gateFailed, session.refund) else (plan, session)

/-- one round of the evaluation loop -/
def evaluateSubmission (e : Evaluation) (miner : Miner) (payload : Obj) : M Evaluation := do
  let (plan, session) ← Proc.ofExcept (e.session.plan (payload.get "package_hash"))
  let panelPath := if session.active then some (panelPathFor cfg plan) else none
  let (outcome, context) ←
    validateSubmission env engine A payload cfg (some e.context) miner.hotkey panelPath
  let settled := settlePlan plan session outcome
  let (outcome, session) ← recordPanel env A settled.1 settled.2 outcome
  appendOutcome env epochId miner outcome
  pure { outcomes := e.outcomes ++ [(miner, outcome)], session, context }

def evaluateAll : List (Miner × Obj) → Evaluation → M Evaluation
  | [], e => pure e
  | (miner, payload) :: rest, e => do
    let e ← evaluateSubmission env engine A cfg epochId e miner payload
    evaluateAll rest e

end

/-! ## aggregation -/

/-- the value of a number as a `float` key -/
def Json.floatKey? : Json → Option PyFloat
  | .bool b => some (.fin (if b then 1 else 0))
  | .int i => some (.fin i)
  | .float x => some x
  | _ => none

def PyFloat.less : PyFloat → PyFloat → Bool
  | .fin p, .fin q => decide (p < q)
  | .negInf, .fin _ | .negInf, .posInf | .fin _, .posInf => true
  | _, _ => false

/-- `a < b` -/
def Json.lessKey : Json → Json → Except Exn Bool
  | .str s, .str t => .ok (decide (s < t))
  | a, b =>
    match a.floatKey?, b.floatKey? with
    | some x, some y => .ok (x.less y)
    | _, _ => .error (.typeError ("'<' not supported between instances of '" ++ a.typeName ++
        "' and '" ++ b.typeName ++ "'"))

/-- `d[key] = value`: the first key of several equal ones stays -/
def setTaskValue : List (Json × ℚ) → Json → ℚ → List (Json × ℚ)
  | [], key, value => [(key, value)]
  | (key', value') :: d, key, value =>
    if key'.sameKey key then (key', value) :: d else (key', value') :: setTaskValue d key value

/-- `sorted(d.items())`: the keys are compared -/
def sortItems (items : List (Json × ℚ)) : Except Exn (List (Json × ℚ)) :=
  Except.sortBy (fun p q => p.1.lessKey q.1) items

structure Aggregate where
  minerValues : Dict String (List ℚ)
  minerStatuses : Dict String (List String)
  taskValues : List (Json × ℚ) := []

def newAggregate (activeHotkeys : List String) : Aggregate where
  minerValues := Dict.ofPairs (activeHotkeys.map fun hotkey => (hotkey, []))
  minerStatuses := Dict.ofPairs (activeHotkeys.map fun hotkey => (hotkey, []))

def aggregateOutcome (g : Aggregate) (p : Miner × SubmissionOutcome) : Except Exn Aggregate :=
  let (miner, outcome) := p
  if Dict.contains g.minerStatuses miner.hotkey = false then .error (.keyError miner.hotkey)
  else
    let g := { g with
      minerStatuses := Dict.modify g.minerStatuses miner.hotkey (· ++ [outcome.status])
      minerValues := if outcome.status ≠ "infra_error" then
        Dict.modify g.minerValues miner.hotkey (· ++ [outcome.taskValue]) else g.minerValues }
    if outcome.packageHash.truthy = false then .ok g
    else if outcome.packageHash.hashable = false then .error outcome.packageHash.unhashable
    else .ok { g with taskValues := setTaskValue g.taskValues outcome.packageHash outcome.taskValue }

def aggregateOutcomes (activeHotkeys : List String)
    (outcomes : List (Miner × SubmissionOutcome)) : Except Exn Aggregate :=
  outcomes.foldlM aggregateOutcome (newAggregate activeHotkeys)

/-! ## scores and weights -/

structure EpochScores where
  epochScores : Dict String ℚ
  emaState : Dict String ℚ
  weights : Dict String ℚ
  degraded : Bool
  weightReason : Option String

def infraOnlyMiners (minerStatuses : Dict String (List String)) : List String :=
  (minerStatuses.filter fun p => !p.2.isEmpty && p.2.all (· == "infra_error")).map Prod.fst

def scoreEpoch (A : FloatOps) (emaAlpha : ℚ) (quota : Int) (activeHotkeys : List String)
    (previousEma : Dict String ℚ) (g : Aggregate) (statuses : List String) : EpochScores :=
  let epochScores := topKEpochScores A g.minerValues quota
  let emaState := updateEmaScores A previousEma epochScores emaAlpha
    (infraOnlyMiners g.minerStatuses)
  let weights := normalizeActiveWeights A emaState activeHotkeys
  { epochScores, emaState, weights,
    degraded := g.minerStatuses.values.any fun s => s.any (· == "infra_error"),
    weightReason :=
      if !statuses.isEmpty && statuses.all (· == "infra_error") then
        some "epoch_degraded_all_infra"
      else if weights.values.all (· == 0) then some "all_zero" else none }

/-- `dict(sorted(scores.items()))` -/
def scoresRecord (scores : Dict String ℚ) : Obj := Dict.mapValues .num (Dict.sorted scores)

/-- a key of a `dict` as `json.dumps` writes it -/
def keyText (T : PyText) : Json → String
  | .str s => s
  | j => dumpsCompact T j

def taskValuesRecord (T : PyText) (items : List (Json × ℚ)) : Obj :=
  items.map fun p => (keyText T p.1, .num p.2)

section
variable (env : Env)

/-- the weights artifact; sorting the task values may raise -/
def epochArtifact (cfg : SubnetConfig) (epochId quota : Int) (g : Aggregate) (scores : EpochScores)
    (chainResult : ChainWeightResult) (createdAt : String) (durationMs : Int) :
    Except Exn Obj := do
  let taskValues ← sortItems g.taskValues
  .ok [
    ("epoch_id", .int epochId),
    ("config", .obj [("quota", .int quota), ("top_k", .int quota),
      ("ema_alpha", .num cfg.emaAlpha)]),
    ("task_values", .obj (taskValuesRecord env.text taskValues)),
    ("epoch_scores", .obj (scoresRecord scores.epochScores)),
    ("ema_state", .obj (scoresRecord scores.emaState)),
    ("weights", .obj (scoresRecord scores.weights)),
    ("degraded", .bool scores.degraded),
    ("weight_result", .obj chainResult.toRecord),
    ("timing", .obj [("created_at", .str createdAt), ("duration_ms", .int durationMs)])]

/-- `_load_miner_state` -/
def minerStateOf (content : Option Content) : Except Exn (Dict String ℚ) :=
  match content.map (Content.decoded env) with
  | none => .ok []
  | some (.value (.obj payload)) => payload.mapM fun p => do
    let value ← p.2.toFloat env.text
    .ok (p.1, value)
  | some (.value j) =>
    .error (.attributeError ("'" ++ j.typeName ++ "' object has no attribute 'items'"))
  | some .badUtf8 => .error (.unicodeDecodeError "invalid utf-8")
  | some .badJson => .error (.jsonDecodeError "Expecting value")

def loadMinerState (epochId : Int) : M (Dict String ℚ) := do
  let w ← Proc.get
  logEvent (.emaLoaded epochId (w.files .minerState))
  Proc.ofExcept (minerStateOf env (w.files .minerState))

/-- `_save_miner_state` -/
def saveMinerState (epochId : Int) (state : Dict String ℚ) : M Unit :=
  atomicWriteJson env (.epoch epochId .minerState) (.obj (scoresRecord state))

/-- `_persist_panel_sidecar` -/
def persistPanelSidecar (cfg : SubnetConfig) (session : PanelSession) (epochId : Int) : M Unit := do
  let sidecar ← Proc.ofExcept (session.sidecar cfg epochId)
  let payload ← (match sidecar with
    | none => pure [("epoch_id", .int epochId), ("mode", .str "mock"), ("tasks", .arr [])]
    | some sidecar => do
      writeText env (.epoch epochId .panelSidecar) (.obj sidecar)
      let w ← Proc.get
      Proc.ofExcept (loadJsonObject env w.files (.epoch epochId .panelSidecar) "panel sidecar")
    : M Obj)
  atomicWriteJson env (.epoch epochId .panelSidecar) (.obj payload)

end

/-! ## `run_epoch` -/

structure EpochResult where
  artifactPath : Path
  weights : Dict String ℚ
  epochScores : Dict String ℚ
  chainResult : ChainWeightResult
  completionMarkerPath : Path

/-- `_emit_phase` -/
def emitPhase (phaseHook : Option (String → M Unit)) (phase : String) : M Unit :=
  match phaseHook with
  | none => pure ()
  | some hook => hook phase

section
variable (env : Env) (engine : Engine) (substrate : Substrate) (A : FloatOps) (cfg : SubnetConfig)
  (epochId quota : Int)

/-- everything that is written once the chain has answered -/
def recordEpoch (session : PanelSession) (g : Aggregate) (scores : EpochScores)
    (chainResult : ChainWeightResult) (phaseHook : Option (String → M Unit)) : M EpochResult := do
  let createdAt ← now env
  let w ← Proc.get
  let artifact ← Proc.ofExcept (epochArtifact env cfg epochId quota g scores chainResult createdAt
    (env.durationMs w.clock))
  saveMinerState env epochId scores.emaState
  persistPanelSidecar env cfg session epochId
  atomicWriteJson env (.epoch epochId .weights) (.obj artifact)
  if chainResult.mode.text ∉ recoverableChainModes then Proc.raise (incompleteOutcome chainResult)
  else
    writeEpochCompletionMarker env epochId chainResult
    atomicWriteJson env .minerState (.obj (scoresRecord scores.emaState))
    emitPhase phaseHook "committed"
    pure { artifactPath := .epoch epochId .weights, weights := scores.weights,
           epochScores := scores.epochScores, chainResult,
           completionMarkerPath := .epoch epochId .completion }

/-- everything after the evaluation of the submissions -/
def concludeEpoch (miners : List Miner) (client : Option ChainClient)
    (phaseHook : Option (String → M Unit)) (outcomes : List (Miner × SubmissionOutcome))
    (session : PanelSession) : M EpochResult := do
  let activeHotkeys := miners.map (·.hotkey)
  let g ← Proc.ofExcept (aggregateOutcomes activeHotkeys outcomes)
  let previousEma ← loadMinerState env epochId
  let scores := scoreEpoch A cfg.emaAlpha quota activeHotkeys previousEma g
    (outcomes.map (·.2.status))
  emitPhase phaseHook "weights_submitting"
  let chainResult ← (client.getD .null).applyWeights env substrate A
    { epochId, weights := scores.weights, activeHotkeys, specVersion := cfg.specVersion }
    (scores.weightReason.getD "offline")
  recordEpoch env cfg epochId quota session g scores chainResult phaseHook

/-- the evaluation of all submissions -/
def evaluateEpoch (miners : List Miner) : M Evaluation := do
  initArchive env engine
  repairJsonlTail env
  let w ← Proc.get
  let session ← Proc.ofExcept (newPanelSession env cfg w.panelCache)
  let terminals ← terminalOutcomes env epochId miners
  evaluateAll env engine A cfg epochId (sortedCollected env.text (collect miners epochId quota))
    { outcomes := terminals, session, context := { quota } }

def runEpoch (miners : List Miner) (client : Option ChainClient)
    (phaseHook : Option (String → M Unit)) : M EpochResult := do
  emitPhase phaseHook "evaluating"
  let e ← evaluateEpoch env engine A cfg epochId quota miners
  concludeEpoch env substrate A cfg epochId quota miners client phaseHook e.outcomes e.session

end

/-! ## replay -/

/-- `value[key]` -/
def Json.index (key : String) : Json → Except Exn Json
  | .obj fields =>
    match Dict.get? fields key with
    | some j => .ok j
    | none => .error (.keyError key)
  | j => .error (.typeError ("'" ++ j.typeName ++ "' object is not subscriptable"))

def Json.asDict : Json → Except Exn Obj
  | .obj fields => .ok fields
  | j => .error (.attributeError ("'" ++ j.typeName ++ "' object has no attribute 'get'"))

section
variable (env : Env) (A : FloatOps) (files : Files) (log : Option Log) (epochId : Int)

def loadArtifact : Except Exn Json :=
  match (files (.epoch epochId .weights)).map (Content.decoded env) with
  | none => .error (.osError "No such file or directory")
  | some .badUtf8 => .error (.unicodeDecodeError "invalid utf-8")
  | some .badJson => .error (.jsonDecodeError "Expecting value")
  | some (.value artifact) => .ok artifact

/-- `[row for row in rows if row["epoch_id"] == epoch_id]` -/
def epochRows (rows : List Obj) : Except Exn (List Obj) :=
  rows.filterM fun row => do
    let id ← Json.index "epoch_id" (.obj row)
    .ok (id.eqInt epochId)

def replayRow (minerValues : Dict String (List ℚ)) (row : Obj) :
    Except Exn (Dict String (List ℚ)) := do
  let hotkey ← Json.index "miner_hotkey" (.obj row)
  match hotkey with
  | .str hotkey => do
    let minerValues :=
      if Dict.contains minerValues hotkey then minerValues else Dict.set minerValues hotkey []
    let status ← Json.index "status" (.obj row)
    if status.eqStr "infra_error" then .ok minerValues
    else do
      let value ← Json.index "task_value" (.obj row)
      let value ← value.toFloat env.text
      .ok (Dict.modify minerValues hotkey (· ++ [value]))
  | j => .error j.unhashable

def replayScores (rows : List Obj) (quota : Int) : Except Exn (Dict String ℚ) := do
  let minerValues ← rows.foldlM (replayRow env) []
  .ok (topKEpochScores A minerValues quota)

/-- `normalize_active_weights` of two values of the artifact -/
def replayWeights (emaState : Obj) (activeHotkeys : List String) : Except Exn (Dict String ℚ) := do
  let active ← activeHotkeys.mapM fun hotkey => do
    let value ← ((Dict.get? emaState hotkey).getD (Json.num 0)).toFloat env.text
    .ok (hotkey, value)
  .ok (normalizeWeights A (Dict.ofPairs active))

/-- the weights derived from a stored artifact -/
def replayArtifactWeights (artifact : Json) : Except Exn (Dict String ℚ) := do
  let emaState ← artifact.index "ema_state"
  let weights ← artifact.index "weights"
  let emaState ← emaState.asDict
  let weights ← weights.asDict
  replayWeights env A emaState weights.keys

structure Replay where
  epochScores : Dict String ℚ
  weights : Dict String ℚ

def replayEpoch : Except Exn Replay := do
  let artifact ← loadArtifact env files epochId
  let rows ← (match log with
    | none => .error (.osError "No such file or directory")
    | some log => readJsonl log : Except Exn (List Obj))
  let rows ← epochRows epochId rows
  let config ← artifact.index "config"
  let quota ← config.index "quota"
  let quota ← quota.toInt
  let epochScores ← replayScores env A rows quota
  let weights ← replayArtifactWeights env A artifact
  .ok { epochScores, weights }

/-- `scores == value` -/
def eqScores (scores : Dict String ℚ) : Json → Bool
  | .obj fields => scores.length == fields.length &&
      scores.all fun p => (Obj.get fields p.1).number? == some p.2
  | _ => false

def assertReplayMatches : Except Exn Unit := do
  let artifact ← loadArtifact env files epochId
  let replay ← replayEpoch env A files log epochId
  let epochScores ← artifact.index "epoch_scores"
  if eqScores replay.epochScores epochScores = false then
    .error (.assertionError "epoch_scores mismatch")
  else
    let weights ← artifact.index "weights"
    if eqScores replay.weights weights = false then .error (.assertionError "weights mismatch")
    else .ok ()

end

end Dolores
