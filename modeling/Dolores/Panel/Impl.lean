import Dolores.Archive.World

/-!
# The calibration session (`panel.py`)

The session of one epoch: which panel each submission is sent to, the budget of paid panel runs,
the cache of measured solve rates and the evidence for the sidecar.
-/

namespace Dolores
open Crash

def spendEnv : String := "DOLORES_ALLOW_PROVIDER_SPEND"

def credentialEnvByProvider : Dict String String := [("fireworks", "FIREWORKS_API_KEY")]

def deterministicRowKeys : List String :=
  ["solver_id", "model", "provider", "attempt_id", "passed", "error_class"]

def volatileRowKeys : List String :=
  ["duration_ms", "token_usage", "prompt_tokens", "completion_tokens", "cost_estimate",
    "finish_reason"]

inductive PanelPlan where
  | mock
  | cache
  | dryRun
  | live
  | budgetExhausted
  | gateFailed
deriving DecidableEq, Repr

def PanelPlan.text : PanelPlan → String
  | .mock => "mock"
  | .cache => "cache"
  | .dryRun => "dry_run"
  | .live => "live"
  | .budgetExhausted => "budget_exhausted"
  | .gateFailed => "gate_failed"

/-- equality of two values as keys of a `dict`: numbers are compared by value -/
def Json.sameKey : Json → Json → Bool
  | .null, .null => true
  | .str s, .str t => s == t
  | a, b =>
    match a.number?, b.number? with
    | some p, some q => p == q
    | none, none =>
      match a, b with
      | .float .posInf, .float .posInf => true
      | .float .negInf, .float .negInf => true
      | _, _ => false
    | _, _ => false

structure PanelSession where
  active : Bool
  dryRun : Bool
  budgetRemaining : Int
  entries : List Obj := []
  /-- the records of the current panel digest by task hash; the latest is first -/
  cache : List (Json × Obj) := []
  digest : Option String := none
  solverSpecs : List Obj := []

section
variable (env : Env) (cfg : SubnetConfig)

def pickKeys (keys : List String) (row : Obj) : Json :=
  .obj (keys.map fun key => (key, row.get key))

/-! ## construction -/

def missingSpendGates : List String :=
  (if cfg.allowProviderSpend then [] else ["allow_provider_spend flag (--allow-provider-spend)"]) ++
  (if env.environ spendEnv = some "1" then [] else [spendEnv ++ "=1 environment variable"]) ++
  (if cfg.panelMaxTasks ≤ 0 then ["positive panel_max_tasks budget (--panel-max-tasks)"] else [])

def assertSpendGates : Except Exn Unit :=
  if missingSpendGates env cfg ≠ [] then
    .error (.panelSpendError ("provider_spend_not_allowed: calibration mode with real providers " ++
      "requires all spend gates; missing: " ++ "; ".intercalate (missingSpendGates env cfg)))
  else .ok ()

def assertCredentials (specs : List Obj) : Except Exn Unit :=
  specs.forM fun spec =>
    let provider := (((Dict.get? spec "provider").getD (.str "")).pyStr env.text).toLower
    match Dict.get? credentialEnvByProvider provider with
    | none => .ok ()
    | some envName =>
      if (env.environ envName).getD "" = "" then
        .error (.panelSpendError (envName ++ " is required for provider=" ++ provider))
      else .ok ()

/-- one line of the cache file -/
def loadCacheLine (digest : String) (cache : List (Json × Obj)) :
    Line → Except Exn (List (Json × Obj))
  | .blank => .ok cache
  | .bad => .error (.jsonDecodeError "Expecting value")
  | .value (.obj record) =>
    if (Obj.get record "panel_digest").eqStr digest = false then .ok cache
    else
      match Dict.get? record "task_hash" with
      | none => .error (.keyError "task_hash")
      | some taskHash =>
        if taskHash.hashable then .ok ((taskHash, record) :: cache) else .error taskHash.unhashable
  | .value j => .error (.attributeError ("'" ++ j.typeName ++ "' object has no attribute 'get'"))

def Log.allLines (l : Log) : List Line := l.lines ++ l.tail.toList

def loadCache (digest : String) (log : Option Log) : Except Exn (List (Json × Obj)) :=
  match log with
  | none => .ok []
  | some log => log.allLines.foldlM (loadCacheLine digest) []

def newPanelSession (cacheFile : Option Log) : Except Exn PanelSession :=
  let session : PanelSession :=
    { active := cfg.panelMode == .calibrate, dryRun := cfg.panelDryRun,
      budgetRemaining := cfg.panelMaxTasks }
  if cfg.panelMode ≠ .calibrate then .ok session
  else
    match env.panelFile with
    | none => .error (.panelSpendError ("panel_mode=calibrate but panel config is missing: " ++
        cfg.panelCalibratePath))
    | some file => do
      let solverSpecs ← file.solvers
      (if cfg.panelDryRun then pure () else do
        assertSpendGates env cfg
        assertCredentials env solverSpecs : Except Exn Unit)
      let cache ← loadCache file.digest.text cacheFile
      .ok { session with digest := some file.digest.text, solverSpecs, cache }

/-! ## planning -/

def PanelSession.cachedSolveRate (s : PanelSession) (taskHash : Json) : Except Exn Json :=
  if !s.active || !taskHash.truthy || s.digest.isNone then .ok .null
  else if taskHash.hashable = false then .error taskHash.unhashable
  else
    match s.cache.find? fun entry => entry.1.sameKey taskHash with
    | none => .ok .null
    | some (_, record) => .ok (record.get "clean_solve_rate")

def Json.isNull : Json → Bool
  | .null => true
  | _ => false

/-- the plan for one submission; `live` reserves a budget slot -/
def PanelSession.plan (s : PanelSession) (taskHash : Json) :
    Except Exn (PanelPlan × PanelSession) :=
  if s.active = false then .ok (.mock, s)
  else do
    let rate ← s.cachedSolveRate taskHash
    if rate.isNull = false then .ok (.cache, s)
    else if s.dryRun then .ok (.dryRun, s)
    else if s.budgetRemaining ≤ 0 then .ok (.budgetExhausted, s)
    else .ok (.live, { s with budgetRemaining := s.budgetRemaining - 1 })

def PanelSession.refund (s : PanelSession) : PanelSession :=
  { s with budgetRemaining := s.budgetRemaining + 1 }

def panelPathFor (plan : PanelPlan) : String :=
  if plan = .live then cfg.panelCalibratePath else cfg.panelPath

def PanelSession.plannedAttempts (s : PanelSession) : Except Exn Int :=
  s.solverSpecs.foldlM (fun total spec => do
    let attempts ← ((Dict.get? spec "attempts").getD (.int 1)).toInt
    .ok (total + attempts)) 0

/-! ## evidence -/

def cacheStore (s : PanelSession) (taskHash : Json) (cleanRate : ℚ) (rows : List Obj) :
    M PanelSession :=
  let record : Obj := [
    ("task_hash", taskHash),
    ("panel_digest", .ofOption .str s.digest),
    ("clean_solve_rate", .num cleanRate),
    ("rows", .arr ((rows.filter (genuineRow env.text)).map (pickKeys deterministicRowKeys)))]
  if taskHash.hashable = false then Proc.raise taskHash.unhashable
  else do
    appendPanelCacheLine env (.obj record)
    pure { s with cache := (taskHash, record) :: s.cache }

variable (A : FloatOps)

def PanelSession.record (s : PanelSession) (plan : PanelPlan) (taskId : String) (taskHash : Json)
    (rows : List Obj) (cachedRate : Json) : M PanelSession :=
  let entry : Obj := [("task_id", .str taskId), ("task_hash", taskHash), ("source", .str plan.text)]
  let add (s : PanelSession) (more : Obj) : PanelSession :=
    { s with entries := s.entries ++ [entry ++ more] }
  if s.active = false then pure s
  else if plan = .live ∧ rows ≠ [] then do
    let cleanRate := cleanSolveRateFromRows A env.text rows
    let s ← (match cleanRate with
      | some rate => if taskHash.truthy then cacheStore env s taskHash rate rows else pure s
      | none => pure s : M PanelSession)
    pure (add s [
      ("clean_solve_rate", .ofOption .num cleanRate),
      ("attempts", .arr (rows.map (pickKeys deterministicRowKeys))),
      ("volatile", .arr (rows.map (pickKeys volatileRowKeys)))])
  else if plan = .cache then pure (add s [("clean_solve_rate", cachedRate)])
  else if plan = .dryRun then do
    let attempts ← Proc.ofExcept s.plannedAttempts
    pure (add s [
      ("estimated_attempts", .int attempts),
      ("models", .arr (s.solverSpecs.map fun spec => .str ((spec.get "model").pyStr env.text)))])
  else pure (add s [])

def addEstimate (total : Int) (entry : Obj) : Except Exn Int := do
  let attempts ← ((Dict.get? entry "estimated_attempts").getD (.int 0)).toInt
  .ok (total + attempts)

def estimatedTotal (entries : List Obj) : Except Exn Int := entries.foldlM addEstimate 0

/-- the sidecar that `write_sidecar` writes, `none` when the session is inactive -/
def PanelSession.sidecar (s : PanelSession) (epochId : Int) : Except Exn (Option Obj) :=
  if s.active = false then .ok none
  else
    let sidecar : Obj := [
      ("epoch_id", .int epochId),
      ("mode", .str (if s.dryRun then "dry_run" else "calibrate")),
      ("panel_config", .str cfg.panelCalibratePath),
      ("panel_digest", .ofOption .str s.digest),
      ("budget", .obj [("max_tasks", .int cfg.panelMaxTasks),
        ("remaining", .int s.budgetRemaining)]),
      ("tasks", .arr (s.entries.map .obj))]
    if s.dryRun then do
      let total ← estimatedTotal s.entries
      .ok (some (sidecar ++ [("estimated_total_attempts", .int total)]))
    else .ok (some sidecar)

end

namespace EngineFrame

section
variable {R : World → World → Prop} [IsPreorder World R] (F : EngineFrame R)
  {env : Env} {A : FloatOps}
include F

theorem cacheStore (s : PanelSession) (taskHash : Json) (cleanRate : ℚ) (rows : List Obj) :
    Moves R (cacheStore env s taskHash cleanRate rows) :=
  Moves.ite (Moves.raise _) (Moves.bind (F.appendPanelCacheLine _) fun _ => Moves.pure _)

theorem record (s : PanelSession) (plan : PanelPlan) (taskId : String) (taskHash : Json)
    (rows : List Obj) (cachedRate : Json) :
    Moves R (s.record env A plan taskId taskHash rows cachedRate) := by
  unfold PanelSession.record
  refine Moves.ite (Moves.pure _) (Moves.ite ?_ (Moves.ite (Moves.pure _) (Moves.ite ?_
    (Moves.pure _))))
  · refine Moves.bind ?_ fun _ => Moves.pure _
    cases cleanSolveRateFromRows A env.text rows with
    | none => exact Moves.pure _
    | some rate => exact Moves.ite (F.cacheStore s taskHash rate rows) (Moves.pure _)
  · exact Moves.bind (Moves.ofExcept _) fun _ => Moves.pure _

end

end EngineFrame

end Dolores
