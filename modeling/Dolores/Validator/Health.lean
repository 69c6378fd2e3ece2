import Dolores.Validator.Configure
import Dolores.Validator.Wedge
import Dolores.Wire.Sound

/-!
# The health of a validator (`validator_cli.py`)

`healthCommand` reads the state of the archive, asks the container engine and the chain, and sends
one signed request of quota zero to the endpoints.  It reports `ok` if it has found nothing to
complain of.

* `dockerHealth`, `chainHealth`, `probeWire`   what is asked;
* `healthReport`                               what the answers are worth;
* `healthCommand_leavesArchive`                nothing is written, however it ends;
* `health_ok_sound`                            what `ok` says about the next tick and the miners.
-/

set_option linter.unusedSectionVars false

namespace Dolores
open Crash Except

/-- the arguments of the command -/
structure HealthArgs where
  mode : Mode := .testnet
  network : Option String := none
  netuid : Option Int := none
  minerEndpoints : String := ""
  /-- `--chain off` -/
  chainOff : Bool := false
  probeWire : Bool := true

/-- `_validate_health_target` -/
def validateHealthTarget (args : HealthArgs) : Except Exn Unit :=
  if args.mode = .wire then
    if args.minerEndpoints = "" then
      .error (.valueError "wire health requires --miner-endpoints")
    else if args.chainOff = false then .error (.valueError "wire health requires --chain off")
    else if args.network ≠ none ∨ args.netuid ≠ none then
      .error (.valueError "wire health forbids --network and --netuid")
    else .ok ()
  else if args.minerEndpoints ≠ "" then .error (.valueError
    "chain health requires metagraph discovery; manual endpoints forbidden")
  else if args.chainOff then .error (.valueError "chain health forbids --chain off")
  else
    match args.network, args.netuid with
    | some network, some netuid =>
      if args.mode = .testnet then requireCohortTarget network netuid
      else if args.mode = .localnet then
        requireLocalnetTarget (some network) (some netuid) "localnet health"
      else .ok ()
    | _, _ => .error (.valueError "health requires explicit --network and --netuid")

/-- the `docker` command -/
structure DockerCli where
  /-- `shutil.which("docker")` finds it -/
  found : Bool
  /-- the return code of `docker version`, and its output, stripped -/
  version : Nat → Except Exn (Int × String)
  /-- the return code of `docker image inspect` -/
  inspectImage : Nat → String → Except Exn Int

structure DockerHealth where
  ok : Bool
  reason : String
  serverVersion : Option String := none
  image : String
deriving DecidableEq, Repr

/-- what the command knows of the chain -/
inductive ChainHealth where
  /-- a chain-neutral network -/
  | off
  | unset
  | state (s : ChainState)
  | unreachable (errorType : String)

def ChainHealth.mode : ChainHealth → String
  | .off => "off"
  | .unset | .unreachable _ => "error"
  | .state s => s.mode

def ChainHealth.reason : ChainHealth → String
  | .off => "manual_wire_chain_neutral"
  | .unset => "netuid_unset"
  | .state s => s.reason
  | .unreachable _ => "rpc_or_wallet_unreachable"

/-- what the probe has found; `none` if it was not made -/
structure WireProbe where
  reachable : Option Nat := none
  errorType : Option String := none
deriving DecidableEq, Repr

structure HealthReport where
  ok : Bool
  state : ValidatorRuntimeState
  ambiguous : Bool
  holdoutConfigured : Bool
  docker : DockerHealth
  chain : ChainHealth
  endpoints : List Obj
  probe : WireProbe
  degradedConditions : List String

/-! ## the command -/

section
variable (env : Env) (docker : DockerCli)

/-- `_docker_health` -/
def dockerHealth (image : String) : M DockerHealth :=
  if docker.found = false then pure { ok := false, reason := "docker_cli_missing", image }
  else do
    let daemon ← external env docker.version
    if daemon.1 ≠ 0 then pure { ok := false, reason := "docker_daemon_unavailable", image }
    else do
      let code ← external env fun n => docker.inspectImage n image
      pure { ok := decide (code = 0), image, serverVersion := some daemon.2,
             reason := if code = 0 then "ok" else "verifier_image_missing" }

variable (substrate : Substrate) (network : MinerNetwork)

/-- the client of the command -/
def healthChain (cfg : SubnetConfig) : Except Exn SubtensorChain := do
  let safe ← assertSafeNetwork (cfg.network.getD "")
  .ok { network := safe, netuid := cfg.netuid, publish := .dryRun, allowExtrinsics := false,
        allowCommitReveal := false, confirmation := "" }

/-- `chain.preflight()` and `chain.miner_endpoints()` -/
def chainHealth (chain : SubtensorChain) : M (ChainHealth × List Obj) :=
  if chain.netuid = none then pure (.unset, [])
  else
    Proc.handle
      (do
        let state ← preflight env substrate chain
        if state.mode = "error" then pure (.state state, [])
        else do
          let endpoints ← minerEndpoints env substrate network chain
          pure (.state state, endpoints))
      fun exc =>
        if exc.isException then pure (.unreachable exc.typeName, []) else Proc.raise exc

/-- the chain and the endpoints -/
def healthEndpoints (args : HealthArgs) (cfg : SubnetConfig) : M (ChainHealth × List Obj) :=
  if args.mode = .wire then do
    let endpoints ← external env fun n => network.manualEndpoints n args.minerEndpoints
    pure (.off, endpoints)
  else do
    let chain ← Proc.ofExcept (healthChain cfg)
    Proc.modify fun w => { w with connected := false }
    chainHealth env substrate network chain

/-- `_signed_health_probe` -/
def signedHealthProbe (endpoints : List Obj) (epochId : Int) : M Nat := do
  let miners ← external env fun n => network.query n endpoints epochId 0
  pure (miners.countP fun m => !m.terminal)

def probeWire (args : HealthArgs) (endpoints : List Obj) (epochId : Int) : M WireProbe :=
  if args.probeWire = false ∨ endpoints.isEmpty then pure {}
  else
    Proc.handle
      (do
        let reachable ← signedHealthProbe env network endpoints epochId
        pure { reachable := some reachable })
      fun exc =>
        if exc.isException then pure { reachable := some 0, errorType := some exc.typeName }
        else Proc.raise exc

/-- the receipt of the last epoch is an error -/
def failedReceipt (state : ValidatorRuntimeState) : Option Obj :=
  state.lastReceipt.filter fun receipt => !receipt.isEmpty && (receipt.get "mode").eqStr "error"

/-- `degraded_conditions` -/
def degradedConditions (text : PyText) (args : HealthArgs) (cfg : SubnetConfig)
    (state : ValidatorRuntimeState) (docker : DockerHealth) (chain : ChainHealth)
    (endpoints : List Obj) (probe : WireProbe) : List String :=
  (if docker.ok then []
    else [if docker.reason = "" then "docker_unhealthy" else docker.reason]) ++
  (if cfg.holdoutSecret.getD "" = "" then ["holdout_secret_missing"] else []) ++
  (if chain.mode = "error" then
    ["chain:" ++ if chain.reason = "" then "readiness_error" else chain.reason] else []) ++
  (if endpoints.isEmpty then ["no_public_miners_discovered"] else []) ++
  (if args.probeWire = false then ["signed_reachability_probe_disabled"]
    else if probe.reachable ≠ some endpoints.length then
      [s!"signed_reachability:{probe.reachable.getD 0}/{endpoints.length}"]
    else []) ++
  (if state.phase = some .weightsSubmitting then ["ambiguous_weight_submission"] else []) ++
  (if state.lastError.getD "" = "" then [] else ["last_epoch_failed"]) ++
  match failedReceipt state with
  | none => []
  | some receipt =>
    ["last_chain_receipt:" ++ (orJson (receipt.get "reason") (.str "error")).pyStr text]

def healthReport (text : PyText) (args : HealthArgs) (cfg : SubnetConfig)
    (state : ValidatorRuntimeState) (docker : DockerHealth) (chain : ChainHealth)
    (endpoints : List Obj) (probe : WireProbe) : HealthReport :=
  let degraded := degradedConditions text args cfg state docker chain endpoints probe
  { ok := degraded.isEmpty
    state
    ambiguous := decide (state.phase = some .weightsSubmitting)
    holdoutConfigured := decide (cfg.holdoutSecret.getD "" ≠ "")
    docker
    chain
    endpoints
    probe
    degradedConditions := degraded }

variable (host : ConfigHost) (args : HealthArgs)

/-- the configuration of the command -/
def configOf : Except Exn SubnetConfig :=
  fromEnv host { mode := args.mode, network := args.network, netuid := args.netuid }

/-- `health_command`; it exits with 0 if the report is ok, and with 1 if not -/
def healthCommand : M HealthReport := do
  Proc.ofExcept (validateHealthTarget args)
  let cfg ← Proc.ofExcept (configOf host args)
  let state ← readState env
  let engine ← dockerHealth env docker cfg.verifierImage
  let (chain, endpoints) ← healthEndpoints env substrate network args cfg
  let probe ← probeWire env network args endpoints state.nextEpochId
  pure (healthReport host.text args cfg state engine chain endpoints probe)

end

/-! ## the miners -/

/-- the wallet and the dendrite of a validator -/
structure Dendrite where
  validatorHotkey : String
  coldkey : String
  /-- `secrets.token_hex(16)` -/
  requestId : Nat → String
  /-- `dendrite.query`, for an epoch and a quota -/
  query : Nat → List MinerEndpoint → Int → Int → Except Exn (List Response)

section
variable (env : Env) (verify : String → String → String → Bool) (dendrite : Dendrite)

/-- `str(item[key])` -/
def textField (T : PyText) (row : Obj) (key : String) : Except Exn String :=
  match Dict.get? row key with
  | none => .error (.keyError key)
  | some value => .ok (value.pyStr T)

/-- `int(item[key])` -/
def intField (row : Obj) (key : String) : Except Exn Int :=
  match Dict.get? row key with
  | none => .error (.keyError key)
  | some value => value.toInt

/-- the endpoint of a row -/
def endpointOfRow (T : PyText) (coldkey : String) (row : Obj) : Except Exn MinerEndpoint := do
  let host ← textField T row "host"
  let port ← intField row "port"
  let hotkey ← textField T row "hotkey"
  let uid ← intField row "uid"
  .ok { host, port, hotkey, uid,
        coldkey := (orJson (row.get "coldkey") (.str coldkey)).pyStr T }

def WireMiner.toMiner (m : WireMiner) : Miner where
  hotkey := m.hotkey
  uid := m.uid
  terminalStatus := m.terminalStatus
  terminalReason := m.terminalReason
  submissions _ quota := if m.terminalStatus.getD "" ≠ "" then [] else pyTake quota m.payloads

/-- `query_miners`, of the endpoints of the rows -/
def wireQuery (limit : Int) (n : Nat) (rows : List Obj) (epochId quota : Int) :
    Except Exn (List Miner) := do
  let endpoints ← rows.mapM (endpointOfRow env.text dendrite.coldkey)
  let miners ← queryMiners env verify endpoints epochId quota limit (dendrite.requestId n)
    dendrite.validatorHotkey (dendrite.query n endpoints epochId quota)
  .ok (miners.map WireMiner.toMiner)

/-- every one of the rows has answered one request of quota zero, signed for this request -/
def AllAnswered (rows : List Obj) (epochId : Int) : Prop :=
  ∃ n endpoints responses,
    rows.mapM (endpointOfRow env.text dendrite.coldkey) = .ok endpoints ∧
    dendrite.query n endpoints epochId 0 = .ok responses ∧
    responses.length = endpoints.length ∧
    ∀ p ∈ endpoints.zip responses, Verified p.1 epochId 0 (dendrite.requestId n)
      dendrite.validatorHotkey env verify p.2

end

section
variable {env : Env} {verify : String → String → String → Bool} {dendrite : Dendrite}
  {limit epochId quota : Int} {requestId validatorHotkey : String}

theorem terminal_toMiner (m : WireMiner) :
    m.toMiner.terminal = (m.terminalStatus.getD "" != "") := rfl

/-- a miner that is not terminal has sent a response that verifies -/
theorem verified_of_wireMiner {endpoint : MinerEndpoint} {response : Response} {m : WireMiner}
    (hm : wireMinerFromResponse env verify endpoint response quota epochId requestId validatorHotkey
      limit = .ok m) (hopen : m.toMiner.terminal = false) :
    Verified endpoint epochId quota requestId validatorHotkey env verify response := by
  have hcomparable := (wireMiner_returns_iff endpoint epochId quota requestId validatorHotkey env
    verify limit response).mp ⟨m, hm⟩
  obtain ⟨m', hm', _, hterminal⟩ := wireMiner_of_comparable endpoint epochId quota requestId
    validatorHotkey env verify limit response hcomparable
  obtain rfl : m = m' := Except.ok.inj (hm.symm.trans hm')
  by_contra hn
  rw [terminal_toMiner] at hopen
  rcases (hterminal hn).1 with hs | hs
  · rw [hs] at hopen
    exact nomatch hopen
  · rw [hs] at hopen
    exact nomatch hopen

theorem queryMiners_all_open {endpoints : List MinerEndpoint} {responses : List Response}
    {miners : List WireMiner} (h : queryMiners env verify endpoints epochId quota limit requestId
      validatorHotkey (.ok responses) = .ok miners)
    (hopen : ∀ m ∈ miners, m.toMiner.terminal = false) :
    responses.length = endpoints.length ∧ ∀ p ∈ endpoints.zip responses,
      Verified p.1 epochId quota requestId validatorHotkey env verify p.2 := by
  unfold queryMiners at h
  dsimp only at h
  obtain ⟨miners', hmap, h⟩ := bind_ok h
  split at h
  · exact nomatch h
  next hlen =>
  obtain rfl := Except.ok.inj h
  refine ⟨(not_ne_iff.mp hlen).symm, fun p hp => ?_⟩
  obtain ⟨i, hi, rfl⟩ := List.mem_iff_getElem.mp hp
  have hall := forall₂_of_mapM hmap
  have hi' : i < miners'.length := hall.length_eq ▸ hi
  exact verified_of_wireMiner (hall.get hi hi') (hopen _ (List.getElem_mem hi'))

/-- a query that gives as many open miners as there are rows -/
theorem allAnswered_of_wireQuery {rows : List Obj} {n : Nat} {miners : List Miner}
    (h : wireQuery env verify dendrite limit n rows epochId 0 = .ok miners) (hrows : rows ≠ [])
    (hcount : miners.countP (fun m => !m.terminal) = rows.length) :
    AllAnswered env verify dendrite rows epochId := by
  unfold wireQuery at h
  obtain ⟨endpoints, hendpoints, h⟩ := bind_ok h
  obtain ⟨wireMiners, hquery, h⟩ := bind_ok h
  obtain rfl := Except.ok.inj h
  have hlength := (forall₂_of_mapM hendpoints).length_eq
  cases hanswer : dendrite.query n endpoints epochId 0 with
  | error e =>
    -- all miners are unreachable
    rw [hanswer] at hquery
    unfold queryMiners at hquery
    dsimp only at hquery
    split at hquery
    · obtain rfl := Except.ok.inj hquery
      rw [List.countP_eq_zero.mpr] at hcount
      · exact (hrows (List.eq_nil_of_length_eq_zero hcount.symm)).elim
      · intro m hm
        obtain ⟨m', hm', rfl⟩ := List.mem_map.mp hm
        obtain ⟨endpoint, _, rfl⟩ := List.mem_map.mp hm'
        exact Bool.false_ne_true
    · exact nomatch hquery
  | ok responses =>
    rw [hanswer] at hquery
    have hminers : wireMiners.length ≤ endpoints.length := by
      have hq := hquery
      unfold queryMiners at hq
      dsimp only at hq
      obtain ⟨miners', hmap, hq⟩ := bind_ok hq
      split at hq
      · exact nomatch hq
      · obtain rfl := Except.ok.inj hq
        rw [← (forall₂_of_mapM hmap).length_eq, List.length_zip]
        exact Nat.min_le_left _ _
    have hopen : ∀ m ∈ wireMiners, m.toMiner.terminal = false := by
      have hle : (wireMiners.map WireMiner.toMiner).length ≤
          (wireMiners.map WireMiner.toMiner).countP fun m => !m.terminal := by
        rw [hcount, List.length_map]
        omega
      have hall := List.countP_eq_length.mp (le_antisymm List.countP_le_length hle)
      intro m hm
      simpa using hall _ (List.mem_map_of_mem hm)
    obtain ⟨hlen, hverified⟩ := queryMiners_all_open hquery hopen
    exact ⟨n, endpoints, responses, hendpoints, hanswer, hlen, hverified⟩

end

/-! ## the report -/

/-- the container engine has answered, and holds the image -/
def DockerCli.Ready (docker : DockerCli) (image : String) : Prop :=
  docker.found = true ∧ (∃ n version, docker.version n = .ok (0, version)) ∧
    ∃ n, docker.inspectImage n image = .ok 0

/-- nothing is complained of exactly if none of these conditions holds -/
theorem degradedConditions_nil_iff (T : PyText) (args : HealthArgs) (cfg : SubnetConfig)
    (state : ValidatorRuntimeState) (docker : DockerHealth) (chain : ChainHealth)
    (endpoints : List Obj) (probe : WireProbe) :
    degradedConditions T args cfg state docker chain endpoints probe = [] ↔
      docker.ok = true ∧ cfg.holdoutSecret.getD "" ≠ "" ∧ chain.mode ≠ "error" ∧ endpoints ≠ [] ∧
        (args.probeWire = true ∧ probe.reachable = some endpoints.length) ∧
        state.phase ≠ some .weightsSubmitting ∧ state.lastError.getD "" = "" ∧
        failedReceipt state = none := by
  have hone : ∀ {c : Prop} [Decidable c] {x : String},
      (if c then [] else [x]) = [] ↔ c := by
    intro c _ x
    split <;> simp [*]
  have hnone : ∀ {c : Prop} [Decidable c] {x : String},
      (if c then [x] else []) = [] ↔ ¬ c := by
    intro c _ x
    split <;> simp [*]
  have hprobe : (if args.probeWire = false then ["signed_reachability_probe_disabled"]
      else if probe.reachable ≠ some endpoints.length then
        [s!"signed_reachability:{probe.reachable.getD 0}/{endpoints.length}"]
      else []) = [] ↔ args.probeWire = true ∧ probe.reachable = some endpoints.length := by
    cases args.probeWire with
    | false => simp
    | true => simp
  have hreceipt : ∀ {r : Option Obj} {f : Obj → String},
      (match r with
        | none => []
        | some receipt => ["last_chain_receipt:" ++ f receipt]) = [] ↔ r = none := by
    intro r f
    cases r <;> simp
  unfold degradedConditions
  simp only [List.append_eq_nil_iff, hone, hnone, hprobe, hreceipt, List.isEmpty_iff, and_assoc,
    ne_eq]

section
variable {env : Env} {docker : DockerCli} {substrate : Substrate} {network : MinerNetwork}
  {host : ConfigHost} {args : HealthArgs} {w : World}

/-! ## it only reads -/

theorem leavesArchive_dockerHealth (image : String) :
    Moves LeavesArchive (dockerHealth env docker image) :=
  Moves.ite (Moves.pure _) (Moves.bind (leavesArchiveFrame.external _) fun _ =>
    Moves.ite (Moves.pure _) (Moves.bind (leavesArchiveFrame.external _) fun _ => Moves.pure _))

theorem leavesArchive_minerEndpoints (chain : SubtensorChain) :
    Moves LeavesArchive (minerEndpoints env substrate network chain) :=
  Moves.bind leavesArchiveFrame.connect fun _ =>
    Moves.bind (leavesArchiveFrame.external _) fun _ =>
      Moves.bind (leavesArchiveFrame.external _) fun _ => leavesArchiveFrame.external _

theorem leavesArchive_chainHealth (chain : SubtensorChain) :
    Moves LeavesArchive (chainHealth env substrate network chain) :=
  Moves.ite (Moves.pure _) (Moves.handle
    (Moves.bind leavesArchiveFrame.preflight fun _ => Moves.ite (Moves.pure _)
      (Moves.bind (leavesArchive_minerEndpoints chain) fun _ => Moves.pure _))
    fun _ => Moves.ite (Moves.pure _) (Moves.raise _))

theorem leavesArchive_healthEndpoints (cfg : SubnetConfig) :
    Moves LeavesArchive (healthEndpoints env substrate network args cfg) :=
  Moves.ite (Moves.bind (leavesArchiveFrame.external _) fun _ => Moves.pure _)
    (Moves.bind (Moves.ofExcept _) fun chain =>
      Moves.bind (Moves.modify fun _ => ⟨⟨rfl, rfl⟩, rfl, rfl, rfl⟩) fun _ =>
        leavesArchive_chainHealth chain)

theorem leavesArchive_probeWire (endpoints : List Obj) (epochId : Int) :
    Moves LeavesArchive (probeWire env network args endpoints epochId) :=
  Moves.ite (Moves.pure _) (Moves.handle
    (Moves.bind (Moves.bind (leavesArchiveFrame.external _) fun _ => Moves.pure _) fun _ =>
      Moves.pure _)
    fun _ => Moves.ite (Moves.pure _) (Moves.raise _))

/-- **The command writes nothing**, however it ends. -/
theorem healthCommand_leavesArchive :
    Moves LeavesArchive (healthCommand env docker substrate network host args) := by
  refine Moves.bind (Moves.ofExcept _) fun _ => Moves.bind (Moves.ofExcept _) fun cfg => ?_
  refine Moves.bind (Moves.bind Moves.get fun _ => Moves.ofExcept _) fun state => ?_
  refine Moves.bind (leavesArchive_dockerHealth _) fun engine => ?_
  refine Moves.bind (leavesArchive_healthEndpoints cfg) fun found => ?_
  exact Moves.bind (leavesArchive_probeWire found.2 _) fun _ => Moves.pure _

/-! ## what it has found -/

theorem wp_dockerHealth (image : String) :
    wp (dockerHealth env docker image)
      (Post.onReturn fun health _ => health.ok = true → docker.Ready image) w := by
  unfold dockerHealth
  refine wp_ite (fun _ hok => nomatch hok) fun hfound => ?_
  rw [wp_bind]
  refine wp_external (fun daemon hversion => ?_) (fun _ _ => trivial) trivial
  dsimp only
  refine wp_ite (fun _ hok => nomatch hok) fun hdaemon => ?_
  rw [wp_bind]
  refine wp_external (fun code hinspect => ?_) (fun _ _ => trivial) trivial
  intro hok
  have hcode : code = 0 := of_decide_eq_true hok
  have hzero : daemon = (0, daemon.2) := Prod.ext (not_ne_iff.mp hdaemon) rfl
  rw [hzero] at hversion
  rw [hcode] at hinspect
  exact ⟨Bool.eq_true_of_not_eq_false hfound, ⟨_, daemon.2, hversion⟩, _, hinspect⟩

theorem wp_probeWire {verify : String → String → String → Bool} {dendrite : Dendrite} {limit : Int}
    {endpoints : List Obj} (hendpoints : endpoints ≠ []) (epochId : Int) :
    wp (probeWire env { network with query := wireQuery env verify dendrite limit } args endpoints
      epochId) (Post.onReturn fun probe _ => probe.reachable = some endpoints.length →
        AllAnswered env verify dendrite endpoints epochId) w := by
  unfold probeWire
  refine wp_ite (fun _ hreachable => nomatch hreachable) fun _ => ?_
  rw [wp_handle, wp_bind]
  unfold signedHealthProbe
  rw [wp_bind]
  refine wp_external (fun miners hquery => ?_) (fun exc _ => ?_) trivial
  · intro hreachable
    exact allAnswered_of_wireQuery hquery hendpoints (Option.some.inj hreachable)
  · refine wp_ite (fun _ hreachable => ?_) fun _ => trivial
    exact (hendpoints (List.eq_nil_of_length_eq_zero (Option.some.inj hreachable).symm)).elim

end

/-- what a report stands for -/
structure Healthy (env : Env) (docker : DockerCli) (verify : String → String → String → Bool)
    (dendrite : Dendrite) (host : ConfigHost) (args : HealthArgs) (w : World)
    (report : HealthReport) : Prop where
  state : stateOf env (w.files .state) = .ok report.state
  begins : TickBegins env w
  verifier : ∃ cfg, configOf host args = .ok cfg ∧ cfg.holdoutSecret.getD "" ≠ "" ∧
    docker.Ready cfg.verifierImage
  chain : report.chain.mode ≠ "error"
  miners : report.endpoints ≠ []
  answered : AllAnswered env verify dendrite report.endpoints report.state.nextEpochId
  succeeded : report.state.lastError.getD "" = "" ∧ failedReceipt report.state = none

section
variable {env : Env} {docker : DockerCli} {substrate : Substrate} {network : MinerNetwork}
  {host : ConfigHost} {args : HealthArgs} {verify : String → String → String → Bool}
  {dendrite : Dendrite} {limit : Int} {w : World}

theorem wp_healthCommand :
    wp (healthCommand env docker substrate { network with query := wireQuery env verify dendrite limit }
      host args) (Post.onReturn fun report _ => report.ok = true →
        Healthy env docker verify dendrite host args w report) w := by
  unfold healthCommand
  rw [wp_bind, wp_ofExcept]
  refine ⟨fun _ _ => ?_, fun _ _ => trivial⟩
  dsimp only
  rw [wp_bind, wp_ofExcept]
  refine ⟨fun cfg hcfg => ?_, fun _ _ => trivial⟩
  dsimp only
  rw [wp_bind, wp_readState]
  refine ⟨fun state hstate => ?_, fun _ _ => trivial⟩
  dsimp only
  rw [wp_bind]
  refine wp_mono (wp_dockerHealth cfg.verifierImage) (fun engine w₁ hengine => ?_)
    (fun _ _ _ => trivial) fun _ _ => trivial
  dsimp only
  rw [wp_bind]
  refine wp_mono (wp_self_ok (healthEndpoints env substrate _ args cfg) w₁) (fun found w₂ _ => ?_)
    (fun _ _ _ => trivial) fun _ _ => trivial
  obtain ⟨chain, endpoints⟩ := found
  dsimp only
  rw [wp_bind]
  by_cases hendpoints : endpoints = []
  · refine wp_mono (wp_self_ok (probeWire env _ args endpoints _) w₂) (fun probe w₃ _ hok => ?_)
      (fun _ _ _ => trivial) fun _ _ => trivial
    obtain ⟨_, _, _, hne, _⟩ :=
      (degradedConditions_nil_iff _ _ _ _ _ _ _ _).mp (List.isEmpty_iff.mp hok)
    exact (hne hendpoints).elim
  · refine wp_mono (wp_probeWire hendpoints _) (fun probe w₃ hprobe hok => ?_)
      (fun _ _ _ => trivial) fun _ _ => trivial
    obtain ⟨hdocker, hsecret, hchain, _, ⟨_, hreachable⟩, hphase, hlast⟩ :=
      (degradedConditions_nil_iff _ _ _ _ _ _ _ _).mp (List.isEmpty_iff.mp hok)
    exact {
      state := hstate
      begins := tickBegins_iff.mpr (standing_idle hstate hphase)
      verifier := ⟨cfg, hcfg, hsecret, hengine hdocker⟩
      chain := hchain
      miners := hendpoints
      answered := hprobe hreachable
      succeeded := hlast }

/-- **A healthy report can be trusted.** The command writes nothing, however it ends.  If it reports
`ok`, a new tick begins, the container engine holds the image, a holdout secret is set, and every
endpoint has answered a signed request of quota zero. -/
theorem health_ok_sound (w : World) :
    wp (healthCommand env docker substrate { network with query := wireQuery env verify dendrite limit }
      host args)
      ⟨fun report w' => (report.ok = true → Healthy env docker verify dendrite host args w report) ∧
        LeavesArchive w w', fun _ w' => LeavesArchive w w', fun w' => LeavesArchive w w'⟩ w :=
  wp_mono (wp_and wp_healthCommand (healthCommand_leavesArchive w)) (fun _ _ h => h)
    (fun _ _ h => h.2) fun _ h => h.2

end

section

/-- one miner that answers request `r` -/
def healthDendrite : Dendrite where
  validatorHotkey := "validator"
  coldkey := "cold"
  requestId _ := "r"
  query _ _ epochId quota := .ok [.synapse {
    protocolVersion := wireProtocolVersion, requestId := "r", epochId, quota, submissions := [],
    error := "", responseHotkey := "miner", responseDigest := submissionsDigest Env.plain [],
    responseSignature := "0x00", isSuccess := true,
    dendrite := some { nonce := some 7, uuid := some "u", hotkey := some "validator",
                       statusMessage := none } }]

def healthRow : Obj :=
  [("host", .str "127.0.0.1"), ("port", .int 8091), ("hotkey", .str "miner"), ("uid", .int 3)]

def healthNetwork : MinerNetwork where
  manualEndpoints _ _ := .ok [healthRow]
  discovered _ _ _ := .ok []
  query _ _ _ _ := .ok []

def healthDocker : DockerCli where
  found := true
  version _ := .ok (0, "28.0")
  inspectImage _ _ := .ok 0

def healthArgs : HealthArgs := { mode := .wire, minerEndpoints := "127.0.0.1:8091", chainOff := true }

/-- the report on this miner, before the first epoch -/
def healthOutcome : Outcome Exn HealthReport × World :=
  healthCommand Env.plain healthDocker readySubstrate
    { healthNetwork with query := wireQuery Env.plain (fun _ _ _ => true) healthDendrite 1000 }
    publicHost healthArgs {}

def Outcome.reportsOk : Outcome Exn HealthReport → Bool
  | .ok report => report.ok
  | _ => false

theorem healthOutcome_ok : ∃ report, healthOutcome.1 = .ok report ∧ report.ok = true := by
  have hok : Outcome.reportsOk healthOutcome.1 = true := by decide +kernel
  cases h : healthOutcome.1 with
  | ok report =>
    rw [h] at hok
    exact ⟨report, rfl, hok⟩
  | raise e =>
    rw [h] at hok
    exact nomatch hok
  | killed =>
    rw [h] at hok
    exact nomatch hok

theorem health_ok_sound_sample : ∃ report w',
    healthOutcome = (.ok report, w') ∧ report.ok = true ∧
      Healthy Env.plain healthDocker (fun _ _ _ => true) healthDendrite publicHost healthArgs {}
        report := by
  obtain ⟨report, hreport, hgood⟩ := healthOutcome_ok
  have hrun : healthOutcome = (.ok report, healthOutcome.2) := Prod.ext hreport rfl
  have hsound := wp_of_run (health_ok_sound {}) hrun
  exact ⟨report, _, hrun, hgood, hsound.1 hgood⟩

end

end Dolores
