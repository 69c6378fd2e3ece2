import Dolores.Epoch.Impl
import Dolores.Validator.State

/-!
# The validator's tick (`validator_cli.py`)

* `prepareTick`         the checks and the objects made before the lock is taken;
* `withTick`            `with store.tick() as tick`;
* `queryMinersForTick`  the miners that answer;
* `tickCommand`         one tick, and its exit code.

What `SubnetConfig.from_env` returns, the terminal, and the network of the miners are outside of
the model (`TickInput`, `MinerNetwork`).
-/

namespace Dolores
open Crash

/-- the arguments of the command; `publish` is `--chain`, and `none` is `off` -/
structure TickArgs where
  mode : Mode := .testnet
  network : Option String := none
  netuid : Option Int := none
  minerEndpoints : String := ""
  publish : Option PublishMode := some .dryRun
  allowExtrinsics : Bool := false
  allowCommitReveal : Bool := false
  confirmLive : String := ""
  quota : Int := defaultQuota

/-- what the command reads before its tick -/
structure TickInput where
  /-- `SubnetConfig.from_env` -/
  config : Except Exn SubnetConfig
  /-- the line typed at the terminal, if standard input is one -/
  typed : Option String := none

/-- the network of the miners -/
structure MinerNetwork where
  /-- `parse_miner_endpoints`, with the coldkey of the wallet -/
  manualEndpoints : Nat → String → Except Exn (List Obj)
  /-- the endpoints of the metagraph rows that the endpoint policy of the network admits -/
  discovered : Nat → String → List Obj → Except Exn (List Obj)
  /-- `query_miners`, for an epoch and a quota -/
  query : Nat → List Obj → Int → Int → Except Exn (List Miner)

/-! ## before the lock -/

def cohortNetwork : String := "test"
def cohortNetuid : Int := 523

def requireCohortTarget (network : String) (netuid : Int) : Except Exn Unit :=
  if network ≠ cohortNetwork ∨ netuid ≠ cohortNetuid then
    .error (.valueError "public cohort is fixed to network=test netuid=523")
  else .ok ()

def localnetNetworks : List String := ["ws://127.0.0.1:9944", "ws://127.0.0.1:9945"]

def requireLocalnetTarget (network : Option String) (netuid : Option Int) (operation : String) :
    Except Exn Unit :=
  match network, netuid with
  | some network, some netuid =>
    if network ∉ localnetNetworks then
      .error (.valueError (operation ++ " requires a loopback Subtensor network (" ++
        ", ".intercalate localnetNetworks ++ "); public network test is forbidden"))
    else if netuid < 0 then .error (.valueError (operation ++ " netuid must be non-negative"))
    else .ok ()
  | _, _ => .error (.valueError (operation ++ " requires explicit --network and --netuid"))

def validateTestnetTarget (args : TickArgs) : Except Exn Unit :=
  match args.network, args.netuid with
  | some network, some netuid => do
    requireCohortTarget network netuid
    if args.minerEndpoints ≠ "" then .error (.valueError
      "testnet tick requires metagraph discovery; manual endpoints forbidden")
    else if args.publish = none then .error (.valueError
      "testnet discovery requires --chain dry-run or --chain live")
    else .ok ()
  | _, _ => .error (.valueError "testnet tick requires explicit --network test --netuid 523")

def validateWireTarget (args : TickArgs) : Except Exn Unit :=
  if args.minerEndpoints = "" then .error (.valueError "wire tick requires --miner-endpoints")
  else if args.publish ≠ none then .error (.valueError "wire tick requires --chain off")
  else if args.network ≠ none ∨ args.netuid ≠ none then
    .error (.valueError "wire tick forbids --network and --netuid")
  else if args.allowExtrinsics ∨ args.allowCommitReveal ∨ args.confirmLive ≠ "" then
    .error (.valueError "wire tick forbids live-chain authorization flags")
  else .ok ()

def validateLocalnetTarget (args : TickArgs) : Except Exn Unit := do
  requireLocalnetTarget args.network args.netuid "localnet tick"
  if args.publish = none ∧ args.minerEndpoints = "" then
    .error (.valueError "localnet chain-off tick requires --miner-endpoints")
  else .ok ()

/-- `_validate_tick_target` -/
def validateTickTarget (args : TickArgs) : Except Exn Unit :=
  match args.mode with
  | .testnet => validateTestnetTarget args
  | .wire => validateWireTarget args
  | .localnet => validateLocalnetTarget args
  | .mock | .offline => .ok ()

/-- `_live_confirmation` -/
def liveConfirmationOf (args : TickArgs) (input : TickInput) : String :=
  if args.publish ≠ some .live then ""
  else if args.confirmLive ≠ "" then args.confirmLive
  else input.typed.getD ""

def buildChainClient (cfg : SubnetConfig) (publish : Option PublishMode) (allowExtrinsics : Bool)
    (confirmation : String) : Except Exn ChainClient :=
  match publish, cfg.network with
  | none, _ => .ok .null
  | some _, none => .error (.valueError "chain publish requires a configured chain network")
  | some publish, some network => do
    let network ← assertSafeNetwork network
    .ok (.subtensor { network, netuid := cfg.netuid, publish, allowExtrinsics,
                      allowCommitReveal := cfg.allowCommitReveal, confirmation })

/-- everything before the lock -/
def prepareTick (args : TickArgs) (input : TickInput) : Except Exn (SubnetConfig × ChainClient) := do
  validateTickTarget args
  if ¬ (1 ≤ args.quota ∧ args.quota ≤ defaultQuota) then
    .error (.valueError s!"quota must be within 1..{defaultQuota}")
  else
    let cfg ← input.config
    if cfg.holdoutRequired ∧ cfg.holdoutSecret.getD "" = "" then
      .error (.valueError "DOLORES_HOLDOUT_SECRET is required (value not displayed)")
    else
      let client ← buildChainClient cfg args.publish args.allowExtrinsics
        (liveConfirmationOf args input)
      .ok (cfg, client)

/-! ## the tick -/

section
variable (env : Env)

/-- `with store.tick() as tick` -/
def withTick {α : Type} (body : Nat → Int → M α) : M α := do
  let id ← newTick
  let epochId ← ValidatorTick.enter env id
  let a ← Proc.handle (body id epochId) fun exc => do
    ValidatorTick.exit env id (some exc)
    Proc.raise exc
  ValidatorTick.exit env id none
  pure a

/-- `except EpochCompletionError` -/
def failIncomplete {α : Type} (id : Nat) : Exn → M α
  | .epochCompletionError mode reason => do
    let _ ← ValidatorTick.failWeights env id (Exn.epochCompletionError mode reason).str
    Proc.raise (.epochCompletionError mode reason)
  | exc => Proc.raise exc

variable (substrate : Substrate) (network : MinerNetwork) (args : TickArgs)

/-- `chain_client.miner_endpoints()` -/
def minerEndpoints (chain : SubtensorChain) : M (List Obj) := do
  connectSubstrate env substrate chain
  let hotkey ← external env substrate.validatorHotkey
  let rows ← external env fun n => substrate.minerEndpoints n hotkey
  external env fun n => network.discovered n chain.network rows

/-- the endpoints that a tick queries -/
def tickEndpoints (client : ChainClient) : M (List Obj) :=
  if args.minerEndpoints ≠ "" then
    external env fun n => network.manualEndpoints n args.minerEndpoints
  else
    match client with
    | .null => Proc.raise (.runtimeError "metagraph discovery requires a SubtensorChain")
    | .subtensor chain => minerEndpoints env substrate network chain

/-- `_query_miners_for_tick` -/
def queryMinersForTick (client : ChainClient) (epochId : Int) : M (List Miner) := do
  let endpoints ← tickEndpoints env substrate network args client
  if endpoints.isEmpty then Proc.raise (.runtimeError "no eligible miner axons discovered")
  else external env fun n => network.query n endpoints epochId args.quota

variable (engine : Engine) (A : FloatOps)

/-- the body of the `with` statement -/
def tickBody (cfg : SubnetConfig) (client : ChainClient) (id : Nat) (epochId : Int) :
    M (EpochResult × List Miner) := do
  let _ ← ValidatorTick.markQuerying env id
  let miners ← queryMinersForTick env substrate network args client epochId
  let result ← Proc.handle
    (runEpoch env engine substrate A cfg epochId args.quota miners (some client)
      (some (ValidatorTick.phaseHook env id)))
    (failIncomplete env id)
  pure (result, miners)

/-- the exit code -/
def tickCode (result : EpochResult) (miners : List Miner) : Int :=
  if miners.all Miner.terminal ∨ result.chainResult.mode.text = "error" then 1 else 0

/-- `tick_command`, with a new chain client -/
def tickCommand (input : TickInput) : M Int := do
  let (cfg, client) ← Proc.ofExcept (prepareTick args input)
  Proc.modify fun w => { w with connected := false }
  let (result, miners) ← withTick env (tickBody env substrate network args engine A cfg client)
  pure (tickCode result miners)

end

end Dolores
