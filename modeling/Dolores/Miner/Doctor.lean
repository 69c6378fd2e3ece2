import Mathlib.Algebra.Order.BigOperators.Group.List
import Dolores.Miner.Publish

/-!
# The audit of a miner (`miner_cli.py`)

`doctorCommand` runs all checks, and runs them again while one fails and attempts are left.  What
the machine, the network and the chain answer is a function of the attempt.

* `doctorChecks`, `doctorLoop`   the checks of one attempt, and the attempts;
* `Fit`                          what the checks look for;
* `doctor_exact`                 the audit stops at the first attempt at which all of it is there;
* `doctored_tasks_served`        tasks that pass the audit are served, and none is left out.
-/

set_option linter.unusedSectionVars false

namespace Dolores
open Except

/-- the arguments of `doctor`, `task_dir` apart from whether there is one -/
structure DoctorArgs where
  walletName : String
  walletHotkey : String
  coldkeySs58 : String
  hotkeySs58 : String
  network : String
  netuid : Int
  hasTaskDir : Bool := false
  externalIp : String
  port : Int
  timeout : PyFloat := .fin 5
  attempts : Int := 1
  retryDelay : PyFloat := .fin 0

inductive MetadataKind where
  | missing
  | directory
  | file
  | unsupported
deriving DecidableEq, Repr

/-- what the machine, the network and the chain answer at an attempt -/
structure DoctorHost where
  /-- `sys.version_info[:3]` -/
  version : List Int
  /-- `importlib.metadata.version`; `none` if the distribution is not found -/
  installed : Nat → String → Except Exn (Option String)
  /-- the return code of `btcli --version`, and its output; `none` if there is no `btcli` -/
  btcli : Nat → Option (Except Exn (Int × String × String))
  /-- `str(bt.Keypair(ss58_address=address).ss58_address)` -/
  keypair : String → Except Exn String
  /-- `_metadata_kind`, of a path under the wallet path -/
  metadataKind : Nat → List String → MetadataKind
  /-- `_generated_tasks(1, DOCTOR_SMOKE_SEED)[0]` -/
  smokeTask : Nat → Except Exn TaskPackage
  /-- the directories of `task_dir` -/
  roots : Nat → List TaskRoot
  /-- `socket.create_connection` -/
  connect : Nat → String → Int → Except Exn Unit
  /-- `probe.bind(("0.0.0.0", port))` -/
  bind : Nat → Int → Except Exn Unit
  subtensor : Nat → String → Except Exn Unit
  /-- `_balance_rao(subtensor.get_balance(coldkey))` -/
  balanceRao : Nat → String → Except Exn Int
  metagraph : Nat → Int → Except Exn Metagraph
  sleep : Nat → Except Exn Unit

/-- a check of the report -/
abbrev Check : Type := String × Obj

/-- `bool(item.get("ok"))` -/
def Check.ok (c : Check) : Bool := (Obj.get c.2 "ok").truthy

def failedCheck (reason : String) : Obj := [("ok", .bool false), ("reason", .str reason)]

/-- `try: … except Exception: …` -/
def orElseCheck (x : Except Exn Obj) (reason : String) : Except Exn Obj :=
  match x with
  | .ok check => .ok check
  | .error e => if e.isException then .ok (failedCheck reason) else .error e

/-! ## the machine -/

def expectedDistributions : List (String × String) := [
  ("dolores-autocurricula", "0.2.0rc2"),
  ("dolores-bittensor-subnet", "0.2.0rc2"),
  ("bittensor", "10.5.0"),
  ("bittensor-cli", "9.23.1")]

/-- `(3, 11) <= version < (3, 12)` -/
def supportedPython (version : List Int) : Bool := decide ([3, 11] ≤ version ∧ version < [3, 12])

def pythonCheck (version : List Int) : Obj := [
  ("ok", .bool (supportedPython version)),
  ("version", .str (".".intercalate (version.map toString))),
  ("required", .str ">=3.11,<3.12")]

def isSubprocessError : Exn → Bool
  | .osError _ => true
  | .foreign name _ => ["SubprocessError", "TimeoutExpired", "CalledProcessError"].contains name
  | _ => false

/-- `expected in output` -/
def occursIn (expected output : String) : Bool :=
  output.toList.tails.any fun rest => expected.toList.isPrefixOf rest

/-- `_safe_wallet_component` -/
def safeWalletComponent (value : String) : Bool :=
  value != "" && value != "." && value != ".." && !value.toList.contains '/'

def publishedAxonCheck (exact : Bool) (detail : List (String × Json)) : Obj :=
  [("ok", .bool exact), ("exact", .bool exact)] ++ detail

section
variable (host : DoctorHost) (args : DoctorArgs) (attempt : Nat)

/-- `_distribution_check` -/
def distributionCheck (distribution expected : String) : Except Exn Obj :=
  match host.installed attempt distribution with
  | .ok (some installed) => .ok [("ok", .bool (installed == expected)),
      ("version", .str installed), ("expected", .str expected)]
  | .ok none => .ok [("ok", .bool false), ("expected", .str expected),
      ("reason", .str "not_installed")]
  | .error e =>
    if e.isException then .ok [("ok", .bool false), ("expected", .str expected),
      ("reason", .str "metadata_unavailable")]
    else .error e

def btcliResult (ok executable verified : Bool) : Obj :=
  [("ok", .bool ok), ("executable", .bool executable), ("version_verified", .bool verified)]

/-- `_btcli_check` -/
def btcliCheck : Except Exn Obj :=
  match host.btcli attempt with
  | none => .ok (btcliResult false false false)
  | some (.error e) => if isSubprocessError e then .ok (btcliResult false true false) else .error e
  | some (.ok (returncode, stdout, stderr)) =>
    let verified := decide (returncode = 0) && occursIn "9.23.1" (stdout ++ "\n" ++ stderr)
    .ok (btcliResult verified true verified)

/-- `_public_ss58_is_valid` -/
def publicSs58IsValid (address : String) : Except Exn Bool :=
  match host.keypair address with
  | .ok text => .ok (text == address)
  | .error e => if e.isException then .ok false else .error e

/-- `_wallet_metadata_check` -/
def walletMetadataCheck : Obj :=
  if safeWalletComponent args.walletName = false ∨ safeWalletComponent args.walletHotkey = false then
    failedCheck "invalid_wallet_selector"
  else
    let kind path := host.metadataKind attempt (args.walletName :: path)
    let directoryOk := kind [] == .directory
    let coldkeyOk := kind ["coldkeypub.txt"] == .file
    let hotkeysOk := kind ["hotkeys"] == .directory
    let hotkeyOk := kind ["hotkeys", args.walletHotkey] == .file
    [("ok", .bool (directoryOk && coldkeyOk && hotkeysOk && hotkeyOk)),
     ("wallet_directory", .bool directoryOk),
     ("coldkey_public_file", .bool coldkeyOk),
     ("hotkeys_directory", .bool hotkeysOk),
     ("hotkey_file", .bool hotkeyOk),
     ("inspection", .str "metadata_only")]

/-- `_tcp_reachable` -/
def tcpReachable (address : String) : Except Exn Bool :=
  match host.connect attempt address args.port with
  | .ok () => .ok true
  | .error (.osError _) => .ok false
  | .error e => .error e

/-- `_local_port_state` -/
def localPortState : Except Exn String := do
  let listening ← tcpReachable host args attempt "127.0.0.1"
  if listening then .ok "listening"
  else
    match host.bind attempt args.port with
    | .ok () => .ok "free"
    | .error (.osError _) => .ok "unavailable"
    | .error e => .error e

/-! ## the tasks -/

variable (env : Env) (engine : Engine) (declaredDifficulty : TaskPackage → String)

/-- `_check_task`: the family, the archetype and the size -/
def checkTask (task : TaskPackage) : Except Exn (String × String × Int) := do
  let (family, archetype, _, _) ← validateHoldoutSupport engine task
  let payload ← toWire env.text engine declaredDifficulty task maxPackageBytes
  if (payload.get "package_hash").eqStr (engine.stableHash task) = false then
    .error (.runtimeError "stable hash and wire hash differ")
  else
    let size := canonicalSize env.text payload
    if size > maxResponseBytes then
      .error (.runtimeError "wire payload exceeds the response bound")
    else .ok (family, archetype, size)

/-- `_engine_smoke_check` -/
def engineSmokeCheck : Except Exn Obj := do
  let task ← host.smokeTask attempt
  let (family, archetype, size) ← checkTask env engine declaredDifficulty task
  .ok [("ok", .bool true), ("generated", .int 1), ("family", .str family),
    ("archetype", .str archetype), ("stable_hash_matches_wire", .bool true),
    ("wire_bytes", .int size)]

/-- `_supplied_tasks_check` -/
def suppliedTasksCheck : Except Exn Obj := do
  let tasks ← loadTasks (host.roots attempt)
  let sizes ← tasks.mapM (checkTask env engine declaredDifficulty)
  .ok [("ok", .bool true), ("count", .int tasks.length), ("stable_hash_matches_wire", .bool true),
    ("max_wire_bytes", .int ((sizes.map (·.2.2)).foldl max 0))]

/-- the check of `task_dir`, if there is one -/
def tasksChecks : Except Exn (List Check) :=
  if args.hasTaskDir = false then .ok []
  else do
    let check ← orElseCheck (suppliedTasksCheck host attempt env engine declaredDifficulty)
      "task_validation_failed"
    .ok [("tasks", check)]

/-! ## the chain -/

/-- `_read_doctor_chain`: the balance and the metagraph -/
def readDoctorChain : Except Exn (Int × Metagraph) := do
  host.subtensor attempt args.network
  let balance ← host.balanceRao attempt args.coldkeySs58
  let metagraph ← host.metagraph attempt args.netuid
  if balance < 0 then .error (.runtimeError "negative public balance") else .ok (balance, metagraph)

/-- `_add_chain_checks` -/
def chainChecks (balance : Int) (m : Metagraph) : List Check :=
  let registered := (m.hotkeyUid args.hotkeySs58).isSome
  let axon := if args.hotkeySs58 ∈ m.hotkeys then m.axons[m.hotkeys.idxOf args.hotkeySs58]? else none
  let ownerMatches := (axon.map (·.coldkey)) == some args.coldkeySs58
  let endpointMatches := m.hasExactAxon args.hotkeySs58 args.externalIp args.port
  [("balance", [("ok", .bool (decide (0 ≤ balance))), ("readable", .bool true),
      ("balance_rao", .int balance), ("positive", .bool (decide (0 < balance)))]),
   ("registration", [("ok", .bool registered), ("registered", .bool registered),
      ("uid", .ofOption .int (m.hotkeyUid args.hotkeySs58))]),
   ("published_axon", publishedAxonCheck (registered && ownerMatches && endpointMatches)
      [("owner_matches", .bool ownerMatches), ("endpoint_matches", .bool endpointMatches)])]

/-- `_add_failed_chain_checks` -/
def failedChainChecks (reason : String) : List Check := [
  ("balance", failedCheck reason),
  ("registration", failedCheck reason ++ [("registered", .bool false), ("uid", .null)]),
  ("published_axon", failedCheck reason ++ [("exact", .bool false)])]

/-- the checks of the chain, if it is to be asked -/
def doctorChainChecks (prerequisites : Bool) : Except Exn (List Check) :=
  if prerequisites = false then .ok (failedChainChecks "prerequisite_failed")
  else
    match readDoctorChain host args attempt with
    | .ok (balance, m) => .ok (chainChecks args balance m)
    | .error e => if e.isException then .ok (failedChainChecks "chain_read_failed") else .error e

/-! ## one attempt -/

/-- `_require_doctor_timeout` -/
def requireDoctorTimeout (value : PyFloat) : Except Exn PyFloat :=
  match value with
  | .fin q =>
    if 0 < q ∧ q ≤ 30 then .ok value
    else .error (.valueError "doctor timeout is outside the supported bound")
  | _ => .error (.valueError "doctor timeout is outside the supported bound")

variable (T : AddressTables)

/-- the endpoint can be published -/
def endpointValid : Bool :=
  (do
    let _ ← requirePublicIpv4 T args.externalIp
    let _ ← requirePort args.port
    requireDoctorTimeout args.timeout).toOption.isSome

def networkChecks : Except Exn (List Check) :=
  if endpointValid args T then do
    let state ← localPortState host args attempt
    let reachable ← tcpReachable host args attempt args.externalIp
    .ok [
      ("local_port", [("ok", .bool (state == "free" || state == "listening")), ("state", .str state)]),
      ("public_tcp", [("ok", .bool reachable), ("reachable", .bool reachable),
        ("scope", .str "same_host_hairpin"), ("external_reachability_proof", .bool false)])]
  else
    .ok [
      ("local_port", failedCheck "invalid_public_endpoint"),
      ("public_tcp", failedCheck "invalid_public_endpoint" ++
        [("scope", .str "same_host_hairpin"), ("external_reachability_proof", .bool false)])]

def targetValid : Bool := (requireCohortTarget args.network args.netuid).toOption.isSome

def targetCheck : Obj :=
  if targetValid args then
    [("ok", .bool true), ("network", .str cohortNetwork), ("netuid", .int cohortNetuid)]
  else failedCheck "wrong_public_cohort_target"

def endpointCheck : Obj :=
  if endpointValid args T then
    [("ok", .bool true), ("literal_global_ipv4", .bool true), ("port_valid", .bool true)]
  else failedCheck "invalid_public_endpoint"

def minerBoundaryCheck : Obj := [
  ("ok", .bool true), ("docker_required", .bool false), ("duckdb_required", .bool false),
  ("fireworks_required", .bool false), ("streamlit_required", .bool false)]

/-- `_doctor_checks` -/
def doctorChecks : Except Exn (List Check) := do
  let distributions ← expectedDistributions.mapM fun (distribution, expected) => do
    let check ← distributionCheck host attempt distribution expected
    .ok (distribution, check)
  let btcli ← btcliCheck host attempt
  let coldkeyValid ← publicSs58IsValid host args.coldkeySs58
  let hotkeyValid ← publicSs58IsValid host args.hotkeySs58
  let smoke ← orElseCheck (engineSmokeCheck host attempt env engine declaredDifficulty)
    "engine_smoke_failed"
  let tasks ← tasksChecks host args attempt env engine declaredDifficulty
  let network ← networkChecks host args attempt T
  let chain ← doctorChainChecks host args attempt
    (targetValid args && endpointValid args T && coldkeyValid && hotkeyValid)
  .ok ([("python", pythonCheck host.version)] ++ distributions ++
    [("btcli", btcli), ("target", targetCheck args), ("endpoint", endpointCheck args T),
     ("public_addresses", [("ok", .bool (coldkeyValid && hotkeyValid)),
       ("coldkey_valid", .bool coldkeyValid), ("hotkey_valid", .bool hotkeyValid)]),
     ("wallet_metadata", walletMetadataCheck host args attempt), ("engine_smoke", smoke)] ++ tasks ++
    network ++ chain ++ [("miner_boundary", minerBoundaryCheck)])

/-! ## the attempts -/

structure DoctorReport where
  ok : Bool
  configured : Nat
  used : Nat
  checks : List Check

/-- `if retry_delay > 0: time.sleep(retry_delay)` -/
def doctorPause (delay : ℚ) : Except Exn Unit := if delay > 0 then host.sleep attempt else .ok ()

/-- `for attempt in range(1, attempts + 1)`, with this number of attempts left -/
def doctorLoop (configured : Nat) (delay : ℚ) : Nat → Nat → Except Exn DoctorReport
  | 0, attempt => do
    let checks ← doctorChecks host args attempt env engine declaredDifficulty T
    .ok { ok := checks.all Check.ok, configured, used := attempt, checks }
  | left + 1, attempt => do
    let checks ← doctorChecks host args attempt env engine declaredDifficulty T
    if checks.all Check.ok then .ok { ok := true, configured, used := attempt, checks }
    else do
      doctorPause host attempt delay
      doctorLoop configured delay left (attempt + 1)

/-- `_require_doctor_attempts` -/
def requireDoctorAttempts : Except Exn Nat :=
  if 1 ≤ args.attempts ∧ args.attempts ≤ 12 then .ok args.attempts.toNat
  else .error (.valueError "doctor attempts are outside the supported bound")

/-- `_require_doctor_retry_delay` -/
def requireDoctorRetryDelay : Except Exn ℚ :=
  match args.retryDelay with
  | .fin q =>
    if 0 ≤ q ∧ q ≤ 30 then .ok q
    else .error (.valueError "doctor retry delay is outside the supported bound")
  | _ => .error (.valueError "doctor retry delay is outside the supported bound")

/-- `doctor_command`; it exits with 0 if the report is ok, and with 1 if not -/
def doctorCommand : Except Exn DoctorReport := do
  let attempts ← requireDoctorAttempts args
  let delay ← requireDoctorRetryDelay args
  doctorLoop host args env engine declaredDifficulty T attempts delay (attempts - 1) 1

end

/-! ## what the checks look for -/

/-- a task that a miner can serve, and a validator can hold out -/
structure Servable (env : Env) (engine : Engine) (declaredDifficulty : TaskPackage → String)
    (task : TaskPackage) : Prop where
  supported : ∃ policy, validateHoldoutSupport engine task = .ok policy
  encodes : ∃ wire, toWire env.text engine declaredDifficulty task maxPackageBytes = .ok wire

/-- the metagraph shows the endpoint of the miner, under its own coldkey -/
structure AxonPublished (args : DoctorArgs) (m : Metagraph) : Prop where
  registered : args.hotkeySs58 ∈ m.hotkeys
  shown : m.axons[m.hotkeys.idxOf args.hotkeySs58]? =
    some ⟨args.externalIp, args.port, args.coldkeySs58⟩

/-- all that the checks of an attempt look for -/
structure Fit (host : DoctorHost) (args : DoctorArgs) (env : Env) (engine : Engine)
    (declaredDifficulty : TaskPackage → String) (T : AddressTables) (attempt : Nat) : Prop where
  python : supportedPython host.version = true
  distributions : ∀ p ∈ expectedDistributions, host.installed attempt p.1 = .ok (some p.2)
  btcli : ∃ stdout stderr, host.btcli attempt = some (.ok (0, stdout, stderr)) ∧
    occursIn "9.23.1" (stdout ++ "\n" ++ stderr) = true
  target : args.network = cohortNetwork ∧ args.netuid = cohortNetuid
  address : ∃ x : IPv4Address, args.externalIp = x.text ∧ x.Routable T
  port : 1 ≤ args.port ∧ args.port ≤ 65535
  timeout : ∃ q, args.timeout = .fin q ∧ 0 < q ∧ q ≤ 30
  coldkey : host.keypair args.coldkeySs58 = .ok args.coldkeySs58
  hotkey : host.keypair args.hotkeySs58 = .ok args.hotkeySs58
  selector : safeWalletComponent args.walletName = true ∧ safeWalletComponent args.walletHotkey = true
  wallet : host.metadataKind attempt [args.walletName] = .directory ∧
    host.metadataKind attempt [args.walletName, "coldkeypub.txt"] = .file ∧
    host.metadataKind attempt [args.walletName, "hotkeys"] = .directory ∧
    host.metadataKind attempt [args.walletName, "hotkeys", args.walletHotkey] = .file
  smoke : ∃ task, host.smokeTask attempt = .ok task ∧ Servable env engine declaredDifficulty task
  tasks : args.hasTaskDir = true → ∃ tasks, loadTasks (host.roots attempt) = .ok tasks ∧
    ∀ task ∈ tasks, Servable env engine declaredDifficulty task
  listens : ∃ state, localPortState host args attempt = .ok state ∧
    (state = "free" ∨ state = "listening")
  reachable : host.connect attempt args.externalIp args.port = .ok ()
  published : ∃ balance m, readDoctorChain host args attempt = .ok (balance, m) ∧ AxonPublished args m

section
variable {host : DoctorHost} {args : DoctorArgs} {attempt : Nat} {env : Env} {engine : Engine}
  {declaredDifficulty : TaskPackage → String} {T : AddressTables}

theorem distributionCheck_ok {distribution expected : String} {check : Obj}
    (h : distributionCheck host attempt distribution expected = .ok check) :
    Check.ok (distribution, check) = true ↔
      host.installed attempt distribution = .ok (some expected) := by
  unfold distributionCheck at h
  split at h
  · next installed hinstalled =>
    obtain rfl := Except.ok.inj h
    rw [hinstalled, Except.ok.injEq, Option.some.injEq]
    exact beq_iff_eq
  · next hnone =>
    obtain rfl := Except.ok.inj h
    exact iff_of_false Bool.false_ne_true fun hsome => nomatch hnone.symm.trans hsome
  · next e he =>
    split at h
    · obtain rfl := Except.ok.inj h
      exact iff_of_false Bool.false_ne_true fun hsome => nomatch he.symm.trans hsome
    · exact nomatch h

theorem btcliCheck_ok {check : Obj} (h : btcliCheck host attempt = .ok check) :
    Check.ok ("btcli", check) = true ↔ ∃ stdout stderr,
      host.btcli attempt = some (.ok (0, stdout, stderr)) ∧
        occursIn "9.23.1" (stdout ++ "\n" ++ stderr) = true := by
  unfold btcliCheck at h
  split at h
  · next hnone =>
    obtain rfl := Except.ok.inj h
    refine iff_of_false Bool.false_ne_true fun ⟨_, _, hsome, _⟩ => nomatch hnone.symm.trans hsome
  · next e he =>
    split at h
    · obtain rfl := Except.ok.inj h
      refine iff_of_false Bool.false_ne_true fun ⟨_, _, hsome, _⟩ => nomatch he.symm.trans hsome
    · exact nomatch h
  · next returncode stdout stderr hran =>
    obtain rfl := Except.ok.inj h
    show (decide (returncode = 0) && occursIn "9.23.1" (stdout ++ "\n" ++ stderr)) = true ↔ _
    rw [Bool.and_eq_true, decide_eq_true_eq]
    constructor
    · rintro ⟨rfl, hverified⟩
      exact ⟨stdout, stderr, hran, hverified⟩
    · rintro ⟨stdout', stderr', hran', hverified⟩
      obtain ⟨rfl, hout⟩ := Prod.mk.inj (Except.ok.inj (Option.some.inj (hran.symm.trans hran')))
      obtain ⟨rfl, rfl⟩ := Prod.mk.inj hout
      exact ⟨rfl, hverified⟩

theorem publicSs58IsValid_ok {address : String} {valid : Bool}
    (h : publicSs58IsValid host address = .ok valid) :
    valid = true ↔ host.keypair address = .ok address := by
  unfold publicSs58IsValid at h
  split at h
  · next text htext =>
    obtain rfl := Except.ok.inj h
    rw [htext, Except.ok.injEq]
    exact beq_iff_eq
  · next e he =>
    split at h
    · obtain rfl := Except.ok.inj h
      exact iff_of_false Bool.false_ne_true fun hok => nomatch he.symm.trans hok
    · exact nomatch h

theorem orElseCheck_ok {x : Except Exn Obj} {name reason : String} {check : Obj}
    (h : orElseCheck x reason = .ok check)
    (hx : ∀ c, x = .ok c → Check.ok (name, c) = true) :
    Check.ok (name, check) = true ↔ ∃ c, x = .ok c := by
  unfold orElseCheck at h
  split at h
  · next c =>
    obtain rfl := Except.ok.inj h
    exact iff_of_true (hx c rfl) ⟨c, rfl⟩
  · next e =>
    split at h
    · obtain rfl := Except.ok.inj h
      exact iff_of_false Bool.false_ne_true fun ⟨_, hc⟩ => nomatch hc
    · exact nomatch h

theorem size_of_toWire {task : TaskPackage} {wire : Obj}
    (h : toWire env.text engine declaredDifficulty task maxPackageBytes = .ok wire) :
    canonicalSize env.text wire ≤ maxPackageBytes :=
  of_decide_eq_true (toWire_ok h).1

theorem checkTask_ok_iff {task : TaskPackage} :
    (∃ found, checkTask env engine declaredDifficulty task = .ok found) ↔
      Servable env engine declaredDifficulty task := by
  constructor
  · rintro ⟨found, h⟩
    unfold checkTask at h
    obtain ⟨policy, hpolicy, h⟩ := bind_ok h
    obtain ⟨wire, hwire, -⟩ := bind_ok h
    exact ⟨⟨policy, hpolicy⟩, wire, hwire⟩
  · rintro ⟨⟨policy, hpolicy⟩, wire, hwire⟩
    obtain ⟨_, _, _, hhash, _⟩ := toWire_ok hwire
    have hsize := size_of_toWire hwire
    have hbound : maxPackageBytes ≤ maxResponseBytes := by decide
    unfold checkTask
    rw [hpolicy, ok_bind]
    dsimp only
    rw [hwire, ok_bind, hhash]
    rw [if_neg (by simp [Json.eqStr]), if_neg (by omega)]
    exact ⟨_, rfl⟩

theorem engineSmokeCheck_ok_iff :
    (∃ check, engineSmokeCheck host attempt env engine declaredDifficulty = .ok check) ↔
      ∃ task, host.smokeTask attempt = .ok task ∧ Servable env engine declaredDifficulty task := by
  unfold engineSmokeCheck
  constructor
  · rintro ⟨check, h⟩
    obtain ⟨task, htask, h⟩ := bind_ok h
    obtain ⟨found, hfound, -⟩ := bind_ok h
    exact ⟨task, htask, checkTask_ok_iff.mp ⟨found, hfound⟩⟩
  · rintro ⟨task, htask, hservable⟩
    obtain ⟨found, hfound⟩ := checkTask_ok_iff.mpr hservable
    rw [htask, ok_bind, hfound, ok_bind]
    exact ⟨_, rfl⟩

theorem suppliedTasksCheck_ok_iff :
    (∃ check, suppliedTasksCheck host attempt env engine declaredDifficulty = .ok check) ↔
      ∃ tasks, loadTasks (host.roots attempt) = .ok tasks ∧
        ∀ task ∈ tasks, Servable env engine declaredDifficulty task := by
  unfold suppliedTasksCheck
  constructor
  · rintro ⟨check, h⟩
    obtain ⟨tasks, htasks, h⟩ := bind_ok h
    obtain ⟨sizes, hsizes, -⟩ := bind_ok h
    have hall := (mapM_ok_iff _ tasks).mp ⟨sizes, hsizes, (forall₂_of_mapM hsizes).length_eq.symm⟩
    exact ⟨tasks, htasks, fun task hmem => checkTask_ok_iff.mp (hall task hmem)⟩
  · rintro ⟨tasks, htasks, hservable⟩
    obtain ⟨sizes, hsizes, _⟩ := (mapM_ok_iff (checkTask env engine declaredDifficulty) tasks).mpr
      fun task hmem => checkTask_ok_iff.mpr (hservable task hmem)
    rw [htasks, ok_bind, hsizes, ok_bind]
    exact ⟨_, rfl⟩

/-! ## one attempt -/

theorem endpointValid_iff : endpointValid args T = true ↔
    (∃ x : IPv4Address, args.externalIp = x.text ∧ x.Routable T) ∧
      (1 ≤ args.port ∧ args.port ≤ 65535) ∧ ∃ q, args.timeout = .fin q ∧ 0 < q ∧ q ≤ 30 := by
  have htimeout : ∀ value timeout, requireDoctorTimeout value = .ok timeout ↔
      timeout = value ∧ ∃ q, value = .fin q ∧ 0 < q ∧ q ≤ 30 := by
    intro value timeout
    unfold requireDoctorTimeout
    split
    · next q =>
      split
      · next h =>
        constructor
        · intro ht
          exact ⟨(Except.ok.inj ht).symm, q, rfl, h⟩
        · rintro ⟨rfl, _⟩
          rfl
      · next h =>
        refine iff_of_false nofun ?_
        rintro ⟨_, q', hq, hbounds⟩
        obtain rfl := PyFloat.fin.inj hq
        exact h hbounds
    · next hfin => exact iff_of_false nofun fun ⟨_, q, hq, _⟩ => hfin q hq
  unfold endpointValid
  constructor
  · intro h
    obtain ⟨timeout, hok⟩ := isSome_toOption_iff.mp h
    obtain ⟨ip, hip, hok⟩ := bind_ok hok
    obtain ⟨port, hport, hok⟩ := bind_ok hok
    obtain ⟨_, x, hx, hroutable⟩ := requirePublicIpv4_ok_iff.mp hip
    obtain ⟨_, hbounds⟩ := requirePort_ok_iff.mp hport
    exact ⟨⟨x, hx, hroutable⟩, hbounds, ((htimeout _ _).mp hok).2⟩
  · rintro ⟨haddress, hport, hfin⟩
    rw [requirePublicIpv4_ok_iff.mpr ⟨rfl, haddress⟩, ok_bind, requirePort_ok_iff.mpr ⟨rfl, hport⟩,
      ok_bind, (htimeout _ _).mpr ⟨rfl, hfin⟩]
    rfl

theorem targetValid_iff : targetValid args = true ↔
    args.network = cohortNetwork ∧ args.netuid = cohortNetuid := by
  unfold targetValid requireCohortTarget
  split
  · next h =>
    refine iff_of_false Bool.false_ne_true fun ht => ?_
    rcases h with hne | hne
    · exact hne ht.1
    · exact hne ht.2
  · next h =>
    rw [not_or, not_not, not_not] at h
    exact iff_of_true rfl h

theorem walletMetadataCheck_ok :
    Check.ok ("wallet_metadata", walletMetadataCheck host args attempt) = true ↔
      (safeWalletComponent args.walletName = true ∧ safeWalletComponent args.walletHotkey = true) ∧
        host.metadataKind attempt [args.walletName] = .directory ∧
        host.metadataKind attempt [args.walletName, "coldkeypub.txt"] = .file ∧
        host.metadataKind attempt [args.walletName, "hotkeys"] = .directory ∧
        host.metadataKind attempt [args.walletName, "hotkeys", args.walletHotkey] = .file := by
  unfold walletMetadataCheck
  split
  · next h =>
    refine iff_of_false Bool.false_ne_true fun hsafe => ?_
    rcases h with hname | hhotkey
    · exact nomatch hname.symm.trans hsafe.1.1
    · exact nomatch hhotkey.symm.trans hsafe.1.2
  · next h =>
    rw [not_or, Bool.not_eq_false, Bool.not_eq_false] at h
    rw [and_iff_right h]
    show (host.metadataKind attempt [args.walletName] == MetadataKind.directory &&
      host.metadataKind attempt [args.walletName, "coldkeypub.txt"] == MetadataKind.file &&
      host.metadataKind attempt [args.walletName, "hotkeys"] == MetadataKind.directory &&
      host.metadataKind attempt [args.walletName, "hotkeys", args.walletHotkey] ==
        MetadataKind.file) = true ↔ _
    simp only [Bool.and_eq_true, beq_iff_eq, and_assoc]

theorem tcpReachable_ok {address : String} {reachable : Bool}
    (h : tcpReachable host args attempt address = .ok reachable) :
    reachable = true ↔ host.connect attempt address args.port = .ok () := by
  unfold tcpReachable at h
  split at h
  · next hconnect =>
    obtain rfl := Except.ok.inj h
    exact iff_of_true rfl hconnect
  · next hfails =>
    obtain rfl := Except.ok.inj h
    exact iff_of_false Bool.false_ne_true fun hok => nomatch hfails.symm.trans hok
  · exact nomatch h

theorem networkChecks_ok {checks : List Check} (h : networkChecks host args attempt T = .ok checks) :
    checks.all Check.ok = true ↔ endpointValid args T = true ∧
      (∃ state, localPortState host args attempt = .ok state ∧
        (state = "free" ∨ state = "listening")) ∧
      host.connect attempt args.externalIp args.port = .ok () := by
  unfold networkChecks at h
  split at h
  · next hvalid =>
    obtain ⟨state, hstate, h⟩ := bind_ok h
    obtain ⟨reachable, hreachable, h⟩ := bind_ok h
    obtain rfl := Except.ok.inj h
    show ((state == "free" || state == "listening") && (reachable && true)) = true ↔ _
    rw [Bool.and_true, Bool.and_eq_true, tcpReachable_ok hreachable, Bool.or_eq_true, beq_iff_eq,
      beq_iff_eq, and_iff_right hvalid]
    refine and_congr_left' ⟨fun hs => ⟨state, hstate, hs⟩, ?_⟩
    rintro ⟨state', hstate', hs⟩
    rw [Except.ok.inj (hstate.symm.trans hstate')]
    exact hs
  · next hinvalid =>
    obtain rfl := Except.ok.inj h
    exact iff_of_false Bool.false_ne_true fun hok => hinvalid hok.1

theorem axonPublished_iff {m : Metagraph} :
    AxonPublished args m ↔ args.hotkeySs58 ∈ m.hotkeys ∧
      (m.axons[m.hotkeys.idxOf args.hotkeySs58]?.map (·.coldkey)) = some args.coldkeySs58 ∧
      m.hasExactAxon args.hotkeySs58 args.externalIp args.port = true := by
  rw [Metagraph.hasExactAxon_iff]
  constructor
  · rintro ⟨hmem, hshown⟩
    exact ⟨hmem, by rw [hshown]; rfl, _, hmem, hshown, rfl, rfl⟩
  · rintro ⟨hmem, howner, ⟨ip, port, coldkey⟩, _, hshown, rfl, rfl⟩
    rw [hshown] at howner
    refine ⟨hmem, ?_⟩
    rw [hshown, ← Option.some.inj howner]

theorem chainChecks_ok (balance : Int) (m : Metagraph) (hbalance : 0 ≤ balance) :
    (chainChecks args balance m).all Check.ok = true ↔ AxonPublished args m := by
  rw [axonPublished_iff]
  show (decide (0 ≤ balance) && ((m.hotkeyUid args.hotkeySs58).isSome &&
    (((m.hotkeyUid args.hotkeySs58).isSome &&
      ((if args.hotkeySs58 ∈ m.hotkeys then m.axons[m.hotkeys.idxOf args.hotkeySs58]?
        else none).map (·.coldkey)) == some args.coldkeySs58 &&
      m.hasExactAxon args.hotkeySs58 args.externalIp args.port) && true))) = true ↔ _
  unfold Metagraph.hotkeyUid
  by_cases hmem : args.hotkeySs58 ∈ m.hotkeys
  · rw [if_neg (not_not.mpr hmem), if_pos hmem]
    simp [hbalance, hmem]
  · rw [if_pos hmem]
    simp [hmem]

theorem readDoctorChain_nonneg {balance : Int} {m : Metagraph}
    (h : readDoctorChain host args attempt = .ok (balance, m)) : 0 ≤ balance := by
  unfold readDoctorChain at h
  obtain ⟨_, _, h⟩ := bind_ok h
  obtain ⟨balance', _, h⟩ := bind_ok h
  obtain ⟨_, _, h⟩ := bind_ok h
  split at h
  · exact nomatch h
  next hnonneg =>
  obtain ⟨rfl, _⟩ := Prod.mk.inj (Except.ok.inj h)
  exact not_lt.mp hnonneg

theorem doctorChainChecks_ok {prerequisites : Bool} {checks : List Check}
    (h : doctorChainChecks host args attempt prerequisites = .ok checks) :
    checks.all Check.ok = true ↔ prerequisites = true ∧
      ∃ balance m, readDoctorChain host args attempt = .ok (balance, m) ∧ AxonPublished args m := by
  unfold doctorChainChecks at h
  split at h
  · next hnone =>
    obtain rfl := Except.ok.inj h
    exact iff_of_false Bool.false_ne_true fun hok => nomatch hnone.symm.trans hok.1
  next hasked =>
  rw [and_iff_right ((Bool.not_eq_false _).mp hasked)]
  split at h
  · next balance m hread =>
    obtain rfl := Except.ok.inj h
    rw [chainChecks_ok balance m (readDoctorChain_nonneg hread)]
    constructor
    · intro hp
      exact ⟨balance, m, hread, hp⟩
    · rintro ⟨balance', m', hread', hp⟩
      obtain ⟨_, rfl⟩ := Prod.mk.inj (Except.ok.inj (hread.symm.trans hread'))
      exact hp
  · next e he =>
    split at h
    · obtain rfl := Except.ok.inj h
      exact iff_of_false Bool.false_ne_true fun ⟨_, _, hok, _⟩ => nomatch he.symm.trans hok
    · exact nomatch h

theorem engineSmoke_ok {smoke : Obj} (h : orElseCheck
      (engineSmokeCheck host attempt env engine declaredDifficulty) "engine_smoke_failed" = .ok smoke) :
    Check.ok ("engine_smoke", smoke) = true ↔
      ∃ task, host.smokeTask attempt = .ok task ∧ Servable env engine declaredDifficulty task := by
  rw [orElseCheck_ok h, engineSmokeCheck_ok_iff]
  intro c hc
  unfold engineSmokeCheck at hc
  obtain ⟨_, _, hc⟩ := bind_ok hc
  obtain ⟨_, _, hc⟩ := bind_ok hc
  obtain rfl := Except.ok.inj hc
  rfl

theorem tasksChecks_ok {checks : List Check}
    (h : tasksChecks host args attempt env engine declaredDifficulty = .ok checks) :
    checks.all Check.ok = true ↔ (args.hasTaskDir = true →
      ∃ tasks, loadTasks (host.roots attempt) = .ok tasks ∧
        ∀ task ∈ tasks, Servable env engine declaredDifficulty task) := by
  unfold tasksChecks at h
  split at h
  · next hnone =>
    obtain rfl := Except.ok.inj h
    exact iff_of_true rfl fun hdir => nomatch hnone.symm.trans hdir
  next hdir =>
  obtain ⟨check, hcheck, h⟩ := bind_ok h
  obtain rfl := Except.ok.inj h
  rw [List.all_cons, List.all_nil, Bool.and_true, orElseCheck_ok hcheck, suppliedTasksCheck_ok_iff]
  · exact ⟨fun hall _ => hall, fun hall => hall ((Bool.not_eq_false _).mp hdir)⟩
  · intro c hc
    unfold suppliedTasksCheck at hc
    obtain ⟨_, _, hc⟩ := bind_ok hc
    obtain ⟨_, _, hc⟩ := bind_ok hc
    obtain rfl := Except.ok.inj hc
    rfl

theorem targetCheck_ok : Check.ok ("target", targetCheck args) = targetValid args := by
  unfold targetCheck
  cases targetValid args with
  | true => rfl
  | false => rfl

theorem endpointCheck_ok : Check.ok ("endpoint", endpointCheck args T) = endpointValid args T := by
  unfold endpointCheck
  cases endpointValid args T with
  | true => rfl
  | false => rfl

theorem all_iff_of_forall₂ {α β : Type} {R : α → β → Prop} {P : α → Prop} {f : β → Bool}
    (hR : ∀ a b, R a b → (f b = true ↔ P a)) {l : List α} {m : List β} (h : List.Forall₂ R l m) :
    m.all f = true ↔ ∀ a ∈ l, P a := by
  induction h with
  | nil => exact iff_of_true rfl fun _ hmem => (List.not_mem_nil hmem).elim
  | cons hab _ ih => rw [List.all_cons, Bool.and_eq_true, hR _ _ hab, ih, List.forall_mem_cons]

/-- all checks of an attempt are ok exactly if the miner is fit -/
theorem doctorChecks_ok_iff {checks : List Check}
    (h : doctorChecks host args attempt env engine declaredDifficulty T = .ok checks) :
    checks.all Check.ok = true ↔ Fit host args env engine declaredDifficulty T attempt := by
  unfold doctorChecks at h
  obtain ⟨distributions, hdistributions, h⟩ := bind_ok h
  obtain ⟨btcli, hbtcli, h⟩ := bind_ok h
  obtain ⟨coldkeyValid, hcoldkey, h⟩ := bind_ok h
  obtain ⟨hotkeyValid, hhotkey, h⟩ := bind_ok h
  obtain ⟨smoke, hsmoke, h⟩ := bind_ok h
  obtain ⟨tasks, htasks, h⟩ := bind_ok h
  obtain ⟨network, hnetwork, h⟩ := bind_ok h
  obtain ⟨chain, hchain, h⟩ := bind_ok h
  obtain rfl := Except.ok.inj h
  have hinstalled : distributions.all Check.ok = true ↔
      ∀ p ∈ expectedDistributions, host.installed attempt p.1 = .ok (some p.2) := by
    refine all_iff_of_forall₂ ?_ (forall₂_of_mapM hdistributions)
    rintro ⟨distribution, expected⟩ c hc
    obtain ⟨check, hcheck, hc⟩ := bind_ok hc
    obtain rfl := Except.ok.inj hc
    exact distributionCheck_ok hcheck
  have haddresses : ∀ detail, Check.ok ("public_addresses",
      ("ok", Json.bool (coldkeyValid && hotkeyValid)) :: detail) = (coldkeyValid && hotkeyValid) :=
    fun _ => rfl
  have hpython : Check.ok ("python", pythonCheck host.version) = supportedPython host.version := rfl
  have hboundary : Check.ok ("miner_boundary", minerBoundaryCheck) = true := rfl
  simp only [List.all_append, List.all_cons, List.all_nil, Bool.and_true, Bool.and_eq_true,
    hpython, hinstalled, btcliCheck_ok hbtcli, targetCheck_ok, endpointCheck_ok, haddresses,
    walletMetadataCheck_ok, engineSmoke_ok hsmoke, tasksChecks_ok htasks,
    networkChecks_ok hnetwork, doctorChainChecks_ok hchain, hboundary]
  constructor
  · rintro ⟨⟨⟨⟨⟨hpy, hdist⟩, hbt, htg, hep, ⟨hck, hhk⟩, ⟨hsel, hwallet⟩, hsm⟩, htk⟩,
      _, hlocal, htcp⟩, _, hch⟩
    obtain ⟨haddr, hport, htime⟩ := endpointValid_iff.mp hep
    exact {
      python := hpy
      distributions := hdist
      btcli := hbt
      target := targetValid_iff.mp htg
      address := haddr
      port := hport
      timeout := htime
      coldkey := (publicSs58IsValid_ok hcoldkey).mp hck
      hotkey := (publicSs58IsValid_ok hhotkey).mp hhk
      selector := hsel
      wallet := hwallet
      smoke := hsm
      tasks := htk
      listens := hlocal
      reachable := htcp
      published := hch }
  · intro hfit
    have htg := targetValid_iff.mpr hfit.target
    have hep := endpointValid_iff.mpr ⟨hfit.address, hfit.port, hfit.timeout⟩
    have hck := (publicSs58IsValid_ok hcoldkey).mpr hfit.coldkey
    have hhk := (publicSs58IsValid_ok hhotkey).mpr hfit.hotkey
    exact ⟨⟨⟨⟨⟨hfit.python, hfit.distributions⟩, hfit.btcli, htg, hep, ⟨hck, hhk⟩,
      ⟨hfit.selector, hfit.wallet⟩, hfit.smoke⟩, hfit.tasks⟩, hep, hfit.listens, hfit.reachable⟩,
      ⟨⟨⟨htg, hep⟩, hck⟩, hhk⟩, hfit.published⟩

/-! ## the attempts -/

/-- the report of a loop that begins at the attempt, with this number of attempts left -/
structure Audited (host : DoctorHost) (args : DoctorArgs) (env : Env) (engine : Engine)
    (declaredDifficulty : TaskPackage → String) (T : AddressTables) (attempt left : Nat)
    (report : DoctorReport) : Prop where
  first : attempt ≤ report.used
  upTo : report.used ≤ attempt + left
  exact : report.ok = true ↔ Fit host args env engine declaredDifficulty T report.used
  before : ∀ j, attempt ≤ j → j < report.used → ¬ Fit host args env engine declaredDifficulty T j
  exhausted : report.ok = false → report.used = attempt + left

theorem doctorLoop_ok {configured left : Nat} {delay : ℚ} {report : DoctorReport}
    (h : doctorLoop host args env engine declaredDifficulty T configured delay left attempt =
      .ok report) :
    report.configured = configured ∧
      Audited host args env engine declaredDifficulty T attempt left report := by
  induction left generalizing attempt with
  | zero =>
    unfold doctorLoop at h
    obtain ⟨checks, hchecks, h⟩ := bind_ok h
    obtain rfl := Except.ok.inj h
    exact ⟨rfl, le_rfl, le_rfl, doctorChecks_ok_iff hchecks,
      fun j hle hlt => absurd hlt (not_lt.mpr hle), fun _ => rfl⟩
  | succ left ih =>
    unfold doctorLoop at h
    obtain ⟨checks, hchecks, h⟩ := bind_ok h
    split at h
    · next hok =>
      obtain rfl := Except.ok.inj h
      exact ⟨rfl, le_rfl, Nat.le_add_right _ _, iff_of_true rfl ((doctorChecks_ok_iff hchecks).mp hok),
        fun j hle hlt => absurd hlt (not_lt.mpr hle), nofun⟩
    · next hnot =>
      obtain ⟨_, _, h⟩ := bind_ok h
      obtain ⟨hconfigured, hrest⟩ := ih h
      refine ⟨hconfigured, (Nat.le_succ _).trans hrest.first, ?_, hrest.exact, ?_, ?_⟩
      · have hle := hrest.upTo
        omega
      · intro j hle hlt
        rcases Nat.eq_or_lt_of_le hle with rfl | hlater
        · exact fun hfit => hnot ((doctorChecks_ok_iff hchecks).mpr hfit)
        · exact hrest.before j hlater hlt
      · intro hfalse
        have hused := hrest.exhausted hfalse
        omega

/-- every validator that reads the metagraph lists exactly this endpoint for the hotkey -/
def Listed (T : AddressTables) (text : PyText) (args : DoctorArgs) (m : Metagraph) : Prop :=
  ∃ uid, m.hotkeyUid args.hotkeySs58 = some uid ∧ ∀ excludeHotkey, args.hotkeySs58 ≠ excludeHotkey →
    [("host", .str args.externalIp), ("port", .int args.port), ("hotkey", .str args.hotkeySs58),
      ("uid", .int uid), ("coldkey", .str args.coldkeySs58)] ∈
      discoveredEndpoints T text cohortNetwork (m.minerEndpointRows excludeHotkey)

theorem listed_of_axonPublished {text : PyText} {m : Metagraph} (h : AxonPublished args m)
    (hport : 1 ≤ args.port) (haddress : ∃ x : IPv4Address, args.externalIp = x.text ∧ x.Routable T) :
    Listed T text args m := by
  have hindex : m.hotkeys[m.hotkeys.idxOf args.hotkeySs58]? = some args.hotkeySs58 := by
    rw [List.getElem?_eq_getElem (List.idxOf_lt_length_of_mem h.registered), List.getElem_idxOf]
  obtain ⟨uid, huid⟩ : ∃ uid, m.hotkeyUid args.hotkeySs58 = some uid := by
    unfold Metagraph.hotkeyUid
    rw [if_neg (not_not.mpr h.registered)]
    exact ⟨_, rfl⟩
  refine ⟨uid, huid, fun excludeHotkey hne => discovered_iff.mpr
    ⟨_, _, _, hindex, h.shown, hne, Int.lt_of_lt_of_le Int.zero_lt_one hport, haddress, ?_⟩⟩
  unfold Metagraph.endpointRow
  rw [huid]
  rfl

variable (host args env engine declaredDifficulty T) in
/-- **The audit is exact.** It stops at the first attempt at which the miner is fit, and reports
`ok` exactly if there is one; every validator that reads the metagraph of that attempt then lists
the miner's endpoint, with its uid and its coldkey. -/
theorem doctor_exact (text : PyText) (report : DoctorReport)
    (h : doctorCommand host args env engine declaredDifficulty T = .ok report) :
    (report.configured : Int) = args.attempts ∧ report.configured ≤ 12 ∧
      Audited host args env engine declaredDifficulty T 1 (report.configured - 1) report ∧
      (report.ok = true → ∃ m, host.metagraph report.used cohortNetuid = .ok m ∧
        Listed T text args m) := by
  unfold doctorCommand at h
  obtain ⟨attempts, hattempts, h⟩ := bind_ok h
  obtain ⟨delay, -, h⟩ := bind_ok h
  obtain ⟨rfl, haudited⟩ := doctorLoop_ok h
  unfold requireDoctorAttempts at hattempts
  split at hattempts
  swap
  · exact nomatch hattempts
  next hbounds =>
  have hcount := Except.ok.inj hattempts
  refine ⟨by omega, by omega, haudited, fun hok => ?_⟩
  have hfit := haudited.exact.mp hok
  obtain ⟨balance, m, hread, hpublished⟩ := hfit.published
  unfold readDoctorChain at hread
  obtain ⟨_, _, hread⟩ := bind_ok hread
  obtain ⟨_, _, hread⟩ := bind_ok hread
  obtain ⟨m', hm, hread⟩ := bind_ok hread
  split at hread
  · exact nomatch hread
  obtain ⟨_, rfl⟩ := Prod.mk.inj (Except.ok.inj hread)
  rw [hfit.target.2] at hm
  exact ⟨m', hm, listed_of_axonPublished hpublished hfit.port.1 hfit.address⟩

/-! ## what is served after it -/

theorem size_le {wires : List Obj} {n bound : Nat} (hlen : wires.length ≤ n)
    (hsize : ∀ wire ∈ wires, canonicalSize env.text wire ≤ bound) :
    responsePayloadSize env wires ≤ 2 + n * (bound + 1) := by
  by_cases hempty : wires = []
  · rw [hempty, size_nil]
    have hpos : (0 : Int) ≤ n * (bound + 1) := by positivity
    omega
  · have hsum : (wires.map fun wire => canonicalSize env.text wire + 1).sum ≤
        wires.length • ((bound : Int) + 1) := by
      refine (List.sum_le_card_nsmul _ ((bound : Int) + 1) fun k hk => ?_).trans_eq ?_
      · obtain ⟨wire, hmem, rfl⟩ := List.mem_map.mp hk
        have hwire := hsize wire hmem
        omega
      · rw [List.length_map]
    have hle : (wires.length : Int) * (bound + 1) ≤ n * (bound + 1) :=
      mul_le_mul_of_nonneg_right (by exact_mod_cast hlen) (by positivity)
    rw [nsmul_eq_mul] at hsum
    rw [responsePayloadSize_eq hempty]
    omega

/-- four packages fit into a response -/
theorem popWhile_of_length_le {wires : List Obj} (hlen : wires.length ≤ 4)
    (hsize : ∀ wire ∈ wires, canonicalSize env.text wire ≤ maxPackageBytes) :
    popWhile (oversized env) wires = wires := by
  have hle := @size_le env wires 4 (200 * 1024) hlen hsize
  rw [popWhile, dif_neg]
  rintro ⟨_, hover⟩
  have hbig := of_decide_eq_true hover
  have hbound : maxResponseBytes = 1048576 := rfl
  omega

theorem fileMinerSubmissions_of_servable {roots : List TaskRoot} {tasks : List TaskPackage} {n : Int}
    (hload : loadTasks roots = .ok tasks)
    (hservable : ∀ task ∈ tasks, Servable env engine declaredDifficulty task) :
    ∃ wires, fileMinerSubmissions env engine declaredDifficulty roots n = .ok wires ∧
      List.Forall₂ (fun task wire =>
        toWire env.text engine declaredDifficulty task maxPackageBytes = .ok wire)
        (pyTake n tasks) wires := by
  have hsub : ∀ task ∈ pyTake n tasks, task ∈ tasks := by
    unfold pyTake
    split
    · exact fun _ => List.mem_of_mem_take
    · exact fun _ => List.mem_of_mem_take
  obtain ⟨wires, hwires, _⟩ := (mapM_ok_iff (fun task =>
    toWire env.text engine declaredDifficulty task maxPackageBytes) (pyTake n tasks)).mpr
      fun task hmem => (hservable task (hsub task hmem)).encodes
  refine ⟨wires, ?_, forall₂_of_mapM hwires⟩
  unfold fileMinerSubmissions
  rw [hload, ok_bind, hwires]

/-- the checks of `serve` pass for tasks that the audit has accepted -/
theorem serveChecks_of_servable {serve : ServeArgs} {minerHost : MinerHost} {tasks : List TaskPackage}
    (hload : loadTasks (minerHost.roots 0) = .ok tasks)
    (hservable : ∀ task ∈ tasks, Servable env engine declaredDifficulty task)
    (hallowed : serve.validatorHotkeys ≠ []) (hlisted : serve.allowAnySignedValidator = false)
    (hquota : 1 ≤ serve.quota ∧ serve.quota ≤ 4) (hport : 1 ≤ serve.port ∧ serve.port ≤ 65535) :
    serveChecks serve minerHost env engine declaredDifficulty = .ok () := by
  unfold serveChecks
  rw [if_neg (by simp [hallowed]), if_neg (by simp [hlisted]), if_neg (not_not.mpr hquota),
    requirePort_ok_iff.mpr ⟨rfl, hport⟩, ok_bind, hload, ok_bind]
  refine forM_ok fun task hmem => ?_
  obtain ⟨⟨policy, hpolicy⟩, wire, hwire⟩ := hservable task hmem
  rw [hpolicy, ok_bind, hwire, ok_bind]

/-- **What the audit accepts is served whole.** After an audit with tasks, `serve` begins with the
same tasks, and answers every request of a quota that is not negative: the validator gets the
packages of the first tasks, as many as both quotas allow, and none is left out for its size. -/
theorem doctored_tasks_served (verify : String → String → String → Bool) (serve : ServeArgs)
    (minerHost : MinerHost) (hfit : Fit host args env engine declaredDifficulty T attempt)
    (hdir : args.hasTaskDir = true) (hroots : minerHost.roots 0 = host.roots attempt)
    (hallowed : serve.validatorHotkeys ≠ []) (hlisted : serve.allowAnySignedValidator = false)
    (hquota : 1 ≤ serve.quota ∧ serve.quota ≤ 4) (hport : 1 ≤ serve.port ∧ serve.port ≤ 65535) :
    serveChecks serve minerHost env engine declaredDifficulty = .ok () ∧
      ∃ tasks, loadTasks (host.roots attempt) = .ok tasks ∧
        ∀ (request : Request) (endpoint : MinerEndpoint) (s : DoloresTaskSynapse)
          (sign : String → Bytes), AsksFor request s → s.isSuccess = true →
          requestIdIsValid request.requestId = true → 0 ≤ request.quota →
          maxResponseBytes ≤ request.maxResponseBytes →
          (∀ message, verify endpoint.hotkey message ("0x" ++ bytesHex (sign message)) = true) →
          ∃ wires response,
            forward env engine declaredDifficulty endpoint.hotkey sign (host.roots attempt)
              serve.quota s = .ok response ∧
            List.Forall₂ (fun task wire =>
              toWire env.text engine declaredDifficulty task maxPackageBytes = .ok wire)
              (tasks.take (min serve.quota request.quota).toNat) wires ∧
            wireMinerFromResponse env verify endpoint (.synapse response) request.quota
                request.epochId request.requestId request.validatorHotkey
                request.maxResponseBytes =
              .ok { hotkey := endpoint.hotkey, uid := endpoint.uid, payloads := wires } := by
  obtain ⟨tasks, hload, hservable⟩ := hfit.tasks hdir
  refine ⟨serveChecks_of_servable (hroots ▸ hload) hservable hallowed hlisted hquota hport,
    tasks, hload, ?_⟩
  intro request endpoint s sign hasks hsuccess hid hnonneg hlimit hverify
  have hshare : 0 ≤ min serve.quota request.quota := by omega
  obtain ⟨wires, hwires, hforall⟩ := @fileMinerSubmissions_of_servable env engine
    declaredDifficulty _ _ (min serve.quota request.quota) hload hservable
  have hlen : (wires.length : Int) ≤ min serve.quota request.quota := by
    rw [← hforall.length_eq]
    exact length_pyTake_le hshare tasks
  have hwhole : popWhile (oversized env) wires = wires := by
    refine popWhile_of_length_le (by omega) fun wire hmem => ?_
    obtain ⟨i, hi, rfl⟩ := List.mem_iff_getElem.mp hmem
    exact size_of_toWire (hforall.get (hforall.length_eq ▸ hi) hi)
  obtain ⟨d, hd, _⟩ := hasks.terminal
  have hforward : forward env engine declaredDifficulty endpoint.hotkey sign (host.roots attempt)
      serve.quota s = .ok (answered env endpoint.hotkey sign s d wires) := by
    refine forward_ok_iff.mpr ⟨wires, d, ?_, hd, ?_, by rw [hwhole]⟩
    · rw [hasks.quota, hwires]
    · rw [hasks.requestId, hid]
  refine ⟨wires, _, hforward, ?_, ?_⟩
  · have htake : pyTake (min serve.quota request.quota) tasks =
        tasks.take (min serve.quota request.quota).toNat := if_pos hshare
    rw [← htake]
    exact hforall
  · rw [wireMiner_of_forward hasks hsuccess hlimit hverify hwires hforward, hwhole,
      pyTake_of_length_le (by omega)]

end

/-! ## an audit of two attempts -/

section

/-- a task that validators can hold out -/
def auditTask : TaskPackage :=
  { plainTask with
    descriptors := { concepts := ["archetype:escape_delim", "target_band:core", "delim:comma",
      "special:slash"], taskType := "parser_roundtrip" }
    referenceFiles := [("codec.py", "pass")] }

def auditEngine : Engine := { smallEngine with symbolTable := fun _ _ => some "," }

/-- the chain shows the endpoint from the second attempt on -/
def auditHost : DoctorHost where
  version := [3, 11, 9]
  installed _ distribution := .ok (expectedDistributions.lookup distribution)
  btcli _ := some (.ok (0, "BTCLI version: 9.23.1", ""))
  keypair address := .ok address
  metadataKind _ path := if path.length = 1 ∨ path.getLast? = some "hotkeys" then .directory else .file
  smokeTask _ := .ok auditTask
  roots _ := [{ path := "tasks", package := .ok auditTask, children := none }]
  connect _ address _ := if address = "127.0.0.1" then .error (.osError "refused") else .ok ()
  bind _ _ := .ok ()
  subtensor _ _ := .ok ()
  balanceRao _ _ := .ok 5
  metagraph attempt _ := .ok (if attempt = 1 then ⟨["v", "a"], [0, 1], []⟩ else publicMetagraph)
  sleep _ := .ok ()

/-- a release that knows of no private network but the fixed ones -/
def auditTables : AddressTables := ⟨[], [], fun _ => false⟩

def auditArgs : DoctorArgs where
  walletName := "w"
  walletHotkey := "h"
  coldkeySs58 := "ca"
  hotkeySs58 := "a"
  network := "test"
  netuid := 523
  hasTaskDir := true
  externalIp := "93.184.216.34"
  port := 8091
  attempts := 3
  retryDelay := .fin 1

def auditOutcome : Except Exn DoctorReport :=
  doctorCommand auditHost auditArgs Env.plain auditEngine (fun _ => "0.5") auditTables

def reportsAt (used : Nat) : Except Exn DoctorReport → Bool
  | .ok report => report.ok && report.used == used
  | .error _ => false

theorem auditOutcome_ok : ∃ report, auditOutcome = .ok report ∧ report.ok = true ∧ report.used = 2 := by
  have hrun : reportsAt 2 auditOutcome = true := by decide +kernel
  cases h : auditOutcome with
  | error e =>
    rw [h] at hrun
    exact nomatch hrun
  | ok report =>
    rw [h] at hrun
    obtain ⟨hok, hused⟩ := Bool.and_eq_true_iff.mp hrun
    exact ⟨report, rfl, hok, beq_iff_eq.mp hused⟩

theorem doctor_exact_sample : ∃ report, auditOutcome = .ok report ∧
    Fit auditHost auditArgs Env.plain auditEngine (fun _ => "0.5") auditTables 2 ∧
    ¬ Fit auditHost auditArgs Env.plain auditEngine (fun _ => "0.5") auditTables 1 ∧
    ∃ m, auditHost.metagraph 2 cohortNetuid = .ok m ∧ Listed auditTables Env.plain.text auditArgs m := by
  obtain ⟨report, hrun, hok, hused⟩ := auditOutcome_ok
  obtain ⟨_, _, haudited, hlisted⟩ := doctor_exact auditHost auditArgs Env.plain auditEngine
    (fun _ => "0.5") auditTables Env.plain.text report hrun
  have hfit := haudited.exact.mp hok
  have hbefore := haudited.before 1 le_rfl (by omega)
  have hshown := hlisted hok
  rw [hused] at hfit hshown
  exact ⟨report, hrun, hfit, hbefore, hshown⟩

theorem auditHost_fit :
    Fit auditHost auditArgs Env.plain auditEngine (fun _ => "0.5") auditTables 2 := by
  obtain ⟨report, hrun, hok, hused⟩ := auditOutcome_ok
  unfold auditOutcome doctorCommand at hrun
  obtain ⟨_, _, hrun⟩ := bind_ok hrun
  obtain ⟨_, _, hrun⟩ := bind_ok hrun
  have hfit := (doctorLoop_ok hrun).2.exact.mp hok
  rwa [hused] at hfit

theorem doctored_tasks_served_sample : ∃ response payloads,
    forward Env.plain auditEngine (fun _ => "0.5") "miner" authSign (auditHost.roots 2) 4
      authSynapse = .ok response ∧
    wireMinerFromResponse Env.plain
      (fun _ message signature => signature == "0x" ++ bytesHex (authSign message)) authEndpoint
      (.synapse response) 1 7 authRequest.requestId "validator" maxResponseBytes =
        .ok { hotkey := "miner", uid := 3, payloads } ∧ payloads.length = 1 := by
  obtain ⟨_, tasks, hload, hserved⟩ := doctored_tasks_served
    (fun _ message signature => signature == "0x" ++ bytesHex (authSign message))
    { quota := 4, validatorHotkeys := ["validator"] }
    { roots := fun _ => auditHost.roots 2, startAxon := fun _ => .ok (),
      serveAxon := fun _ _ => .ok (true, ""), metagraph := fun _ _ => .ok publicMetagraph,
      sleep := fun _ => .ok (), serve := fun _ => .foreignBase "KeyboardInterrupt" "" }
    auditHost_fit rfl rfl (List.cons_ne_nil _ _) rfl (by decide) (by decide)
  obtain ⟨wires, response, hforward, hforall, haccept⟩ := hserved
    { authRequest with maxResponseBytes } authEndpoint authSynapse authSign
    ⟨⟨authTerminal, rfl, rfl⟩, rfl, rfl, rfl, rfl⟩ rfl (by decide +kernel) (by decide) le_rfl
    (fun _ => beq_self_eq_true _)
  obtain rfl := Except.ok.inj ((rfl : loadTasks (auditHost.roots 2) = .ok [auditTask]).symm.trans hload)
  exact ⟨response, wires, hforward, haccept, hforall.length_eq.symm⟩

end

end Dolores
