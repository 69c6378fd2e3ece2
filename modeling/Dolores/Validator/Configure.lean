import Dolores.Chain.Live
import Dolores.Endpoint.Discovery
import Dolores.Validator.Evidence

/-!
# What a tick may touch (`config.py`, `validator_cli.py`)

`fromEnv` makes the configuration from the arguments and the environment; `tickInput` is what
`tick_command` reads before its tick.

* `fromEnv_configured`                 what every configuration satisfies;
* `prepareTick_prepared`               what a tick asks for before it takes the lock;
* `tick_submits_only_authorised`       the submissions it can make;
* `testnet_tick_queries_public_hosts`  the endpoints it can query.
-/

set_option linter.unusedSectionVars false

namespace Dolores
open Crash Except

/-! ## the configuration -/

/-- the process that reads a configuration -/
structure ConfigHost where
  environ : String → Option String
  text : PyText
  strip : String → String
  lower : String → String
  /-- `Path(text).expanduser()` -/
  expandUser : String → String
  /-- `configs/testnet.json`, if it exists, or the message with which it cannot be read -/
  testnetConfig : Option (Except String Json)
  testnetConfigPath : String
  mockPanelPath : String
  calibratePanelPath : String

/-- `value or fallback` -/
def orOption (value fallback : Option String) : Option String :=
  match value with
  | some s => if s = "" then fallback else some s
  | none => fallback

/-- `resolve_network` -/
def resolveNetwork (mode : Mode) : Option String → Except Exn (Option String)
  | some requested => do
    let network ← assertSafeNetwork requested
    .ok (some network)
  | none =>
    match mode with
    | .testnet => do
      let network ← assertSafeNetwork "test"
      .ok (some network)
    | .localnet => do
      let network ← assertSafeNetwork "ws://127.0.0.1:9944"
      .ok (some network)
    | .mock | .offline | .wire => .ok none

/-- the backend and the pipeline of `verifier_defaults` -/
def verifierDefaults (mode : Mode) : Backend × String :=
  if mode = .mock then (.local, "fixture") else (.docker, "generated")

section
variable (host : ConfigHost)

/-- `_parse_netuid` -/
def parseNetuid (value : Json) (source : String) : Except Exn Int :=
  match value.toInt with
  | .error (.typeError _) | .error (.valueError _) =>
    .error (.valueError (source ++ " netuid must be an integer: " ++ value.pyRepr host.text))
  | .error e => .error e
  | .ok netuid =>
    if netuid < 0 then .error (.valueError s!"{source} netuid must be non-negative: {netuid}")
    else .ok netuid

/-- the netuid of `configs/testnet.json` -/
def testnetNetuid : Except Exn (Option Int) :=
  match host.testnetConfig with
  | none => .ok none
  | some (.error message) =>
    .error (.valueError ("cannot read " ++ host.testnetConfigPath ++ ": " ++ message))
  | some (.ok (.obj data)) =>
    match Obj.get data "netuid" with
    | .null => .ok none
    | value => do
      let netuid ← parseNetuid host value host.testnetConfigPath
      .ok (some netuid)
  | some (.ok _) => .error (.attributeError "object has no attribute 'get'")

/-- `resolve_netuid` -/
def resolveNetuid (mode : Mode) (requested : Option Int) : Except Exn (Option Int) :=
  match requested, orOption (host.environ "BT_NETUID") none with
  | some requested, _ => do
    let netuid ← parseNetuid host (.int requested) "argument"
    .ok (some netuid)
  | none, some value => do
    let netuid ← parseNetuid host (.str value) "BT_NETUID"
    .ok (some netuid)
  | none, none => if mode = .testnet then testnetNetuid host else .ok none

/-- the arguments of `SubnetConfig.from_env` -/
structure ConfigArgs where
  mode : Mode
  network : Option String := none
  netuid : Option Int := none
  allowCommitReveal : Bool := false
  panelMode : Option String := none
  panelMaxTasks : Option Int := none
  panelDryRun : Option Bool := none
  allowProviderSpend : Bool := false

def resolvePanelMode (panelMode : Option String) : Except Exn PanelMode :=
  let text := host.lower (host.strip ((orOption panelMode
    (some ((host.environ "DOLORES_SUBNET_PANEL_MODE").getD "mock"))).getD ""))
  if text = "mock" then .ok .mock
  else if text = "calibrate" then .ok .calibrate
  else .error (.valueError ("panel_mode must be 'mock' or 'calibrate': " ++ host.text.reprStr text))

def resolvePanelMaxTasks (panelMaxTasks : Option Int) : Except Exn Int := do
  let raw : Json := match panelMaxTasks, host.environ "DOLORES_SUBNET_PANEL_MAX_TASKS" with
    | some n, _ => .int n
    | none, some value => .str value
    | none, none => .int 8
  match raw.toInt with
  | .error (.typeError _) | .error (.valueError _) =>
    .error (.valueError ("panel_max_tasks must be an integer: " ++ raw.pyRepr host.text))
  | .error e => .error e
  | .ok n =>
    if n < 0 then .error (.valueError s!"panel_max_tasks must be non-negative: {n}") else .ok n

def networkModes : List Mode := [.wire, .localnet, .testnet]

/-- `SubnetConfig.from_env`, with the mode parsed -/
def fromEnv (o : ConfigArgs) : Except Exn SubnetConfig := do
  let network ← resolveNetwork o.mode (orOption o.network (host.environ "BT_NETWORK"))
  let netuid ← resolveNetuid host o.mode o.netuid
  let panelMode ← resolvePanelMode host o.panelMode
  let panelMaxTasks ← resolvePanelMaxTasks host o.panelMaxTasks
  .ok {
    mode := o.mode
    panelPath := host.expandUser ((host.environ "DOLORES_SUBNET_PANEL").getD host.mockPanelPath)
    panelCalibratePath := host.expandUser
      ((host.environ "DOLORES_SUBNET_PANEL_CALIBRATE").getD host.calibratePanelPath)
    verifierImage := (host.environ "DOLORES_VERIFIER_IMAGE").getD
      "dolores-verifier-pytest:0.2.0rc2"
    backend := (verifierDefaults o.mode).1
    pipelineMode := (verifierDefaults o.mode).2
    network
    netuid
    allowCommitReveal := o.allowCommitReveal
    panelMode
    panelMaxTasks
    panelDryRun := o.panelDryRun.getD (host.environ "DOLORES_SUBNET_PANEL_DRYRUN" == some "1")
    allowProviderSpend := o.allowProviderSpend
    holdoutRequired := decide (o.mode ∈ networkModes)
    holdoutSecret := host.environ "DOLORES_HOLDOUT_SECRET" }

/-- the flags of `tick` for the panel -/
structure PanelFlags where
  panelMode : Option String := none
  panelMaxTasks : Option Int := none
  panelDryRun : Bool := false
  allowProviderSpend : Bool := false

/-- what `tick_command` reads before its tick, with the line typed at the terminal -/
def tickInput (args : TickArgs) (flags : PanelFlags) (typed : Option String) : TickInput where
  config := fromEnv host {
    mode := args.mode
    network := args.network
    netuid := args.netuid
    allowCommitReveal := args.allowCommitReveal
    panelMode := flags.panelMode
    panelMaxTasks := flags.panelMaxTasks
    panelDryRun := if flags.panelDryRun then some true else none
    allowProviderSpend := flags.allowProviderSpend }
  typed

end

/-! ## what a configuration satisfies -/

section
variable {host : ConfigHost} {o : ConfigArgs} {cfg : SubnetConfig}

theorem mem_of_assertSafeNetwork {requested network : String}
    (h : assertSafeNetwork requested = .ok network) : network ∈ safeChainNetworks := by
  unfold assertSafeNetwork at h
  dsimp only at h
  split at h
  · exact nomatch h
  · split at h
    next hmem => rw [← Except.ok.inj h]; exact hmem
    · exact nomatch h

theorem mem_of_resolveNetwork {mode : Mode} {requested : Option String} {network : String}
    (h : resolveNetwork mode requested = .ok (some network)) : network ∈ safeChainNetworks := by
  have hsafe : ∀ requested : String, (do
      let network ← assertSafeNetwork requested
      .ok (some network) : Except Exn (Option String)) = .ok (some network) →
      network ∈ safeChainNetworks := by
    intro requested h
    obtain ⟨network', hnetwork, h⟩ := bind_ok h
    rw [← Option.some.inj (Except.ok.inj h)]
    exact mem_of_assertSafeNetwork hnetwork
  cases requested with
  | some requested => exact hsafe requested h
  | none =>
    cases mode with
    | testnet => exact hsafe _ h
    | localnet => exact hsafe _ h
    | mock => exact nomatch h
    | offline => exact nomatch h
    | wire => exact nomatch h

theorem nonneg_of_parseNetuid {value : Json} {source : String} {netuid : Int}
    (h : parseNetuid host value source = .ok netuid) : 0 ≤ netuid := by
  unfold parseNetuid at h
  split at h
  · exact nomatch h
  · exact nomatch h
  · exact nomatch h
  · split at h
    · exact nomatch h
    next hnonneg =>
      rw [← Except.ok.inj h]
      omega

theorem nonneg_of_resolveNetuid {mode : Mode} {requested : Option Int} {netuid : Int}
    (h : resolveNetuid host mode requested = .ok (some netuid)) : 0 ≤ netuid := by
  have hparsed : ∀ value source, (do
      let netuid ← parseNetuid host value source
      .ok (some netuid) : Except Exn (Option Int)) = .ok (some netuid) → 0 ≤ netuid := by
    intro value source h
    obtain ⟨netuid', hnetuid, h⟩ := bind_ok h
    rw [← Option.some.inj (Except.ok.inj h)]
    exact nonneg_of_parseNetuid hnetuid
  unfold resolveNetuid at h
  split at h
  · exact hparsed _ _ h
  · exact hparsed _ _ h
  · split at h
    swap
    · exact nomatch h
    unfold testnetNetuid at h
    split at h
    · exact nomatch h
    · exact nomatch h
    · split at h
      · exact nomatch h
      · exact hparsed _ _ h
    · exact nomatch h

/-- what every configuration satisfies -/
structure Configured (host : ConfigHost) (o : ConfigArgs) (cfg : SubnetConfig) : Prop where
  mode : cfg.mode = o.mode
  isolated : o.mode ≠ .mock → cfg.backend = .docker ∧ cfg.pipelineMode = "generated"
  holdout : o.mode ∈ networkModes → cfg.holdoutRequired = true
  network : ∀ network, cfg.network = some network → network ∈ safeChainNetworks
  netuid : ∀ netuid, cfg.netuid = some netuid → 0 ≤ netuid
  requestedNetwork : ∀ network, o.network = some network → network ≠ "" →
    ∃ safe, assertSafeNetwork network = .ok safe ∧ cfg.network = some safe
  requestedNetuid : ∀ netuid, o.netuid = some netuid → cfg.netuid = some netuid
  maxTasks : 0 ≤ cfg.panelMaxTasks
  limits : cfg.maxPackageBytes = maxPackageBytes ∧ cfg.maxResponseBytes = maxResponseBytes ∧
    cfg.quota = defaultQuota ∧ cfg.emaAlpha = 3 / 10
  spend : cfg.allowProviderSpend = o.allowProviderSpend ∧
    cfg.allowCommitReveal = o.allowCommitReveal

theorem fromEnv_configured (h : fromEnv host o = .ok cfg) : Configured host o cfg := by
  unfold fromEnv at h
  obtain ⟨network, hnetwork, h⟩ := bind_ok h
  obtain ⟨netuid, hnetuid, h⟩ := bind_ok h
  obtain ⟨panelMode, _, h⟩ := bind_ok h
  obtain ⟨panelMaxTasks, hmax, h⟩ := bind_ok h
  obtain rfl := Except.ok.inj h
  refine ⟨rfl, fun hmode => ?_, fun hmode => decide_eq_true hmode, ?_, ?_, ?_, ?_, ?_,
    ⟨rfl, rfl, rfl, rfl⟩, rfl, rfl⟩
  · simp [verifierDefaults, hmode]
  · intro n hn
    rw [show network = some n from hn] at hnetwork
    exact mem_of_resolveNetwork hnetwork
  · intro n hn
    rw [show netuid = some n from hn] at hnetuid
    exact nonneg_of_resolveNetuid hnetuid
  · intro n hn hne
    rw [hn] at hnetwork
    unfold orOption at hnetwork
    dsimp only at hnetwork
    rw [if_neg hne] at hnetwork
    obtain ⟨safe, hsafe, hresolved⟩ := bind_ok hnetwork
    exact ⟨safe, hsafe, (Except.ok.inj hresolved).symm⟩
  · intro n hn
    rw [hn] at hnetuid
    unfold resolveNetuid at hnetuid
    dsimp only at hnetuid
    obtain ⟨n', hparsed, hresolved⟩ := bind_ok hnetuid
    unfold parseNetuid Json.toInt at hparsed
    dsimp only at hparsed
    split at hparsed
    · exact nomatch hparsed
    · rw [Except.ok.inj hparsed]
      exact (Except.ok.inj hresolved).symm
  · unfold resolvePanelMaxTasks at hmax
    dsimp only at hmax
    split at hmax
    · exact nomatch hmax
    · exact nomatch hmax
    · exact nomatch hmax
    · split at hmax
      · exact nomatch hmax
      next hnonneg =>
        obtain rfl := Except.ok.inj hmax
        exact not_lt.mp hnonneg

/-! ## the target of a tick -/

theorem trimAscii_of_ends {s : String} (hhead : s.toList.head?.any Char.isWhitespace = false)
    (hlast : s.toList.getLast?.any Char.isWhitespace = false) : s.trimAscii.toString = s := by
  have hstart : s.toSlice.trimAsciiStart = s.toSlice := by
    refine String.Slice.dropWhile_eq_self ?_
    rw [String.Slice.startsWith_bool_eq_head?]
    simpa using hhead
  have hend : s.toSlice.trimAsciiEnd = s.toSlice := by
    refine String.Slice.dropEndWhile_eq_self ?_
    rw [String.Slice.endsWith_bool_eq_getLast?]
    simpa using hlast
  unfold String.trimAscii String.Slice.trimAscii
  rw [hstart, hend]
  simp

/-- the names of the list are kept as they are -/
theorem assertSafeNetwork_safe {network : String} (h : network ∈ safeChainNetworks) :
    assertSafeNetwork network = .ok network := by
  have hends : ∀ s ∈ safeChainNetworks, s.toList.head?.any Char.isWhitespace = false ∧
      s.toList.getLast?.any Char.isWhitespace = false ∧ s ≠ "" := by
    decide +kernel
  obtain ⟨hhead, hlast, hne⟩ := hends _ h
  unfold assertSafeNetwork
  dsimp only
  rw [trimAscii_of_ends hhead hlast, if_neg hne, if_pos h]

end

section
variable {args : TickArgs} {chain : SubtensorChain} {cfg : SubnetConfig} {client : ChainClient}
  {host : ConfigHost} {flags : PanelFlags} {typed : Option String}

theorem buildChainClient_ok {publish : Option PublishMode} {allow : Bool} {confirmation : String}
    (h : buildChainClient cfg publish allow confirmation = .ok client) :
    publish = none ∧ client = .null ∨ ∃ p network safe, publish = some p ∧
      cfg.network = some network ∧ assertSafeNetwork network = .ok safe ∧
      client = .subtensor { network := safe, netuid := cfg.netuid, publish := p,
                            allowExtrinsics := allow, allowCommitReveal := cfg.allowCommitReveal,
                            confirmation } := by
  unfold buildChainClient at h
  split at h
  · exact .inl ⟨rfl, (Except.ok.inj h).symm⟩
  · exact nomatch h
  next p network hnetwork =>
    obtain ⟨safe, hsafe, h⟩ := bind_ok h
    exact .inr ⟨p, network, safe, rfl, hnetwork, hsafe, (Except.ok.inj h).symm⟩

theorem validateTestnetTarget_ok (h : validateTestnetTarget args = .ok ()) :
    args.network = some cohortNetwork ∧ args.netuid = some cohortNetuid ∧
      args.minerEndpoints = "" ∧ args.publish ≠ none := by
  unfold validateTestnetTarget at h
  split at h
  swap
  · exact nomatch h
  next network netuid hnetwork hnetuid =>
  obtain ⟨_, hcohort, h⟩ := bind_ok h
  unfold requireCohortTarget at hcohort
  split at hcohort
  · exact nomatch hcohort
  next htarget =>
  rw [not_or, not_not, not_not] at htarget
  obtain ⟨rfl, rfl⟩ := htarget
  split at h
  · exact nomatch h
  next hmanual =>
  split at h
  · exact nomatch h
  next hpublish => exact ⟨hnetwork, hnetuid, not_not.mp hmanual, hpublish⟩

theorem validateLocalnetTarget_ok (h : validateLocalnetTarget args = .ok ()) :
    ∃ network ∈ localnetNetworks, ∃ netuid, args.network = some network ∧
      args.netuid = some netuid ∧ 0 ≤ netuid := by
  unfold validateLocalnetTarget at h
  obtain ⟨_, htarget, _⟩ := bind_ok h
  unfold requireLocalnetTarget at htarget
  split at htarget
  swap
  · exact nomatch htarget
  next network netuid hnetwork hnetuid =>
  split at htarget
  · exact nomatch htarget
  next hmem =>
  split at htarget
  · exact nomatch htarget
  next hnonneg =>
    exact ⟨network, not_not.mp hmem, netuid, hnetwork, hnetuid, not_lt.mp hnonneg⟩

theorem validateWireTarget_ok (h : validateWireTarget args = .ok ()) : args.publish = none := by
  unfold validateWireTarget at h
  split at h
  · exact nomatch h
  split at h
  · exact nomatch h
  next hpublish => exact not_not.mp hpublish

/-- the chain that the modes of the parser let a tick reach -/
inductive TickTarget (args : TickArgs) : ChainClient → Prop
  | null : args.mode ≠ .testnet → args.publish = none → TickTarget args .null
  | testnet (chain : SubtensorChain) : args.mode = .testnet → args.minerEndpoints = "" →
      chain.network = cohortNetwork → chain.netuid = some cohortNetuid →
      TickTarget args (.subtensor chain)
  | localnet (chain : SubtensorChain) (netuid : Int) : args.mode = .localnet →
      chain.network ∈ localnetNetworks → chain.netuid = some netuid → 0 ≤ netuid →
      TickTarget args (.subtensor chain)

/-- what a tick asks of its client and of its configuration -/
structure Prepared (args : TickArgs) (typed : Option String) (cfg : SubnetConfig)
    (client : ChainClient) : Prop where
  target : TickTarget args client
  authorization : ∀ chain, client = .subtensor chain → args.publish = some chain.publish ∧
    chain.allowExtrinsics = args.allowExtrinsics ∧
    chain.confirmation = if args.publish ≠ some .live then "" else
      if args.confirmLive ≠ "" then args.confirmLive else typed.getD ""
  quota : 1 ≤ args.quota ∧ args.quota ≤ defaultQuota
  isolated : cfg.backend = .docker ∧ cfg.pipelineMode = "generated"
  holdout : cfg.holdoutRequired = true ∧ ∃ secret, cfg.holdoutSecret = some secret ∧ secret ≠ ""

theorem networkMode_cases (h : args.mode ∈ networkModes) :
    args.mode = .wire ∨ args.mode = .localnet ∨ args.mode = .testnet := by
  simpa [networkModes] using h

theorem tickTarget_of_built (hmode : args.mode ∈ networkModes)
    (hvalid : validateTickTarget args = .ok ())
    (hcfg : (tickInput host args flags typed).config = .ok cfg) {confirmation : String}
    (hclient : buildChainClient cfg args.publish args.allowExtrinsics confirmation = .ok client) :
    TickTarget args client := by
  have hc := fromEnv_configured hcfg
  have hkept : ∀ network ∈ safeChainNetworks, args.network = some network → network ≠ "" →
      ∀ requested safe, cfg.network = some requested → assertSafeNetwork requested = .ok safe →
      safe = network := by
    intro network hmem hargs hne requested safe hrequested hsafe
    obtain ⟨network', hnetwork', hset⟩ := hc.requestedNetwork network hargs hne
    rw [assertSafeNetwork_safe hmem] at hnetwork'
    obtain rfl := Except.ok.inj hnetwork'
    obtain rfl := Option.some.inj (hset.symm.trans hrequested)
    rw [assertSafeNetwork_safe hmem] at hsafe
    exact (Except.ok.inj hsafe).symm
  rcases networkMode_cases hmode with hwire | hlocal | htest
  · have hoff : args.publish = none := by
      refine validateWireTarget_ok ?_
      simpa [validateTickTarget, hwire] using hvalid
    obtain ⟨_, rfl⟩ | ⟨p, _, _, hp, _⟩ := buildChainClient_ok hclient
    · exact .null (by rw [hwire]; exact nofun) hoff
    · exact nomatch hoff.symm.trans hp
  · obtain ⟨network, hmem, netuid, hnetwork, hnetuid, hnonneg⟩ : ∃ network ∈ localnetNetworks,
        ∃ netuid, args.network = some network ∧ args.netuid = some netuid ∧ 0 ≤ netuid := by
      refine validateLocalnetTarget_ok ?_
      simpa [validateTickTarget, hlocal] using hvalid
    have hsafe : ∀ n ∈ localnetNetworks, n ∈ safeChainNetworks ∧ n ≠ "" := by decide
    obtain ⟨hp, rfl⟩ | ⟨_, requested, safe, _, hrequested, hsafe', rfl⟩ :=
      buildChainClient_ok hclient
    · exact .null (by rw [hlocal]; exact nofun) hp
    · obtain rfl := hkept network (hsafe _ hmem).1 hnetwork (hsafe _ hmem).2 _ _ hrequested hsafe'
      exact .localnet _ netuid hlocal hmem (hc.requestedNetuid _ hnetuid) hnonneg
  · obtain ⟨hnetwork, hnetuid, hmanual, hpublish⟩ : args.network = some cohortNetwork ∧
        args.netuid = some cohortNetuid ∧ args.minerEndpoints = "" ∧ args.publish ≠ none := by
      refine validateTestnetTarget_ok ?_
      simpa [validateTickTarget, htest] using hvalid
    obtain ⟨hp, rfl⟩ | ⟨_, requested, safe, _, hrequested, hsafe', rfl⟩ :=
      buildChainClient_ok hclient
    · exact (hpublish hp).elim
    · obtain rfl := hkept cohortNetwork (by decide) hnetwork (by decide) _ _ hrequested hsafe'
      exact .testnet _ htest hmanual rfl (hc.requestedNetuid _ hnetuid)

/-- **What a tick of the parser's modes asks for before it takes the lock.** -/
theorem prepareTick_prepared (hmode : args.mode ∈ networkModes)
    (h : prepareTick args (tickInput host args flags typed) = .ok (cfg, client)) :
    Prepared args typed cfg client := by
  unfold prepareTick at h
  obtain ⟨_, hvalid, h⟩ := bind_ok h
  split at h
  · exact nomatch h
  next hquota =>
  obtain ⟨cfg', hcfg, h⟩ := bind_ok h
  split at h
  · exact nomatch h
  next hsecret =>
  obtain ⟨client', hclient, h⟩ := bind_ok h
  obtain ⟨rfl, rfl⟩ := Prod.mk.inj (Except.ok.inj h)
  have hc := fromEnv_configured hcfg
  have hholdout : cfg'.holdoutRequired = true := hc.holdout hmode
  refine ⟨tickTarget_of_built hmode hvalid hcfg hclient, ?_, not_not.mp hquota, ?_, hholdout, ?_⟩
  · rintro chain rfl
    obtain ⟨_, hnull⟩ | ⟨p, _, _, hp, _, _, hchain⟩ := buildChainClient_ok hclient
    · exact nomatch hnull
    · obtain rfl := ChainClient.subtensor.inj hchain
      exact ⟨hp, rfl, rfl⟩
  · refine hc.isolated fun hmock => ?_
    rw [show args.mode = .mock from hmock] at hmode
    exact absurd hmode (by decide)
  · cases hs : cfg'.holdoutSecret with
    | none => exact (hsecret ⟨hholdout, by rw [hs]; rfl⟩).elim
    | some secret =>
      refine ⟨secret, rfl, fun hempty => hsecret ⟨hholdout, ?_⟩⟩
      rw [hs, hempty]
      rfl

/-! ## the submissions -/

/-- who has allowed the submission of a tick, and the chain it goes to -/
structure Authorised (env : Env) (args : TickArgs) (typed : Option String)
    (chain : SubtensorChain) : Prop where
  publish : args.publish = some .live
  flag : args.allowExtrinsics = true
  environment : env.environ "DOLORES_ALLOW_EXTRINSICS" = some "1"
  confirmed : args.confirmLive = liveConfirmation ∨
    args.confirmLive = "" ∧ typed = some liveConfirmation
  target : TickTarget args (.subtensor chain)

theorem gates_open {env : Env} (h : missingExtrinsicGates env chain = []) :
    chain.allowExtrinsics = true ∧ env.environ "DOLORES_ALLOW_EXTRINSICS" = some "1" ∧
      chain.publish = .live ∧ chain.confirmation = liveConfirmation := by
  unfold missingExtrinsicGates at h
  simpa [List.append_eq_nil_iff, and_assoc] using h

theorem Prepared.authorised {env : Env} (h : Prepared args typed cfg (.subtensor chain))
    (hgates : missingExtrinsicGates env chain = []) : Authorised env args typed chain := by
  obtain ⟨hflag, henv, hlive, hconfirmed⟩ := gates_open hgates
  obtain ⟨hpublish, hallow, hconfirmation⟩ := h.authorization chain rfl
  rw [hlive] at hpublish
  refine ⟨hpublish, hallow ▸ hflag, henv, ?_, h.target⟩
  rw [hconfirmation, if_neg (not_not.mpr hpublish)] at hconfirmed
  split at hconfirmed
  · exact .inl hconfirmed
  next hempty =>
    refine .inr ⟨not_not.mp hempty, ?_⟩
    cases typed with
    | none => exact absurd hconfirmed (by decide)
    | some line => exact congrArg some hconfirmed

section
variable {P : Prop}

/-- every effect but the submission keeps the relation -/
theorem callsOnly_tickFrame : TickFrame (Adds fun e => e.isCall → P) where
  clock _ := .of_reads ⟨rfl, rfl⟩
  put w _ _ := .put (fun h => h.elim) w
  event _ e he := ⟨[e], rfl, fun _ hmem hcall => (he (List.mem_singleton.mp hmem ▸ hcall)).elim⟩
  owner _ _ := .of_reads ⟨rfl, rfl⟩
  ticks _ _ := .of_reads ⟨rfl, rfl⟩
  nextTick _ _ := .of_reads ⟨rfl, rfl⟩
  connected _ _ := .of_reads ⟨rfl, rfl⟩
  db _ _ := .of_reads ⟨rfl, rfl⟩
  panelCache _ _ := .of_reads ⟨rfl, rfl⟩
  createLog _ := .of_reads ⟨rfl, rfl⟩
  submissions _ _ := .of_reads ⟨rfl, rfl⟩

variable {env : Env} {substrate : Substrate} {A : FloatOps} {s : ReceiptSubject}

/-- a gate that is closed keeps the seam from being reached -/
theorem publishPayload_closed (hclosed : missingExtrinsicGates env chain ≠ []) (state : ChainState)
    (mapping : HotkeyUidMapping) (payload : ChainPayload) :
    Moves (Adds fun e => e.isCall → P) (publishPayload env substrate chain s state mapping payload) := by
  have hwrite : ∀ mode reason detail, Moves (Adds fun e => e.isCall → P)
      (writeReceipt env chain s mode reason detail) := fun mode reason detail =>
    Moves.bind (callsOnly_tickFrame.writeJson _ _) fun _ => Moves.pure _
  unfold publishPayload
  refine Moves.ite (hwrite _ _ _) ?_
  rw [if_pos hclosed]
  exact hwrite _ _ _

theorem applyWeights_gated (hopen : missingExtrinsicGates env chain = [] → P) (reason : String) :
    Moves (Adds fun e => e.isCall → P)
      ((ChainClient.subtensor chain).applyWeights env substrate A s reason) := by
  by_cases hP : P
  · refine callsOnly_tickFrame.applyWeights (fun w e => ?_) _ s reason
    exact ⟨[e], rfl, fun _ _ _ => hP⟩
  have hclosed : missingExtrinsicGates env chain ≠ [] := fun h => hP (hopen h)
  have F : ReadFrame (Adds fun e => e.isCall → P) := addsFrame _
  have hwrite : ∀ mode reason detail, Moves (Adds fun e => e.isCall → P)
      (writeReceipt env chain s mode reason detail) := fun mode reason detail =>
    Moves.bind (callsOnly_tickFrame.writeJson _ _) fun _ => Moves.pure _
  refine Moves.ite (hwrite _ _ _) (Moves.ite (hwrite _ _ _) ?_)
  refine Moves.bind F.readinessState fun readiness => ?_
  cases readiness with
  | error exc => exact hwrite _ _ _
  | ok state =>
    show Moves _ (publishReady env substrate A chain s state)
    unfold publishReady
    split
    · exact hwrite _ _ _
    · refine Moves.bind (F.mapHotkeys _) fun mapping => Moves.ite (hwrite _ _ _) ?_
      exact Moves.bind (F.buildPayload _ _ _) fun _ => publishPayload_closed hclosed _ _ _

end

/-- **What a submission needs.** Whatever the host, the substrate, the miners and the file system
do, and however the tick ends, it submits weights only with the flag, the environment variable, the
mode `live` and the confirmation all given, and the chain of its client is the public cohort or a
loopback one. -/
theorem tick_submits_only_authorised (env : Env) (substrate : Substrate) (network : MinerNetwork)
    (engine : Engine) (A : FloatOps) (host : ConfigHost) (flags : PanelFlags) (args : TickArgs)
    (typed : Option String) (hmode : args.mode ∈ networkModes) :
    Moves (Adds fun e => e.isCall → ∃ cfg chain,
        prepareTick args (tickInput host args flags typed) = .ok (cfg, .subtensor chain) ∧
          Authorised env args typed chain)
      (tickCommand env substrate network args engine A (tickInput host args flags typed)) := by
  refine callsOnly_tickFrame.tickCommand fun cfg client hprepared s reason => ?_
  cases client with
  | null => exact Moves.pure _
  | subtensor chain =>
    exact applyWeights_gated (fun hgates =>
      ⟨cfg, chain, hprepared, (prepareTick_prepared hmode hprepared).authorised hgates⟩) reason

/-! ## the endpoints -/

/-- a row with a host that can be dialled on the public network -/
def PublicRow (T : AddressTables) (row : Obj) : Prop :=
  ∃ x : IPv4Address, row.get "host" = .str x.text ∧ x.Routable T

theorem publicRow_of_discovered {T : AddressTables} {text : PyText} {rows : List Obj} {row : Obj}
    (h : row ∈ discoveredEndpoints T text cohortNetwork rows) : PublicRow T row := by
  unfold discoveredEndpoints at h
  rw [if_neg (by decide), List.mem_filterMap] at h
  obtain ⟨endpoint, _, hpublic⟩ := h
  unfold publicEndpoint at hpublic
  split at hpublic
  swap
  · exact nomatch hpublic
  next host hhost =>
    obtain ⟨rfl, x, hx, hroutable⟩ := requirePublicIpv4_ok_iff.mp hhost
    obtain rfl := Option.some.inj hpublic
    refine ⟨x, ?_, hroutable⟩
    unfold Obj.get
    rw [Dict.get?_set_self, hx]
    rfl

section
variable {T : AddressTables} {env : Env} {substrate : Substrate} {network : MinerNetwork}
  {engine : Engine} {A : FloatOps}

theorem run_tickEndpoints_public {w w' : World} {endpoints : List Obj}
    (hdiscovered : network.discovered = fun _ n rows => .ok (discoveredEndpoints T env.text n rows))
    (hmanual : args.minerEndpoints = "") (hnetwork : chain.network = cohortNetwork)
    (h : tickEndpoints env substrate network args (.subtensor chain) w = (.ok endpoints, w')) :
    ∀ row ∈ endpoints, PublicRow T row := by
  unfold tickEndpoints at h
  rw [if_neg (not_not.mpr hmanual)] at h
  obtain ⟨_, _, _, h⟩ := run_bind h
  obtain ⟨_, _, _, h⟩ := run_bind h
  obtain ⟨rows, w₁, _, h⟩ := run_bind h
  have hanswer := answer_of_run h
  rw [hdiscovered, hnetwork] at hanswer
  obtain rfl := Except.ok.inj hanswer
  exact fun row hrow => publicRow_of_discovered hrow

/-- the same miners answer, whatever else the network would do -/
theorem queryMinersForTick_congr
    {query : Nat → List Obj → Int → Int → Except Exn (List Miner)}
    (hdiscovered : network.discovered = fun _ n rows => .ok (discoveredEndpoints T env.text n rows))
    (hquery : ∀ n endpoints epochId quota, (∀ row ∈ endpoints, PublicRow T row) →
      query n endpoints epochId quota = network.query n endpoints epochId quota)
    (hmanual : args.minerEndpoints = "") (hnetwork : chain.network = cohortNetwork)
    (epochId : Int) :
    queryMinersForTick env substrate { network with query } args (.subtensor chain) epochId =
      queryMinersForTick env substrate network args (.subtensor chain) epochId := by
  refine bind_congr_run fun w endpoints w' hrun => ?_
  have hpublic : ∀ row ∈ endpoints, PublicRow T row :=
    @run_tickEndpoints_public _ _ T env substrate { network with query } _ _ _ hdiscovered hmanual
      hnetwork hrun
  have hsame : (fun n => query n endpoints epochId args.quota) =
      fun n => network.query n endpoints epochId args.quota :=
    funext fun n => hquery n endpoints epochId args.quota hpublic
  dsimp only
  rw [hsame]

end

/-- **A tick on the public network queries public hosts only.** Where the endpoints of the
metagraph pass the policy, the tick is the same for any two behaviours of the network that agree on
the endpoints whose host is the text of a globally routable address. -/
theorem testnet_tick_queries_public_hosts (T : AddressTables) (env : Env) (substrate : Substrate)
    (network : MinerNetwork) (engine : Engine) (A : FloatOps) (host : ConfigHost) (flags : PanelFlags)
    (args : TickArgs) (typed : Option String)
    (query : Nat → List Obj → Int → Int → Except Exn (List Miner)) (hmode : args.mode = .testnet)
    (hdiscovered : network.discovered = fun _ n rows => .ok (discoveredEndpoints T env.text n rows))
    (hquery : ∀ n endpoints epochId quota, (∀ row ∈ endpoints, PublicRow T row) →
      query n endpoints epochId quota = network.query n endpoints epochId quota) :
    tickCommand env substrate { network with query } args engine A
        (tickInput host args flags typed) =
      tickCommand env substrate network args engine A (tickInput host args flags typed) := by
  unfold tickCommand
  refine bind_congr_run fun w prepared w' hrun => ?_
  obtain ⟨cfg, client⟩ := prepared
  have hprepared := (run_ofExcept hrun).1
  have hmem : args.mode ∈ networkModes := by rw [hmode]; decide
  have hbody : ∀ id epochId,
      tickBody env substrate { network with query } args engine A cfg client id epochId =
        tickBody env substrate network args engine A cfg client id epochId := by
    intro id epochId
    unfold tickBody
    cases (prepareTick_prepared hmem hprepared).target with
    | null hnot => exact (hnot hmode).elim
    | localnet chain netuid hlocal => exact nomatch hmode.symm.trans hlocal
    | testnet chain _ hmanual hnetwork =>
      rw [queryMinersForTick_congr hdiscovered hquery hmanual hnetwork]
  dsimp only
  rw [show tickBody env substrate { network with query } args engine A cfg client =
    tickBody env substrate network args engine A cfg client from
      funext fun id => funext fun epochId => hbody id epochId]

/-! ## a live tick -/

def publicHost : ConfigHost where
  environ name := if name = "DOLORES_HOLDOUT_SECRET" then some "s" else none
  text := Env.plain.text
  strip := id
  lower := id
  expandUser := id
  testnetConfig := none
  testnetConfigPath := "testnet.json"
  mockPanelPath := "solver_panel.mock.yaml"
  calibratePanelPath := "solver_panel.calibrate.yaml"

/-- everything but the flag -/
def unflaggedArgs : TickArgs :=
  { network := some "test", netuid := some 523, publish := some .live,
    confirmLive := liveConfirmation }

def flaggedArgs : TickArgs := { unflaggedArgs with allowExtrinsics := true }

def flaggedChain : SubtensorChain := { liveChain with netuid := some 523 }

def flaggedConfig : SubnetConfig :=
  { dockerConfig with
    mode := .testnet
    pipelineMode := "generated"
    network := some "test"
    netuid := some 523
    holdoutSecret := some "s" }

theorem flagged_prepared : prepareTick flaggedArgs (tickInput publicHost flaggedArgs {} none) =
    .ok (flaggedConfig, .subtensor flaggedChain) := by
  have hsafe : assertSafeNetwork "test" = .ok "test" := assertSafeNetwork_safe (by decide)
  have hconfig : (tickInput publicHost flaggedArgs {} none).config = .ok flaggedConfig := by
    show (assertSafeNetwork "test" >>= _) >>= _ = _
    rw [hsafe]
    rfl
  have hclient : buildChainClient flaggedConfig flaggedArgs.publish flaggedArgs.allowExtrinsics
      (liveConfirmationOf flaggedArgs (tickInput publicHost flaggedArgs {} none)) =
        .ok (.subtensor flaggedChain) := by
    show (assertSafeNetwork "test" >>= _) = _
    rw [hsafe]
    rfl
  unfold prepareTick
  rw [hconfig]
  show (buildChainClient _ _ _ _ >>= _) = _
  rw [hclient]
  rfl

/-- the tick with every gate open, on an empty archive -/
def flaggedRun : Outcome Exn Int × World :=
  tickCommand liveEnv liveTick.substrate liveTick.network flaggedArgs isolatedEngine exactOps
    (tickInput publicHost flaggedArgs {} none) {}

instance (e : Event) : Decidable e.isCall :=
  match e with
  | .setWeights .. => isTrue trivial
  | .wrote .. | .verified .. | .tickEntered _ | .emaLoaded .. | .pipelineRan .. => isFalse id

theorem flaggedRun_calls : ∃ e ∈ flaggedRun.2.trace, e.isCall := by
  unfold flaggedRun tickCommand
  rw [flagged_prepared]
  decide +kernel

/-- it submits, to the chain of its own client -/
theorem tick_submits_only_authorised_sample : ∃ cfg chain,
    prepareTick flaggedArgs (tickInput publicHost flaggedArgs {} none) =
      .ok (cfg, .subtensor chain) ∧ Authorised liveEnv flaggedArgs none chain := by
  obtain ⟨e, hmem, hcall⟩ := flaggedRun_calls
  have hposts := tick_submits_only_authorised liveEnv liveTick.substrate liveTick.network
    isolatedEngine exactOps publicHost {} flaggedArgs none (by decide)
  obtain ⟨events, htrace, hevents⟩ := hposts.run (show _ = (flaggedRun.1, flaggedRun.2) from rfl)
  rw [htrace] at hmem
  exact hevents e hmem hcall

def plainTables : AddressTables := ⟨[], [], fun _ => false⟩

def loopbackRow (row : Obj) : Bool :=
  match row.get "host" with
  | .str host => host == "127.0.0.1"
  | _ => false

theorem not_publicRow_of_loopback {row : Obj} (h : loopbackRow row = true) :
    ¬ PublicRow plainTables row := by
  rintro ⟨x, hx, hroutable⟩
  unfold loopbackRow at h
  rw [hx] at h
  have hparse := parseIPv4_iff.mpr (eq_of_beq h).symm
  have hx' := hparse.symm.trans (by decide +kernel : parseIPv4 "127.0.0.1" = some ⟨127, 0, 0, 1⟩)
  obtain rfl := Option.some.inj hx'
  exact absurd hroutable.notLoopback (by decide)

/-- what a loopback host would answer does not matter -/
theorem testnet_tick_queries_public_hosts_sample :
    let network : MinerNetwork :=
      { liveTick.network with
        discovered := fun _ n rows => .ok (discoveredEndpoints plainTables liveEnv.text n rows) }
    tickCommand liveEnv readySubstrate
        { network with
          query := fun n endpoints epochId quota =>
            if endpoints.any loopbackRow then .error (.runtimeError "loopback")
            else network.query n endpoints epochId quota }
        unflaggedArgs isolatedEngine exactOps (tickInput publicHost unflaggedArgs {} none) =
      tickCommand liveEnv readySubstrate network unflaggedArgs isolatedEngine exactOps
        (tickInput publicHost unflaggedArgs {} none) := by
  intro network
  refine testnet_tick_queries_public_hosts plainTables liveEnv readySubstrate network
    isolatedEngine exactOps publicHost {} unflaggedArgs none _ rfl rfl ?_
  intro n endpoints epochId quota hpublic
  rw [if_neg]
  intro hany
  obtain ⟨row, hrow, hloopback⟩ := List.any_eq_true.mp hany
  exact not_publicRow_of_loopback hloopback (hpublic row hrow)

end

end Dolores
