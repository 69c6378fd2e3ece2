import Dolores.Endpoint.Discovery
import Dolores.Miner.Serve

/-!
# Publishing an endpoint (`miner_cli.py`)

`serveCommand` checks its tasks, starts the axon, publishes its endpoint and serves.  What the chain
and the axon do is a function of the number of the call.

* `wp_readBack`                    the endpoint is read back at most six times;
* `wp_publishAxon`                 one publication, and an exact read-back if it succeeds;
* `serving_miner_is_discovered`    a miner that serves in public is listed by every validator.
-/

set_option linter.unusedSectionVars false

namespace Dolores
open Crash Except

/-- the arguments of `serve` -/
structure ServeArgs where
  quota : Int := 4
  host : String := "127.0.0.1"
  port : Int := 8091
  externalIp : Option String := none
  externalPort : Option Int := none
  validatorHotkeys : List String := []
  allowAnySignedValidator : Bool := false
  publish : Bool := false
  network : Option String := none
  netuid : Option Int := none

inductive MinerEvent where
  | started
  /-- `subtensor.serve_axon` -/
  | servedAxon
  /-- `subtensor.metagraph` -/
  | readBack
  | slept
  /-- the process waits for requests -/
  | serving
  | stopped
deriving DecidableEq, Repr

/-- the process of the miner: the calls that it has made -/
structure MinerProcess where
  events : List MinerEvent := []

/-- what the axon, the chain and the directories answer to a call, by the number of the calls
before it -/
structure MinerHost where
  roots : Nat → List TaskRoot
  startAxon : Nat → Except Exn Unit
  /-- `bt.Subtensor(network=network).serve_axon`: its success and its message -/
  serveAxon : Nat → Int → Except Exn (Bool × String)
  metagraph : Nat → Int → Except Exn Metagraph
  sleep : Nat → Except Exn Unit
  /-- the exception that ends the loop -/
  serve : Nat → Exn

abbrev P : Type → Type := Proc MinerProcess Exn

/-- a call that is logged as the event -/
def ask {α : Type} (answer : Nat → Except Exn α) (event : MinerEvent) : P α := do
  let s ← Proc.get
  Proc.modify fun s => { s with events := s.events ++ [event] }
  Proc.ofExcept (answer s.events.length)

/-- what the loop `for attempt in range(6)` reads, with this number of attempts left -/
def readBack (host : MinerHost) (netuid : Int) (shows : Metagraph → Bool) : Nat → P Bool
  | 0 => pure false
  | attempts + 1 => do
    let metagraph ← ask (fun n => host.metagraph n netuid) .readBack
    if shows metagraph then pure true
    else if attempts = 0 then pure false
    else do
      ask host.sleep .slept
      readBack host netuid shows attempts

def Exn.isKeyboardInterrupt : Exn → Bool
  | .foreignBase name _ => name == "KeyboardInterrupt"
  | _ => false

/-- `args.external_port or args.port` -/
def ServeArgs.publicPort (args : ServeArgs) : Int :=
  match args.externalPort with
  | some port => if port = 0 then args.port else port
  | none => args.port

section
variable (T : AddressTables) (args : ServeArgs)

/-- the target of a publication: its netuid, address and port -/
def publicTarget : Except Exn (Int × String × Int) :=
  match args.network, args.netuid with
  | some network, some netuid => do
    let network ← assertSafeNetwork network
    requireCohortTarget network netuid
    if args.host ≠ "0.0.0.0" then
      .error (.valueError "public --publish requires --host 0.0.0.0")
    else
      match args.externalIp with
      | none | some "" =>
        .error (.valueError "public --publish requires an explicit --external-ip")
      | some externalIp => do
        let externalIp ← requirePublicIpv4 T externalIp
        let externalPort ← requirePort args.publicPort
        .ok (netuid, externalIp, externalPort)
  | _, _ =>
    .error (.valueError "public --publish requires explicit --network test --netuid 523")

variable (host : MinerHost) (hotkey : String)

def publishAxon : P Unit :=
  if args.publish = false then pure ()
  else do
    let (netuid, externalIp, externalPort) ← Proc.ofExcept (publicTarget T args)
    let (success, message) ← ask (fun n => host.serveAxon n netuid) .servedAxon
    if success = false then
      Proc.raise (.runtimeError ("testnet axon publication failed: " ++
        if message = "" then "unknown error" else message))
    else do
      let ok ← readBack host netuid (fun m => m.hasExactAxon hotkey externalIp externalPort) 6
      if ok = false then
        Proc.raise (.runtimeError ("testnet axon publication did not read back exact " ++
          externalIp ++ s!":{externalPort} for the miner hotkey"))
      else pure ()

variable (env : Env) (engine : Engine) (declaredDifficulty : TaskPackage → String)

/-- what is checked before the socket is opened -/
def serveChecks : Except Exn Unit := do
  if args.validatorHotkeys.isEmpty ∧ args.allowAnySignedValidator = false then
    .error (.valueError
      "serve requires --validator-hotkey; --allow-any-signed-validator is local-only")
  else if args.publish ∧ args.allowAnySignedValidator then
    .error (.valueError "public --publish forbids --allow-any-signed-validator")
  else if ¬ (1 ≤ args.quota ∧ args.quota ≤ 4) then
    .error (.valueError "quota must be within 1..4")
  else do
    let _ ← requirePort args.port
    let tasks ← loadTasks (host.roots 0)
    tasks.forM fun task => do
      let _ ← validateHoldoutSupport engine task
      let _ ← toWire env.text engine declaredDifficulty task maxPackageBytes
      .ok ()

/-- the axon is stopped if the publication raises -/
def publishOrStop : P Unit :=
  Proc.handle (publishAxon T args host hotkey) fun exc =>
    if exc.isException then do
      ask (fun _ => .ok ()) .stopped
      Proc.raise exc
    else Proc.raise exc

/-- the line that is printed, and the loop that is interrupted -/
def serveLoop : P Int := do
  let s ← Proc.get
  let _ ← Proc.ofExcept (loadTasks (host.roots s.events.length))
  Proc.handle (ask (fun n => .error (host.serve n)) .serving) fun exc =>
    if exc.isKeyboardInterrupt then do
      ask (fun _ => .ok ()) .stopped
      pure 0
    else Proc.raise exc

/-- `serve_command` -/
def serveCommand : P Int := do
  Proc.ofExcept (serveChecks args host env engine declaredDifficulty)
  ask host.startAxon .started
  publishOrStop T args host hotkey
  serveLoop host

end

/-! ## one call -/

theorem wp_ask {α : Type} {answer : Nat → Except Exn α} {event : MinerEvent} {Q : Post MinerProcess Exn α}
    {s : MinerProcess}
    (hok : ∀ a, answer s.events.length = .ok a → Q.ok a ⟨s.events ++ [event]⟩)
    (hraise : ∀ e, answer s.events.length = .error e → Q.raise e ⟨s.events ++ [event]⟩) :
    wp (ask answer event) Q s :=
  (wp_ofExcept _ _ _).mpr ⟨hok, hraise⟩

/-- the events so far, with at most `attempts` reads and the waits between them -/
def ReadsBack (attempts : Nat) (s s' : MinerProcess) : Prop :=
  ∃ es, s'.events = s.events ++ es ∧ (∀ e ∈ es, e = .readBack ∨ e = .slept) ∧
    es.count .readBack ≤ attempts

theorem ReadsBack.none (s : MinerProcess) : ReadsBack 0 s s :=
  ⟨[], (List.append_nil _).symm, fun _ h => (List.not_mem_nil h).elim, le_rfl⟩

theorem ReadsBack.mono {m n : Nat} {s s' : MinerProcess} (h : ReadsBack m s s') (hle : m ≤ n) :
    ReadsBack n s s' := by
  obtain ⟨es, hes, hkind, hcount⟩ := h
  exact ⟨es, hes, hkind, hcount.trans hle⟩

theorem ReadsBack.cons {n : Nat} {s s' : MinerProcess} {e : MinerEvent}
    (he : e = .readBack ∨ e = .slept) (h : ReadsBack n ⟨s.events ++ [e]⟩ s') :
    ReadsBack (n + if e = .readBack then 1 else 0) s s' := by
  obtain ⟨es, hes, hkind, hcount⟩ := h
  refine ⟨e :: es, by rw [hes, List.append_assoc]; rfl, ?_, ?_⟩
  · intro e' he'
    rcases List.mem_cons.mp he' with rfl | he'
    · exact he
    · exact hkind e' he'
  · rw [List.count_cons]
    simp only [beq_iff_eq]
    omega

/-! ## the read-back -/

section
variable {T : AddressTables} {args : ServeArgs} {host : MinerHost} {hotkey : String} {netuid : Int}
  {shows : Metagraph → Bool}

/-- some metagraph of the run shows it -/
def Shown (host : MinerHost) (netuid : Int) (shows : Metagraph → Bool) : Prop :=
  ∃ n m, host.metagraph n netuid = .ok m ∧ shows m = true

theorem wp_readBack (attempts : Nat) (s : MinerProcess) : wp (readBack host netuid shows attempts)
    ⟨fun ok s' => ReadsBack attempts s s' ∧ (ok = true → Shown host netuid shows),
      fun _ s' => ReadsBack attempts s s', fun _ => False⟩ s := by
  induction attempts generalizing s with
  | zero => exact ⟨.none s, nofun⟩
  | succ attempts ih =>
    have hread : ReadsBack (attempts + 1) s ⟨s.events ++ [.readBack]⟩ :=
      ((ReadsBack.none _).cons (.inl rfl)).mono (by simp)
    unfold readBack
    rw [wp_bind]
    refine wp_ask (fun m hm => ?_) fun _ _ => hread
    refine wp_ite (fun hshown => ⟨hread, fun _ => ⟨_, m, hm, hshown⟩⟩) fun _ => ?_
    refine wp_ite (fun _ => ⟨hread, nofun⟩) fun _ => ?_
    rw [wp_bind]
    have hslept : ∀ {n s'}, ReadsBack n ⟨s.events ++ [.readBack] ++ [.slept]⟩ s' →
        ReadsBack (n + 1) s s' := fun h =>
      ((h.cons (.inr rfl)).cons (.inl rfl)).mono (by simp)
    refine wp_ask (fun _ _ => ?_) fun _ _ => (hslept (.none _)).mono (by omega)
    exact wp_mono (ih _) (fun ok s' h => ⟨hslept h.1, h.2⟩) (fun _ s' h => hslept h)
      (fun _ h => h)

/-! ## the publication -/

theorem publicTarget_ok {externalIp : String} {externalPort : Int}
    (h : publicTarget T args = .ok (netuid, externalIp, externalPort)) :
    netuid = cohortNetuid ∧ args.externalIp = some externalIp ∧
      (∃ x : IPv4Address, externalIp = x.text ∧ x.Routable T) ∧
      externalPort = args.publicPort ∧ 1 ≤ externalPort ∧ externalPort ≤ 65535 := by
  unfold publicTarget at h
  split at h
  swap
  · exact nomatch h
  next network netuid' _ _ =>
  obtain ⟨safe, -, h⟩ := bind_ok h
  obtain ⟨_, hcohort, h⟩ := bind_ok h
  unfold requireCohortTarget at hcohort
  split at hcohort
  · exact nomatch hcohort
  next htarget =>
  rw [not_or, not_not, not_not] at htarget
  split at h
  · exact nomatch h
  split at h
  · exact nomatch h
  · exact nomatch h
  next ip _ hip =>
  obtain ⟨ip', hpublic, h⟩ := bind_ok h
  obtain ⟨port, hport, h⟩ := bind_ok h
  obtain ⟨rfl, hroutable⟩ := requirePublicIpv4_ok_iff.mp hpublic
  obtain ⟨rfl, hlow, hhigh⟩ := requirePort_ok_iff.mp hport
  obtain ⟨rfl, hrest⟩ := Prod.mk.inj (Except.ok.inj h)
  obtain ⟨rfl, rfl⟩ := Prod.mk.inj hrest
  exact ⟨htarget.2, hip, hroutable, rfl, hlow, hhigh⟩

/-- every validator that reads the metagraph as the miner has read it lists the miner's endpoint -/
def Discoverable (T : AddressTables) (text : PyText) (args : ServeArgs) (host : MinerHost)
    (hotkey : String) : Prop :=
  ∃ n m ip, host.metagraph n cohortNetuid = .ok m ∧ args.externalIp = some ip ∧
    ∀ excludeHotkey, hotkey ≠ excludeHotkey →
      ∃ row ∈ discoveredEndpoints T text cohortNetwork (m.minerEndpointRows excludeHotkey),
        row.get "host" = .str ip ∧ row.get "port" = .int args.publicPort ∧
          row.get "hotkey" = .str hotkey

theorem discoverable_of_shown {text : PyText} {externalIp : String} {externalPort : Int}
    (htarget : publicTarget T args = .ok (netuid, externalIp, externalPort))
    (h : Shown host netuid fun m => m.hasExactAxon hotkey externalIp externalPort) :
    Discoverable T text args host hotkey := by
  obtain ⟨rfl, hip, hroutable, rfl, hlow, _⟩ := publicTarget_ok htarget
  obtain ⟨n, m, hm, hexact⟩ := h
  refine ⟨n, m, externalIp, hm, hip, fun excludeHotkey hne => ?_⟩
  obtain ⟨coldkey, uid, _, hrow⟩ :=
    @discovered_of_exact T text _ _ _ _ _ hexact (by omega) hroutable hne
  exact ⟨_, hrow, rfl, rfl, rfl⟩

/-- one publication, and what is read back after it -/
def Publication (s s' : MinerProcess) : Prop := ReadsBack 6 ⟨s.events ++ [.servedAxon]⟩ s'

theorem wp_publishAxon (text : PyText) (s : MinerProcess) : wp (publishAxon T args host hotkey)
    ⟨fun _ s' => args.publish = false ∧ s' = s ∨
        args.publish = true ∧ Publication s s' ∧ Discoverable T text args host hotkey,
      fun _ s' => args.publish = true ∧ (s' = s ∨ Publication s s'), fun _ => False⟩ s := by
  unfold publishAxon
  refine wp_ite (fun hprivate => .inl ⟨hprivate, rfl⟩) fun hpublic => ?_
  rw [Bool.not_eq_false] at hpublic
  rw [wp_bind, wp_ofExcept]
  refine ⟨fun target htarget => ?_, fun _ _ => ⟨hpublic, .inl rfl⟩⟩
  obtain ⟨netuid, externalIp, externalPort⟩ := target
  dsimp only
  rw [wp_bind]
  have hnone : Publication s ⟨s.events ++ [.servedAxon]⟩ := (ReadsBack.none _).mono (by simp)
  refine wp_ask (fun response _ => ?_) fun _ _ => ⟨hpublic, .inr hnone⟩
  refine wp_ite (fun _ => ⟨hpublic, .inr hnone⟩) fun _ => ?_
  rw [wp_bind]
  refine wp_mono (wp_readBack 6 _) (fun ok s' h => ?_) (fun _ s' h => ⟨hpublic, .inr h⟩)
    (fun _ h => h)
  refine wp_ite (fun _ => ⟨hpublic, .inr h.1⟩) fun hok => ?_
  exact .inr ⟨hpublic, h.1, discoverable_of_shown htarget (h.2 ((Bool.not_eq_false _).mp hok))⟩

/-- what a publication leaves when it raises -/
structure FailedClosed (args : ServeArgs) (s : MinerProcess) (e : Exn) (s' : MinerProcess) : Prop where
  publish : args.publish = true
  stopped : ∃ s₁, (s₁ = s ∨ Publication s s₁) ∧
    s'.events = s₁.events ++ if e.isException then [.stopped] else []

theorem wp_publishOrStop (text : PyText) (s : MinerProcess) :
    wp (publishOrStop T args host hotkey)
      ⟨fun _ s' => args.publish = false ∧ s' = s ∨
          args.publish = true ∧ Publication s s' ∧ Discoverable T text args host hotkey,
        FailedClosed args s, fun _ => False⟩ s := by
  unfold publishOrStop
  rw [wp_handle]
  refine wp_mono (wp_publishAxon text s) (fun _ _ h => h) (fun e s₁ h => ?_) (fun _ h => h)
  refine wp_ite (fun hcaught => ?_) fun hcaught => ?_
  · rw [wp_bind]
    refine wp_ask (fun _ _ => ?_) fun _ h => nomatch h
    exact ⟨h.1, s₁, h.2, by rw [if_pos hcaught]⟩
  · exact ⟨h.1, s₁, h.2, by rw [if_neg hcaught, List.append_nil]⟩

/-! ## the command -/

/-- the events of a run of `serve` -/
structure ServeRun (T : AddressTables) (text : PyText) (args : ServeArgs) (host : MinerHost)
    (hotkey : String) (events : List MinerEvent) : Prop where
  /-- without `--publish` the chain is left alone -/
  untouched : args.publish = false → .servedAxon ∉ events ∧ .readBack ∉ events
  once : events.count .servedAxon ≤ 1
  reads : events.count .readBack ≤ 6
  listed : args.publish = true → .serving ∈ events →
    .servedAxon ∈ events ∧ Discoverable T text args host hotkey

/-- nothing but the start, and perhaps one publication -/
def Prefix (args : ServeArgs) (events : List MinerEvent) : Prop :=
  events = [.started] ∨ args.publish = true ∧ Publication ⟨[.started]⟩ ⟨events⟩

theorem Prefix.counts {events : List MinerEvent} (h : Prefix args events) :
    (args.publish = false → .servedAxon ∉ events ∧ .readBack ∉ events) ∧
      events.count .servedAxon ≤ 1 ∧ events.count .readBack ≤ 6 ∧
      .serving ∉ events := by
  rcases h with rfl | ⟨hpublish, es, hes, hkind, hcount⟩
  · exact ⟨fun _ => by decide, by decide, by decide, by decide⟩
  · obtain rfl : events = [.started, .servedAxon] ++ es := hes
    have hother : ∀ e, e ≠ .readBack → e ≠ .slept → e ∉ es := fun e hr hs he =>
      (hkind e he).elim hr hs
    refine ⟨fun hprivate => absurd (hpublish.symm.trans hprivate) (by decide), ?_, ?_, ?_⟩
    · rw [List.count_append, List.count_eq_zero_of_not_mem (hother .servedAxon (by decide) (by decide))]
      decide
    · rw [List.count_append]
      simpa using hcount
    · intro hmem
      rcases List.mem_append.mp hmem with hmem | hmem
      · exact absurd hmem (by decide)
      · exact hother .serving (by decide) (by decide) hmem

/-- a prefix, with events that are neither publications nor reads behind it -/
theorem Prefix.serveRun {text : PyText} {before : List MinerEvent} (h : Prefix args before)
    {after : List MinerEvent} (hserved : .servedAxon ∉ after) (hread : .readBack ∉ after)
    (hlisted : args.publish = true → .serving ∈ after →
      .servedAxon ∈ before ∧ Discoverable T text args host hotkey) :
    ServeRun T text args host hotkey (before ++ after) := by
  obtain ⟨hprivate, honce, hreads, hserving⟩ := h.counts
  refine ⟨fun hp => ?_, ?_, ?_, fun hp hmem => ?_⟩
  · obtain ⟨h1, h2⟩ := hprivate hp
    exact ⟨fun hm => (List.mem_append.mp hm).elim h1 hserved,
      fun hm => (List.mem_append.mp hm).elim h2 hread⟩
  · rw [List.count_append, List.count_eq_zero_of_not_mem hserved]
    exact honce
  · rw [List.count_append, List.count_eq_zero_of_not_mem hread]
    exact hreads
  · rcases List.mem_append.mp hmem with hmem | hmem
    · exact (hserving hmem).elim
    · obtain ⟨hbefore, hdiscoverable⟩ := hlisted hp hmem
      exact ⟨List.mem_append_left _ hbefore, hdiscoverable⟩

/-- how `serve` may end: when an exception ends it before it serves, the axon has not been started
or is stopped, but for an exception of the tasks that are loaded once more -/
def ServeEnd (T : AddressTables) (text : PyText) (args : ServeArgs) (host : MinerHost)
    (hotkey : String) : Post MinerProcess Exn Int where
  ok _ s := ServeRun T text args host hotkey s.events ∧ s.events.getLast? = some .stopped
  raise e s := ServeRun T text args host hotkey s.events ∧
    (e.isException = true → .serving ∉ s.events → s.events = [] ∨
      s.events = [.started] ∧ host.startAxon 0 = .error e ∨
      s.events.getLast? = some .stopped ∨ ∃ n, loadTasks (host.roots n) = .error e)
  killed _ := False

theorem Prefix.serveRun_self {text : PyText} {events : List MinerEvent} (h : Prefix args events) :
    ServeRun T text args host hotkey events := by
  have hnil := @Prefix.serveRun T args host hotkey text events h [] (by simp) (by simp) (by simp)
  rwa [List.append_nil] at hnil

theorem wp_serveLoop {text : PyText} {s : MinerProcess} (hsofar : Prefix args s.events)
    (hlisted : args.publish = true → .servedAxon ∈ s.events ∧ Discoverable T text args host hotkey) :
    wp (serveLoop host) (ServeEnd T text args host hotkey) s := by
  unfold serveLoop
  rw [wp_bind, wp_get]
  dsimp only
  rw [wp_bind, wp_ofExcept]
  refine ⟨fun _ _ => ?_, fun e he =>
    ⟨hsofar.serveRun_self, fun _ _ => .inr (.inr (.inr ⟨_, he⟩))⟩⟩
  dsimp only
  rw [wp_handle]
  refine wp_ask (fun _ h => nomatch h) fun e _ => ?_
  refine wp_ite (fun _ => ?_) fun _ => ?_
  · rw [wp_bind]
    refine wp_ask (fun _ _ => ?_) fun _ h => nomatch h
    show ServeRun _ _ _ _ _ (s.events ++ [.serving] ++ [.stopped]) ∧
      (s.events ++ [MinerEvent.serving] ++ [MinerEvent.stopped]).getLast? = _
    rw [List.append_assoc]
    exact ⟨hsofar.serveRun (by simp) (by simp) fun hp _ => hlisted hp, by simp⟩
  · refine ⟨hsofar.serveRun (by simp) (by simp) fun hp _ => hlisted hp, fun _ hserving => ?_⟩
    exact (hserving (by simp)).elim

/-- the publication has raised -/
theorem FailedClosed.serveEnd {text : PyText} {s s' : MinerProcess} {e : Exn}
    (h : FailedClosed args s e s') (hs : s.events = [.started]) :
    (ServeEnd T text args host hotkey).raise e s' := by
  obtain ⟨hpublish, s₁, hs₁, hevents⟩ := h
  have hsofar : Prefix args s₁.events := by
    rcases hs₁ with rfl | hpublication
    · exact .inl hs
    · unfold Publication at hpublication
      rw [hs] at hpublication
      exact .inr ⟨hpublish, hpublication⟩
  cases hcaught : e.isException with
  | true =>
    rw [hcaught, if_pos rfl] at hevents
    refine ⟨?_, fun _ _ => .inr (.inr (.inl ?_))⟩
    · rw [hevents]
      exact hsofar.serveRun (by simp) (by simp) (by simp)
    · rw [hevents]
      simp
  | false =>
    rw [hcaught, if_neg (by decide), List.append_nil] at hevents
    refine ⟨?_, fun h => absurd (hcaught.symm.trans h) (by decide)⟩
    rw [hevents]
    exact hsofar.serveRun_self

/-- **A miner that serves in public is discovered, and one that cannot be is stopped.**  However
`serve` ends: it publishes at most once and reads back at most six times, and without `--publish`
not at all; if it has come to serve in public, every validator that reads the metagraph as the miner
has read it lists exactly its endpoint. -/
theorem serving_miner_is_discovered (T : AddressTables) (env : Env) (engine : Engine)
    (declaredDifficulty : TaskPackage → String) (args : ServeArgs) (host : MinerHost)
    (hotkey : String) :
    wp (serveCommand T args host hotkey env engine declaredDifficulty)
      (ServeEnd T env.text args host hotkey) {} := by
  have hstarted : Prefix args [.started] := .inl rfl
  unfold serveCommand
  rw [wp_bind, wp_ofExcept]
  refine ⟨fun _ _ => ?_, fun e _ =>
    ⟨⟨fun _ => by simp, by simp, by simp, by simp⟩, fun _ _ => .inl rfl⟩⟩
  dsimp only
  rw [wp_bind]
  refine wp_ask (fun _ _ => ?_) fun e he =>
    ⟨hstarted.serveRun_self, fun _ _ => .inr (.inl ⟨rfl, he⟩)⟩
  dsimp only
  rw [wp_bind]
  refine wp_mono (wp_publishOrStop env.text _) (fun _ s₁ h => ?_) (fun e s₁ h => h.serveEnd rfl)
    (fun _ h => h)
  rcases h with ⟨hprivate, rfl⟩ | ⟨hpublish, hpublication, hdiscoverable⟩
  · exact wp_serveLoop hstarted fun hp => absurd (hp.symm.trans hprivate) (by decide)
  · obtain ⟨es, hes, _⟩ := id hpublication
    refine wp_serveLoop (.inr ⟨hpublish, hpublication⟩) fun _ => ⟨?_, hdiscoverable⟩
    rw [hes]
    simp

end

end Dolores
