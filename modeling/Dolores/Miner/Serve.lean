import Mathlib.Algebra.BigOperators.Ring.Finset
import Dolores.Gate.RoundTrip
import Dolores.Wire.Authentic

/-!
# Serving task packages (`miner_cli.py`)

`forward` answers one request: it loads the tasks again, encodes as many as the request may have,
and takes packages off the end until the response fits.

* `popWhile_spec`            what the loop leaves is the longest prefix that fits;
* `forward_ok_iff`           when a request is answered, and with which packages;
* `served_response_accepted` the validator accepts the answer, and all of its packages;
* `served_packages_pass`     the packages pass the gates in every stream of an epoch.
-/

set_option linter.unusedSectionVars false

namespace Dolores
open Except

/-- what `TaskPackage.load` and the directory give for one root; `children` is `none` where the
root is not a directory -/
structure TaskRoot where
  path : String
  package : Except Exn TaskPackage
  children : Option (Except Exn (List (String × Except Exn TaskPackage)))

/-- the children that load, in the order of their names -/
def loadChildren : List (String × Except Exn TaskPackage) → Except Exn (List TaskPackage)
  | [] => .ok []
  | (_, .ok task) :: children => do
    let loaded ← loadChildren children
    .ok (task :: loaded)
  | (_, .error e) :: children => if e.isException then loadChildren children else .error e

/-- one pass of the loop of `load_tasks` -/
def loadRoot (root : TaskRoot) : Except Exn (List TaskPackage) :=
  match root.package, root.children with
  | .ok task, _ => .ok [task]
  | .error e, children =>
    if e.isException = false then .error e
    else
      match children with
      | none =>
        .error (.valueError ("task path does not exist or is not a package: " ++ root.path))
      | some listing => do
        let children ← listing
        let loaded ← loadChildren (children.insertionSort fun a b => a.1 ≤ b.1)
        if loaded.isEmpty then .error (.valueError ("no task packages found under: " ++ root.path))
        else .ok loaded

def loadTasks (roots : List TaskRoot) : Except Exn (List TaskPackage) := do
  let tasks ← roots.mapM loadRoot
  if tasks.flatten.isEmpty then .error (.valueError "at least one task package is required")
  else .ok tasks.flatten

/-- `while values and p(values): values.pop()` -/
def popWhile {α : Type} (p : List α → Bool) (values : List α) : List α :=
  if _h : values ≠ [] ∧ p values = true then popWhile p values.dropLast else values
termination_by values.length
decreasing_by
  rw [List.length_dropLast]
  have := List.length_pos_of_ne_nil _h.1
  omega

section
variable (env : Env) (engine : Engine) (declaredDifficulty : TaskPackage → String)

/-- `FileMiner.submissions` -/
def fileMinerSubmissions (roots : List TaskRoot) (quota : Int) : Except Exn (List Obj) := do
  let tasks ← loadTasks roots
  (pyTake quota tasks).mapM fun task => toWire env.text engine declaredDifficulty task maxPackageBytes

/-- the response is larger than its bound -/
def oversized (payloads : List Obj) : Bool :=
  decide (responsePayloadSize env payloads > maxResponseBytes)

variable (hotkey : String) (sign : String → Bytes)

/-- `forward`, in the process of `serve_command` -/
def forward (roots : List TaskRoot) (quota : Int) (synapse : DoloresTaskSynapse) :
    Except Exn DoloresTaskSynapse := do
  let submissions ← fileMinerSubmissions env engine declaredDifficulty roots
    (min quota synapse.quota)
  signResponse env hotkey sign
    { synapse with submissions := popWhile (oversized env) submissions, error := "" }

end

/-- `blacklist`: whether the caller is refused, and why -/
def validatorBlacklist (allowedHotkeys : List String) (allowAnySigned : Bool)
    (terminal : Option TerminalInfo) : Bool × String :=
  let hotkey := orEmpty (terminal.bind (·.hotkey))
  if hotkey = "" then (true, "missing validator hotkey")
  else if allowAnySigned ∨ hotkey ∈ allowedHotkeys then (false, "")
  else (true, "validator hotkey is not allowlisted")

/-! ## the loop -/

theorem popWhile_spec {α : Type} (p : List α → Bool) (values : List α) :
    ∃ k ≤ values.length, popWhile p values = values.take k ∧
      (k = 0 ∨ p (values.take k) = false) ∧
      ∀ j, k < j → j ≤ values.length → p (values.take j) = true := by
  induction hn : values.length generalizing values with
  | zero =>
    obtain rfl := List.length_eq_zero_iff.mp hn
    refine ⟨0, le_rfl, ?_, .inl rfl, fun j hlt hle => absurd hlt (by omega)⟩
    rw [popWhile, dif_neg (by simp)]
    rfl
  | succ n ih =>
    have hne : values ≠ [] := by
      rintro rfl
      exact nomatch hn
    rw [popWhile]
    by_cases hp : p values = true
    · rw [dif_pos ⟨hne, hp⟩]
      have hlen : values.dropLast.length = n := by rw [List.length_dropLast, hn]; rfl
      obtain ⟨k, hk, hpop, hfits, hover⟩ := ih values.dropLast hlen
      have htake : ∀ j ≤ n, values.dropLast.take j = values.take j := by
        intro j hj
        rw [List.dropLast_eq_take, List.take_take, hn]
        congr 1
        omega
      rw [htake k hk] at hpop hfits
      refine ⟨k, by omega, hpop, hfits, fun j hlt hle => ?_⟩
      by_cases hj : j ≤ n
      · rw [← htake j hj]
        exact hover j hlt hj
      · rw [List.take_of_length_le (by omega)]
        exact hp
    · rw [dif_neg (fun h => hp h.2)]
      refine ⟨n + 1, le_rfl, (List.take_of_length_le (le_of_eq hn)).symm, .inr ?_, fun j hlt hle =>
        absurd hlt (by omega)⟩
      rw [List.take_of_length_le (le_of_eq hn)]
      simpa using hp

/-! ## the answer -/

section
variable {env : Env} {engine : Engine} {declaredDifficulty : TaskPackage → String}
  {hotkey : String} {sign : String → Bytes} {roots : List TaskRoot} {quota : Int}
  {s response : DoloresTaskSynapse}

/-- the response to a synapse from `d`, with these payloads -/
def answered (env : Env) (hotkey : String) (sign : String → Bytes) (s : DoloresTaskSynapse)
    (d : TerminalInfo) (payloads : List Obj) : DoloresTaskSynapse :=
  { s with
    submissions := payloads
    error := ""
    responseHotkey := hotkey
    responseDigest := submissionsDigest env payloads
    responseSignature := "0x" ++ bytesHex (sign
      (messageOf env { s with submissions := payloads, error := "" } d hotkey)) }

theorem signResponse_ok_iff : signResponse env hotkey sign s = .ok response ↔
    ∃ d, s.dendrite = some d ∧ requestIdIsValid s.requestId = true ∧
      response = { s with
        responseHotkey := hotkey
        responseDigest := submissionsDigest env s.submissions
        responseSignature := "0x" ++ bytesHex (sign (messageOf env s d hotkey)) } := by
  cases hd : s.dendrite with
  | none =>
    refine iff_of_false ?_ fun h => nomatch h.choose_spec.1
    unfold signResponse
    rw [hd]
    exact nofun
  | some d =>
    constructor
    · intro h
      refine ⟨d, rfl, ?_, ?_⟩
      · unfold signResponse at h
        rw [hd] at h
        obtain ⟨_, hid, -⟩ := bind_ok h
        unfold rejectIf at hid
        split at hid
        · exact nomatch hid
        next hvalid => exact (Bool.not_eq_false _).mp hvalid
      · rw [signResponse_eq hd h]
        simp only [hd]
    · rintro ⟨_, ⟨⟩, hvalid, rfl⟩
      unfold signResponse
      rw [hd]
      dsimp only
      unfold rejectIf
      rw [if_neg (by rw [hvalid]; decide), ok_bind]
      rfl

/-- when a request is answered: the tasks load, those that it may have can be encoded, and it can
be signed for -/
theorem forward_ok_iff :
    forward env engine declaredDifficulty hotkey sign roots quota s = .ok response ↔
      ∃ wires d, fileMinerSubmissions env engine declaredDifficulty roots (min quota s.quota) =
          .ok wires ∧ s.dendrite = some d ∧ requestIdIsValid s.requestId = true ∧
        response = answered env hotkey sign s d (popWhile (oversized env) wires) := by
  unfold forward
  constructor
  · intro h
    obtain ⟨wires, hwires, h⟩ := bind_ok h
    obtain ⟨d, hd, hvalid, hresponse⟩ := signResponse_ok_iff.mp h
    exact ⟨wires, d, hwires, hd, hvalid, hresponse⟩
  · rintro ⟨wires, d, hwires, hd, hvalid, rfl⟩
    rw [hwires, ok_bind]
    exact signResponse_ok_iff.mpr ⟨d, hd, hvalid, rfl⟩

theorem length_pyTake_le {α : Type} {k : Int} (hk : 0 ≤ k) (l : List α) :
    ((pyTake k l).length : Int) ≤ k := by
  unfold pyTake
  rw [if_pos hk, List.length_take]
  omega

theorem pyTake_of_length_le {α : Type} {k : Int} {l : List α} (h : (l.length : Int) ≤ k) :
    pyTake k l = l := by
  unfold pyTake
  rw [if_pos (by omega), List.take_of_length_le (by omega)]

/-- the packages of an answer are tasks of the miner, not more than the request may have -/
theorem fileMinerSubmissions_ok {wires : List Obj} {n : Int} (hn : 0 ≤ n)
    (h : fileMinerSubmissions env engine declaredDifficulty roots n = .ok wires) :
    ∃ tasks, loadTasks roots = .ok tasks ∧ (wires.length : Int) ≤ n ∧
      List.Forall₂ (fun task wire =>
        toWire env.text engine declaredDifficulty task maxPackageBytes = .ok wire)
        (pyTake n tasks) wires := by
  unfold fileMinerSubmissions at h
  obtain ⟨tasks, htasks, h⟩ := bind_ok h
  have hforall := forall₂_of_mapM h
  refine ⟨tasks, htasks, ?_, hforall⟩
  rw [← hforall.length_eq]
  exact length_pyTake_le hn tasks

/-- each text with its comma, of which there is one less -/
theorem size_intercalate {ts : List String} (h : ts ≠ []) :
    (",".intercalate ts).utf8ByteSize + 1 = (ts.map fun t => t.utf8ByteSize + 1).sum := by
  induction ts with
  | nil => exact (h rfl).elim
  | cons t ts ih =>
    cases ts with
    | nil => rw [String.intercalate_singleton, List.map_singleton, List.sum_singleton]
    | cons u us =>
      have hcomma : (",".utf8ByteSize) = 1 := rfl
      have hrest := ih (List.cons_ne_nil u us)
      rw [String.intercalate_cons_cons, String.utf8ByteSize_append, String.utf8ByteSize_append,
        List.map_cons, List.sum_cons, hcomma]
      omega

theorem dumpsList_map (payloads : List Obj) :
    dumpsList env.text (payloads.map fun payload => (Json.obj payload).canon) =
      payloads.map fun payload => canonicalJson env.text (.obj payload) := by
  induction payloads with
  | nil => rw [List.map_nil, List.map_nil, dumpsList]
  | cons payload payloads ih => rw [List.map_cons, List.map_cons, dumpsList, ih]; rfl

/-- the brackets, and each payload with its comma -/
theorem responsePayloadSize_eq {wires : List Obj} (h : wires ≠ []) :
    responsePayloadSize env wires =
      1 + (wires.map fun wire => canonicalSize env.text wire + 1).sum := by
  have htext : payloadsText env wires =
      "[" ++ ",".intercalate (wires.map fun wire => canonicalJson env.text (.obj wire)) ++ "]" := by
    unfold payloadsText canonicalJson
    rw [Json.canon, Json.canonList_eq, dumpsCompact, List.map_map]
    exact congrArg (fun ts => "[" ++ ",".intercalate ts ++ "]") (dumpsList_map wires)
  have hne : (wires.map fun wire => canonicalJson env.text (.obj wire)) ≠ [] := by simpa using h
  have hjoined := size_intercalate hne
  have hsum : ((wires.map fun wire => canonicalSize env.text wire + 1).sum : Int) =
      (((wires.map fun wire => canonicalJson env.text (.obj wire)).map
        fun t => t.utf8ByteSize + 1).sum : Nat) := by
    rw [List.map_map, Nat.cast_list_sum, List.map_map]
    rfl
  have hbrackets : "[".utf8ByteSize = 1 ∧ "]".utf8ByteSize = 1 := ⟨rfl, rfl⟩
  unfold responsePayloadSize
  rw [htext, hsum, ← hjoined, String.utf8ByteSize_append, String.utf8ByteSize_append, hbrackets.1,
    hbrackets.2]
  push_cast
  ring

theorem size_nil : responsePayloadSize env [] = 2 := rfl

/-- what the loop leaves fits -/
theorem size_popWhile (wires : List Obj) :
    responsePayloadSize env (popWhile (oversized env) wires) ≤ maxResponseBytes := by
  obtain ⟨k, _, hpop, hfits, _⟩ := popWhile_spec (oversized env) wires
  rw [hpop]
  rcases hfits with rfl | hfits
  · rw [List.take_zero, size_nil]
    decide
  · unfold oversized at hfits
    simpa using hfits

/-- an answer is accepted with all payloads that it has -/
theorem wireMiner_of_forward {verify : String → String → String → Bool} {request : Request}
    {endpoint : MinerEndpoint} {wires : List Obj} (hasks : AsksFor request s)
    (hsuccess : s.isSuccess = true) (hsize : maxResponseBytes ≤ request.maxResponseBytes)
    (hverify : ∀ message, verify endpoint.hotkey message ("0x" ++ bytesHex (sign message)) = true)
    (hwires : fileMinerSubmissions env engine declaredDifficulty roots (min quota request.quota) =
      .ok wires)
    (h : forward env engine declaredDifficulty endpoint.hotkey sign roots quota s = .ok response) :
    wireMinerFromResponse env verify endpoint (.synapse response) request.quota request.epochId
        request.requestId request.validatorHotkey request.maxResponseBytes =
      .ok { hotkey := endpoint.hotkey, uid := endpoint.uid,
            payloads := pyTake request.quota (popWhile (oversized env) wires) } := by
  obtain ⟨wires', hwires', hsigned⟩ := bind_ok h
  rw [hasks.quota, hwires] at hwires'
  obtain rfl := Except.ok.inj hwires'
  have hfits := @size_popWhile env wires
  generalize popWhile (oversized env) wires = popped at hfits hsigned ⊢
  exact @wireMiner_of_signed env verify request endpoint sign
    { s with submissions := popped, error := "" } response
    ⟨hasks.terminal, hasks.protocol, hasks.requestId, hasks.epochId, hasks.quota⟩ hsigned
    hverify hsuccess rfl (hfits.trans hsize)

/-- **An answer is accepted as it is.**  Whatever the miner's directories hold: a request that the
miner answers is accepted by the validator that has sent it, with exactly the longest prefix of the
miner's encoded tasks, as many as the request and the miner's quota allow, that fits the response
bound. -/
theorem served_response_accepted (env : Env) (verify : String → String → String → Bool)
    (engine : Engine) (declaredDifficulty : TaskPackage → String) (roots : List TaskRoot)
    (quota : Int) (sign : String → Bytes) (request : Request) (endpoint : MinerEndpoint)
    (s response : DoloresTaskSynapse) (hquota : 0 ≤ min quota request.quota)
    (hasks : AsksFor request s) (hsuccess : s.isSuccess = true)
    (hsize : maxResponseBytes ≤ request.maxResponseBytes)
    (hverify : ∀ message, verify endpoint.hotkey message ("0x" ++ bytesHex (sign message)) = true)
    (h : forward env engine declaredDifficulty endpoint.hotkey sign roots quota s = .ok response) :
    ∃ wires k, fileMinerSubmissions env engine declaredDifficulty roots (min quota request.quota) =
        .ok wires ∧
      wireMinerFromResponse env verify endpoint (.synapse response) request.quota request.epochId
          request.requestId request.validatorHotkey request.maxResponseBytes =
        .ok { hotkey := endpoint.hotkey, uid := endpoint.uid, payloads := wires.take k } ∧
      responsePayloadSize env (wires.take k) ≤ maxResponseBytes ∧
      ∀ j, k < j → j ≤ wires.length → maxResponseBytes < responsePayloadSize env (wires.take j) := by
  obtain ⟨wires, hwires, -⟩ := bind_ok h
  rw [hasks.quota] at hwires
  obtain ⟨_, _, hlen, _⟩ := fileMinerSubmissions_ok hquota hwires
  obtain ⟨k, hk, hpop, _, hover⟩ := popWhile_spec (oversized env) wires
  have hfits := @size_popWhile env wires
  have haccept := wireMiner_of_forward hasks hsuccess hsize hverify hwires h
  rw [hpop] at haccept hfits
  refine ⟨wires, k, hwires, ?_, hfits, fun j hlt hle => ?_⟩
  · rw [haccept, pyTake_of_length_le]
    rw [List.length_take]
    omega
  · have hbig := hover j hlt hle
    unfold oversized at hbig
    exact of_decide_eq_true hbig

end

/-! ## the gates -/

section
variable {T : PyText} {engine : Engine} {cfg : SubnetConfig} {hotkey : String}

/-- what can pass in a stream, with its hash -/
def candidates (T : PyText) (engine : Engine) (cfg : SubnetConfig) (stream : List Sent) :
    List (String × String) :=
  stream.filterMap fun p => (acceptableHash T engine cfg p.1).map fun hash => (p.2, hash)

theorem passedIn_sublist (c : GateContext) (stream : List Sent) :
    (passedIn T engine cfg c stream).Sublist (candidates T engine cfg stream) := by
  induction stream generalizing c with
  | nil => exact List.Sublist.refl []
  | cons p stream ih =>
    have hrest := ih (gateStep T engine cfg c p).2
    rw [passedIn_cons]
    unfold candidates at hrest ⊢
    rw [List.filterMap_cons]
    rcases @gateStep_cases T engine cfg c p with ⟨hash, d, hadmits, hpassed, hhash, hstep⟩ | ⟨_, hfails⟩
    · rw [hstep] at hrest ⊢
      rw [hadmits.1]
      show (passedOf [p] [Except.ok d] ++ _).Sublist ((p.2, hash) :: _)
      unfold passedOf
      rw [hpassed, hhash]
      exact hrest.cons_cons _
    · have hnone : passedOf [p] [(gateStep T engine cfg c p).1] = [] := by
        rcases hfails with ⟨d, hfails, hstep⟩ | ⟨e, hstep⟩
        · rw [hstep]
          unfold passedOf
          rw [hfails.1]
          rfl
        · rw [hstep]
          rfl
      rw [hnone, List.nil_append]
      cases acceptableHash T engine cfg p.1 with
      | none => exact hrest
      | some hash => exact hrest.cons _

/-- a hotkey's share is at most what it has sent -/
theorem shareOf_passedIn_le (c : GateContext) (stream : List Sent) :
    shareOf hotkey (passedIn T engine cfg c stream) ≤ (stream.filter fun p => p.2 == hotkey).length := by
  refine le_trans ((passedIn_sublist c stream).countP_le) ?_
  unfold candidates
  induction stream with
  | nil => exact le_rfl
  | cons p stream ih =>
    rw [List.filterMap_cons, List.filter_cons]
    cases acceptableHash T engine cfg p.1 with
    | none =>
      refine ih.trans ?_
      split
      · exact Nat.le_succ _
      · exact le_rfl
    | some hash =>
      rw [Option.map_some]
      dsimp only
      rw [List.countP_cons]
      dsimp only
      split
      · exact Nat.succ_le_succ ih
      · exact ih

theorem acceptableHash_of_acceptable {payload : Obj} {task : TaskPackage}
    (h : Acceptable T engine payload cfg.maxPackageBytes task) :
    acceptableHash T engine cfg payload = some (engine.stableHash task) := by
  unfold acceptableHash
  rw [if_neg (by rw [h.schema]; decide), if_neg (by rw [h.size]; decide), h.parses]
  dsimp only
  rw [if_neg (by rw [h.hash]; decide)]

/-- the hashes that the validator recomputes are those of the miner's tasks -/
theorem acceptableHash_served {declaredDifficulty : TaskPackage → String} {tasks : List TaskPackage}
    {wires : List Obj} (hback : ∀ task ∈ tasks, HasTests task.canonicalDict ∧ ParsesBack engine task)
    (hcfg : maxPackageBytes ≤ cfg.maxPackageBytes)
    (h : List.Forall₂ (fun task wire =>
      toWire T engine declaredDifficulty task maxPackageBytes = .ok wire) tasks wires) :
    wires.map (acceptableHash T engine cfg) = tasks.map fun task => some (engine.stableHash task) := by
  induction h with
  | nil => rfl
  | @cons task wire tasks wires hwire _ ih =>
    obtain ⟨htests, hparses⟩ := hback task List.mem_cons_self
    obtain ⟨parsed, haccept, _, _, hstable⟩ := acceptable_of_toWire htests hparses hwire hcfg
    rw [List.map_cons, List.map_cons, ih fun t ht => hback t (List.mem_cons_of_mem _ ht),
      acceptableHash_of_acceptable haccept, hstable]

/-- the payloads of one hotkey in a stream, in any order between those of others, none of which
sends a package of theirs -/
structure OwnPayloads (T : PyText) (engine : Engine) (cfg : SubnetConfig) (hotkey : String)
    (payloads : List Obj) (stream : List Sent) : Prop where
  own : ((stream.filter fun p => p.2 == hotkey).map Prod.fst).Perm payloads
  others : ∀ p ∈ stream, p.2 ≠ hotkey → ∀ payload ∈ payloads, ∀ hash,
    acceptableHash T engine cfg p.1 = some hash → acceptableHash T engine cfg payload ≠ some hash

theorem OwnPayloads.allPass {payloads : List Obj} {stream : List Sent} {hashes : List String}
    {quota : Int} (hown : OwnPayloads T engine cfg hotkey payloads stream)
    (hhashes : payloads.map (acceptableHash T engine cfg) = hashes.map some) (hnodup : hashes.Nodup)
    (hquota : (payloads.length : Int) ≤ quota) {before after : List Sent} {p : Sent}
    (hstream : stream = before ++ p :: after) (hp : p.2 = hotkey) :
    ∃ d, (gateStream T engine cfg { quota } stream).1[before.length]? = some (.ok d) ∧
      d.passed = true := by
  obtain ⟨r, hr, hdecided⟩ := @decision_at T engine cfg quota before p after
  rw [← hstream] at hr
  -- the payloads of the hotkey, with those before `p` in front
  have hsplit : stream.filter (fun p => p.2 == hotkey) =
      before.filter (fun p => p.2 == hotkey) ++ p :: after.filter (fun p => p.2 == hotkey) := by
    rw [hstream, List.filter_append, List.filter_cons, if_pos (by simpa using hp)]
  have hperm := hown.own
  rw [hsplit, List.map_append, List.map_cons] at hperm
  have hmem : p.1 ∈ payloads := hperm.subset (by simp)
  have hlen := hperm.length_eq
  rw [List.length_append, List.length_map, List.length_cons] at hlen
  have hperm' := hperm.map (acceptableHash T engine cfg)
  rw [hhashes, List.map_append, List.map_cons] at hperm'
  have hdistinct := hperm'.nodup_iff.mpr (hnodup.map (Option.some_injective _))
  obtain ⟨hash, hmemHash, hhash⟩ : ∃ hash ∈ hashes, some hash = acceptableHash T engine cfg p.1 := by
    rw [← List.mem_map, ← hhashes]
    exact List.mem_map_of_mem hmem
  have hpasses : passes r = true := by
    refine hdecided.passesIff.mpr ⟨hash, hhash.symm, ?_, ?_⟩
    · have hshare := @shareOf_passedIn_le T engine cfg hotkey { quota } before
      rw [hp]
      omega
    · intro hseen
      obtain ⟨q, hq, hqhash⟩ := List.mem_map.mp hseen
      obtain ⟨p', hp', hcharged⟩ := List.mem_filterMap.mp
        ((@passedIn_sublist T engine cfg { quota } before).subset hq)
      obtain ⟨hash', haccept, rfl⟩ := Option.map_eq_some_iff.mp hcharged
      obtain rfl : hash' = hash := hqhash
      by_cases hsame : p'.2 = hotkey
      · -- another of its own payloads has another hash
        have hearlier : acceptableHash T engine cfg p'.1 ∈
            ((before.filter fun p => p.2 == hotkey).map Prod.fst).map (acceptableHash T engine cfg) :=
          List.mem_map_of_mem (List.mem_map_of_mem
            (List.mem_filter.mpr ⟨hp', by simpa using hsame⟩))
        refine (List.nodup_append.mp hdistinct).2.2 _ hearlier _ List.mem_cons_self ?_
        rw [haccept, hhash]
      · refine hown.others p' ?_ hsame p.1 hmem _ haccept hhash.symm
        rw [hstream]
        exact List.mem_append_left _ hp'
  cases r with
  | error e => exact absurd hpasses Bool.false_ne_true
  | ok d => exact ⟨d, hr, hpasses⟩

end

/-- **The packages of an answer pass the gates**, in every order of the payloads of an epoch, unless
another miner sends one of them too: the miner's tasks have different hashes, and the engine reads
back what it wrote. -/
theorem served_packages_pass (env : Env) (engine : Engine) (declaredDifficulty : TaskPackage → String)
    (roots : List TaskRoot) (hotkey : String) (sign : String → Bytes) (quota epochQuota : Int)
    (cfg : SubnetConfig) (s response : DoloresTaskSynapse) (tasks : List TaskPackage)
    (hload : loadTasks roots = .ok tasks)
    (hback : ∀ task ∈ tasks, HasTests task.canonicalDict ∧ ParsesBack engine task)
    (hdistinct : (tasks.map engine.stableHash).Nodup) (hquota : 0 ≤ min quota s.quota)
    (hepoch : s.quota ≤ epochQuota) (hcfg : maxPackageBytes ≤ cfg.maxPackageBytes)
    (h : forward env engine declaredDifficulty hotkey sign roots quota s = .ok response)
    (stream : List Sent)
    (hown : OwnPayloads env.text engine cfg hotkey response.submissions stream)
    (before after : List Sent) (p : Sent) (hstream : stream = before ++ p :: after)
    (hp : p.2 = hotkey) :
    ∃ d, (gateStream env.text engine cfg { quota := epochQuota } stream).1[before.length]? =
        some (.ok d) ∧ d.passed = true := by
  obtain ⟨wires, d, hwires, _, _, rfl⟩ := forward_ok_iff.mp h
  obtain ⟨tasks', hload', hlen, hforall⟩ := fileMinerSubmissions_ok hquota hwires
  obtain rfl := Except.ok.inj (hload'.symm.trans hload)
  obtain ⟨k, hk, hpop, _, _⟩ := popWhile_spec (oversized env) wires
  have htaken : (pyTake (min quota s.quota) tasks').Sublist tasks' := by
    unfold pyTake
    split
    · exact List.take_sublist _ _
    · exact List.take_sublist _ _
  have hhashes := acceptableHash_served (fun t ht => hback t (htaken.subset ht)) hcfg hforall
  have hserved : (answered env hotkey sign s d (popWhile (oversized env) wires)).submissions =
      wires.take k := hpop
  have hnodup : (((pyTake (min quota s.quota) tasks').map engine.stableHash).take k).Nodup :=
    ((hdistinct.sublist (htaken.map _)).sublist (List.take_sublist _ _))
  refine hown.allPass ?_ hnodup ?_ hstream hp
  · rw [hserved, List.map_take, hhashes, List.map_take, List.map_map]
    rfl
  · rw [hserved, List.length_take]
    omega

/-! ## a miner of one task -/

section

def taskRoot : TaskRoot := { path := "tasks", package := .ok plainTask, children := none }

def servedWire : Obj := [
  ("schema_version", .str schemaVersion),
  ("task_id", .str "task-1"),
  ("package_hash", .str "hash-task-1"),
  ("package", .obj (wirePackage plainTask.canonicalDict)),
  ("family", .str "parser_roundtrip"),
  ("declared_difficulty", .str "0.5")]

def servedSynapse : DoloresTaskSynapse :=
  answered Env.plain "miner" authSign authSynapse authTerminal [servedWire]

theorem forward_taskRoot : forward Env.plain smallEngine (fun _ => "0.5") "miner" authSign
    [taskRoot] 4 authSynapse = .ok servedSynapse := by
  have hwire : toWire Env.plain.text smallEngine (fun _ => "0.5") plainTask maxPackageBytes =
      .ok servedWire := by
    unfold toWire
    dsimp only
    rw [if_neg (by decide +kernel)]
    rfl
  have hwires : fileMinerSubmissions Env.plain smallEngine (fun _ => "0.5") [taskRoot] 1 =
      .ok [servedWire] := by
    have hload : loadTasks [taskRoot] = .ok [plainTask] := rfl
    unfold fileMinerSubmissions
    rw [hload, ok_bind, show pyTake 1 [plainTask] = [plainTask] from rfl, List.mapM_cons, hwire]
    rfl
  have hpop : popWhile (oversized Env.plain) [servedWire] = [servedWire] := by
    rw [popWhile, dif_neg]
    intro h
    exact absurd h.2 (by decide +kernel)
  refine forward_ok_iff.mpr ⟨[servedWire], authTerminal, hwires, rfl, by decide +kernel, ?_⟩
  rw [hpop]
  rfl

/-- after a payload of another miner that fails -/
theorem served_packages_pass_sample : ∃ d, (gateStream Env.plain.text smallEngine {} { quota := 4 }
    [([], "other"), (servedWire, "miner")]).1[1]? = some (.ok d) ∧ d.passed = true := by
  refine served_packages_pass Env.plain smallEngine (fun _ => "0.5") [taskRoot] "miner" authSign 4 4
    {} authSynapse servedSynapse [plainTask] rfl ?_ (List.nodup_singleton _) (by decide) (by decide)
    le_rfl forward_taskRoot _ ?_ [([], "other")] [] (servedWire, "miner") rfl rfl
  · intro task htask
    obtain rfl := List.mem_singleton.mp htask
    exact ⟨hasTests_plainTask, parsesBack_smallEngine⟩
  · refine ⟨List.Perm.refl _, ?_⟩
    intro p hp hother payload _ hash haccept
    rcases List.mem_cons.mp hp with rfl | hp
    · exact nomatch haccept
    · exact (hother (by rw [List.mem_singleton.mp hp])).elim

end

/-! ## a miner of six long tasks -/

section

theorem size_quote_replicate (n : Nat) :
    (quote (String.ofList (List.replicate n 'a'))).utf8ByteSize = n + 2 := by
  have hjoin : (String.join (List.replicate n (escapeChar 'a'))).utf8ByteSize = n := by
    induction n with
    | zero => rfl
    | succ n ih =>
      have hchar : (escapeChar 'a').utf8ByteSize = 1 := by decide
      rw [List.replicate_succ, String.join_cons, String.utf8ByteSize_append, ih, hchar,
        Nat.add_comm]
  have hquote : "\"".utf8ByteSize = 1 := rfl
  unfold quote
  rw [String.toList_ofList, List.map_replicate, String.utf8ByteSize_append,
    String.utf8ByteSize_append, hjoin, hquote]
  omega

def longTask (text : String) : TaskPackage :=
  { plainTask with
    hiddenTests := [(plainTest.1, text)]
    canonicalDict := [("task_id", .str "task-1"),
      ("hidden_tests", .obj [(plainTest.1, .str text)])] }

def longText : String := String.ofList (List.replicate 190000 'a')

def longRoot (text : String) : TaskRoot :=
  { path := "tasks", package := .ok (longTask text), children := none }

def longRoots : List TaskRoot := List.replicate 6 (longRoot longText)

def longWire (text : String) : Obj := [
  ("schema_version", .str schemaVersion),
  ("task_id", .str "task-1"),
  ("package_hash", .str "hash-task-1"),
  ("package", .obj (wirePackage (longTask text).canonicalDict)),
  ("family", .str "parser_roundtrip"),
  ("declared_difficulty", .str "0.5")]

theorem canon_longWire (text : String) : (Json.obj (longWire text)).canon = .obj [
    ("declared_difficulty", .str "0.5"),
    ("family", .str "parser_roundtrip"),
    ("package", .obj [("author_tests", .obj [(plainTest.1, .str text)]),
      ("task_id", .str "task-1")]),
    ("package_hash", .str "hash-task-1"),
    ("schema_version", .str schemaVersion),
    ("task_id", .str "task-1")] := by
  have hpackage : wirePackage (longTask text).canonicalDict = [("task_id", .str "task-1"),
      ("author_tests", .obj [(plainTest.1, .str text)])] := rfl
  unfold longWire
  rw [hpackage]
  simp only [Json.canon, Json.canonFields, Dict.sorted, List.insertionSort_cons,
    List.insertionSort_nil]
  simp [List.orderedInsert]

/-- what a longer test adds -/
theorem size_longWire (text : String) : canonicalSize Env.plain.text (longWire text) + 2 =
    canonicalSize Env.plain.text (longWire "") + (quote text).utf8ByteSize := by
  have hempty : (quote "").utf8ByteSize = 2 := by decide
  unfold canonicalSize canonicalJson
  rw [canon_longWire, canon_longWire]
  simp only [dumpsCompact, dumpsFields, String.intercalate_cons_cons, String.intercalate_singleton,
    String.utf8ByteSize_append, hempty]
  push_cast
  ring

theorem loadTasks_long (text : String) :
    loadTasks (List.replicate 6 (longRoot text)) = .ok (List.replicate 6 (longTask text)) := rfl

theorem toWire_long {text : String}
    (h : canonicalSize Env.plain.text (longWire text) ≤ maxPackageBytes) :
    toWire Env.plain.text smallEngine (fun _ => "0.5") (longTask text) maxPackageBytes =
      .ok (longWire text) := by
  have hfits : wireSizeOk Env.plain.text (longWire text) maxPackageBytes = true :=
    decide_eq_true h
  unfold toWire
  dsimp only
  exact if_neg (by rw [show WireSubmission.toDict _ = longWire text from rfl, hfits]; decide)

theorem size_longText : canonicalSize Env.plain.text (longWire longText) = 190209 := by
  have hempty : canonicalSize Env.plain.text (longWire "") = 209 := by decide +kernel
  have hquote : (quote longText).utf8ByteSize = 190002 := size_quote_replicate 190000
  have hlonger := size_longWire longText
  omega

def longSynapse : DoloresTaskSynapse := { authSynapse with quota := 6 }

theorem size_long {n : Nat} (h : n ≠ 0) :
    responsePayloadSize Env.plain (List.replicate n (longWire longText)) = 1 + n * 190210 := by
  have hone : canonicalSize Env.plain.text (longWire longText) + 1 = 190210 := by
    rw [size_longText]
    rfl
  rw [responsePayloadSize_eq (by simpa using h), List.map_replicate, List.sum_replicate, hone,
    nsmul_eq_mul]

theorem fileMinerSubmissions_long :
    fileMinerSubmissions Env.plain smallEngine (fun _ => "0.5") longRoots 6 =
      .ok (List.replicate 6 (longWire longText)) := by
  have hfits : canonicalSize Env.plain.text (longWire longText) ≤ maxPackageBytes := by
    rw [size_longText]
    decide
  have hwire := toWire_long hfits
  have hload : loadTasks longRoots = .ok (List.replicate 6 (longTask longText)) :=
    loadTasks_long longText
  unfold fileMinerSubmissions
  rw [hload, ok_bind, pyTake_of_length_le (by rw [List.length_replicate]; rfl)]
  rw [mapM_ok (fun _ => longWire longText) fun task hmem => ?_, List.map_replicate]
  rw [List.eq_of_mem_replicate hmem, hwire]

/-- five of six packages fit into the response -/
theorem served_response_accepted_sample : ∃ response,
    forward Env.plain smallEngine (fun _ => "0.5") "miner" authSign longRoots 6 longSynapse =
      .ok response ∧
    wireMinerFromResponse Env.plain
      (fun _ message signature => signature == "0x" ++ bytesHex (authSign message)) authEndpoint
      (.synapse response) 6 7 authRequest.requestId "validator" maxResponseBytes =
        .ok { hotkey := "miner", uid := 3, payloads := List.replicate 5 (longWire longText) } := by
  have hvalid : requestIdIsValid longSynapse.requestId = true := by decide +kernel
  have hforward : ∃ response, forward Env.plain smallEngine (fun _ => "0.5") "miner" authSign
      longRoots 6 longSynapse = .ok response :=
    ⟨_, forward_ok_iff.mpr ⟨_, authTerminal, fileMinerSubmissions_long, rfl, hvalid, rfl⟩⟩
  obtain ⟨response, hforward⟩ := hforward
  obtain ⟨wires, k, hwires, haccept, hfits, hover⟩ := served_response_accepted Env.plain
    (fun _ message signature => signature == "0x" ++ bytesHex (authSign message)) smallEngine
    (fun _ => "0.5") longRoots 6 authSign { authRequest with quota := 6, maxResponseBytes }
    authEndpoint longSynapse response (by decide)
    ⟨⟨authTerminal, rfl, rfl⟩, rfl, rfl, rfl, rfl⟩ rfl le_rfl (fun _ => beq_self_eq_true _) hforward
  obtain rfl := Except.ok.inj (hwires.symm.trans fileMinerSubmissions_long)
  have hbound : maxResponseBytes = 1048576 := rfl
  have hfive : (List.replicate 6 (longWire longText)).take k =
      List.replicate 5 (longWire longText) := by
    rw [List.take_replicate] at hfits ⊢
    by_cases hlt : k < 5
    · -- five packages fit
      have hbig := hover 5 hlt (by rw [List.length_replicate]; omega)
      rw [List.take_replicate, size_long (by decide)] at hbig
      omega
    · rcases Nat.lt_or_ge 5 k with hgt | hle
      · rw [Nat.min_eq_right (by omega), size_long (by decide)] at hfits
        omega
      · rw [show k = 5 by omega]
        rfl
  refine ⟨response, hforward, ?_⟩
  rw [← hfive]
  exact haccept

end

end Dolores
