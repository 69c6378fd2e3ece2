import Mathlib.Data.Set.Function
import Mathlib.Logic.Relation
import Dolores.Py.JsonRoundTrip
import Dolores.Wire.Sound

/-!
# Accepted responses were signed for their request

* `verify_ok_iff`: what `verifyResponseSignature` accepts.
* `message_injective`: the signed message determines every field it binds.
* `Step`: validators issue requests, holders of hotkeys sign, and an adversary delivers responses
  made of anything it likes, except that it cannot forge a signature.
* `Authentic`: the invariant, `step_authentic` for one step and `run_authentic` for a run.
* `wireMiner_of_signed`: an unaltered signed response is accepted.
-/

namespace Dolores
open JsonText

/-! ## acceptance -/

theorem rejectIf_ok_iff (c : Prop) [Decidable c] (msg : String) :
    rejectIf c msg = .ok () ↔ ¬ c := by
  unfold rejectIf
  split
  · rename_i h
    exact ⟨fun h => (nomatch h), fun hc => absurd h hc⟩
  · rename_i h
    exact ⟨fun _ => h, fun _ => rfl⟩

theorem rejectIf_then_iff (c : Prop) [Decidable c] (msg : String) (rest : Except Exn Unit) :
    (do rejectIf c msg; rest) = .ok () ↔ ¬ c ∧ rest = .ok () := by
  unfold rejectIf
  split
  · rename_i h
    exact ⟨fun h => (nomatch h), fun hc => absurd h hc.1⟩
  · rename_i h
    exact ⟨fun hrest => ⟨h, hrest⟩, fun hand => hand.2⟩

section
variable (env : Env)

/-- the message that binds the content of a synapse -/
def messageOf (s : DoloresTaskSynapse) (dendrite : TerminalInfo) (minerHotkey : String) : String :=
  responseMessage env s.protocolVersion s.requestId dendrite.nonce dendrite.uuid dendrite.hotkey
    minerHotkey s.epochId s.quota (submissionsDigest env s.submissions)

variable (verify : String → String → String → Bool) (endpoint : MinerEndpoint)
  (s : DoloresTaskSynapse) (expectedEpochId quota : Int)
  (expectedRequestId expectedValidatorHotkey : String)

/-- an accepted response answers the request, and its signature verifies for its content -/
theorem verify_ok_iff :
    verifyResponseSignature env verify endpoint s expectedEpochId quota expectedRequestId
        expectedValidatorHotkey = .ok () ↔
      AnswersRequest endpoint s expectedEpochId quota expectedRequestId expectedValidatorHotkey ∧
      s.responseDigest = submissionsDigest env s.submissions ∧ s.responseSignature ≠ "" ∧
      ∀ d, s.dendrite = some d →
        verify endpoint.hotkey (messageOf env s d endpoint.hotkey) s.responseSignature = true := by
  unfold verifyResponseSignature
  cases hdendrite : s.dendrite with
  | none =>
    refine ⟨fun h => (nomatch h), fun h => ?_⟩
    obtain ⟨d, hd, -⟩ := h.1.dendrite
    rw [hdendrite] at hd
    exact nomatch hd
  | some d =>
    dsimp only
    rw [rejectIf_then_iff, rejectIf_then_iff, rejectIf_then_iff, rejectIf_then_iff,
      rejectIf_then_iff, rejectIf_then_iff, not_not, not_not, not_not, not_not, not_not, not_not]
    have hascii := isAscii_submissionsDigest env s.submissions
    constructor
    · intro ⟨hp, hid, he, hq, hv, hh, hrest⟩
      have hanswers : AnswersRequest endpoint s expectedEpochId quota expectedRequestId
          expectedValidatorHotkey := ⟨⟨d, hdendrite, hv⟩, hp, hid, he, hq, hh⟩
      obtain ⟨equal, hequal, hrest⟩ := Except.bind_ok hrest
      rw [rejectIf_then_iff, rejectIf_then_iff, rejectIf_ok_iff] at hrest
      obtain ⟨hdigest, hsignature, hverify⟩ := hrest
      have hsame : s.responseDigest = submissionsDigest env s.submissions := by
        unfold compareDigest at hequal
        split at hequal
        · rw [← Except.ok.inj hequal] at hdigest
          exact beq_iff_eq.mp (Bool.not_eq_false _ ▸ hdigest)
        · exact nomatch hequal
      refine ⟨hanswers, hsame, hsignature, ?_⟩
      intro d' hd'
      rw [← Option.some.inj hd', ← hh]
      rw [← hh] at hverify
      exact Bool.not_eq_false _ ▸ hverify
    · intro ⟨hanswers, hdigest, hsignature, hverify⟩
      obtain ⟨d', hd', hv⟩ := hanswers.dendrite
      rw [hdendrite] at hd'
      rw [← Option.some.inj hd'] at hv
      refine ⟨hanswers.protocol, hanswers.requestId, hanswers.epochId, hanswers.quota, hv,
        hanswers.hotkey, ?_⟩
      have hok := hverify d rfl
      unfold messageOf at hok
      rw [hdigest, compareDigest_of_ascii hascii hascii, Except.ok_bind, rejectIf_then_iff,
        rejectIf_then_iff, rejectIf_ok_iff, hanswers.hotkey]
      refine ⟨?_, hsignature, ?_⟩
      · rw [beq_self_eq_true]
        exact Bool.true_eq_false_eq_False
      · rw [hok]
        exact Bool.true_eq_false_eq_False

end

/-! ## the signed message -/

/-- the fields of the signed message -/
structure MessageFields where
  protocolVersion : String
  requestId : String
  requestNonce : Option Int
  requestUuid : Option String
  validatorHotkey : Option String
  minerHotkey : String
  epochId : Int
  quota : Int
  digest : String

def MessageFields.payload (f : MessageFields) : Obj := [
  ("protocol_version", .str f.protocolVersion),
  ("request_id", .str f.requestId),
  ("request_nonce", .ofOption .int f.requestNonce),
  ("request_uuid", .ofOption .str f.requestUuid),
  ("validator_hotkey", .ofOption .str f.validatorHotkey),
  ("miner_hotkey", .str f.minerHotkey),
  ("epoch_id", .int f.epochId),
  ("quota", .int f.quota),
  ("submissions_digest", .str f.digest)]

def MessageFields.message (env : Env) (f : MessageFields) : String :=
  responseMessage env f.protocolVersion f.requestId f.requestNonce f.requestUuid f.validatorHotkey
    f.minerHotkey f.epochId f.quota f.digest

/-- the first characters of a signed message -/
def messageDomain : List Char := "dolores-response-v1:".toList

section
variable {env : Env}

theorem toList_message (f : MessageFields) :
    (f.message env).toList = messageDomain ++ (canonicalJson env.text (.obj f.payload)).toList := by
  show ("dolores-response-v1:" ++ canonicalJson env.text (.obj f.payload)).toList = _
  rw [String.toList_append]
  rfl

theorem printable_payload (T : PyText) (f : MessageFields) : Printable T (.obj f.payload) := by
  have hint : ∀ n, Printable T (Json.ofOption .int n) := fun n =>
    printable_ofOption fun i _ => printable_int i
  have hstr : ∀ u, Printable T (Json.ofOption .str u) := fun u =>
    printable_ofOption fun s _ => printable_str s
  have hkeys : (Dict.keys f.payload).Nodup := by
    show ["protocol_version", "request_id", "request_nonce", "request_uuid", "validator_hotkey",
      "miner_hotkey", "epoch_id", "quota", "submissions_digest"].Nodup
    decide
  rw [Printable]
  refine ⟨hkeys, printableFields_iff.mpr ?_⟩
  intro p hp
  unfold MessageFields.payload at hp
  simp only [List.mem_cons, List.not_mem_nil, or_false] at hp
  rcases hp with rfl | rfl | rfl | rfl | rfl | rfl | rfl | rfl | rfl <;>
    first | exact hint _ | exact hstr _ | exact printable_str _ | exact printable_int _

/-- a signed message determines every field -/
theorem message_injective {f g : MessageFields} (h : f.message env = g.message env) : f = g := by
  have htext := congrArg String.toList h
  rw [toList_message, toList_message] at htext
  have hcanon := canonicalJson_injective (printable_payload env.text f)
    (printable_payload env.text g) (String.toList_inj.mp (List.append_cancel_left htext))
  rw [Json.canon_obj', Json.canon_obj'] at hcanon
  have hfield : ∀ k, (f.payload.get k).canon = (g.payload.get k).canon := by
    intro k
    rw [← Obj.get_canon, ← Obj.get_canon, Json.obj.inj hcanon]
  have hstr : ∀ {a b : String}, Json.canon (.str a) = Json.canon (.str b) → a = b := by
    intro a b hab
    rw [Json.canon_str, Json.canon_str] at hab
    exact Json.str.inj hab
  have hint : ∀ {a b : Int}, Json.canon (.int a) = Json.canon (.int b) → a = b := by
    intro a b hab
    rw [Json.canon_int, Json.canon_int] at hab
    exact Json.int.inj hab
  have hoptStr : ∀ {a b : Option String},
      Json.canon (.ofOption .str a) = Json.canon (.ofOption .str b) → a = b := by
    intro a b hab
    cases a <;> cases b <;> simp [Json.ofOption] at hab ⊢
    exact hab
  have hoptInt : ∀ {a b : Option Int},
      Json.canon (.ofOption .int a) = Json.canon (.ofOption .int b) → a = b := by
    intro a b hab
    cases a <;> cases b <;> simp [Json.ofOption] at hab ⊢
    exact hab
  cases f
  cases g
  rw [MessageFields.mk.injEq]
  exact ⟨hstr (hfield "protocol_version"), hstr (hfield "request_id"),
    hoptInt (hfield "request_nonce"), hoptStr (hfield "request_uuid"),
    hoptStr (hfield "validator_hotkey"), hstr (hfield "miner_hotkey"), hint (hfield "epoch_id"),
    hint (hfield "quota"), hstr (hfield "submissions_digest")⟩

end

/-! ## the network -/

/-- what `query_miners` expects of the responses to one request -/
structure Request where
  requestId : String
  epochId : Int
  quota : Int
  validatorHotkey : String
  maxResponseBytes : Int

/-- one execution of `sign_response` by the holder of a hotkey -/
structure SigningRun where
  hotkey : String
  synapse : DoloresTaskSynapse
  terminal : TerminalInfo

/-- a result of `wire_miner_from_response` -/
structure Acceptance where
  request : Request
  endpoint : MinerEndpoint
  miner : WireMiner

structure Network where
  requests : List Request := []
  runs : List SigningRun := []
  /-- the messages that the holder of each hotkey has signed -/
  signed : List (String × String) := []
  /-- the texts whose SHA-256 was computed -/
  hashed : List String := []
  accepted : List Acceptance := []

section
variable (env : Env) (verify : String → String → String → Bool)

/-- the payloads are values of `json.loads` -/
def JsonPayloads (payloads : List Obj) : Prop := Printable env.text (.arr (payloads.map .obj))

/-- the text of the payloads of a response -/
def Response.texts : Response → List String
  | .synapse s => [payloadsText env s.submissions]
  | .other _ _ => []

/-- One step of any of the parties.  The adversary chooses every response, and the synapse that a
holder signs; a signature verifies only for a message its holder has signed.  A hotkey also signs
messages of the transport and of the chain, which do not start with `messageDomain`. -/
inductive Step (n : Network) : Network → Prop
  | query (request : Request)
      (fresh : ∀ other ∈ n.requests, other.requestId ≠ request.requestId) :
      Step n { n with requests := n.requests ++ [request] }
  | signResponse (hotkey : String) (sign : String → Bytes) (synapse response : DoloresTaskSynapse)
      (terminal : TerminalInfo) (hterminal : synapse.dendrite = some terminal)
      (hvalues : JsonPayloads env synapse.submissions)
      (h : signResponse env hotkey sign synapse = .ok response) :
      Step n { n with
        runs := n.runs ++ [⟨hotkey, synapse, terminal⟩]
        signed := n.signed ++ [(hotkey, messageOf env synapse terminal hotkey)]
        hashed := n.hashed ++ [payloadsText env synapse.submissions] }
  | signOther (hotkey message : String) (h : ¬ messageDomain <+: message.toList) :
      Step n { n with signed := n.signed ++ [(hotkey, message)] }
  | deliver (request : Request) (hrequest : request ∈ n.requests) (endpoint : MinerEndpoint)
      (response : Response) (miner : WireMiner)
      (hvalues : ∀ s, response = .synapse s → JsonPayloads env s.submissions)
      (unforgeable : ∀ s message, response = .synapse s →
        verify endpoint.hotkey message s.responseSignature = true →
          (endpoint.hotkey, message) ∈ n.signed)
      (h : wireMinerFromResponse env verify endpoint response request.quota request.epochId
        request.requestId request.validatorHotkey request.maxResponseBytes = .ok miner) :
      Step n { n with
        accepted := n.accepted ++ [⟨request, endpoint, miner⟩]
        hashed := n.hashed ++ response.texts env }

/-- the networks that any order of the parties' steps reaches -/
def Reachable (n : Network) : Prop := Relation.ReflTransGen (Step env verify) {} n

/-- no two of the hashed texts have the same digest -/
def CollisionFree (n : Network) : Prop := Set.InjOn env.sha256Text fun text => text ∈ n.hashed

end

/-! ## the invariant -/

/-- the run answers the request of the acceptance, and its first payloads are the accepted ones -/
structure SignedFor (run : SigningRun) (a : Acceptance) : Prop where
  hotkey : run.hotkey = a.endpoint.hotkey
  requestId : run.synapse.requestId = a.request.requestId
  epochId : run.synapse.epochId = a.request.epochId
  quota : run.synapse.quota = a.request.quota
  validator : run.terminal.hotkey = some a.request.validatorHotkey
  protocol : run.synapse.protocolVersion = wireProtocolVersion
  payloads : (pyTake a.request.quota run.synapse.submissions).map Obj.canon =
    a.miner.payloads.map Obj.canon

structure Authentic (env : Env) (n : Network) : Prop where
  fresh : (n.requests.map (·.requestId)).Nodup
  /-- every message of the domain comes from `sign_response` -/
  signed : ∀ p ∈ n.signed, messageDomain <+: p.2.toList →
    ∃ run ∈ n.runs, run.hotkey = p.1 ∧ messageOf env run.synapse run.terminal p.1 = p.2
  runs : ∀ run ∈ n.runs, run.synapse.dendrite = some run.terminal ∧
    JsonPayloads env run.synapse.submissions ∧ payloadsText env run.synapse.submissions ∈ n.hashed
  accepted : CollisionFree env n → ∀ a ∈ n.accepted, a.request ∈ n.requests ∧
    (a.miner.terminalStatus = none → ∃ run ∈ n.runs, SignedFor run a)

section
variable {env : Env} {verify : String → String → String → Bool}

theorem pyTake_map {α β : Type} (f : α → β) (k : Int) (l : List α) :
    pyTake k (l.map f) = (pyTake k l).map f := by
  unfold pyTake
  split
  · exact List.map_take.symm
  · rw [List.length_map]
    exact List.map_take.symm

/-- a miner that is not terminal comes from a response that verifies -/
theorem wireMiner_accepted {endpoint : MinerEndpoint} {response : Response} {request : Request}
    {miner : WireMiner}
    (h : wireMinerFromResponse env verify endpoint response request.quota request.epochId
      request.requestId request.validatorHotkey request.maxResponseBytes = .ok miner)
    (hnone : miner.terminalStatus = none) :
    ∃ s, response = .synapse s ∧ miner.payloads = pyTake request.quota s.submissions ∧
      verifyResponseSignature env verify endpoint s request.epochId request.quota
        request.requestId request.validatorHotkey = .ok () := by
  have hterminal : ∀ {m : WireMiner}, m.terminalStatus ≠ none →
      (Except.ok m : Except Exn WireMiner) = .ok miner → False := by
    intro m hm heq
    rw [Except.ok.inj heq] at hm
    exact hm hnone
  unfold wireMinerFromResponse at h
  cases response with
  | other e st => exact (hterminal (Option.some_ne_none _) h).elim
  | synapse s =>
    refine ⟨s, rfl, ?_⟩
    dsimp only at h
    split at h
    · exact (hterminal (Option.some_ne_none _) h).elim
    · cases hverify : verifyResponseSignature env verify endpoint s request.epochId request.quota
          request.requestId request.validatorHotkey with
      | error e =>
        rw [hverify] at h
        cases e with
        | responseAuthenticationError msg => exact (hterminal (Option.some_ne_none _) h).elim
        | _ => exact nomatch h
      | ok u =>
        rw [hverify] at h
        dsimp only at h
        split at h
        · exact (hterminal (Option.some_ne_none _) h).elim
        · rw [← Except.ok.inj h]
          exact ⟨rfl, rfl⟩

theorem HexDigest.eq_of_text {d e : HexDigest} (h : d.text = e.text) : d = e := by
  cases d
  cases e
  congr

/-- equal digests of hashed payloads: the payloads are equal up to the order of keys -/
theorem payloads_of_digest {n : Network} (hsha : CollisionFree env n) {ps qs : List Obj}
    (hps : JsonPayloads env ps) (hqs : JsonPayloads env qs)
    (hp : payloadsText env ps ∈ n.hashed) (hq : payloadsText env qs ∈ n.hashed)
    (hdigest : submissionsDigest env ps = submissionsDigest env qs) :
    ps.map Obj.canon = qs.map Obj.canon := by
  have htext : payloadsText env ps = payloadsText env qs :=
    hsha hp hq (HexDigest.eq_of_text hdigest)
  have hcanon := canonicalJson_injective hps hqs htext
  have hlist : ∀ l : List Obj,
      Json.canon (.arr (l.map .obj)) = .arr ((l.map Obj.canon).map .obj) := by
    intro l
    rw [Json.canon, Json.canonList_eq, List.map_map, List.map_map]
    congr 1
    exact List.map_congr_left fun o _ => Json.canon_obj' o
  rw [hlist, hlist] at hcanon
  refine List.map_injective_iff.mpr ?_ (Json.arr.inj hcanon)
  intro o o' heq
  exact Json.obj.inj heq

theorem messageOf_starts (s : DoloresTaskSynapse) (d : TerminalInfo) (hotkey : String) :
    messageDomain <+: (messageOf env s d hotkey).toList := by
  have h := @toList_message env ⟨s.protocolVersion, s.requestId, d.nonce, d.uuid, d.hotkey,
    hotkey, s.epochId, s.quota, submissionsDigest env s.submissions⟩
  exact ⟨_, h.symm⟩

theorem step_authentic {n n' : Network} (hstep : Step env verify n n') (h : Authentic env n) :
    Authentic env n' := by
  cases hstep with
  | query request fresh =>
    refine ⟨?_, h.signed, h.runs, fun hsha a ha => ?_⟩
    · rw [List.map_append, List.map_singleton]
      refine List.nodup_append.mpr ⟨h.fresh, List.nodup_singleton _, ?_⟩
      intro id hid id' hid' heq
      obtain ⟨other, hother, hother'⟩ := List.mem_map.mp hid
      refine fresh other hother ?_
      rw [hother', heq, List.mem_singleton.mp hid']
    · obtain ⟨hmem, hrun⟩ := h.accepted hsha a ha
      exact ⟨List.mem_append_left _ hmem, hrun⟩
  | signResponse hotkey sign synapse response terminal hterminal hvalues hsign =>
    refine ⟨h.fresh, ?_, ?_, ?_⟩
    · intro p hp hdomain
      obtain hp | hp := List.mem_append.mp hp
      · obtain ⟨run, hrun, hspec⟩ := h.signed p hp hdomain
        exact ⟨run, List.mem_append_left _ hrun, hspec⟩
      · rw [List.mem_singleton.mp hp]
        exact ⟨_, List.mem_append_right _ (List.mem_singleton_self _), rfl, rfl⟩
    · intro run hrun
      obtain hrun | hrun := List.mem_append.mp hrun
      · obtain ⟨hdendrite, hjson, hhashed⟩ := h.runs run hrun
        exact ⟨hdendrite, hjson, List.mem_append_left _ hhashed⟩
      · rw [List.mem_singleton.mp hrun]
        exact ⟨hterminal, hvalues, List.mem_append_right _ (List.mem_singleton_self _)⟩
    · intro hsha a ha
      have hold : CollisionFree env n := hsha.mono fun text htext => List.mem_append_left _ htext
      obtain ⟨hmem, hrun⟩ := h.accepted hold a ha
      refine ⟨hmem, fun hnone => ?_⟩
      obtain ⟨run, hrun, hspec⟩ := hrun hnone
      exact ⟨run, List.mem_append_left _ hrun, hspec⟩
  | signOther hotkey message hother =>
    refine ⟨h.fresh, ?_, h.runs, h.accepted⟩
    intro p hp hdomain
    obtain hp | hp := List.mem_append.mp hp
    · exact h.signed p hp hdomain
    · rw [List.mem_singleton.mp hp] at hdomain
      exact absurd hdomain hother
  | deliver request hrequest endpoint response miner hvalues unforgeable haccept =>
    refine ⟨h.fresh, h.signed, ?_, ?_⟩
    · intro run hrun
      obtain ⟨hdendrite, hjson, hhashed⟩ := h.runs run hrun
      exact ⟨hdendrite, hjson, List.mem_append_left _ hhashed⟩
    · intro hsha a ha
      obtain ha | ha := List.mem_append.mp ha
      · exact h.accepted (hsha.mono fun text htext => List.mem_append_left _ htext) a ha
      · rw [List.mem_singleton.mp ha]
        refine ⟨hrequest, fun hnone => ?_⟩
        obtain ⟨s, hresponse, hpayloads, hverify⟩ := wireMiner_accepted haccept hnone
        obtain ⟨hanswers, -, -, hsignature⟩ := (verify_ok_iff ..).mp hverify
        obtain ⟨d, hd, hvalidator⟩ := hanswers.dendrite
        -- the signature verifies, so the holder has signed the message, in `sign_response`
        have hsigned := unforgeable s _ hresponse (hsignature d hd)
        obtain ⟨run, hrun, hhotkey, hmessage⟩ :=
          h.signed _ hsigned (messageOf_starts s d endpoint.hotkey)
        obtain ⟨hdendrite, hjson, hhashed⟩ := h.runs run hrun
        have hfields := message_injective
          (f := ⟨run.synapse.protocolVersion, run.synapse.requestId, run.terminal.nonce,
            run.terminal.uuid, run.terminal.hotkey, endpoint.hotkey, run.synapse.epochId,
            run.synapse.quota, submissionsDigest env run.synapse.submissions⟩)
          (g := ⟨s.protocolVersion, s.requestId, d.nonce, d.uuid, d.hotkey, endpoint.hotkey,
            s.epochId, s.quota, submissionsDigest env s.submissions⟩) hmessage
        rw [MessageFields.mk.injEq] at hfields
        obtain ⟨hprotocol, hid, -, -, hterminalHotkey, -, hepoch, hquota, hdigest⟩ := hfields
        have hsubmissions := payloads_of_digest hsha hjson (hvalues s hresponse)
          (List.mem_append_left _ hhashed)
          (by rw [hresponse]; exact List.mem_append_right _ (List.mem_singleton_self _)) hdigest
        refine ⟨run, hrun, hhotkey, hid.trans hanswers.requestId, hepoch.trans hanswers.epochId,
          hquota.trans hanswers.quota, hterminalHotkey.trans hvalidator,
          hprotocol.trans hanswers.protocol, ?_⟩
        rw [← pyTake_map, hsubmissions, pyTake_map, hpayloads]

theorem run_authentic {n : Network} (h : Reachable env verify n) : Authentic env n := by
  induction h with
  | refl =>
    refine ⟨List.nodup_nil, ?_, ?_, ?_⟩
    · exact fun p hp => absurd hp List.not_mem_nil
    · exact fun run hrun => absurd hrun List.not_mem_nil
    · exact fun _ a ha => absurd ha List.not_mem_nil
  | tail _ hstep ih => exact step_authentic hstep ih

/-! ## acceptance of an unaltered response -/

/-- the synapse of a request, as the miner receives it -/
structure AsksFor (request : Request) (s : DoloresTaskSynapse) : Prop where
  terminal : ∃ d, s.dendrite = some d ∧ d.hotkey = some request.validatorHotkey
  protocol : s.protocolVersion = wireProtocolVersion
  requestId : s.requestId = request.requestId
  epochId : s.epochId = request.epochId
  quota : s.quota = request.quota

theorem signResponse_eq {hotkey : String} {sign : String → Bytes} {s response : DoloresTaskSynapse}
    {d : TerminalInfo} (hd : s.dendrite = some d)
    (h : signResponse env hotkey sign s = .ok response) :
    response = { s with
      responseHotkey := hotkey
      responseDigest := submissionsDigest env s.submissions
      responseSignature := "0x" ++ bytesHex (sign (messageOf env s d hotkey)) } := by
  unfold signResponse at h
  rw [hd] at h
  dsimp only at h
  obtain ⟨_, -, h⟩ := Except.bind_ok h
  rw [hd]
  exact (Except.ok.inj h).symm

theorem signature_ne_empty (raw : Bytes) : "0x" ++ bytesHex raw ≠ "" := by
  intro h
  have hlist := congrArg String.toList h
  rw [String.toList_append] at hlist
  exact nomatch hlist

theorem wireMiner_of_verified {request : Request} {endpoint : MinerEndpoint}
    {s : DoloresTaskSynapse}
    (hverify : verifyResponseSignature env verify endpoint s request.epochId request.quota
      request.requestId request.validatorHotkey = .ok ())
    (hsuccess : isSuccessResponse (.synapse s) = true)
    (hsize : responsePayloadSize env s.submissions ≤ request.maxResponseBytes) :
    wireMinerFromResponse env verify endpoint (.synapse s) request.quota request.epochId
        request.requestId request.validatorHotkey request.maxResponseBytes =
      .ok { hotkey := endpoint.hotkey, uid := endpoint.uid,
            payloads := pyTake request.quota s.submissions } := by
  unfold wireMinerFromResponse
  dsimp only
  rw [hsuccess, if_neg (by decide), hverify]
  dsimp only
  rw [if_neg (not_lt.mpr hsize)]

theorem wireMiner_of_signed {request : Request} {endpoint : MinerEndpoint}
    {sign : String → Bytes} {s response : DoloresTaskSynapse} (hasks : AsksFor request s)
    (hsign : signResponse env endpoint.hotkey sign s = .ok response)
    (hverify : ∀ message, verify endpoint.hotkey message ("0x" ++ bytesHex (sign message)) = true)
    (hsuccess : s.isSuccess = true) (herror : s.error = "")
    (hsize : responsePayloadSize env s.submissions ≤ request.maxResponseBytes) :
    wireMinerFromResponse env verify endpoint (.synapse response) request.quota request.epochId
        request.requestId request.validatorHotkey request.maxResponseBytes =
      .ok { hotkey := endpoint.hotkey, uid := endpoint.uid,
            payloads := pyTake request.quota s.submissions } := by
  obtain ⟨d, hd, hvalidator⟩ := hasks.terminal
  have hresponse := signResponse_eq hd hsign
  have hok : verifyResponseSignature env verify endpoint response request.epochId request.quota
      request.requestId request.validatorHotkey = .ok () := by
    rw [hresponse]
    refine (verify_ok_iff ..).mpr ⟨⟨⟨d, hd, hvalidator⟩, hasks.protocol, hasks.requestId,
      hasks.epochId, hasks.quota, rfl⟩, rfl, signature_ne_empty _, ?_⟩
    intro d' hd'
    have heq : d = d' := Option.some.inj (hd.symm.trans hd')
    rw [← heq]
    exact hverify _
  have hsuccessful : isSuccessResponse (.synapse response) = true := by
    rw [hresponse]
    unfold isSuccessResponse
    rw [hsuccess, herror]
    rfl
  have hpayloads : response.submissions = s.submissions := by rw [hresponse]
  rw [← hpayloads] at hsize ⊢
  exact wireMiner_of_verified hok hsuccessful hsize

/-! ## responses are authentic -/

variable (env verify) in
/-- In every network that any order of steps reaches, a miner that is not terminal was accepted for
an issued request, the only one with its id, and the holder of the endpoint's hotkey has signed
these payloads for that request.  A response signed for a request is accepted unaltered. -/
theorem responses_authentic (n : Network) (hrun : Reachable env verify n)
    (hsha : CollisionFree env n) :
    (∀ a ∈ n.accepted, a.miner.terminalStatus = none →
      (a.request ∈ n.requests ∧
        ∀ other ∈ n.requests, other.requestId = a.request.requestId → other = a.request) ∧
      ∃ run ∈ n.runs, SignedFor run a) ∧
    ∀ (request : Request) (endpoint : MinerEndpoint) (sign : String → Bytes)
      (s response : DoloresTaskSynapse), request ∈ n.requests → AsksFor request s →
      signResponse env endpoint.hotkey sign s = .ok response →
      (∀ message, verify endpoint.hotkey message ("0x" ++ bytesHex (sign message)) = true) →
      s.isSuccess = true → s.error = "" →
      responsePayloadSize env s.submissions ≤ request.maxResponseBytes →
      wireMinerFromResponse env verify endpoint (.synapse response) request.quota request.epochId
          request.requestId request.validatorHotkey request.maxResponseBytes =
        .ok { hotkey := endpoint.hotkey, uid := endpoint.uid,
              payloads := pyTake request.quota s.submissions } := by
  have hauthentic := run_authentic hrun
  refine ⟨fun a ha hnone => ?_, ?_⟩
  · obtain ⟨hmem, hsigned⟩ := hauthentic.accepted hsha a ha
    refine ⟨⟨hmem, fun other hother hid => ?_⟩, hsigned hnone⟩
    exact List.inj_on_of_nodup_map hauthentic.fresh hother hmem hid
  · intro request endpoint sign s response _ hasks hsign hverify hsuccess herror hsize
    exact wireMiner_of_signed hasks hsign hverify hsuccess herror hsize

end

section

def authRequest : Request :=
  { requestId := "0123456789abcdef0123456789abcdef", epochId := 7, quota := 1,
    validatorHotkey := "validator", maxResponseBytes := 1000 }

def authTerminal : TerminalInfo :=
  { nonce := some 5, uuid := some "u", hotkey := some "validator", statusMessage := none }

/-- a miner's answer with two payloads to a request for one -/
def authSynapse : DoloresTaskSynapse :=
  { protocolVersion := wireProtocolVersion, requestId := authRequest.requestId, epochId := 7,
    quota := 1, submissions := [[("task_id", .str "t1")], [("task_id", .str "t2")]], error := "",
    responseHotkey := "", responseDigest := "", responseSignature := "",
    dendrite := some authTerminal, isSuccess := true }

def authEndpoint : MinerEndpoint :=
  { host := "192.0.2.7", port := 8091, hotkey := "miner", uid := 3 }

/-- a keypair whose signature of every message is the same byte -/
def authSign : String → Bytes := fun _ => [7]

def authResponse : DoloresTaskSynapse :=
  { authSynapse with
    responseHotkey := "miner"
    responseDigest := submissionsDigest Env.plain authSynapse.submissions
    responseSignature := "0x" ++ bytesHex (authSign "") }

def authMessage : String := messageOf Env.plain authSynapse authTerminal "miner"

/-- the signature verifies for the one message that was signed -/
def authVerify (hotkey message signature : String) : Bool :=
  hotkey == "miner" && message == authMessage && signature == authResponse.responseSignature

def authMiner : WireMiner :=
  { hotkey := "miner", uid := 3, payloads := [[("task_id", .str "t1")]] }

def authNetwork : Network :=
  { requests := [authRequest]
    runs := [⟨"miner", authSynapse, authTerminal⟩]
    signed := [("miner", authMessage)]
    hashed := [payloadsText Env.plain authSynapse.submissions,
      payloadsText Env.plain authSynapse.submissions]
    accepted := [⟨authRequest, authEndpoint, authMiner⟩] }

theorem authNetwork_authentic :
    ∃ run ∈ authNetwork.runs, SignedFor run ⟨authRequest, authEndpoint, authMiner⟩ := by
  have hvalues : JsonPayloads Env.plain authSynapse.submissions := by
    simp [JsonPayloads, authSynapse, Printable, PrintableItems, PrintableFields, Dict.keys]
  have haccept : wireMinerFromResponse Env.plain authVerify authEndpoint (.synapse authResponse)
      authRequest.quota authRequest.epochId authRequest.requestId authRequest.validatorHotkey
      authRequest.maxResponseBytes = .ok authMiner := by
    refine wireMiner_of_verified ?_ rfl (by decide +kernel)
    refine (verify_ok_iff ..).mpr ⟨⟨⟨_, rfl, rfl⟩, rfl, rfl, rfl, rfl, rfl⟩, rfl, ?_, ?_⟩
    · exact signature_ne_empty _
    · intro d hd
      have heq : d = authTerminal := (Option.some.inj hd).symm
      rw [heq]
      show (("miner" == "miner") && (authMessage == authMessage) && (_ == _)) = true
      rw [beq_self_eq_true, beq_self_eq_true, beq_self_eq_true]
      rfl
  have hreach : Reachable Env.plain authVerify authNetwork := by
    refine .tail (.tail (.tail .refl (.query authRequest ?_)) (.signResponse "miner" authSign
      authSynapse authResponse authTerminal rfl hvalues rfl)) (.deliver authRequest ?_ authEndpoint
        (.synapse authResponse) authMiner ?_ ?_ haccept)
    · exact fun _ h => absurd h List.not_mem_nil
    · exact List.mem_singleton_self _
    · intro s hs
      rw [← Response.synapse.inj hs]
      exact hvalues
    · intro s message _ hverify
      unfold authVerify at hverify
      rw [Bool.and_eq_true, Bool.and_eq_true, beq_iff_eq, beq_iff_eq] at hverify
      rw [hverify.1.1, hverify.1.2]
      exact List.mem_singleton_self _
  have hsha : CollisionFree Env.plain authNetwork := by
    intro text htext other hother _
    have hsame : ∀ t ∈ authNetwork.hashed, t = payloadsText Env.plain authSynapse.submissions := by
      intro t ht
      simpa [authNetwork] using ht
    rw [hsame text htext, hsame other hother]
  have h := responses_authentic Env.plain authVerify authNetwork hreach hsha
  exact (h.1 _ (List.mem_singleton_self _) rfl).2

end

end Dolores
