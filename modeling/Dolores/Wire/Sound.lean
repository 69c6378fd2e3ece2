import Dolores.Lib.Except
import Dolores.Wire.Impl

/-!
# A response harms only its own miner

`verifyResponseSignature` either accepts, rejects with a `ResponseAuthenticationError`, or raises
a `TypeError` from `secrets.compare_digest`; the last happens exactly when every check before the
digest passes and `response_digest` is not ASCII (`verify_cases`, `verify_of_nonAscii`).
`wireMinerFromResponse` catches only the first kind of exception, hence the exact condition
under which it returns (`wireMiner_returns_iff`) and under which `queryMiners` does.
-/

set_option linter.unusedSectionVars false

namespace Dolores

section
variable (endpoint : MinerEndpoint) (s : DoloresTaskSynapse)
  (expectedEpochId quota : Int) (expectedRequestId expectedValidatorHotkey : String)

/-- the synapse answers the request: every check before the digest passes -/
structure AnswersRequest : Prop where
  dendrite : ∃ d, s.dendrite = some d ∧ d.hotkey = some expectedValidatorHotkey
  protocol : s.protocolVersion = wireProtocolVersion
  requestId : s.requestId = expectedRequestId
  epochId : s.epochId = expectedEpochId
  quota : s.quota = quota
  hotkey : s.responseHotkey = endpoint.hotkey

/-- the digest can be compared, or an earlier check has rejected the response -/
def DigestComparable (response : Response) : Prop :=
  ∀ s, response = .synapse s → isSuccessResponse response = true →
    AnswersRequest endpoint s expectedEpochId quota expectedRequestId expectedValidatorHotkey →
    isAscii s.responseDigest = true

theorem isAscii_submissionsDigest (env : Env) (payloads : List Obj) :
    isAscii (submissionsDigest env payloads) = true := by
  unfold isAscii
  rw [List.all_eq_true]
  intro c hc
  exact decide_eq_true (HexDigest.ascii _ c hc)

theorem rejectIf_cases (c : Prop) [Decidable c] (msg : String) :
    (¬ c ∧ rejectIf c msg = .ok ()) ∨
      (c ∧ rejectIf c msg = .error (.responseAuthenticationError msg)) := by
  unfold rejectIf
  by_cases h : c
  · exact .inr ⟨h, if_pos h⟩
  · exact .inl ⟨h, if_neg h⟩

/-- a check followed by the rest either rejects or passes on to the rest -/
theorem rejectIf_bind {c : Prop} [Decidable c] {msg : String} {rest : Except Exn Unit} :
    ((do rejectIf c msg; rest) = rest ∧ ¬ c) ∨
      (do rejectIf c msg; rest) = .error (.responseAuthenticationError msg) ∧ c := by
  rcases rejectIf_cases c msg with ⟨hc, h⟩ | ⟨hc, h⟩
  · refine .inl ⟨?_, hc⟩
    rw [h]; rfl
  · refine .inr ⟨?_, hc⟩
    rw [h]; rfl

theorem compareDigest_of_ascii {a b : String} (ha : isAscii a = true) (hb : isAscii b = true) :
    compareDigest a b = .ok (a == b) := by
  unfold compareDigest
  rw [ha, hb]
  rfl

theorem compareDigest_of_nonAscii {a : String} (b : String) (ha : isAscii a = false) :
    compareDigest a b =
      .error (.typeError "comparing strings with non-ASCII characters is not supported") := by
  unfold compareDigest
  rw [ha]
  rfl

variable (env : Env) (verify : String → String → String → Bool)

/-- the three ways in which verification ends -/
theorem verify_cases :
    let v := verifyResponseSignature env verify endpoint s expectedEpochId quota expectedRequestId
      expectedValidatorHotkey
    v = .ok () ∨ (∃ msg, v = .error (.responseAuthenticationError msg)) ∨
      (isAscii s.responseDigest = false ∧
        AnswersRequest endpoint s expectedEpochId quota expectedRequestId
          expectedValidatorHotkey) := by
  intro v
  show verifyResponseSignature env verify endpoint s expectedEpochId quota expectedRequestId
    expectedValidatorHotkey = _ ∨ (∃ msg, verifyResponseSignature env verify endpoint s
      expectedEpochId quota expectedRequestId expectedValidatorHotkey = _) ∨ _
  unfold verifyResponseSignature
  cases hd : s.dendrite with
  | none => exact .inr (.inl ⟨_, rfl⟩)
  | some d =>
    dsimp only
    rcases rejectIf_bind (c := s.protocolVersion ≠ wireProtocolVersion) with ⟨h, h1⟩ | ⟨h, _⟩ <;>
      rw [h]
    swap; · exact .inr (.inl ⟨_, rfl⟩)
    rcases rejectIf_bind (c := s.requestId ≠ expectedRequestId) with ⟨h, h2⟩ | ⟨h, _⟩ <;> rw [h]
    swap; · exact .inr (.inl ⟨_, rfl⟩)
    rcases rejectIf_bind (c := s.epochId ≠ expectedEpochId) with ⟨h, h3⟩ | ⟨h, _⟩ <;> rw [h]
    swap; · exact .inr (.inl ⟨_, rfl⟩)
    rcases rejectIf_bind (c := s.quota ≠ quota) with ⟨h, h4⟩ | ⟨h, _⟩ <;> rw [h]
    swap; · exact .inr (.inl ⟨_, rfl⟩)
    rcases rejectIf_bind (c := d.hotkey ≠ some expectedValidatorHotkey) with ⟨h, h5⟩ | ⟨h, _⟩ <;>
      rw [h]
    swap; · exact .inr (.inl ⟨_, rfl⟩)
    rcases rejectIf_bind (c := s.responseHotkey ≠ endpoint.hotkey) with ⟨h, h6⟩ | ⟨h, _⟩ <;> rw [h]
    swap; · exact .inr (.inl ⟨_, rfl⟩)
    cases ha : isAscii s.responseDigest with
    | false =>
      exact .inr (.inr ⟨rfl, ⟨d, hd, not_not.mp h5⟩, not_not.mp h1, not_not.mp h2, not_not.mp h3,
        not_not.mp h4, not_not.mp h6⟩)
    | true =>
      rw [compareDigest_of_ascii ha (isAscii_submissionsDigest env _), Except.ok_bind]
      rcases rejectIf_bind
        (c := (s.responseDigest == submissionsDigest env s.submissions) = false) with ⟨h, _⟩ | ⟨h, _⟩
        <;> rw [h]
      swap; · exact .inr (.inl ⟨_, rfl⟩)
      rcases rejectIf_bind (c := s.responseSignature = "") with ⟨h, _⟩ | ⟨h, _⟩ <;> rw [h]
      swap; · exact .inr (.inl ⟨_, rfl⟩)
      unfold rejectIf
      split
      · exact .inr (.inl ⟨_, rfl⟩)
      · exact .inl rfl

/-- when every earlier check passes, a digest that is not ASCII escapes as a `TypeError` -/
theorem verify_of_nonAscii
    (hr : AnswersRequest endpoint s expectedEpochId quota expectedRequestId expectedValidatorHotkey)
    (ha : isAscii s.responseDigest = false) :
    verifyResponseSignature env verify endpoint s expectedEpochId quota expectedRequestId
        expectedValidatorHotkey =
      .error (.typeError "comparing strings with non-ASCII characters is not supported") := by
  obtain ⟨⟨d, hd, hv⟩, hp, hid, he, hq, hh⟩ := hr
  unfold verifyResponseSignature
  rw [hd]
  dsimp only
  rw [compareDigest_of_nonAscii _ ha]
  unfold rejectIf
  rw [if_neg (not_not.mpr hp), if_neg (not_not.mpr hid), if_neg (not_not.mpr he),
    if_neg (not_not.mpr hq), if_neg (not_not.mpr hv), if_neg (not_not.mpr hh)]
  rfl

variable (maxResponseBytes : Int)

/-- the result is terminal and carries no payload -/
def WireMiner.Terminal (m : WireMiner) : Prop :=
  (m.terminalStatus = some "invalid" ∨ m.terminalStatus = some "unreachable") ∧ m.payloads = []

/-- the response is a success response that verifies -/
def Verified (response : Response) : Prop :=
  ∃ s, response = .synapse s ∧ isSuccessResponse response = true ∧
    verifyResponseSignature env verify endpoint s expectedEpochId quota expectedRequestId
      expectedValidatorHotkey = .ok ()

theorem wireMiner_of_comparable (response : Response)
    (h : DigestComparable endpoint expectedEpochId quota expectedRequestId expectedValidatorHotkey
      response) :
    ∃ m, wireMinerFromResponse env verify endpoint response quota expectedEpochId
        expectedRequestId expectedValidatorHotkey maxResponseBytes = .ok m ∧
      m.hotkey = endpoint.hotkey ∧
      (¬ Verified endpoint expectedEpochId quota expectedRequestId expectedValidatorHotkey env
        verify response → m.Terminal) := by
  cases response with
  | other e st => exact ⟨_, rfl, rfl, fun _ => ⟨.inr rfl, rfl⟩⟩
  | synapse s =>
    unfold wireMinerFromResponse
    dsimp only
    cases hs : isSuccessResponse (.synapse s) with
    | false => exact ⟨_, rfl, rfl, fun _ => ⟨.inr rfl, rfl⟩⟩
    | true =>
      rw [if_neg (by decide)]
      rcases verify_cases endpoint s expectedEpochId quota expectedRequestId
        expectedValidatorHotkey env verify with hv | ⟨msg, hv⟩ | ⟨ha, hr⟩
      · rw [hv]
        dsimp only
        split
        · exact ⟨_, rfl, rfl, fun hn => (hn ⟨s, rfl, hs, hv⟩).elim⟩
        · exact ⟨_, rfl, rfl, fun hn => (hn ⟨s, rfl, hs, hv⟩).elim⟩
      · rw [hv]
        exact ⟨_, rfl, rfl, fun _ => ⟨.inl rfl, rfl⟩⟩
      · have hc := h s rfl hs hr
        rw [ha] at hc
        exact (Bool.false_ne_true hc).elim

theorem wireMiner_of_nonAscii (s : DoloresTaskSynapse)
    (hs : isSuccessResponse (.synapse s) = true)
    (hr : AnswersRequest endpoint s expectedEpochId quota expectedRequestId expectedValidatorHotkey)
    (ha : isAscii s.responseDigest = false) :
    ∃ e, wireMinerFromResponse env verify endpoint (.synapse s) quota expectedEpochId
      expectedRequestId expectedValidatorHotkey maxResponseBytes = .error e := by
  unfold wireMinerFromResponse
  dsimp only
  rw [hs, if_neg (by decide), verify_of_nonAscii endpoint s expectedEpochId quota expectedRequestId
    expectedValidatorHotkey env verify hr ha]
  exact ⟨_, rfl⟩

/-- the conversion of one response returns exactly when its digest can be compared -/
theorem wireMiner_returns_iff (response : Response) :
    (∃ m, wireMinerFromResponse env verify endpoint response quota expectedEpochId
        expectedRequestId expectedValidatorHotkey maxResponseBytes = .ok m) ↔
      DigestComparable endpoint expectedEpochId quota expectedRequestId expectedValidatorHotkey
        response := by
  constructor
  · rintro ⟨m, hm⟩ s rfl hs hr
    cases ha : isAscii s.responseDigest with
    | true => rfl
    | false =>
      obtain ⟨e, he⟩ := wireMiner_of_nonAscii endpoint expectedEpochId quota expectedRequestId
        expectedValidatorHotkey env verify maxResponseBytes s hs hr ha
      rw [he] at hm
      exact nomatch hm
  · intro h
    obtain ⟨m, hm, _⟩ := wireMiner_of_comparable endpoint expectedEpochId quota expectedRequestId
      expectedValidatorHotkey env verify maxResponseBytes response h
    exact ⟨m, hm⟩

end

/-! ## all miners -/

section
variable (env : Env) (verify : String → String → String → Bool) (epochId quota : Int)
  (requestId validatorHotkey : String) (maxResponseBytes : Int)

/-- A response whose digest can be compared gives a miner, terminal unless it verifies; any other
raises.  A query returns one miner per endpoint exactly when all its responses are of the first
kind. -/
theorem responses_harm_own_miner_iff :
    (∀ (endpoint : MinerEndpoint) (response : Response),
      (∃ m, wireMinerFromResponse env verify endpoint response quota epochId requestId
          validatorHotkey maxResponseBytes = .ok m ∧ m.hotkey = endpoint.hotkey ∧
        (¬ Verified endpoint epochId quota requestId validatorHotkey env verify response →
          m.Terminal)) ↔
      DigestComparable endpoint epochId quota requestId validatorHotkey response) ∧
    (∀ (endpoints : List MinerEndpoint) (responses : List Response),
      responses.length = endpoints.length →
      ((∃ miners, queryMiners env verify endpoints epochId quota maxResponseBytes requestId
          validatorHotkey (.ok responses) = .ok miners ∧ miners.length = endpoints.length) ↔
        ∀ p ∈ endpoints.zip responses,
          DigestComparable p.1 epochId quota requestId validatorHotkey p.2)) := by
  refine ⟨fun endpoint response => ⟨?_, fun h => ?_⟩, fun endpoints responses hlen => ?_⟩
  · rintro ⟨m, hm, _⟩
    exact (wireMiner_returns_iff endpoint epochId quota requestId validatorHotkey env verify
      maxResponseBytes response).mp ⟨m, hm⟩
  · exact wireMiner_of_comparable endpoint epochId quota requestId validatorHotkey env verify
      maxResponseBytes response h
  · have hzip : (endpoints.zip responses).length = endpoints.length := by
      rw [List.length_zip, hlen, Nat.min_self]
    have hmap := Except.mapM_ok_iff (fun p : MinerEndpoint × Response =>
      wireMinerFromResponse env verify p.1 p.2 quota epochId requestId validatorHotkey
        maxResponseBytes) (endpoints.zip responses)
    have hall : (∀ p ∈ endpoints.zip responses, ∃ m, wireMinerFromResponse env verify p.1 p.2
        quota epochId requestId validatorHotkey maxResponseBytes = .ok m) ↔
        ∀ p ∈ endpoints.zip responses,
          DigestComparable p.1 epochId quota requestId validatorHotkey p.2 :=
      forall₂_congr fun p _ => wireMiner_returns_iff p.1 epochId quota requestId validatorHotkey
        env verify maxResponseBytes p.2
    rw [← hall, ← hmap, hzip]
    have hquery : queryMiners env verify endpoints epochId quota maxResponseBytes requestId
        validatorHotkey (.ok responses) = (endpoints.zip responses).mapM fun p =>
          wireMinerFromResponse env verify p.1 p.2 quota epochId requestId validatorHotkey
            maxResponseBytes := by
      unfold queryMiners
      simp only [hlen, ne_eq, not_true_eq_false, if_false]
      exact Except.bind_ok_self _
    rw [hquery]

end

section

def sampleEndpoint : MinerEndpoint :=
  { host := "192.0.2.7", port := 8091, hotkey := "miner", uid := 3 }

/-- answers request `abc` of epoch 1 and quota 2, with the given digest -/
def sampleSynapse (digest : String) : DoloresTaskSynapse :=
  { protocolVersion := wireProtocolVersion, requestId := "abc", epochId := 1, quota := 2,
    submissions := [], error := "", responseHotkey := "miner", responseDigest := digest,
    responseSignature := "0x00", isSuccess := true,
    dendrite := some { nonce := some 7, uuid := some "u", hotkey := some "validator",
                       statusMessage := none } }

theorem responses_harm_own_miner_sample :
    ∃ miners, queryMiners Env.plain (fun _ _ _ => false) [sampleEndpoint, sampleEndpoint] 1 2 1000
        "abc" "validator" (.ok [.synapse (sampleSynapse "00"), .other "timeout" ""]) = .ok miners ∧
      miners.length = 2 := by
  refine ((responses_harm_own_miner_iff Env.plain (fun _ _ _ => false) 1 2 "abc" "validator"
    1000).2 [sampleEndpoint, sampleEndpoint]
    [.synapse (sampleSynapse "00"), .other "timeout" ""] rfl).mpr ?_
  intro p hp s hs _ _
  rcases List.mem_cons.mp hp with rfl | hp
  · obtain rfl := Response.synapse.inj hs
    decide
  · obtain rfl := List.mem_singleton.mp hp
    exact nomatch hs

/-- one accented letter in the digest makes the conversion raise -/
theorem nonAscii_digest_escapes :
    ¬ ∀ (env : Env) (verify : String → String → String → Bool) (endpoint : MinerEndpoint)
        (s : DoloresTaskSynapse) (epochId quota maxResponseBytes : Int)
        (requestId validatorHotkey : String),
      isSuccessResponse (.synapse s) = true →
      ∃ m, wireMinerFromResponse env verify endpoint (.synapse s) quota epochId requestId
        validatorHotkey maxResponseBytes = .ok m := by
  intro h
  obtain ⟨m, hm⟩ := h Env.plain (fun _ _ _ => true) sampleEndpoint (sampleSynapse "\u00e9") 1 2 1000
    "abc" "validator" rfl
  have hr : AnswersRequest sampleEndpoint (sampleSynapse "\u00e9") 1 2 "abc" "validator" :=
    ⟨⟨_, rfl, rfl⟩, rfl, rfl, rfl, rfl, rfl⟩
  obtain ⟨e, he⟩ := wireMiner_of_nonAscii sampleEndpoint 1 2 "abc" "validator" Env.plain
    (fun _ _ _ => true) 1000 (sampleSynapse "\u00e9") rfl hr (by decide)
  rw [he] at hm
  exact nomatch hm

end

end Dolores
