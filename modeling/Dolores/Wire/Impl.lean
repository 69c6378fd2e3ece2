import Dolores.Archive.World

/-!
# Responses of miners (`wire.py`)

`wireMinerFromResponse` turns the response of one miner into the input of an epoch, and
`queryMiners` does so for the responses of all miners.  `verify hotkey message signature` is
`Keypair(ss58_address=hotkey).verify(message, signature)`.
-/

namespace Dolores

def wireProtocolVersion : String := "dolores-wire-v1"
def responseEnvelopeOverheadBytes : Int := 64 * 1024

/-- `synapse.dendrite` -/
structure TerminalInfo where
  nonce : Option Int
  uuid : Option String
  hotkey : Option String
  statusMessage : Option String

structure DoloresTaskSynapse where
  protocolVersion : String
  requestId : String
  epochId : Int
  quota : Int
  submissions : List Obj
  error : String
  responseHotkey : String
  responseDigest : String
  responseSignature : String
  dendrite : Option TerminalInfo
  isSuccess : Bool

/-- what the dendrite hands back for one axon; `other` is any object that is not a
`DoloresTaskSynapse`, with its `error` and its terminal's status message -/
inductive Response where
  | synapse (s : DoloresTaskSynapse)
  | other (error statusMessage : String)

structure MinerEndpoint where
  host : String
  port : Int
  hotkey : String
  uid : Int
  coldkey : String := ""

structure WireMiner where
  hotkey : String
  uid : Int
  payloads : List Obj
  terminalStatus : Option String := none
  terminalReason : String := ""

/-- `str(value or "")` -/
def orEmpty : Option String → String
  | some s => s
  | none => ""

def isSuccessResponse : Response → Bool
  | .synapse s => s.isSuccess && s.error == ""
  | .other _ _ => false

def responseError : Response → String
  | .synapse s =>
    let status := orEmpty (s.dendrite.bind (·.statusMessage))
    if s.error ≠ "" then s.error else if status ≠ "" then status else "wire query failed"
  | .other error status =>
    if error ≠ "" then error else if status ≠ "" then status else "wire query failed"

section
variable (env : Env)

def payloadsText (payloads : List Obj) : String :=
  canonicalJson env.text (.arr (payloads.map .obj))

def responsePayloadSize (payloads : List Obj) : Int := (payloadsText env payloads).utf8ByteSize

def submissionsDigest (payloads : List Obj) : String :=
  (env.sha256Text (payloadsText env payloads)).text

def isAscii (s : String) : Bool := s.toList.all fun c => decide (c.toNat < 128)

/-- `secrets.compare_digest` on two strings -/
def compareDigest (a b : String) : Except Exn Bool :=
  if isAscii a && isAscii b then .ok (a == b)
  else .error (.typeError "comparing strings with non-ASCII characters is not supported")

def responseMessage (protocolVersion requestId : String) (requestNonce : Option Int)
    (requestUuid validatorHotkey : Option String) (minerHotkey : String) (epochId quota : Int)
    (digest : String) : String :=
  "dolores-response-v1:" ++ canonicalJson env.text (.obj [
    ("protocol_version", .str protocolVersion),
    ("request_id", .str requestId),
    ("request_nonce", .ofOption .int requestNonce),
    ("request_uuid", .ofOption .str requestUuid),
    ("validator_hotkey", .ofOption .str validatorHotkey),
    ("miner_hotkey", .str minerHotkey),
    ("epoch_id", .int epochId),
    ("quota", .int quota),
    ("submissions_digest", .str digest)])

/-- `request_id_is_valid` -/
def requestIdIsValid (value : String) : Bool :=
  decide (32 ≤ value.length) && decide (value.length ≤ 64) &&
    value.toList.all fun c => "0123456789abcdef".toList.contains c

/-- `bytes.hex` -/
def bytesHex (raw : Bytes) : String :=
  String.ofList (raw.flatMap fun b => [hexDigit (b.toNat / 16), hexDigit (b.toNat % 16)])

/-- `raise ResponseAuthenticationError(msg)` if the condition holds -/
def rejectIf (c : Prop) [Decidable c] (msg : String) : Except Exn Unit :=
  if c then .error (.responseAuthenticationError msg) else .ok ()

/-- `sign_response` with the keypair of address `minerHotkey` that signs with `sign` -/
def signResponse (minerHotkey : String) (sign : String → Bytes) (synapse : DoloresTaskSynapse) :
    Except Exn DoloresTaskSynapse :=
  match synapse.dendrite with
  | none => .error (.responseAuthenticationError "missing request terminal")
  | some dendrite => do
    rejectIf (requestIdIsValid synapse.requestId = false) "invalid request id"
    let digest := submissionsDigest env synapse.submissions
    let message := responseMessage env synapse.protocolVersion synapse.requestId dendrite.nonce
      dendrite.uuid dendrite.hotkey minerHotkey synapse.epochId synapse.quota digest
    return { synapse with
      responseHotkey := minerHotkey
      responseDigest := digest
      responseSignature := "0x" ++ bytesHex (sign message) }

variable (verify : String → String → String → Bool)

def verifyResponseSignature (endpoint : MinerEndpoint) (response : DoloresTaskSynapse)
    (expectedEpochId expectedQuota : Int) (expectedRequestId expectedValidatorHotkey : String) :
    Except Exn Unit :=
  match response.dendrite with
  | none => .error (.responseAuthenticationError "missing request terminal")
  | some dendrite => do
    rejectIf (response.protocolVersion ≠ wireProtocolVersion) "protocol version mismatch"
    rejectIf (response.requestId ≠ expectedRequestId) "request id mismatch"
    rejectIf (response.epochId ≠ expectedEpochId) "epoch mismatch"
    rejectIf (response.quota ≠ expectedQuota) "quota mismatch"
    rejectIf (dendrite.hotkey ≠ some expectedValidatorHotkey) "validator hotkey mismatch"
    rejectIf (response.responseHotkey ≠ endpoint.hotkey) "miner hotkey mismatch"
    let digest := submissionsDigest env response.submissions
    let equal ← compareDigest response.responseDigest digest
    rejectIf (equal = false) "submissions digest mismatch"
    rejectIf (response.responseSignature = "") "missing response signature"
    let message := responseMessage env response.protocolVersion response.requestId dendrite.nonce
      dendrite.uuid dendrite.hotkey response.responseHotkey response.epochId response.quota digest
    rejectIf (verify endpoint.hotkey message response.responseSignature = false)
      "response signature mismatch"

def wireMinerFromResponse (endpoint : MinerEndpoint) (response : Response)
    (quota expectedEpochId : Int) (expectedRequestId expectedValidatorHotkey : String)
    (maxResponseBytes : Int) : Except Exn WireMiner :=
  let terminal (status reason : String) : WireMiner :=
    { hotkey := endpoint.hotkey, uid := endpoint.uid, payloads := [], terminalStatus := status,
      terminalReason := reason }
  match response with
  | .other _ _ => .ok (terminal "unreachable" ("unreachable:" ++ responseError response))
  | .synapse s =>
    if isSuccessResponse response = false then
      .ok (terminal "unreachable" ("unreachable:" ++ responseError response))
    else
      match verifyResponseSignature env verify endpoint s expectedEpochId quota expectedRequestId
          expectedValidatorHotkey with
      | .error (.responseAuthenticationError msg) =>
        .ok (terminal "invalid" ("response_auth:" ++ msg))
      | .error e => .error e
      | .ok () =>
        let size := responsePayloadSize env s.submissions
        if size > maxResponseBytes then
          .ok (terminal "invalid" s!"response_size:{size}>{maxResponseBytes}")
        else
          .ok { hotkey := endpoint.hotkey, uid := endpoint.uid,
                payloads := pyTake quota s.submissions }

/-- `query_miners` once the dendrite has answered -/
def queryMiners (endpoints : List MinerEndpoint) (epochId quota maxResponseBytes : Int)
    (requestId validatorHotkey : String) (answer : Except Exn (List Response)) :
    Except Exn (List WireMiner) :=
  match answer with
  | .error e =>
    if e.isException then
      .ok (endpoints.map fun endpoint =>
        { hotkey := endpoint.hotkey, uid := endpoint.uid, payloads := [],
          terminalStatus := "unreachable",
          terminalReason := "unreachable:wire query failed: " ++ e.str })
    else .error e
  | .ok responses => do
    let miners ← (endpoints.zip responses).mapM fun p =>
      wireMinerFromResponse env verify p.1 p.2 quota epochId requestId validatorHotkey
        maxResponseBytes
    if endpoints.length ≠ responses.length then
      .error (.valueError "zip() arguments have different lengths")
    else .ok miners

end

end Dolores
