import Mathlib.Algebra.Order.Ring.Rat
import Mathlib.Tactic.Linarith
import Dolores.Lib.Expiry
import Dolores.Py.Json

/-!
# The request verifier of the cohort's axon (`miner_cli.py`)

The verifier checks the request's metadata and the freshness of its nonce, lets the SDK
authenticate it, and then applies a token bucket and a replay cache.  Clock readings are rational
numbers of seconds, except for `time.time_ns()`.

* `acceptedIdentities_eq_run`       the replay cache is the expiring cache of the library;
* `acceptedIdentities_nodup_iff`    no identity is accepted twice exactly when no two requests of
                                    one identity reach the cache more than 30 s apart;
* `acceptedIdentities_nodup_of_window`   a window for the nonce that ensures it.
-/

namespace Dolores

def maxRequestAgeNs : Int := 30000000000
def maxRequestFutureSkewNs : Int := 5000000000
def maxRequestTimeoutSeconds : ℚ := 30
def authRateBurst : ℚ := 6
def authRatePerSecond : ℚ := 1 / 5

/-! ## the token bucket -/

/-- the floats of the source, in exact arithmetic -/
structure TokenBucket where
  tokens : ℚ
  updatedAt : ℚ

structure TokenBucketLimiter where
  burst : ℚ
  ratePerSecond : ℚ
  buckets : Dict String TokenBucket := []

def TokenBucketLimiter.allow (l : TokenBucketLimiter) (key : String) (now : ℚ) :
    Bool × TokenBucketLimiter :=
  let bucket := (Dict.get? l.buckets key).getD { tokens := l.burst, updatedAt := now }
  let elapsed := max 0 (now - bucket.updatedAt)
  let tokens := min l.burst (bucket.tokens + elapsed * l.ratePerSecond)
  let allowed := decide (1 ≤ tokens)
  let tokens := if allowed then tokens - 1 else tokens
  (allowed, { l with buckets := Dict.set l.buckets key { tokens, updatedAt := now } })

/-! ## requests -/

/-- the terminal of a request, with the values the SDK hands over -/
structure RequestTerminal where
  hotkey : Json
  uuid : Json
  nonce : Json
  version : Json

structure TaskRequest where
  dendrite : Option RequestTerminal
  timeout : Json

/-- one call of `verify`: the request, the readings of the clocks in their order, and what
`axon.default_verify` answers -/
structure VerifierCall where
  synapse : TaskRequest
  timeNs : Int
  defaultVerify : Except Exn Unit
  limiterNow : ℚ
  monotonic : ℚ

abbrev Identity : Type := String × String × Int

section
variable (T : PyText) (minimumVersion : Int)

/-- `str(value or "")` -/
def textOrEmpty (j : Json) : String := if j.truthy then j.pyStr T else ""

/-- `int(value)`, with the errors that the verifier translates -/
def metadataInt (j : Json) : Except Exn Int :=
  match j.toInt with
  | .error (.typeError _) | .error (.valueError _) =>
    .error (.valueError "invalid authenticated request metadata")
  | r => r

/-- `0 < float(timeout) <= MAX_REQUEST_TIMEOUT_SECONDS` -/
def timeoutInPolicy : Json → Except Exn Bool
  | .float .nan | .float .posInf | .float .negInf => .ok false
  | j => do
    let timeout ← j.toFloat T
    .ok (decide (0 < timeout ∧ timeout ≤ maxRequestTimeoutSeconds))

/-- the checks before `default_verify` -/
def checkRequest (timeNs : Int) (synapse : TaskRequest) : Except Exn Identity :=
  match synapse.dendrite with
  | none => .error (.valueError "missing request terminal")
  | some terminal => do
    let hotkey := textOrEmpty T terminal.hotkey
    let requestUuid := textOrEmpty T terminal.uuid
    let nonce ← metadataInt terminal.nonce
    let version ← metadataInt terminal.version
    if hotkey = "" ∨ requestUuid = "" ∨ 128 < requestUuid.length then
      .error (.valueError "invalid authenticated request identity")
    else if version < minimumVersion then
      .error (.valueError "unsupported authenticated request version")
    else
      let inPolicy ← timeoutInPolicy T synapse.timeout
      if inPolicy = false then .error (.valueError "request timeout exceeds cohort policy")
      else if maxRequestAgeNs < timeNs - nonce then .error (.valueError "request nonce is stale")
      else if timeNs - nonce < -maxRequestFutureSkewNs then
        .error (.valueError "request nonce is too far in the future")
      else .ok (hotkey, requestUuid, nonce)

/-! ## `verify` -/

structure VerifierState where
  limiter : TokenBucketLimiter
  accepted : Dict Identity ℚ := []

/-- the state of a new verifier -/
def newVerifier : VerifierState where
  limiter := { burst := authRateBurst, ratePerSecond := authRatePerSecond }

/-- the age in seconds at which an entry of the cache is dropped -/
def maxRequestAge : ℚ := maxRequestAgeNs / 1000000000

/-- the answer of one call, with the identity that it accepts -/
def verify (s : VerifierState) (c : VerifierCall) : Except Exn Identity × VerifierState :=
  match checkRequest T minimumVersion c.timeNs c.synapse with
  | .error e => (.error e, s)
  | .ok identity =>
    match c.defaultVerify with
    | .error e => (.error e, s)
    | .ok () =>
      let (allowed, limiter) := s.limiter.allow identity.1 c.limiterNow
      if allowed = false then
        (.error (.valueError "authenticated request rate exceeded"), { s with limiter })
      else
        let (fresh, accepted) := Expiry.offer maxRequestAge s.accepted (identity, c.monotonic)
        if fresh = false then
          (.error (.valueError "authenticated request replayed"), { limiter, accepted })
        else (.ok identity, { limiter, accepted })

/-- the identities that a sequence of calls accepts -/
def acceptedIdentities : VerifierState → List VerifierCall → List Identity
  | _, [] => []
  | s, c :: calls =>
    match verify T minimumVersion s c with
    | (.ok identity, s) => identity :: acceptedIdentities s calls
    | (.error _, s) => acceptedIdentities s calls

/-- the identities that reach the cache, each with the reading of the clock there -/
def cacheRequests : TokenBucketLimiter → List VerifierCall → List (Identity × ℚ)
  | _, [] => []
  | limiter, c :: calls =>
    match checkRequest T minimumVersion c.timeNs c.synapse, c.defaultVerify with
    | .ok identity, .ok () =>
      let (allowed, limiter) := limiter.allow identity.1 c.limiterNow
      if allowed = false then cacheRequests limiter calls
      else (identity, c.monotonic) :: cacheRequests limiter calls
    | _, _ => cacheRequests limiter calls

variable {T minimumVersion}

/-- the verifier is an expiring cache behind the other checks -/
theorem acceptedIdentities_eq_run (s : VerifierState) (calls : List VerifierCall) :
    acceptedIdentities T minimumVersion s calls =
      Expiry.run maxRequestAge s.accepted (cacheRequests T minimumVersion s.limiter calls) := by
  induction calls generalizing s with
  | nil => rfl
  | cons c calls ih =>
    unfold acceptedIdentities cacheRequests verify
    cases checkRequest T minimumVersion c.timeNs c.synapse with
    | error e => exact ih s
    | ok identity =>
      cases c.defaultVerify with
      | error e => exact ih s
      | ok u =>
        dsimp only
        generalize s.limiter.allow identity.1 c.limiterNow = answer
        obtain ⟨allowed, limiter⟩ := answer
        cases allowed with
        | false => exact ih { s with limiter }
        | true =>
          dsimp only
          rw [if_neg (show ¬ true = false by decide), if_neg (show ¬ true = false by decide),
            Expiry.run]
          generalize Expiry.offer maxRequestAge s.accepted (identity, c.monotonic) = admitted
          obtain ⟨fresh, accepted⟩ := admitted
          cases fresh with
          | false => exact ih { limiter, accepted }
          | true => exact congrArg _ (ih { limiter, accepted })

/-- the clock readings of calls that come back from `default_verify` in this order, of a wall
clock and a monotonic clock that advance together; a call may begin before an earlier one ends -/
structure ClocksTogether (offset : ℚ) (calls : List VerifierCall) : Prop where
  within : ∀ c ∈ calls, (c.timeNs : ℚ) ≤ offset + 1000000000 * c.limiterNow ∧
    c.limiterNow ≤ c.monotonic
  after : calls.Pairwise fun a b => a.monotonic ≤ b.limiterNow

/-- every call ends before the next one begins -/
def OneByOne (offset : ℚ) (calls : List VerifierCall) : Prop :=
  calls.Pairwise fun a b => offset + 1000000000 * a.monotonic ≤ b.timeNs

theorem ClocksTogether.of_oneByOne {offset : ℚ} {calls : List VerifierCall}
    (hwithin : ∀ c ∈ calls, (c.timeNs : ℚ) ≤ offset + 1000000000 * c.limiterNow ∧
      c.limiterNow ≤ c.monotonic) (h : OneByOne offset calls) : ClocksTogether offset calls := by
  refine ⟨hwithin, h.imp_of_mem fun {a b} _ hb hab => ?_⟩
  have hwall := (hwithin b hb).1
  linarith

theorem ClocksTogether.monotonic {offset : ℚ} {calls : List VerifierCall}
    (h : ClocksTogether offset calls) :
    calls.Pairwise fun a b => a.monotonic ≤ b.monotonic := by
  refine h.after.imp_of_mem fun {a b} _ hb hab => ?_
  have hread := (h.within b hb).2
  linarith

/-- a request in the cache comes from a call of the sequence -/
theorem mem_cacheRequests {limiter : TokenBucketLimiter} {calls : List VerifierCall}
    {r : Identity × ℚ} (h : r ∈ cacheRequests T minimumVersion limiter calls) :
    ∃ c ∈ calls, checkRequest T minimumVersion c.timeNs c.synapse = .ok r.1 ∧
      r.2 = c.monotonic := by
  induction calls generalizing limiter with
  | nil => exact (List.not_mem_nil h).elim
  | cons c calls ih =>
    have hrest : ∀ limiter, r ∈ cacheRequests T minimumVersion limiter calls →
        ∃ c' ∈ c :: calls, checkRequest T minimumVersion c'.timeNs c'.synapse = .ok r.1 ∧
          r.2 = c'.monotonic := by
      intro limiter h
      obtain ⟨c', hc', hr⟩ := ih h
      exact ⟨c', List.mem_cons_of_mem c hc', hr⟩
    unfold cacheRequests at h
    cases hcheck : checkRequest T minimumVersion c.timeNs c.synapse with
    | error e =>
      rw [hcheck] at h
      exact hrest _ h
    | ok identity =>
      rw [hcheck] at h
      cases hverify : c.defaultVerify with
      | error e =>
        rw [hverify] at h
        exact hrest _ h
      | ok u =>
        rw [hverify] at h
        dsimp only at h
        split at h
        · exact hrest _ h
        · rcases List.mem_cons.mp h with hr | h
          · refine ⟨c, List.mem_cons_self, ?_, by rw [hr]⟩
            rw [hcheck, hr]
          · exact hrest _ h

theorem cacheRequests_monotonic {limiter : TokenBucketLimiter} {calls : List VerifierCall}
    (h : calls.Pairwise fun a b => a.monotonic ≤ b.monotonic) :
    (cacheRequests T minimumVersion limiter calls).Pairwise fun a b => a.2 ≤ b.2 := by
  induction calls generalizing limiter with
  | nil => exact .nil
  | cons c calls ih =>
    obtain ⟨hlater, hrest⟩ := List.pairwise_cons.mp h
    unfold cacheRequests
    split
    · dsimp only
      split
      · exact ih hrest
      · refine List.pairwise_cons.mpr ⟨fun r hr => ?_, ih hrest⟩
        obtain ⟨c', hc', _, ht⟩ := mem_cacheRequests hr
        rw [ht]
        exact hlater c' hc'
    · exact ih hrest

/-- **Each authenticated request is admitted at most once** exactly when no two requests of one
identity that pass the checks before the cache reach it more than 30 seconds apart. -/
theorem acceptedIdentities_nodup_iff {offset : ℚ} {calls : List VerifierCall}
    (h : ClocksTogether offset calls) :
    (acceptedIdentities T minimumVersion newVerifier calls).Nodup ↔
      (cacheRequests T minimumVersion newVerifier.limiter calls).Pairwise
        fun a b => a.1 = b.1 → b.2 ≤ a.2 + maxRequestAge := by
  rw [acceptedIdentities_eq_run]
  exact Expiry.run_nodup_iff (cacheRequests_monotonic h.monotonic)

/-- the nonce is not ahead of the clock when the cache is read, and the request is still fresh -/
def InWindow (T : PyText) (minimumVersion : Int) (offset : ℚ) (c : VerifierCall) : Prop :=
  ∀ identity, checkRequest T minimumVersion c.timeNs c.synapse = .ok identity →
    (identity.2.2 : ℚ) ≤ offset + 1000000000 * c.monotonic ∧
      offset + 1000000000 * c.monotonic ≤ identity.2.2 + maxRequestAgeNs

theorem acceptedIdentities_nodup_of_window {offset : ℚ} {calls : List VerifierCall}
    (h : ClocksTogether offset calls) (hwindow : ∀ c ∈ calls, InWindow T minimumVersion offset c) :
    (acceptedIdentities T minimumVersion newVerifier calls).Nodup := by
  rw [acceptedIdentities_eq_run]
  apply (Expiry.run_nodup_iff (cacheRequests_monotonic h.monotonic)).mpr
  refine List.Pairwise.imp_of_mem (fun {a b} ha hb _ he => ?_)
    (cacheRequests_monotonic h.monotonic)
  obtain ⟨c, hc, hcheck, ht⟩ := mem_cacheRequests ha
  obtain ⟨c', hc', hcheck', ht'⟩ := mem_cacheRequests hb
  have hfirst := (hwindow c hc _ hcheck).1
  have hsecond := (hwindow c' hc' _ hcheck').2
  rw [← he, ← ht'] at hsecond
  rw [← ht] at hfirst
  have hage : maxRequestAge = maxRequestAgeNs / 1000000000 := rfl
  rw [hage]
  linarith

end

section

/-- a request whose nonce is `nonce` -/
def sampleRequest (nonce : Int) : TaskRequest where
  dendrite := some { hotkey := .str "v", uuid := .str "u", nonce := .int nonce, version := .int 7002000 }
  timeout := .int 10

/-- a call that takes no time, `seconds` after the start -/
def sampleCall (nonce : Int) (seconds : Nat) : VerifierCall where
  synapse := sampleRequest nonce
  timeNs := 1000000000 * seconds
  defaultVerify := .ok ()
  limiterNow := seconds
  monotonic := seconds

def sampleText : PyText :=
  ⟨fun _ => "0.0", fun _ => "[]", fun s => "'" ++ s ++ "'", fun _ => none⟩

theorem sampleCalls_oneByOne (nonce : Int) (later : Nat) :
    OneByOne 0 [sampleCall nonce 0, sampleCall nonce later] := by
  refine List.pairwise_pair.mpr ?_
  show (0 : ℚ) + 1000000000 * ((0 : Nat) : ℚ) ≤ ((1000000000 * (later : Int) : Int) : ℚ)
  push_cast
  have hlater : (0 : ℚ) ≤ later := Nat.cast_nonneg later
  linarith

theorem sampleCalls_together (nonce : Int) (later : Nat) :
    ClocksTogether 0 [sampleCall nonce 0, sampleCall nonce later] := by
  refine ClocksTogether.of_oneByOne (fun c hc => ?_) (sampleCalls_oneByOne nonce later)
  have hcall : ∃ seconds : Nat, c = sampleCall nonce seconds := by
    rcases List.mem_cons.mp hc with hc | hc
    · exact ⟨0, hc⟩
    · exact ⟨later, List.mem_singleton.mp hc⟩
  obtain ⟨seconds, hcall⟩ := hcall
  rw [hcall]
  refine ⟨?_, le_refl _⟩
  show ((1000000000 * (seconds : Int) : Int) : ℚ) ≤ 0 + 1000000000 * (seconds : ℚ)
  push_cast
  linarith

theorem acceptedIdentities_nodup_sample :
    (acceptedIdentities sampleText 7002000 newVerifier [sampleCall 0 0, sampleCall 0 20]).Nodup :=
  (acceptedIdentities_nodup_iff (sampleCalls_together 0 20)).mpr (by decide +kernel)

/-- a nonce 5 seconds ahead of the clock is replayed 31 seconds later -/
theorem future_nonce_is_admitted_twice :
    ¬ ∀ (T : PyText) (minimumVersion : Int) (offset : ℚ) (calls : List VerifierCall),
      ClocksTogether offset calls → OneByOne offset calls →
      (acceptedIdentities T minimumVersion newVerifier calls).Nodup := by
  intro h
  have hnodup := h sampleText 7002000 0 [sampleCall 5000000000 0, sampleCall 5000000000 31]
    (sampleCalls_together _ _) (sampleCalls_oneByOne _ _)
  revert hnodup
  decide +kernel

end

end Dolores
