import Dolores.Lib.Except
import Dolores.Lib.Isolation
import Dolores.Miner.RateLimit

/-!
# A flood of requests (`miner_cli.py`)

The requests of many validators reach one verifier, some of them more often than it admits, some
of them forged.  The tokens and the clocks are exact numbers: a float may be short of a token, or
have one too many, by a rounding error.

* `verify_refused_or_reached`, `verify_reached`   what one call does;
* `verifier_isolates_validators`   the answers to the requests that a validator has signed are those
                                   of a verifier that gets no others;
* `flood_bounded`                  how many requests of a validator are accepted in an interval, and
                                   how many are remembered;
* `conforming_requests_accepted`   a validator that keeps to the rate, and sends no request twice,
                                   is refused for its metadata only.
-/

namespace Dolores

/-! ## one call -/

section
variable (T : PyText) (minimumVersion : Int)

/-- `str(terminal.hotkey or "")` -/
def VerifierCall.hotkey (c : VerifierCall) : String :=
  match c.synapse.dendrite with
  | none => ""
  | some terminal => textOrEmpty T terminal.hotkey

/-- a request in the name of this validator that the SDK has authenticated -/
def VerifierCall.isFrom (hotkey : String) (c : VerifierCall) : Bool :=
  c.hotkey T == hotkey && c.defaultVerify.isOk

variable {T minimumVersion} {s s' : VerifierState} {c : VerifierCall} {identity : Identity}
  {hotkey : String}

theorem checkRequest_hotkey (h : checkRequest T minimumVersion c.timeNs c.synapse = .ok identity) :
    identity.1 = c.hotkey T := by
  unfold checkRequest at h
  unfold VerifierCall.hotkey
  cases hdendrite : c.synapse.dendrite with
  | none =>
    rw [hdendrite] at h
    cases h
  | some terminal =>
    rw [hdendrite] at h
    obtain ⟨nonce, _, h⟩ := Except.bind_ok h
    obtain ⟨version, _, h⟩ := Except.bind_ok h
    split at h
    · cases h
    split at h
    · cases h
    obtain ⟨inPolicy, _, h⟩ := Except.bind_ok h
    split at h
    · cases h
    split at h
    · cases h
    split at h
    · cases h
    cases h
    rfl

theorem isFrom_iff (hcheck : checkRequest T minimumVersion c.timeNs c.synapse = .ok identity)
    (hverify : c.defaultVerify = .ok ()) : c.isFrom T hotkey = true ↔ identity.1 = hotkey := by
  unfold VerifierCall.isFrom
  rw [hverify, checkRequest_hotkey hcheck, Bool.and_eq_true, beq_iff_eq]
  exact and_iff_left rfl

/-- a call that does not reach the rate limit is answered for itself, and leaves no trace -/
theorem verify_refused_or_reached (T : PyText) (minimumVersion : Int) (c : VerifierCall) :
    (∃ e, ∀ s, verify T minimumVersion s c = (.error e, s)) ∨
      ∃ identity, checkRequest T minimumVersion c.timeNs c.synapse = .ok identity ∧
        c.defaultVerify = .ok () := by
  cases hcheck : checkRequest T minimumVersion c.timeNs c.synapse with
  | error e =>
    refine .inl ⟨e, fun s => ?_⟩
    unfold verify
    rw [hcheck]
  | ok identity =>
    cases hverify : c.defaultVerify with
    | ok u => exact .inr ⟨identity, rfl, rfl⟩
    | error e =>
      refine .inl ⟨e, fun s => ?_⟩
      unfold verify
      rw [hcheck, hverify]

/-- the rate limit, and then the replay cache -/
theorem verify_reached (hcheck : checkRequest T minimumVersion c.timeNs c.synapse = .ok identity)
    (hverify : c.defaultVerify = .ok ()) :
    verify T minimumVersion s c =
      if (s.limiter.allow identity.1 c.limiterNow).1 = false then
        (.error (.valueError "authenticated request rate exceeded"),
          { s with limiter := (s.limiter.allow identity.1 c.limiterNow).2 })
      else
        (if (Expiry.offer maxRequestAge s.accepted (identity, c.monotonic)).1 = false then
            .error (.valueError "authenticated request replayed")
          else .ok identity,
          { limiter := (s.limiter.allow identity.1 c.limiterNow).2
            accepted := (Expiry.offer maxRequestAge s.accepted (identity, c.monotonic)).2 }) := by
  unfold verify
  rw [hcheck, hverify]
  dsimp only
  generalize s.limiter.allow identity.1 c.limiterNow = answer
  generalize Expiry.offer maxRequestAge s.accepted (identity, c.monotonic) = admitted
  obtain ⟨allowed, limiter⟩ := answer
  obtain ⟨fresh, accepted⟩ := admitted
  cases allowed with
  | false => rfl
  | true =>
    cases fresh with
    | false => rfl
    | true => rfl

end

/-! ## the others -/

section
variable {l l' : TokenBucketLimiter} {key key' : String} {now : ℚ}

/-- the limiters cannot be told apart by this key -/
structure SameBucket (key : String) (l l' : TokenBucketLimiter) : Prop where
  burst : l.burst = l'.burst
  rate : l.ratePerSecond = l'.ratePerSecond
  bucket : Dict.get? l.buckets key = Dict.get? l'.buckets key

theorem SameBucket.allow (h : SameBucket key l l') (now : ℚ) :
    (l.allow key now).1 = (l'.allow key now).1 ∧
      SameBucket key (l.allow key now).2 (l'.allow key now).2 := by
  unfold TokenBucketLimiter.allow
  dsimp only
  rw [h.bucket, h.burst, h.rate]
  refine ⟨rfl, rfl, rfl, ?_⟩
  exact (Dict.get?_set_self _ _ _).trans (Dict.get?_set_self _ _ _).symm

theorem SameBucket.allow_other (h : SameBucket key l l') (hne : key ≠ key') (now : ℚ) :
    SameBucket key (l.allow key' now).2 l' where
  burst := h.burst
  rate := h.rate
  bucket := (l.get?_allow_other key' now hne).trans h.bucket

end

section
variable {T : PyText} {minimumVersion : Int} {s s' : VerifierState} {c : VerifierCall}
  {hotkey : String} {t u : ℚ}

/-- the states cannot be told apart by this validator, from the time `t` on -/
structure SameFor (hotkey : String) (t : ℚ) (s s' : VerifierState) : Prop where
  limiter : SameBucket hotkey s.limiter s'.limiter
  accepted : Expiry.Agree (fun identity : Identity => identity.1 = hotkey) (t - maxRequestAge)
    s.accepted s'.accepted

theorem SameFor.later (h : SameFor hotkey t s s') (htu : t ≤ u) : SameFor hotkey u s s' where
  limiter := h.limiter
  accepted := h.accepted.later (sub_le_sub_right htu _)

theorem SameFor.own (h : SameFor hotkey t s s') (ht : t ≤ c.monotonic)
    (hfrom : c.isFrom T hotkey = true) :
    (verify T minimumVersion s c).1 = (verify T minimumVersion s' c).1 ∧
      SameFor hotkey c.monotonic (verify T minimumVersion s c).2
        (verify T minimumVersion s' c).2 := by
  rcases verify_refused_or_reached T minimumVersion c with
    ⟨e, hrefused⟩ | ⟨identity, hcheck, hverify⟩
  · rw [hrefused s, hrefused s']
    exact ⟨rfl, h.later ht⟩
  obtain rfl : identity.1 = hotkey := (isFrom_iff hcheck hverify).mp hfrom
  obtain ⟨hallowed, hlimiter⟩ := h.limiter.allow c.limiterNow
  obtain ⟨hfresh, haccepted⟩ := h.accepted.offer (r := (identity, c.monotonic))
    (sub_le_sub_right ht maxRequestAge) rfl
  rw [verify_reached hcheck hverify, verify_reached hcheck hverify, hallowed, hfresh]
  split
  · exact ⟨rfl, hlimiter, (h.later ht).accepted⟩
  · exact ⟨rfl, hlimiter, haccepted⟩

/-- the request of another validator, or one that is not authentic -/
theorem SameFor.other (h : SameFor hotkey t s s') (ht : t ≤ c.monotonic)
    (hfrom : c.isFrom T hotkey = false) :
    SameFor hotkey c.monotonic (verify T minimumVersion s c).2 s' := by
  rcases verify_refused_or_reached T minimumVersion c with
    ⟨e, hrefused⟩ | ⟨identity, hcheck, hverify⟩
  · rw [hrefused s]
    exact h.later ht
  have hne : identity.1 ≠ hotkey := by
    intro hown
    rw [(isFrom_iff hcheck hverify).mpr hown] at hfrom
    cases hfrom
  have hlimiter := h.limiter.allow_other hne.symm c.limiterNow
  rw [verify_reached hcheck hverify]
  split
  · exact ⟨hlimiter, (h.later ht).accepted⟩
  · exact ⟨hlimiter, h.accepted.offer_other (r := (identity, c.monotonic))
      (sub_le_sub_right ht maxRequestAge) hne⟩

theorem verify_unwinding (T : PyText) (minimumVersion : Int) (hotkey : String) :
    Isolation.Unwinding (verify T minimumVersion) VerifierCall.monotonic
      (VerifierCall.isFrom T hotkey) (SameFor hotkey) where
  own := SameFor.own
  other := SameFor.other

/-- **The requests that a validator has signed are answered as if there were no others**, whatever
the others send, and whatever is sent in its name without its signature. -/
theorem verifier_isolates_validators {calls : List VerifierCall}
    (h : calls.Pairwise fun a b => a.monotonic ≤ b.monotonic) (T : PyText) (minimumVersion : Int)
    (hotkey : String) :
    (Isolation.answers (verify T minimumVersion) newVerifier calls).filter
        (fun a => a.1.isFrom T hotkey) =
      Isolation.answers (verify T minimumVersion) newVerifier
        (calls.filter (VerifierCall.isFrom T hotkey)) := by
  cases calls with
  | nil => rfl
  | cons c calls =>
    have hstart : SameFor hotkey c.monotonic newVerifier newVerifier :=
      ⟨⟨rfl, rfl, rfl⟩, fun _ _ _ _ => Iff.rfl⟩
    refine (verify_unwinding T minimumVersion hotkey).isolated hstart (fun c' hc' => ?_) h
    rcases List.mem_cons.mp hc' with rfl | hc'
    · exact le_rfl
    · exact (List.pairwise_cons.mp h).1 c' hc'

end

/-- a request in the name of the validator, with a signature of somebody else -/
def forgedCall (nonce : Int) (seconds : Nat) : VerifierCall :=
  { sampleCall nonce seconds with
    defaultVerify := .error (.foreign "Exception" "Signature mismatch") }

theorem verifier_isolates_validators_sample :
    (Isolation.answers (verify sampleText 7002000) newVerifier
        [sampleCall 0 0, forgedCall 1 1, forgedCall 1 1, sampleCall 1 2]).filter
        (fun a => a.1.isFrom sampleText "v") =
      Isolation.answers (verify sampleText 7002000) newVerifier [sampleCall 0 0, sampleCall 1 2] :=
  verifier_isolates_validators (by decide +kernel) sampleText 7002000 "v"

/-! ## a validator that keeps to the rate -/

theorem authRateBurst_nonneg : 0 ≤ authRateBurst := by decide +kernel

theorem authRatePerSecond_nonneg : 0 ≤ authRatePerSecond := by decide +kernel

section
variable (T : PyText) (minimumVersion : Int)

/-- the identity with which a call reaches the rate limit -/
def VerifierCall.identity? (c : VerifierCall) : Option Identity :=
  if c.defaultVerify.isOk then
    (checkRequest T minimumVersion c.timeNs c.synapse).toOption
  else none

/-- the identities that reach the rate limit, with the readings of the clock there -/
def reached (calls : List VerifierCall) : List (Identity × ℚ) :=
  calls.filterMap fun c => (c.identity? T minimumVersion).map fun identity =>
    (identity, c.limiterNow)

/-- no interval holds more requests than it lets in, and no request is sent twice -/
structure Conforms (calls : List VerifierCall) : Prop where
  rate : ∀ s t : ℚ, s ≤ t →
    ((reached T minimumVersion calls).countP fun p => s ≤ p.2 ∧ p.2 ≤ t : ℚ) ≤
      authRateBurst + (t - s) * authRatePerSecond
  once : ((reached T minimumVersion calls).map Prod.fst).Nodup

variable {T minimumVersion} {s : VerifierState} {calls : List VerifierCall} {c : VerifierCall}
  {identity : Identity} {hotkey : String}

theorem identity?_eq_some : c.identity? T minimumVersion = some identity ↔
    checkRequest T minimumVersion c.timeNs c.synapse = .ok identity ∧ c.defaultVerify = .ok () := by
  unfold VerifierCall.identity?
  cases c.defaultVerify with
  | error e => exact iff_of_false (fun h => by cases h) fun h => by cases h.2
  | ok u =>
    cases checkRequest T minimumVersion c.timeNs c.synapse with
    | error e => exact iff_of_false (fun h => by cases h) fun h => by cases h.1
    | ok i =>
      constructor
      · intro h
        cases h
        exact ⟨rfl, rfl⟩
      · intro h
        cases h.1
        rfl

theorem reached_snoc (h : c.identity? T minimumVersion = some identity) :
    reached T minimumVersion (calls ++ [c]) =
      reached T minimumVersion calls ++ [(identity, c.limiterNow)] := by
  unfold reached
  rw [List.filterMap_append, List.filterMap_cons, h]
  rfl

theorem reached_snoc_none (h : c.identity? T minimumVersion = none) :
    reached T minimumVersion (calls ++ [c]) = reached T minimumVersion calls := by
  unfold reached
  rw [List.filterMap_append, List.filterMap_cons, h]
  exact List.append_nil _

/-- what is sent before keeps to the rate, too -/
theorem Conforms.before (h : Conforms T minimumVersion (calls ++ [c])) :
    Conforms T minimumVersion calls := by
  have hsub : (reached T minimumVersion calls).Sublist (reached T minimumVersion (calls ++ [c])) :=
    (List.sublist_append_left calls [c]).filterMap _
  refine ⟨fun s t hst => ?_, h.once.sublist (hsub.map _)⟩
  exact (Nat.cast_le.mpr hsub.countP_le).trans (h.rate s t hst)

/-- one token for each request -/
def costsOf (requests : List (Identity × ℚ)) : List (ℚ × ℚ) := requests.map fun p => (p.2, 1)

theorem costsOf_nonneg {requests : List (Identity × ℚ)} : ∀ e ∈ costsOf requests, 0 ≤ e.2 := by
  intro e he
  obtain ⟨p, _, rfl⟩ := List.mem_map.mp he
  exact zero_le_one

theorem costsOf_snoc (requests : List (Identity × ℚ)) (p : Identity × ℚ) :
    costsOf (requests ++ [p]) = costsOf requests ++ [(p.2, 1)] := List.map_append

theorem spentIn_costsOf (s t : ℚ) (requests : List (Identity × ℚ)) :
    Budget.spentIn s t (costsOf requests) =
      (requests.countP fun p => s ≤ p.2 ∧ p.2 ≤ t : ℚ) := by
  induction requests using List.reverseRecOn with
  | nil => exact Nat.cast_zero.symm
  | append_singleton requests p ih =>
    rw [costsOf_snoc, Budget.spentIn_snoc, ih, List.countP_append, List.countP_singleton]
    push_cast
    by_cases h : s ≤ p.2 ∧ p.2 ≤ t
    · rw [if_pos h, if_pos (decide_eq_true h)]
    · rw [if_neg h, if_neg (by simpa using h)]

/-- the verifier has had these requests of the validator, and no others, and has accepted them -/
structure Paced (T : PyText) (minimumVersion : Int) (hotkey : String) (calls : List VerifierCall)
    (s : VerifierState) : Prop where
  burst : s.limiter.burst = authRateBurst
  rate : s.limiter.ratePerSecond = authRatePerSecond
  bucket : ∀ b, Dict.get? s.limiter.buckets hotkey = some b →
    Budget.Filled authRateBurst authRatePerSecond (costsOf (reached T minimumVersion calls))
      b.tokens b.updatedAt ∧ ∃ c ∈ calls, b.updatedAt = c.limiterNow
  fresh : Dict.get? s.limiter.buckets hotkey = none → reached T minimumVersion calls = []
  keys : ∀ k ∈ s.accepted.keys, k ∈ (reached T minimumVersion calls).map Prod.fst

theorem paced_new (hotkey : String) : Paced T minimumVersion hotkey [] newVerifier where
  burst := rfl
  rate := rfl
  bucket _ hb := by cases hb
  fresh _ := rfl
  keys _ hk := by cases hk

/-- the bucket that the next call finds, a full one if there is none yet -/
theorem Paced.filled (h : Paced T minimumVersion hotkey calls s) {now : ℚ}
    (hlater : ∀ c ∈ calls, c.limiterNow ≤ now) :
    Budget.Filled authRateBurst authRatePerSecond (costsOf (reached T minimumVersion calls))
        (s.limiter.bucketAt hotkey now).tokens (s.limiter.bucketAt hotkey now).updatedAt ∧
      (s.limiter.bucketAt hotkey now).updatedAt ≤ now := by
  refine ⟨?_, s.limiter.bucketAt_timely hotkey now fun b hb => ?_⟩
  · unfold TokenBucketLimiter.bucketAt
    cases hget : Dict.get? s.limiter.buckets hotkey with
    | none =>
      rw [h.fresh hget, h.burst]
      exact .start _ _ now
    | some b => exact (h.bucket b hget).1
  · obtain ⟨_, c, hc, htime⟩ := h.bucket b hb
    rw [htime]
    exact hlater c hc

/-- there is a token for a request that keeps to the rate -/
theorem Paced.affords (h : Paced T minimumVersion hotkey calls s)
    (hlater : ∀ c' ∈ calls, c'.limiterNow ≤ c.limiterNow)
    (hreached : c.identity? T minimumVersion = some identity)
    (hconform : Conforms T minimumVersion (calls ++ [c])) :
    1 ≤ s.limiter.available hotkey c.limiterNow := by
  obtain ⟨hfilled, htime⟩ := h.filled hlater
  unfold TokenBucketLimiter.available
  rw [h.burst, h.rate]
  refine hfilled.affords costsOf_nonneg htime fun u hu => ?_
  have hrate := hconform.rate u c.limiterNow hu
  rw [reached_snoc hreached, ← spentIn_costsOf, costsOf_snoc, Budget.spentIn_snoc,
    if_pos ⟨hu, le_rfl⟩] at hrate
  exact hrate

/-- a call that does not reach the rate limit -/
theorem Paced.skip (h : Paced T minimumVersion hotkey calls s)
    (hnone : c.identity? T minimumVersion = none) :
    Paced T minimumVersion hotkey (calls ++ [c]) s where
  burst := h.burst
  rate := h.rate
  bucket b hb := by
    obtain ⟨hfilled, c', hc', htime⟩ := h.bucket b hb
    rw [reached_snoc_none hnone]
    exact ⟨hfilled, c', List.mem_append_left _ hc', htime⟩
  fresh hget := by
    rw [reached_snoc_none hnone]
    exact h.fresh hget
  keys k hk := by
    rw [reached_snoc_none hnone]
    exact h.keys k hk

/-- the cache does not hold a request that is not sent twice -/
theorem Paced.absent (h : Paced T minimumVersion hotkey calls s)
    (hreached : c.identity? T minimumVersion = some identity)
    (hconform : Conforms T minimumVersion (calls ++ [c])) (cutoff : ℚ) :
    identity ∉ (Expiry.evict cutoff s.accepted).keys := by
  intro hmem
  have hbefore := h.keys identity (Expiry.mem_keys_of_evict hmem)
  have honce := hconform.once
  rw [reached_snoc hreached, List.map_append] at honce
  exact (List.nodup_append.mp honce).2.2 identity hbefore identity List.mem_cons_self rfl

/-- a request that keeps to the rate and is not sent twice -/
theorem Paced.verify (h : Paced T minimumVersion hotkey calls s) (hfrom : c.isFrom T hotkey = true)
    (hlater : ∀ c' ∈ calls, c'.limiterNow ≤ c.limiterNow)
    (hconform : Conforms T minimumVersion (calls ++ [c])) :
    (verify T minimumVersion s c).1 = checkRequest T minimumVersion c.timeNs c.synapse ∧
      Paced T minimumVersion hotkey (calls ++ [c]) (verify T minimumVersion s c).2 := by
  have hverify : c.defaultVerify = .ok () := by
    have hok := (Bool.and_eq_true_iff.mp hfrom).2
    cases hdefault : c.defaultVerify with
    | ok u => rfl
    | error e =>
      rw [hdefault] at hok
      cases hok
  cases hcheck : checkRequest T minimumVersion c.timeNs c.synapse with
  | error e =>
    have hnone : c.identity? T minimumVersion = none := by
      unfold VerifierCall.identity?
      rw [hverify, hcheck]
      rfl
    have hrefused : Dolores.verify T minimumVersion s c = (.error e, s) := by
      unfold Dolores.verify
      rw [hcheck]
    rw [hrefused]
    exact ⟨rfl, h.skip hnone⟩
  | ok identity =>
    obtain rfl : identity.1 = hotkey := (isFrom_iff hcheck hverify).mp hfrom
    have hreached : c.identity? T minimumVersion = some identity :=
      identity?_eq_some.mpr ⟨hcheck, hverify⟩
    obtain ⟨hfilled, htime⟩ := h.filled hlater
    have htoken := h.affords hlater hreached hconform
    have hallow := s.limiter.allow_timely identity.1 c.limiterNow htime
    rw [decide_eq_true htoken] at hallow
    have habsent := h.absent hreached hconform (c.monotonic - maxRequestAge)
    have hoffer : Expiry.offer maxRequestAge s.accepted (identity, c.monotonic) =
        (true, Dict.set (Expiry.evict (c.monotonic - maxRequestAge) s.accepted) identity
          c.monotonic) := Expiry.offer_absent habsent
    rw [verify_reached hcheck hverify, hallow, hoffer]
    refine ⟨rfl, h.burst, h.rate, fun b hb => ?_, fun hget => ?_, fun k hk => ?_⟩
    · obtain rfl := Option.some.inj ((Dict.get?_set_self _ _ _).symm.trans hb)
      rw [reached_snoc hreached, costsOf_snoc]
      refine ⟨?_, c, List.mem_append_right _ List.mem_cons_self, rfl⟩
      have hnext : Budget.Filled authRateBurst authRatePerSecond
          (costsOf (reached T minimumVersion calls) ++ [(c.limiterNow, 1)]) _ _ :=
        hfilled.snoc costsOf_nonneg htime
      unfold TokenBucketLimiter.available
      rw [h.burst, h.rate]
      exact hnext
    · cases (Dict.get?_set_self _ _ _).symm.trans hget
    · rw [reached_snoc hreached, List.map_append, List.mem_append]
      have hset : k ∈ (Dict.set (Expiry.evict (c.monotonic - maxRequestAge) s.accepted) identity
          c.monotonic).keys := hk
      rw [Dict.keys_set, if_neg habsent, List.mem_append] at hset
      rcases hset with hold | hnew
      · exact .inl (h.keys k (Expiry.mem_keys_of_evict hold))
      · exact .inr hnew

theorem paced_run (hfrom : ∀ c ∈ calls, c.isFrom T hotkey = true)
    (hlater : calls.Pairwise fun a b => a.limiterNow ≤ b.limiterNow)
    (hconform : Conforms T minimumVersion calls) :
    Paced T minimumVersion hotkey calls (Isolation.final (Dolores.verify T minimumVersion)
        newVerifier calls) ∧
      ∀ a ∈ Isolation.answers (Dolores.verify T minimumVersion) newVerifier calls,
        a.2 = checkRequest T minimumVersion a.1.timeNs a.1.synapse := by
  induction calls using List.reverseRecOn with
  | nil => exact ⟨paced_new hotkey, fun a ha => by cases ha⟩
  | append_singleton calls c ih =>
    obtain ⟨hbefore, _, hnow⟩ := List.pairwise_append.mp hlater
    obtain ⟨hpaced, hanswers⟩ := ih (fun c' hc' => hfrom c' (List.mem_append_left _ hc')) hbefore
      hconform.before
    obtain ⟨hanswer, hnext⟩ := hpaced.verify (hfrom c (List.mem_append_right _ List.mem_cons_self))
      (fun c' hc' => hnow c' hc' c List.mem_cons_self) hconform
    rw [Isolation.final_snoc, Isolation.answers_snoc]
    refine ⟨hnext, fun a ha => ?_⟩
    rcases List.mem_append.mp ha with ha | ha
    · exact hanswers a ha
    · rw [List.mem_singleton.mp ha]
      exact hanswer

/-- **A validator that keeps to the rate, and sends no request twice, is never refused** for the
rate or for a replay in exact arithmetic, whatever the others send: its requests are answered by the
checks of their metadata alone. -/
theorem conforming_requests_accepted {offset : ℚ} (h : ClocksTogether offset calls)
    (hconform : Conforms T minimumVersion (calls.filter (VerifierCall.isFrom T hotkey))) :
    ∀ a ∈ Isolation.answers (Dolores.verify T minimumVersion) newVerifier calls,
      a.1.isFrom T hotkey = true →
        a.2 = checkRequest T minimumVersion a.1.timeNs a.1.synapse := by
  intro a ha hfrom
  have hmem : a ∈ (Isolation.answers (Dolores.verify T minimumVersion) newVerifier calls).filter
      (fun a => a.1.isFrom T hotkey) := List.mem_filter.mpr ⟨ha, hfrom⟩
  rw [verifier_isolates_validators h.monotonic] at hmem
  have hlater : calls.Pairwise fun a b => a.limiterNow ≤ b.limiterNow :=
    h.after.imp_of_mem fun {a b} ha _ hab => (h.within a ha).2.trans hab
  exact (paced_run (fun c hc => (List.mem_filter.mp hc).2) (hlater.filter _) hconform).2 a hmem

/-- two requests, and a forged copy of the second before it -/
theorem conforming_requests_accepted_sample :
    ClocksTogether 0 [sampleCall 0 0, forgedCall 1 1, sampleCall 1 2] ∧
    ∀ a ∈ Isolation.answers (Dolores.verify sampleText 7002000) newVerifier
        [sampleCall 0 0, forgedCall 1 1, sampleCall 1 2],
      a.1.isFrom sampleText "v" = true →
        a.2 = checkRequest sampleText 7002000 a.1.timeNs a.1.synapse := by
  have hclocks : ClocksTogether 0 [sampleCall 0 0, forgedCall 1 1, sampleCall 1 2] :=
    ⟨by decide +kernel, by decide +kernel⟩
  refine ⟨hclocks, conforming_requests_accepted hclocks ⟨fun s t hst => ?_, by decide +kernel⟩⟩
  have hcount : ((reached sampleText 7002000 ([sampleCall 0 0, forgedCall 1 1, sampleCall 1 2].filter
      (VerifierCall.isFrom sampleText "v"))).countP fun p => s ≤ p.2 ∧ p.2 ≤ t) ≤ 2 :=
    List.countP_le_length.trans (by decide +kernel)
  have hcast : (_ : ℚ) ≤ ((2 : Nat) : ℚ) := Nat.cast_le.mpr hcount
  have hburst : ((2 : Nat) : ℚ) ≤ authRateBurst := by decide +kernel
  exact (hcast.trans hburst).trans
    (le_add_of_nonneg_right (mul_nonneg (sub_nonneg.mpr hst) authRatePerSecond_nonneg))

end

/-! ## what a validator can cost -/

/-- the calls whose clock reading at the rate limit lies in the interval -/
def countIn (u t : ℚ) (calls : List VerifierCall) : Nat :=
  calls.countP fun c => u ≤ c.limiterNow ∧ c.limiterNow ≤ t

/-- the requests in the name of the validator that were accepted -/
def acceptedFrom (T : PyText) (hotkey : String)
    (answered : List (VerifierCall × Except Exn Identity)) : List VerifierCall :=
  (answered.filter fun a => a.2.isOk && a.1.hotkey T == hotkey).map Prod.fst

/-- the entries of the validator in the replay cache -/
def remembered (hotkey : String) (cache : Dict Identity ℚ) : List (Identity × ℚ) :=
  cache.filter fun p => p.1.1 == hotkey

section
variable {hotkey key : String} {calls accepted accepted' : List VerifierCall}
  {l : TokenBucketLimiter} {cache : Dict Identity ℚ} {c : VerifierCall} {identity : Identity}
  {u t last : ℚ}

theorem countIn_snoc (u t : ℚ) (calls : List VerifierCall) (c : VerifierCall) :
    countIn u t (calls ++ [c]) =
      countIn u t calls + if u ≤ c.limiterNow ∧ c.limiterNow ≤ t then 1 else 0 := by
  unfold countIn
  rw [List.countP_append, List.countP_singleton]
  simp only [decide_eq_true_eq]

/-- the limiter has had these calls, and the bucket of the validator has paid for the accepted -/
structure Paying (hotkey : String) (calls accepted : List VerifierCall) (l : TokenBucketLimiter) :
    Prop where
  burst : l.burst = authRateBurst
  rate : l.ratePerSecond = authRatePerSecond
  seen : ∀ b, Dict.get? l.buckets hotkey = some b → ∃ c ∈ calls, b.updatedAt = c.limiterNow
  paid : ∃ es, l.HasPaid hotkey es ∧ ∀ u t, (countIn u t accepted : ℚ) ≤ Budget.spentIn u t es

theorem paying_new (hotkey : String) : Paying hotkey [] [] newVerifier.limiter where
  burst := rfl
  rate := rfl
  seen _ hb := by cases hb
  paid := by
    refine ⟨[], ⟨fun b hb => ?_, fun _ => rfl⟩, fun u t => le_of_eq Nat.cast_zero⟩
    cases hb

theorem Paying.skip (h : Paying hotkey calls accepted l) (c : VerifierCall) :
    Paying hotkey (calls ++ [c]) accepted l where
  burst := h.burst
  rate := h.rate
  seen b hb := by
    obtain ⟨c', hc', htime⟩ := h.seen b hb
    exact ⟨c', List.mem_append_left _ hc', htime⟩
  paid := h.paid

theorem Paying.sublist (h : Paying hotkey calls accepted l) (hsub : accepted'.Sublist accepted) :
    Paying hotkey calls accepted' l where
  burst := h.burst
  rate := h.rate
  seen := h.seen
  paid := by
    obtain ⟨es, hpaid, hcount⟩ := h.paid
    exact ⟨es, hpaid, fun u t => (Nat.cast_le.mpr hsub.countP_le).trans (hcount u t)⟩

/-- another validator asks for a token -/
theorem Paying.other (h : Paying hotkey calls accepted l) (hne : hotkey ≠ key) (c : VerifierCall) :
    Paying hotkey (calls ++ [c]) accepted (l.allow key c.limiterNow).2 where
  burst := h.burst
  rate := h.rate
  seen b hb := by
    rw [l.get?_allow_other key c.limiterNow hne] at hb
    exact (h.skip c).seen b hb
  paid := by
    obtain ⟨es, hpaid, hcount⟩ := h.paid
    exact ⟨es, hpaid.other hne, hcount⟩

/-- the validator asks for a token -/
theorem Paying.own (h : Paying hotkey calls accepted l)
    (hlater : ∀ c' ∈ calls, c'.limiterNow ≤ c.limiterNow) :
    Paying hotkey (calls ++ [c])
      (if (l.allow hotkey c.limiterNow).1 = true then accepted ++ [c] else accepted)
      (l.allow hotkey c.limiterNow).2 where
  burst := h.burst
  rate := h.rate
  seen b hb := by
    obtain rfl := Option.some.inj ((Dict.get?_set_self _ _ _).symm.trans hb)
    exact ⟨c, List.mem_append_right _ List.mem_cons_self, rfl⟩
  paid := by
    have htime : (l.bucketAt hotkey c.limiterNow).updatedAt ≤ c.limiterNow := by
      refine l.bucketAt_timely hotkey c.limiterNow fun b hb => ?_
      obtain ⟨c', hc', hseen⟩ := h.seen b hb
      rw [hseen]
      exact hlater c' hc'
    have hburst : 0 ≤ l.burst := by
      rw [h.burst]
      exact authRateBurst_nonneg
    have hrate : 0 ≤ l.ratePerSecond := by
      rw [h.rate]
      exact authRatePerSecond_nonneg
    obtain ⟨es, hpaid, hcount⟩ := h.paid
    refine ⟨_, hpaid.allow hburst hrate htime, fun u t => ?_⟩
    rw [Budget.spentIn_snoc]
    cases (l.allow hotkey c.limiterNow).1 with
    | false =>
      show (countIn u t accepted : ℚ) ≤ _ + if _ then (0 : ℚ) else 0
      rw [ite_self, add_zero]
      exact hcount u t
    | true =>
      show (countIn u t (accepted ++ [c]) : ℚ) ≤ _ + if _ then (1 : ℚ) else 0
      rw [countIn_snoc, Nat.cast_add, Nat.cast_ite, Nat.cast_one, Nat.cast_zero]
      exact add_le_add_left (hcount u t) _

theorem Paying.bounded (h : Paying hotkey calls accepted l) (hut : u ≤ t) :
    (countIn u t accepted : ℚ) ≤ authRateBurst + (t - u) * authRatePerSecond := by
  obtain ⟨es, hpaid, hcount⟩ := h.paid
  refine (hcount u t).trans ?_
  cases hget : Dict.get? l.buckets hotkey with
  | none =>
    rw [hpaid.fresh hget, Budget.spentIn_nil]
    exact add_nonneg authRateBurst_nonneg
      (mul_nonneg (sub_nonneg.mpr hut) authRatePerSecond_nonneg)
  | some b =>
    have hspent := hpaid.bucket b hget
    rw [h.burst, h.rate] at hspent
    exact hspent.spent_in authRateBurst_nonneg authRatePerSecond_nonneg hut

/-- the cache holds what these calls have left, and of the validator only accepted requests -/
structure Remembers (hotkey : String) (calls accepted : List VerifierCall)
    (cache : Dict Identity ℚ) : Prop where
  own : ((remembered hotkey cache).map Prod.snd).Sublist (accepted.map VerifierCall.monotonic)
  past : ∀ p ∈ cache, ∃ c ∈ calls, p.2 = c.monotonic
  recent : ∃ last, ∀ p ∈ cache, last - maxRequestAge ≤ p.2 ∧ p.2 ≤ last

theorem remembers_new (hotkey : String) : Remembers hotkey [] [] newVerifier.accepted where
  own := .slnil
  past _ hp := by cases hp
  recent := ⟨0, fun _ hp => by cases hp⟩

theorem Remembers.skip (h : Remembers hotkey calls accepted cache) (c : VerifierCall) :
    Remembers hotkey (calls ++ [c]) accepted cache where
  own := h.own
  past p hp := by
    obtain ⟨c', hc', htime⟩ := h.past p hp
    exact ⟨c', List.mem_append_left _ hc', htime⟩
  recent := h.recent

theorem Remembers.age (h : Remembers hotkey calls accepted cache)
    (hlater : ∀ c' ∈ calls, c'.monotonic ≤ c.monotonic) :
    ∀ p ∈ Expiry.evict (c.monotonic - maxRequestAge) cache,
      c.monotonic - maxRequestAge ≤ p.2 ∧ p.2 ≤ c.monotonic := by
  intro p hp
  obtain ⟨hmem, hnew⟩ := Expiry.mem_evict.mp hp
  obtain ⟨c', hc', htime⟩ := h.past p hmem
  refine ⟨hnew, ?_⟩
  rw [htime]
  exact hlater c' hc'

/-- a request of the cache evicts what is too old -/
theorem Remembers.evict (h : Remembers hotkey calls accepted cache)
    (hlater : ∀ c' ∈ calls, c'.monotonic ≤ c.monotonic) :
    Remembers hotkey (calls ++ [c]) accepted
      (Expiry.evict (c.monotonic - maxRequestAge) cache) where
  own := ((List.filter_sublist.filter _).map _).trans h.own
  past p hp := (h.skip c).past p (Expiry.mem_evict.mp hp).1
  recent := ⟨c.monotonic, h.age hlater⟩

/-- the request is accepted -/
theorem Remembers.accept (h : Remembers hotkey calls accepted cache)
    (hlater : ∀ c' ∈ calls, c'.monotonic ≤ c.monotonic)
    (habsent : identity ∉ (Expiry.evict (c.monotonic - maxRequestAge) cache).keys) :
    Remembers hotkey (calls ++ [c]) (if identity.1 = hotkey then accepted ++ [c] else accepted)
      (Dict.set (Expiry.evict (c.monotonic - maxRequestAge) cache) identity c.monotonic) := by
  have hevicted := h.evict hlater
  rw [Dict.set_of_not_mem habsent]
  refine ⟨?_, fun p hp => ?_, c.monotonic, fun p hp => ?_⟩
  · unfold remembered
    rw [List.filter_append, List.map_append]
    by_cases hown : identity.1 = hotkey
    · rw [if_pos hown, List.map_append]
      exact hevicted.own.append (List.filter_sublist.map _)
    · rw [if_neg hown, List.filter_cons_of_neg (by simpa using hown), List.filter_nil,
        List.map_nil, List.append_nil]
      exact hevicted.own
  · rcases List.mem_append.mp hp with hp | hp
    · exact hevicted.past p hp
    · rw [List.mem_singleton.mp hp]
      exact ⟨c, List.mem_append_right _ List.mem_cons_self, rfl⟩
  · rcases List.mem_append.mp hp with hp | hp
    · exact h.age hlater p hp
    · rw [List.mem_singleton.mp hp]
      have hage : 0 ≤ maxRequestAge := by decide +kernel
      exact ⟨sub_le_self _ hage, le_rfl⟩

/-- a request that is not the oldest has taken its token since that one -/
theorem length_recent_le {offset : ℚ} (h : ClocksTogether offset accepted)
    (hpaying : Paying hotkey calls accepted l) {recent : List VerifierCall}
    (hsub : recent.Sublist accepted)
    (hmem : ∀ c ∈ recent, last - maxRequestAge ≤ c.monotonic ∧ c.monotonic ≤ last) :
    recent.length ≤ 13 := by
  cases recent with
  | nil => exact Nat.zero_le 13
  | cons oldest rest =>
    have hafter := (List.pairwise_cons.mp (h.after.sublist hsub)).1
    have hcount : countIn (last - maxRequestAge) last rest = rest.length := by
      apply List.countP_eq_length.mpr
      intro c hc
      have hread := (h.within c (hsub.subset (List.mem_cons_of_mem _ hc))).2
      exact decide_eq_true ⟨(hmem oldest List.mem_cons_self).1.trans (hafter c hc),
        hread.trans (hmem c (List.mem_cons_of_mem _ hc)).2⟩
    have hrest : rest.length ≤ countIn (last - maxRequestAge) last accepted := by
      rw [← hcount]
      exact ((List.sublist_cons_self oldest rest).trans hsub).countP_le
    have hage : last - maxRequestAge ≤ last := sub_le_self _ (by decide +kernel)
    have hbound := hpaying.bounded hage
    have htwelve : authRateBurst + (last - (last - maxRequestAge)) * authRatePerSecond =
        ((12 : Nat) : ℚ) := by
      rw [sub_sub_cancel]
      decide +kernel
    rw [htwelve] at hbound
    rw [List.length_cons]
    exact Nat.succ_le_succ (hrest.trans (Nat.cast_le.mp hbound))

theorem remembered_le {offset : ℚ} (h : ClocksTogether offset accepted)
    (hpaying : Paying hotkey calls accepted l) (hcache : Remembers hotkey calls accepted cache) :
    (remembered hotkey cache).length ≤ 13 := by
  obtain ⟨last, hrecent⟩ := hcache.recent
  have hwithin : ((remembered hotkey cache).map Prod.snd).Sublist
      ((accepted.filter fun c => last - maxRequestAge ≤ c.monotonic ∧ c.monotonic ≤ last).map
        VerifierCall.monotonic) := by
    have hall : ((remembered hotkey cache).map Prod.snd).filter
        (fun t => last - maxRequestAge ≤ t ∧ t ≤ last) =
        (remembered hotkey cache).map Prod.snd := by
      apply List.filter_eq_self.mpr
      intro t ht
      obtain ⟨p, hp, rfl⟩ := List.mem_map.mp ht
      exact decide_eq_true (hrecent p (List.mem_filter.mp hp).1)
    have hsub := hcache.own.filter fun t => last - maxRequestAge ≤ t ∧ t ≤ last
    rw [hall, List.filter_map] at hsub
    exact hsub
  have hlength := hwithin.length_le
  rw [List.length_map, List.length_map] at hlength
  have hmem : ∀ c ∈ accepted.filter (fun c => last - maxRequestAge ≤ c.monotonic ∧
      c.monotonic ≤ last), last - maxRequestAge ≤ c.monotonic ∧ c.monotonic ≤ last := fun c hc =>
    of_decide_eq_true (List.mem_filter.mp hc).2
  exact hlength.trans (length_recent_le h hpaying List.filter_sublist hmem)

end

section
variable {T : PyText} {minimumVersion : Int} {hotkey : String} {calls accepted : List VerifierCall}
  {s : VerifierState} {c : VerifierCall} {identity : Identity} {offset : ℚ}

theorem acceptedFrom_ok
    (hcheck : checkRequest T minimumVersion c.timeNs c.synapse = .ok identity) :
    acceptedFrom T hotkey [(c, .ok identity)] = if identity.1 = hotkey then [c] else [] := by
  unfold acceptedFrom
  rw [checkRequest_hotkey hcheck]
  by_cases hown : c.hotkey T = hotkey
  · rw [if_pos hown, List.filter_cons_of_pos (by simpa [Except.isOk, Except.toBool] using hown)]
    rfl
  · rw [if_neg hown, List.filter_cons_of_neg (by simpa [Except.isOk, Except.toBool] using hown)]
    rfl

theorem acceptedFrom_snoc (answered : List (VerifierCall × Except Exn Identity))
    (a : VerifierCall × Except Exn Identity) :
    acceptedFrom T hotkey (answered ++ [a]) =
      acceptedFrom T hotkey answered ++ acceptedFrom T hotkey [a] := by
  unfold acceptedFrom
  rw [List.filter_append, List.map_append]

theorem acceptedFrom_sublist (s : VerifierState) (calls : List VerifierCall) :
    (acceptedFrom T hotkey (Isolation.answers (verify T minimumVersion) s calls)).Sublist
      calls := by
  have hsub : (acceptedFrom T hotkey (Isolation.answers (verify T minimumVersion) s calls)).Sublist
      ((Isolation.answers (verify T minimumVersion) s calls).map Prod.fst) :=
    List.filter_sublist.map _
  rw [Isolation.map_fst_answers] at hsub
  exact hsub

/-- one more call -/
theorem verify_paying (hpaying : Paying hotkey calls accepted s.limiter)
    (hcache : Remembers hotkey calls accepted s.accepted)
    (hlimiter : ∀ c' ∈ calls, c'.limiterNow ≤ c.limiterNow)
    (hmonotonic : ∀ c' ∈ calls, c'.monotonic ≤ c.monotonic) :
    Paying hotkey (calls ++ [c])
        (accepted ++ acceptedFrom T hotkey [(c, (verify T minimumVersion s c).1)])
        (verify T minimumVersion s c).2.limiter ∧
      Remembers hotkey (calls ++ [c])
        (accepted ++ acceptedFrom T hotkey [(c, (verify T minimumVersion s c).1)])
        (verify T minimumVersion s c).2.accepted := by
  have herror : ∀ e, accepted ++ acceptedFrom T hotkey [(c, .error e)] = accepted := fun e =>
    List.append_nil accepted
  rcases verify_refused_or_reached T minimumVersion c with
    ⟨e, hrefused⟩ | ⟨identity, hcheck, hverify⟩
  · rw [hrefused s, herror]
    exact ⟨hpaying.skip c, hcache.skip c⟩
  rw [verify_reached hcheck hverify]
  -- the token, whoever asks for it
  have htoken : Paying hotkey (calls ++ [c])
      (if identity.1 = hotkey ∧ (s.limiter.allow identity.1 c.limiterNow).1 = true then
        accepted ++ [c] else accepted) (s.limiter.allow identity.1 c.limiterNow).2 := by
    by_cases hown : identity.1 = hotkey
    · have hpaid := hpaying.own hlimiter
      rw [hown]
      simp only [true_and]
      exact hpaid
    · rw [if_neg fun h => hown h.1]
      exact hpaying.other (Ne.symm hown) c
  have hkept : accepted.Sublist (if identity.1 = hotkey ∧
      (s.limiter.allow identity.1 c.limiterNow).1 = true then accepted ++ [c] else accepted) := by
    split
    · exact List.sublist_append_left accepted [c]
    · exact List.Sublist.refl accepted
  by_cases hrefused : (s.limiter.allow identity.1 c.limiterNow).1 = false
  · rw [if_pos hrefused, herror]
    exact ⟨htoken.sublist hkept, hcache.skip c⟩
  rw [if_neg hrefused]
  have hallowed : (s.limiter.allow identity.1 c.limiterNow).1 = true := by
    simpa using hrefused
  by_cases hmem : identity ∈ (Expiry.evict (c.monotonic - maxRequestAge) s.accepted).keys
  · rw [Expiry.offer_present (r := (identity, c.monotonic)) hmem, if_pos rfl, herror]
    exact ⟨htoken.sublist hkept, hcache.evict hmonotonic⟩
  · rw [Expiry.offer_absent (r := (identity, c.monotonic)) hmem,
      if_neg (show ¬ (true : Bool) = false by decide), acceptedFrom_ok hcheck]
    have hlist : (accepted ++ if identity.1 = hotkey then [c] else []) =
        if identity.1 = hotkey then accepted ++ [c] else accepted := by
      split
      · rfl
      · exact List.append_nil accepted
    rw [hlist]
    refine ⟨?_, hcache.accept hmonotonic hmem⟩
    rw [hallowed] at htoken
    simpa only [and_true] using htoken

theorem run_paying (h : ClocksTogether offset calls) :
    Paying hotkey calls
        (acceptedFrom T hotkey (Isolation.answers (verify T minimumVersion) newVerifier calls))
        (Isolation.final (verify T minimumVersion) newVerifier calls).limiter ∧
      Remembers hotkey calls
        (acceptedFrom T hotkey (Isolation.answers (verify T minimumVersion) newVerifier calls))
        (Isolation.final (verify T minimumVersion) newVerifier calls).accepted := by
  induction calls using List.reverseRecOn with
  | nil => exact ⟨paying_new hotkey, remembers_new hotkey⟩
  | append_singleton calls c ih =>
    obtain ⟨hbefore, _, hnow⟩ := List.pairwise_append.mp h.after
    have hmem : ∀ c' ∈ calls, c' ∈ calls ++ [c] := fun c' hc' => List.mem_append_left _ hc'
    have hread := (h.within c (List.mem_append_right _ List.mem_cons_self)).2
    obtain ⟨hpaying, hcache⟩ := ih ⟨fun c' hc' => h.within c' (hmem c' hc'), hbefore⟩
    rw [Isolation.final_snoc, Isolation.answers_snoc, acceptedFrom_snoc]
    refine verify_paying hpaying hcache (fun c' hc' => ?_) fun c' hc' => ?_
    · exact (h.within c' (hmem c' hc')).2.trans (hnow c' hc' c List.mem_cons_self)
    · exact (hnow c' hc' c List.mem_cons_self).trans hread

/-- **What a validator can cost the miner is bounded** in exact arithmetic, however many requests it
signs: how many of them are accepted in any interval, and how many the replay cache holds at any
moment. -/
theorem flood_bounded (h : ClocksTogether offset calls) (T : PyText) (minimumVersion : Int)
    (hotkey : String) :
    (∀ u t, u ≤ t →
      (countIn u t (acceptedFrom T hotkey
        (Isolation.answers (verify T minimumVersion) newVerifier calls)) : ℚ) ≤
      authRateBurst + (t - u) * authRatePerSecond) ∧
    (remembered hotkey
      (Isolation.final (verify T minimumVersion) newVerifier calls).accepted).length ≤ 13 := by
  obtain ⟨hpaying, hcache⟩ := run_paying h
  have hsub : (acceptedFrom T hotkey (Isolation.answers (verify T minimumVersion) newVerifier
      calls)).Sublist calls := acceptedFrom_sublist newVerifier calls
  have haccepted : ClocksTogether offset (acceptedFrom T hotkey
      (Isolation.answers (verify T minimumVersion) newVerifier calls)) :=
    ⟨fun c hc => h.within c (hsub.subset hc), h.after.sublist hsub⟩
  exact ⟨fun u t hut => hpaying.bounded hut, remembered_le haccepted hpaying hcache⟩

/-- at most ten of the requests of the first 20 seconds are accepted -/
theorem flood_bounded_sample :
    (countIn 0 20 (acceptedFrom sampleText "v" (Isolation.answers (verify sampleText 7002000)
      newVerifier [sampleCall 0 0, sampleCall 0 20])) : ℚ) ≤ 10 ∧
    (remembered "v" (Isolation.final (verify sampleText 7002000) newVerifier
      [sampleCall 0 0, sampleCall 0 20]).accepted).length ≤ 13 := by
  obtain ⟨hrate, hcache⟩ := flood_bounded (sampleCalls_together 0 20) sampleText 7002000 "v"
  exact ⟨(hrate 0 20 (by decide +kernel)).trans (by decide +kernel), hcache⟩

end

end Dolores
