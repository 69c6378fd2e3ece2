import Mathlib.Algebra.Order.Ring.Rat
import Mathlib.Data.List.Induction
import Dolores.Lib.Budget
import Dolores.Miner.Verifier

/-!
# The rate limiter under threads (`miner_cli.py`)

Threads call `allow` without a time: each reads the clock, and takes the lock later.  A run is any
order of the clock's advances, the readings and the turns at the lock.

* `Reaches ok w₀ w`       the runs from `w₀` in which every turn at the lock satisfies `ok`;
* `Timely`                the call is not older than the last one that its bucket has seen;
* `RateBounded`           the bound on the calls that were allowed in any interval;
* `spent_of_reaches`      the bucket of a key is a budget that pays for the calls of the key;
* `rateBounded_of_timely`   the bound, for the runs whose turns are all timely;
* `late_call_refills`     a run in which a delayed call turns the bucket back, and the bound fails.
-/

namespace Dolores

/-- `TokenBucketLimiter(burst=.., rate_per_second=..)` -/
def TokenBucketLimiter.new (burst : Int) (ratePerSecond : ℚ) : Except Exn TokenBucketLimiter :=
  if burst < 1 ∨ ratePerSecond ≤ 0 then
    .error (.valueError "rate limiter bounds must be positive")
  else .ok { burst, ratePerSecond }

/-! ## threads -/

/-- a call of `allow` that has read the clock -/
structure AllowCall where
  key : String
  current : ℚ
deriving DecidableEq

structure LimiterWorld where
  limiter : TokenBucketLimiter
  clock : ℚ
  /-- the call of each thread that waits for the lock -/
  waiting : Nat → Option AllowCall := fun _ => none
  /-- the calls that had the lock, in its order, with their results -/
  answered : List (AllowCall × Bool) := []

namespace LimiterWorld

def advance (w : LimiterWorld) (t : ℚ) : LimiterWorld := { w with clock := t }

def read (w : LimiterWorld) (i : Nat) (key : String) : LimiterWorld :=
  { w with waiting := Function.update w.waiting i (some { key, current := w.clock }) }

/-- thread `i` has its turn at the lock -/
def lock (w : LimiterWorld) (i : Nat) (call : AllowCall) : LimiterWorld :=
  let r := w.limiter.allow call.key call.current
  { w with
    limiter := r.2
    waiting := Function.update w.waiting i none
    answered := w.answered ++ [(call, r.1)] }

end LimiterWorld

inductive Reaches (ok : LimiterWorld → AllowCall → Prop) (w₀ : LimiterWorld) : LimiterWorld → Prop
  | start : Reaches ok w₀ w₀
  | advance {w : LimiterWorld} {t : ℚ} (h : Reaches ok w₀ w) (ht : w.clock ≤ t) :
      Reaches ok w₀ (w.advance t)
  | read {w : LimiterWorld} {i : Nat} (key : String) (h : Reaches ok w₀ w)
      (hi : w.waiting i = none) : Reaches ok w₀ (w.read i key)
  | lock {w : LimiterWorld} {i : Nat} {call : AllowCall} (h : Reaches ok w₀ w)
      (hi : w.waiting i = some call) (hok : ok w call) : Reaches ok w₀ (w.lock i call)

/-- every order of the threads -/
def AnyTurn (_ : LimiterWorld) (_ : AllowCall) : Prop := True

def Timely (w : LimiterWorld) (call : AllowCall) : Prop :=
  ∀ bucket, Dict.get? w.limiter.buckets call.key = some bucket → bucket.updatedAt ≤ call.current

instance (w : LimiterWorld) (call : AllowCall) : Decidable (Timely w call) :=
  decidable_of_iff (((Dict.get? w.limiter.buckets call.key).all fun bucket =>
    bucket.updatedAt ≤ call.current) = true) (by simp [Timely, Option.all_eq_true])

/-- the calls with the key that read the clock in the interval and were allowed -/
def allowedIn (key : String) (s t : ℚ) (answered : List (AllowCall × Bool)) : Nat :=
  answered.countP fun a => a.1.key = key ∧ s ≤ a.1.current ∧ a.1.current ≤ t ∧ a.2 = true

def RateBounded (w : LimiterWorld) : Prop :=
  ∀ key s t, s ≤ t →
    (allowedIn key s t w.answered : ℚ) ≤ w.limiter.burst + w.limiter.ratePerSecond * (t - s)

/-! ## the calls of a key as the costs of a budget -/

def cost (allowed : Bool) : ℚ := if allowed then 1 else 0

def costs (key : String) (answered : List (AllowCall × Bool)) : List (ℚ × ℚ) :=
  (answered.filter fun a => a.1.key = key).map fun a => (a.1.current, cost a.2)

section
variable {key : String} {s t : ℚ} {answered : List (AllowCall × Bool)} {call : AllowCall}
  {allowed : Bool}

theorem costs_snoc_self (h : call.key = key) :
    costs key (answered ++ [(call, allowed)]) =
      costs key answered ++ [(call.current, cost allowed)] := by
  unfold costs
  rw [List.filter_append, List.map_append, List.filter_cons_of_pos (by exact decide_eq_true h)]
  rfl

theorem costs_snoc_other (h : call.key ≠ key) :
    costs key (answered ++ [(call, allowed)]) = costs key answered := by
  unfold costs
  rw [List.filter_append, List.filter_cons_of_neg (by simpa using h), List.filter_nil,
    List.append_nil]

theorem allowedIn_eq (key : String) (s t : ℚ) (answered : List (AllowCall × Bool)) :
    (allowedIn key s t answered : ℚ) = Budget.spentIn s t (costs key answered) := by
  induction answered using List.reverseRecOn with
  | nil => exact Nat.cast_zero
  | append_singleton answered a ih =>
    obtain ⟨call, allowed⟩ := a
    have hcount : allowedIn key s t (answered ++ [(call, allowed)]) = allowedIn key s t answered +
        if call.key = key ∧ s ≤ call.current ∧ call.current ≤ t ∧ allowed = true then 1 else 0 := by
      unfold allowedIn
      rw [List.countP_append, List.countP_singleton]
      simp only [decide_eq_true_eq]
    rw [hcount, Nat.cast_add, ih]
    by_cases hkey : call.key = key
    · rw [costs_snoc_self hkey, Budget.spentIn_snoc]
      congr 1
      cases allowed <;> simp [hkey, cost]
    · rw [costs_snoc_other hkey, if_neg fun h => hkey h.1, Nat.cast_zero, add_zero]

end

/-! ## one turn at the lock -/

namespace TokenBucketLimiter
variable (l : TokenBucketLimiter) (key : String) (now : ℚ)

/-- the bucket that a call finds -/
def bucketAt : TokenBucket := (Dict.get? l.buckets key).getD { tokens := l.burst, updatedAt := now }

theorem bucketAt_timely (h : ∀ b, Dict.get? l.buckets key = some b → b.updatedAt ≤ now) :
    (l.bucketAt key now).updatedAt ≤ now := by
  unfold bucketAt
  cases hget : Dict.get? l.buckets key with
  | none => exact le_rfl
  | some b => exact h b hget

theorem get?_allow_other {key' : String} (h : key' ≠ key) :
    Dict.get? (l.allow key now).2.buckets key' = Dict.get? l.buckets key' := by
  show Dict.get? (Dict.set l.buckets key _) key' = _
  rw [Dict.get?_set, if_neg (by simpa using h)]

/-- what a call that is not late has to spend -/
def available : ℚ :=
  Budget.refilled l.burst l.ratePerSecond (l.bucketAt key now).tokens (l.bucketAt key now).updatedAt
    now

/-- a call that is not late takes one token, if there is one -/
theorem allow_timely (htime : (l.bucketAt key now).updatedAt ≤ now) :
    l.allow key now = (decide (1 ≤ l.available key now), { l with
      buckets := Dict.set l.buckets key {
        tokens := l.available key now - cost (decide (1 ≤ l.available key now))
        updatedAt := now } }) := by
  have helapsed : max 0 (now - (l.bucketAt key now).updatedAt) =
      now - (l.bucketAt key now).updatedAt := max_eq_right (sub_nonneg.mpr htime)
  have htokens : min l.burst ((l.bucketAt key now).tokens +
      max 0 (now - (l.bucketAt key now).updatedAt) * l.ratePerSecond) = l.available key now := by
    rw [helapsed]
    rfl
  have hspent : (if decide (1 ≤ l.available key now) = true then l.available key now - 1
      else l.available key now) =
      l.available key now - cost (decide (1 ≤ l.available key now)) := by
    by_cases h : 1 ≤ l.available key now
    · rw [decide_eq_true h]
      rfl
    · rw [decide_eq_false h]
      exact (sub_zero _).symm
  unfold TokenBucketLimiter.allow
  dsimp only
  rw [← bucketAt, htokens, hspent]

theorem cost_le_available (hpos : 0 ≤ l.available key now) :
    cost (decide (1 ≤ l.available key now)) ≤ l.available key now := by
  by_cases h : 1 ≤ l.available key now
  · rw [decide_eq_true h]
    exact h
  · rw [decide_eq_false h]
    exact hpos

/-- the bucket of the key has paid for these costs; without a bucket there were none -/
structure HasPaid (es : List (ℚ × ℚ)) : Prop where
  bucket : ∀ b, Dict.get? l.buckets key = some b →
    Budget.Spent l.burst l.ratePerSecond es b.tokens b.updatedAt
  fresh : Dict.get? l.buckets key = none → es = []

variable {l key now} {es : List (ℚ × ℚ)}

theorem HasPaid.other {key' : String} (h : l.HasPaid key' es) (hne : key' ≠ key) :
    (l.allow key now).2.HasPaid key' es := by
  have hget := l.get?_allow_other key now hne
  refine ⟨fun b hb => h.bucket b ?_, fun hnone => h.fresh ?_⟩
  · rw [← hget]
    exact hb
  · rw [← hget]
    exact hnone

/-- a new bucket is full -/
theorem HasPaid.spent (h : l.HasPaid key es) (hburst : 0 ≤ l.burst) :
    Budget.Spent l.burst l.ratePerSecond es (l.bucketAt key now).tokens
      (l.bucketAt key now).updatedAt := by
  unfold bucketAt
  cases hget : Dict.get? l.buckets key with
  | none =>
    rw [h.fresh hget]
    exact .start now hburst le_rfl
  | some b => exact h.bucket b hget

theorem HasPaid.allow (h : l.HasPaid key es) (hburst : 0 ≤ l.burst) (hrate : 0 ≤ l.ratePerSecond)
    (htime : (l.bucketAt key now).updatedAt ≤ now) :
    (l.allow key now).2.HasPaid key (es ++ [(now, cost (l.allow key now).1)]) := by
  have hspent := @HasPaid.spent l key now es h hburst
  have hgain := mul_nonneg (sub_nonneg.mpr htime) hrate
  have hpos : 0 ≤ l.available key now := le_min hburst (add_nonneg hspent.level_nonneg hgain)
  rw [l.allow_timely key now htime]
  refine ⟨fun b hb => ?_, fun hnone => ?_⟩
  · obtain rfl := Option.some.inj ((Dict.get?_set_self _ _ _).symm.trans hb)
    exact hspent.snoc htime (l.cost_le_available key now hpos)
  · exact nomatch (Dict.get?_set_self _ _ _).symm.trans hnone

end TokenBucketLimiter

/-! ## runs -/

theorem Timely.bucketAt {w : LimiterWorld} {call : AllowCall} (h : Timely w call) :
    (w.limiter.bucketAt call.key call.current).updatedAt ≤ call.current :=
  w.limiter.bucketAt_timely call.key call.current h

section
variable {ok : LimiterWorld → AllowCall → Prop} {w₀ w : LimiterWorld}

theorem Reaches.burst (h : Reaches ok w₀ w) : w.limiter.burst = w₀.limiter.burst := by
  induction h with
  | start => rfl
  | advance _ _ ih => exact ih
  | read _ _ _ ih => exact ih
  | lock _ _ _ ih => exact ih

theorem Reaches.rate (h : Reaches ok w₀ w) :
    w.limiter.ratePerSecond = w₀.limiter.ratePerSecond := by
  induction h with
  | start => rfl
  | advance _ _ ih => exact ih
  | read _ _ _ ih => exact ih
  | lock _ _ _ ih => exact ih

end

/-- no thread has called the limiter yet -/
def LimiterWorld.idle (limiter : TokenBucketLimiter) (clock : ℚ) : LimiterWorld :=
  { limiter, clock }

section
variable {burst : Int} {ratePerSecond clock : ℚ} {limiter : TokenBucketLimiter} {w : LimiterWorld}

theorem TokenBucketLimiter.new_ok (h : TokenBucketLimiter.new burst ratePerSecond = .ok limiter) :
    limiter = { burst, ratePerSecond } ∧ 1 ≤ burst ∧ 0 < ratePerSecond := by
  unfold TokenBucketLimiter.new at h
  split at h
  · exact nomatch h
  next hbounds =>
    obtain ⟨hburst, hrate⟩ := not_or.mp hbounds
    exact ⟨(Except.ok.inj h).symm, not_lt.mp hburst, not_le.mp hrate⟩

theorem spent_of_reaches (hburst : 0 ≤ limiter.burst) (hrate : 0 ≤ limiter.ratePerSecond)
    (hnew : limiter.buckets = []) (h : Reaches Timely (.idle limiter clock) w) (key : String) :
    w.limiter.HasPaid key (costs key w.answered) := by
  induction h with
  | start =>
    refine ⟨fun b hb => ?_, fun _ => rfl⟩
    have hempty : Dict.get? limiter.buckets key = some b := hb
    rw [hnew] at hempty
    exact nomatch hempty
  | advance _ _ ih => exact ih
  | read _ _ _ ih => exact ih
  | @lock w i call h _ htimely ih =>
    have hburst' : 0 ≤ w.limiter.burst := by rw [h.burst]; exact hburst
    have hrate' : 0 ≤ w.limiter.ratePerSecond := by rw [h.rate]; exact hrate
    show (w.limiter.allow call.key call.current).2.HasPaid key (costs key (w.answered ++
      [(call, (w.limiter.allow call.key call.current).1)]))
    by_cases hkey : call.key = key
    · subst hkey
      rw [costs_snoc_self rfl]
      exact ih.allow hburst' hrate' htimely.bucketAt
    · rw [costs_snoc_other hkey]
      exact ih.other (Ne.symm hkey)

/-- the bound, for every limiter and every run whose turns at the lock are timely -/
theorem rateBounded_of_timely (hnew : TokenBucketLimiter.new burst ratePerSecond = .ok limiter)
    (h : Reaches Timely (.idle limiter clock) w) : RateBounded w := by
  obtain ⟨rfl, hburst, hrate⟩ := TokenBucketLimiter.new_ok hnew
  have hburst' : (0 : ℚ) ≤ burst := Int.cast_nonneg (le_trans zero_le_one hburst)
  intro key s t hst
  have hpaid := spent_of_reaches hburst' hrate.le rfl h key
  rw [allowedIn_eq, h.burst, h.rate, mul_comm]
  show _ ≤ (burst : ℚ) + (t - s) * ratePerSecond
  cases hget : Dict.get? w.limiter.buckets key with
  | none =>
    rw [hpaid.fresh hget, Budget.spentIn_nil]
    exact add_nonneg hburst' (mul_nonneg (sub_nonneg.mpr hst) hrate.le)
  | some b =>
    have hspent := hpaid.bucket b hget
    rw [h.burst, h.rate] at hspent
    exact hspent.spent_in hburst' hrate.le hst

end

def onePerSecond : TokenBucketLimiter := { burst := 1, ratePerSecond := 1 }

/-- three threads read the clock at 0, 10 and 10, and wait for the lock -/
def threeWaiting : LimiterWorld :=
  let read := (((LimiterWorld.idle onePerSecond 0).read 0 "key").advance 10).read 1 "key"
  read.read 2 "key"

theorem threeWaiting_reached {ok : LimiterWorld → AllowCall → Prop} :
    Reaches ok (.idle onePerSecond 0) threeWaiting := by
  have hread := ((@Reaches.start ok (LimiterWorld.idle onePerSecond 0)).read
    (i := 0) "key" rfl).advance (t := 10) (by decide)
  exact (hread.read (i := 1) "key" rfl).read (i := 2) "key" rfl

/-- the turns in the order of the readings -/
def orderlyRun : LimiterWorld :=
  ((threeWaiting.lock 0 ⟨"key", 0⟩).lock 1 ⟨"key", 10⟩).lock 2 ⟨"key", 10⟩

theorem rateBounded_of_timely_sample : RateBounded orderlyRun := by
  have hfirst := @Reaches.lock Timely _ _ 0 ⟨"key", 0⟩ threeWaiting_reached rfl (by decide +kernel)
  have hsecond := @Reaches.lock Timely _ _ 1 ⟨"key", 10⟩ hfirst rfl (by decide +kernel)
  have hthird := @Reaches.lock Timely _ _ 2 ⟨"key", 10⟩ hsecond rfl (by decide +kernel)
  exact @rateBounded_of_timely 1 1 _ _ _ rfl hthird

/-! ## a delayed call -/

/-- the first of the threads has its turn second -/
def delayedRun : LimiterWorld :=
  ((threeWaiting.lock 1 ⟨"key", 10⟩).lock 0 ⟨"key", 0⟩).lock 2 ⟨"key", 10⟩

theorem late_call_refills : TokenBucketLimiter.new 1 1 = .ok onePerSecond ∧
    Reaches AnyTurn (.idle onePerSecond 0) delayedRun ∧ ¬ RateBounded delayedRun := by
  refine ⟨rfl, ?_, fun h => ?_⟩
  · have hwait := @threeWaiting_reached AnyTurn
    exact ((hwait.lock (i := 1) rfl trivial).lock (i := 0) rfl trivial).lock (i := 2) rfl trivial
  · have hbound := h "key" 10 10 le_rfl
    revert hbound
    decide +kernel

end Dolores
