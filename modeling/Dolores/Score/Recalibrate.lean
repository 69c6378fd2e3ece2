import Mathlib.Algebra.Order.Floor.Ring
import Mathlib.Data.Rat.Floor
import Mathlib.Tactic.FieldSimp
import Mathlib.Tactic.Linarith
import Mathlib.Tactic.Ring
import Dolores.Score.Impl

/-!
# Recalibration against a live panel run (`scoring.py`)

The value of an accepted task is rounded to six decimals; recalibration starts from the rounded
value and rounds again.

* `NearestEven`          what rounding half to even computes;
* `roundHalfEven_eq_iff` the rounding of `scoring.py` computes it;
* `ErrorsCancel`         the rounding errors of the two values differ by at most half a unit;
* `recalibratedTaskValue_eq_live_iff`   recalibration gives the live value exactly then, provided
                                        that the value it starts from is not zero.
-/

namespace Dolores

/-! ## rounding half to even -/

/-- `m` is the integer nearest to `q`, ties to even -/
def NearestEven (q : ℚ) (m : Int) : Prop := |q - m| < 1 / 2 ∨ |q - m| = 1 / 2 ∧ m % 2 = 0

theorem NearestEven.abs_le {q : ℚ} {m : Int} (h : NearestEven q m) : |q - m| ≤ 1 / 2 :=
  h.elim le_of_lt fun h => h.1.le

theorem nearestEven_roundHalfEven (q : ℚ) : NearestEven q (roundHalfEven q) := by
  have hlow : (⌊q⌋ : ℚ) ≤ q := Int.floor_le q
  have hhigh : q < ⌊q⌋ + 1 := Int.lt_floor_add_one q
  unfold roundHalfEven
  dsimp only
  split
  next hless =>
    left
    rw [abs_of_nonneg (by linarith)]
    exact hless
  next hless =>
    have hup : |q - ((⌊q⌋ + 1 : Int) : ℚ)| = ⌊q⌋ + 1 - q := by
      push_cast
      rw [abs_of_nonpos (by linarith)]
      ring
    split
    next hmore =>
      left
      rw [hup]
      linarith
    next hmore =>
      have htie : q - ⌊q⌋ = 1 / 2 := le_antisymm (not_lt.mp hmore) (not_lt.mp hless)
      split
      next heven =>
        right
        refine ⟨?_, heven⟩
        rw [htie]
        exact abs_of_pos (by norm_num)
      next hodd =>
        right
        refine ⟨?_, by omega⟩
        rw [hup]
        linarith

theorem NearestEven.unique {q : ℚ} {m n : Int} (hm : NearestEven q m) (hn : NearestEven q n) :
    m = n := by
  wlog hlt : m < n generalizing m n
  · rcases lt_trichotomy m n with h | h | h
    · exact (hlt h).elim
    · exact h
    · exact (this hn hm h).symm
  -- two nearest integers are neighbours at the same distance, and not both even
  have hstep : (m : ℚ) + 1 ≤ n := by exact_mod_cast hlt
  have hqm : q - m ≤ 1 / 2 := (le_abs_self _).trans hm.abs_le
  have hqn : n - q ≤ 1 / 2 := by
    have h := (neg_le_abs (q - n)).trans hn.abs_le
    linarith
  have hnext : n = m + 1 := by
    have h : (n : ℚ) ≤ m + 1 := by linarith
    have h' : n ≤ m + 1 := by exact_mod_cast h
    omega
  have hdm : |q - m| = 1 / 2 := by
    rw [abs_of_nonneg (by linarith)]
    linarith
  have hdn : |q - n| = 1 / 2 := by
    rw [abs_of_nonpos (by linarith)]
    linarith
  rcases hm with hm | hm
  · exact absurd hdm hm.ne
  rcases hn with hn | hn
  · exact absurd hdn hn.ne
  omega

theorem roundHalfEven_eq_iff {q : ℚ} {m : Int} : roundHalfEven q = m ↔ NearestEven q m := by
  constructor
  · intro h
    rw [← h]
    exact nearestEven_roundHalfEven q
  · intro h
    exact (nearestEven_roundHalfEven q).unique h

theorem roundHalfEven_nonneg {q : ℚ} (h : 0 ≤ q) : 0 ≤ roundHalfEven q := by
  have hnear := (neg_le_abs (q - roundHalfEven q)).trans (nearestEven_roundHalfEven q).abs_le
  have hlow : (-1 : ℚ) < roundHalfEven q := by
    have hhigh := (le_abs_self (q - roundHalfEven q)).trans (nearestEven_roundHalfEven q).abs_le
    linarith
  have hlow' : (-1 : Int) < roundHalfEven q := by exact_mod_cast hlow
  omega

/-- at most half a unit is rounded to zero -/
theorem roundHalfEven_eq_zero_iff {q : ℚ} (h : 0 ≤ q) : roundHalfEven q = 0 ↔ q ≤ 1 / 2 := by
  rw [roundHalfEven_eq_iff]
  unfold NearestEven
  rw [Int.cast_zero, sub_zero, abs_of_nonneg h]
  constructor
  · intro hnear
    exact hnear.elim le_of_lt fun hnear => hnear.1.le
  · intro hle
    exact hle.lt_or_eq.imp id fun heq => ⟨heq, rfl⟩

theorem exactOps_round6_nonneg {q : ℚ} (h : 0 ≤ q) : 0 ≤ exactOps.round6 q := by
  have hround : 0 ≤ roundHalfEven (q * 1000000) :=
    roundHalfEven_nonneg (mul_nonneg h (by norm_num))
  have hcast : (0 : ℚ) ≤ roundHalfEven (q * 1000000) := by exact_mod_cast hround
  exact div_nonneg hcast (by norm_num)

theorem toDouble_nonneg {q : ℚ} (h : 0 ≤ q) : 0 ≤ toDouble q := by
  unfold toDouble
  split
  · exact le_rfl
  · have hulp : ∀ e : Int, (0 : ℚ) ≤ 2 ^ e := fun e => zpow_nonneg (by norm_num) e
    have hround : ∀ e : Int, (0 : ℚ) ≤ roundHalfEven (q / 2 ^ e) := fun e => by
      exact_mod_cast roundHalfEven_nonneg (div_nonneg h (hulp e))
    exact mul_nonneg (hround _) (hulp _)

/-! ## the two values -/

theorem clipUnit_of_mem {q : ℚ} (h : 0 ≤ q ∧ q ≤ 1) : clipUnit q = q := by
  unfold clipUnit
  rw [min_eq_right h.2, max_eq_right h.1]

theorem clipUnit_mem (q : ℚ) : 0 ≤ clipUnit q ∧ clipUnit q ≤ 1 :=
  ⟨le_max_left _ _, max_le zero_le_one (min_le_left _ _)⟩

/-- the score of an accepted task, whose aggregate is `rest` and the two weighted components -/
def acceptedScore (rest frontier runtime : ℚ) (components : Obj) : Score where
  lifecycleStatus := "accepted"
  aggregateScore := rest + 1 / 4 * frontier + 1 / 20 * runtime
  runtimeCost := runtime
  components

/-- the value in millionths, before it is rounded -/
def millionths (rest frontier : ℚ) : ℚ := (rest + 1 / 4 * frontier) / (19 / 20) * 1000000

/-- the parts of a score are in their ranges -/
structure ScoreParts (rest frontier : ℚ) : Prop where
  rest : 0 ≤ rest ∧ rest ≤ 7 / 10
  frontier : 0 ≤ frontier ∧ frontier ≤ 1

theorem ScoreParts.millionths_mem {rest frontier : ℚ} (h : ScoreParts rest frontier) :
    0 ≤ millionths rest frontier ∧ millionths rest frontier ≤ 1000000 := by
  obtain ⟨⟨hr, hr'⟩, hf, hf'⟩ := h
  unfold millionths
  constructor
  · exact mul_nonneg (div_nonneg (by linarith) (by norm_num)) (by norm_num)
  · have hle : (rest + 1 / 4 * frontier) / (19 / 20) ≤ 1 := by
      rw [div_le_one (by norm_num)]
      linarith
    linarith

theorem taskValue_acceptedScore {rest frontier : ℚ} (h : ScoreParts rest frontier) (runtime : ℚ)
    (components : Obj) :
    taskValueFromScore exactOps (acceptedScore rest frontier runtime components) =
      roundHalfEven (millionths rest frontier) / 1000000 := by
  have hexact : (rest + 1 / 4 * frontier + 1 / 20 * runtime - 1 / 20 * runtime) / (19 / 20) =
      millionths rest frontier / 1000000 := by
    unfold millionths
    ring
  obtain ⟨hlow, hhigh⟩ := h.millionths_mem
  unfold taskValueFromScore
  have haccepted : ¬ (acceptedScore rest frontier runtime components).lifecycleStatus ≠ "accepted" :=
    not_not.mpr rfl
  rw [if_neg haccepted]
  show ((roundHalfEven (clipUnit ((rest + 1 / 4 * frontier + 1 / 20 * runtime - 1 / 20 * runtime) /
    (19 / 20)) * 1000000) : ℚ)) / 1000000 = _
  rw [hexact, clipUnit_of_mem ⟨div_nonneg hlow (by norm_num), by linarith⟩,
    div_mul_cancel₀ _ (by norm_num)]

/-- rounding after clipping, for a number of millionths that is out of range by at most a half -/
theorem round6_clipUnit {z : ℚ} (hlow : -(1 / 2) ≤ z) (hhigh : z ≤ 1000000 + 1 / 2) :
    exactOps.round6 (clipUnit (z / 1000000)) = roundHalfEven z / 1000000 := by
  have hround : ∀ c : ℚ, clipUnit (z / 1000000) = c → roundHalfEven (c * 1000000) =
      roundHalfEven z → exactOps.round6 (clipUnit (z / 1000000)) = roundHalfEven z / 1000000 := by
    intro c hc hz
    rw [hc]
    show (roundHalfEven (c * 1000000) : ℚ) / 1000000 = _
    rw [hz]
  rcases lt_or_ge z 0 with hneg | hnonneg
  · -- clipped to zero, to which `z` is rounded
    refine hround 0 ?_ ?_
    · unfold clipUnit
      exact max_eq_left ((min_le_right _ _).trans (div_nonpos_of_nonpos_of_nonneg hneg.le
        (by norm_num)))
    · rw [zero_mul, (roundHalfEven_eq_zero_iff le_rfl).mpr (by norm_num)]
      symm
      rw [roundHalfEven_eq_iff]
      unfold NearestEven
      rw [Int.cast_zero, sub_zero, abs_of_neg hneg]
      rcases hlow.lt_or_eq with hlow | hlow
      · left
        linarith
      · right
        exact ⟨by linarith, rfl⟩
  rcases le_or_gt z 1000000 with hle | hgt
  · refine hround (z / 1000000) (clipUnit_of_mem ⟨div_nonneg hnonneg (by norm_num), ?_⟩) ?_
    · linarith
    · rw [div_mul_cancel₀ _ (by norm_num)]
  · -- clipped to one, to which `z` is rounded
    refine hround 1 ?_ ?_
    · unfold clipUnit
      rw [min_eq_left (by linarith), max_eq_right zero_le_one]
    · have hone : NearestEven (1 * 1000000) 1000000 := by
        left
        norm_num
      rw [roundHalfEven_eq_iff.mpr hone]
      symm
      rw [roundHalfEven_eq_iff]
      unfold NearestEven
      have hcast : ((1000000 : Int) : ℚ) = 1000000 := by norm_num
      rw [hcast, abs_of_pos (by linarith)]
      rcases hhigh.lt_or_eq with hhigh | hhigh
      · left
        linarith
      · right
        exact ⟨by linarith, rfl⟩

/-! ## the condition -/

/-- what rounding adds to `q` -/
def roundingError (q : ℚ) : ℚ := roundHalfEven q - q

/-- the rounding errors of the two values differ by at most half a unit; by exactly a half only
when the live value is even -/
def ErrorsCancel (mock live : ℚ) : Prop :=
  |roundingError mock - roundingError live| < 1 / 2 ∨
    |roundingError mock - roundingError live| = 1 / 2 ∧ roundHalfEven live % 2 = 0

/-- a value that is rounded to zero stays zero; any other is moved by the difference of the
frontier terms and rounded again -/
def RecalibratesExactly (mock live : ℚ) : Prop :=
  (mock ≤ 1 / 2 → live ≤ 1 / 2) ∧ (1 / 2 < mock → ErrorsCancel mock live)

instance (mock live : ℚ) : Decidable (ErrorsCancel mock live) :=
  inferInstanceAs (Decidable (_ ∨ _))

instance (mock live : ℚ) : Decidable (RecalibratesExactly mock live) :=
  inferInstanceAs (Decidable (_ ∧ _))

/-- **Recalibration pays what a live panel run would pay** exactly when the mock value is rounded
to zero only with the live one, and otherwise their rounding errors cancel. -/
theorem recalibratedTaskValue_eq_live_iff (T : PyText) {rest frontier runtime rate : ℚ}
    {components : Obj} (h : ScoreParts rest frontier)
    (hcomponents : Dict.get? components "frontier_difficulty" = some (.num frontier))
    (liveComponents : Obj) :
    recalibratedTaskValue exactOps T
        (taskValueFromScore exactOps (acceptedScore rest frontier runtime components))
        components (.num rate) =
      .ok (taskValueFromScore exactOps
        (acceptedScore rest (frontierBandScore exactOps rate) runtime liveComponents)) ↔
    RecalibratesExactly (millionths rest frontier)
      (millionths rest (frontierBandScore exactOps rate)) := by
  have h' : ScoreParts rest (frontierBandScore exactOps rate) := ⟨h.rest, clipUnit_mem _⟩
  rw [taskValue_acceptedScore h, taskValue_acceptedScore h']
  obtain ⟨hX, hX'⟩ := h.millionths_mem
  obtain ⟨hY, hY'⟩ := h'.millionths_mem
  have hdiff : 25 / 100 * (frontierBandScore exactOps rate - frontier) / (1 - 5 / 100) =
      (millionths rest (frontierBandScore exactOps rate) - millionths rest frontier) / 1000000 := by
    unfold millionths
    ring
  unfold recalibratedTaskValue
  rw [hcomponents]
  show (if (roundHalfEven (millionths rest frontier) : ℚ) / 1000000 ≤ 0 then _
    else Except.ok (exactOps.round6 (clipUnit ((roundHalfEven (millionths rest frontier) : ℚ) /
      1000000 + 25 / 100 * (frontierBandScore exactOps rate - clipUnit frontier) /
        (1 - 5 / 100))))) = _ ↔ _
  rw [clipUnit_of_mem h.frontier, hdiff]
  generalize millionths rest frontier = mock at hX hX' ⊢
  generalize millionths rest (frontierBandScore exactOps rate) = live at hY hY' ⊢
  unfold RecalibratesExactly
  rcases le_or_gt mock (1 / 2) with hzero | hpos
  · -- the mock value is rounded to zero, and stays zero
    have hmock : roundHalfEven mock = 0 := (roundHalfEven_eq_zero_iff hX).mpr hzero
    rw [hmock, Int.cast_zero, zero_div, if_pos le_rfl]
    have hiff : (Except.ok (0 : ℚ) : Except Exn ℚ) = .ok ((roundHalfEven live : ℚ) / 1000000) ↔
        roundHalfEven live = 0 := by
      constructor
      · intro heq
        have hlive := (div_eq_zero_iff.mp (Except.ok.inj heq).symm).resolve_right (by norm_num)
        exact_mod_cast hlive
      · intro heq
        rw [heq, Int.cast_zero, zero_div]
    rw [hiff, roundHalfEven_eq_zero_iff hY]
    exact ⟨fun hle => ⟨fun _ => hle, fun hgt => absurd hzero (not_le.mpr hgt)⟩,
      fun hcond => hcond.1 hzero⟩
  · have hmock : ¬ (roundHalfEven mock : ℚ) / 1000000 ≤ 0 := by
      have hne : roundHalfEven mock ≠ 0 := fun heq =>
        absurd ((roundHalfEven_eq_zero_iff hX).mp heq) (not_le.mpr hpos)
      have hone : (1 : Int) ≤ roundHalfEven mock := by
        have hnonneg := roundHalfEven_nonneg hX
        omega
      have hcast : (1 : ℚ) ≤ roundHalfEven mock := by exact_mod_cast hone
      rw [not_le]
      exact div_pos (by linarith) (by norm_num)
    -- recalibration rounds the live value moved by the error of the mock value
    have hnear := (nearestEven_roundHalfEven mock).abs_le
    have hlow := (neg_le_abs (mock - roundHalfEven mock)).trans hnear
    have hhigh := (le_abs_self (mock - roundHalfEven mock)).trans hnear
    have hsum : (roundHalfEven mock : ℚ) / 1000000 + (live - mock) / 1000000 =
        (live + roundingError mock) / 1000000 := by
      unfold roundingError
      ring
    rw [if_neg hmock, hsum, round6_clipUnit (by unfold roundingError; linarith)
      (by unfold roundingError; linarith)]
    have hiff : (Except.ok ((roundHalfEven (live + roundingError mock) : ℚ) / 1000000) :
        Except Exn ℚ) = .ok ((roundHalfEven live : ℚ) / 1000000) ↔
        roundHalfEven (live + roundingError mock) = roundHalfEven live := by
      constructor
      · intro heq
        have hcast := (div_left_inj' (by norm_num)).mp (Except.ok.inj heq)
        exact_mod_cast hcast
      · intro heq
        rw [heq]
    have herror : live + roundingError mock - roundHalfEven live =
        roundingError mock - roundingError live := by
      unfold roundingError
      ring
    rw [hiff, roundHalfEven_eq_iff]
    unfold NearestEven ErrorsCancel
    rw [herror]
    exact ⟨fun hcancel => ⟨fun hle => absurd hpos (not_lt.mpr hle), fun _ => hcancel⟩,
      fun hcond => hcond.2 hpos⟩

def plainText : PyText := ⟨fun _ => "0.0", fun _ => "[]", id, fun _ => none⟩

/-- a value of one half that is exact in millionths -/
theorem recalibratedTaskValue_eq_live_sample :
    recalibratedTaskValue exactOps plainText
        (taskValueFromScore exactOps
          (acceptedScore (19 / 40) 0 0 [("frontier_difficulty", .num 0)]))
        [("frontier_difficulty", .num 0)] (.num (45 / 100)) =
      .ok (taskValueFromScore exactOps
        (acceptedScore (19 / 40) (frontierBandScore exactOps (45 / 100)) 0 [])) :=
  (recalibratedTaskValue_eq_live_iff plainText ⟨⟨by norm_num, by norm_num⟩, le_rfl, zero_le_one⟩
    rfl []).mpr (by decide +kernel)

/-- 0.50000055 is rounded up before the frontier term is added, and the sum once more -/
theorem double_rounding_pays_another_value :
    ¬ ∀ (T : PyText) (rest frontier runtime rate : ℚ) (components liveComponents : Obj),
      ScoreParts rest frontier → 0 ≤ runtime ∧ runtime ≤ 1 → 0 ≤ rate ∧ rate ≤ 1 →
      Dict.get? components "frontier_difficulty" = some (.num frontier) →
      recalibratedTaskValue exactOps T
          (taskValueFromScore exactOps (acceptedScore rest frontier runtime components))
          components (.num rate) =
        .ok (taskValueFromScore exactOps
          (acceptedScore rest (frontierBandScore exactOps rate) runtime liveComponents)) := by
  intro h
  have heq := h plainText (4750005225 / 10000000000) 0 0 (45 / 100)
    [("frontier_difficulty", .num 0)] [] ⟨⟨by norm_num, by norm_num⟩, le_rfl, zero_le_one⟩
    ⟨le_rfl, zero_le_one⟩ ⟨by norm_num, by norm_num⟩ rfl
  have hcheck : (match recalibratedTaskValue exactOps plainText
      (taskValueFromScore exactOps
        (acceptedScore (4750005225 / 10000000000) 0 0 [("frontier_difficulty", .num 0)]))
      [("frontier_difficulty", .num 0)] (.num (45 / 100)) with
    | .ok value => decide (value = taskValueFromScore exactOps
        (acceptedScore (4750005225 / 10000000000) (frontierBandScore exactOps (45 / 100)) 0 []))
    | .error _ => false) = true := by
    rw [heq]
    exact decide_eq_true rfl
  revert hcheck
  decide +kernel

end Dolores
