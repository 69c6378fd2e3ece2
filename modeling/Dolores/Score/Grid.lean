import Dolores.Score.Recalibrate

/-!
# The grid of the stored scores (`scoring.py`)

Scores and moving averages are rounded to six decimals, so they are multiples of a millionth.  All
statements are about exact arithmetic.

* `NearestEven.mono`              rounding half to even is monotone and fixes the integers;
* `onGrid_round6`, `round6_mem`   rounding to the grid, and the ranges that survive it;
* `getD_updateEmaScores`          one moving average after an epoch, for every miner;
* `topK_mem`                      the best `k` values of a miner sum to at most `k`;
* `stepDown_lt_iff`               when an epoch without a score lowers a moving average.
-/

namespace Dolores

/-! ## rounding half to even -/

theorem NearestEven.mono {q r : ℚ} {m n : Int} (hm : NearestEven q m) (hn : NearestEven r n)
    (h : q ≤ r) : m ≤ n := by
  by_contra hlt
  have hstep : (n : ℚ) + 1 ≤ m := by exact_mod_cast not_le.mp hlt
  have hqm : m - q ≤ 1 / 2 := by
    have hneg := (neg_le_abs (q - m)).trans hm.abs_le
    linarith
  have hrn : r - n ≤ 1 / 2 := (le_abs_self _).trans hn.abs_le
  -- the two numbers are equal, and halfway between the two integers
  have hqr : q = r := le_antisymm h (by linarith)
  rw [hqr] at hm
  have heq := hm.unique hn
  rw [heq] at hstep
  linarith

theorem roundHalfEven_mono {q r : ℚ} (h : q ≤ r) : roundHalfEven q ≤ roundHalfEven r :=
  (nearestEven_roundHalfEven q).mono (nearestEven_roundHalfEven r) h

theorem roundHalfEven_intCast (n : Int) : roundHalfEven (n : ℚ) = n := by
  rw [roundHalfEven_eq_iff]
  left
  rw [sub_self, abs_zero]
  norm_num

/-! ## multiples of a millionth -/

/-- a multiple of a millionth -/
def OnGrid (q : ℚ) : Prop := ∃ n : Int, q = n / 1000000

theorem onGrid_zero : OnGrid 0 := ⟨0, by norm_num⟩

theorem onGrid_intCast (n : Int) : OnGrid n := by
  refine ⟨n * 1000000, ?_⟩
  push_cast
  ring

theorem onGrid_round6 (q : ℚ) : OnGrid (exactOps.round6 q) := ⟨roundHalfEven (q * 1000000), rfl⟩

theorem round6_millionths (n : Int) : exactOps.round6 (n / 1000000) = n / 1000000 := by
  show (roundHalfEven ((n : ℚ) / 1000000 * 1000000) : ℚ) / 1000000 = _
  rw [div_mul_cancel₀ _ (by norm_num), roundHalfEven_intCast]

theorem round6_onGrid {q : ℚ} (h : OnGrid q) : exactOps.round6 q = q := by
  obtain ⟨n, hn⟩ := h
  rw [hn]
  exact round6_millionths n

theorem round6_mono {q r : ℚ} (h : q ≤ r) : exactOps.round6 q ≤ exactOps.round6 r := by
  have hround : roundHalfEven (q * 1000000) ≤ roundHalfEven (r * 1000000) :=
    roundHalfEven_mono (by linarith)
  have hcast : (roundHalfEven (q * 1000000) : ℚ) ≤ roundHalfEven (r * 1000000) := by
    exact_mod_cast hround
  exact div_le_div_of_nonneg_right hcast (by norm_num)

/-- a bound on the grid survives the rounding -/
theorem round6_mem {q low high : ℚ} (hlow : OnGrid low) (hhigh : OnGrid high)
    (h : low ≤ q ∧ q ≤ high) : low ≤ exactOps.round6 q ∧ exactOps.round6 q ≤ high := by
  constructor
  · calc low = exactOps.round6 low := (round6_onGrid hlow).symm
      _ ≤ exactOps.round6 q := round6_mono h.1
  · calc exactOps.round6 q ≤ exactOps.round6 high := round6_mono h.2
      _ = high := round6_onGrid hhigh

/-- a positive multiple is at least one millionth -/
theorem OnGrid.le_of_pos {q : ℚ} (h : OnGrid q) (hpos : 0 < q) : 1 / 1000000 ≤ q := by
  obtain ⟨n, hn⟩ := h
  rw [hn] at hpos ⊢
  have hn0 : (0 : ℚ) < n := by
    rcases div_pos_iff.mp hpos with hc | hc
    · exact hc.1
    · exact absurd hc.2 (by norm_num)
  have hn1 : (0 : Int) < n := by exact_mod_cast hn0
  have hone : (1 : Int) ≤ n := by omega
  have hcast : (1 : ℚ) ≤ n := by exact_mod_cast hone
  exact div_le_div_of_nonneg_right hcast (by norm_num)

/-! ## moving averages -/

/-- the moving average of one miner after an epoch -/
def emaValue (A : FloatOps) (previous epochScores : Dict String ℚ) (alpha : ℚ)
    (infraOnlyMiners : List String) (miner : String) : ℚ :=
  if miner ∈ infraOnlyMiners then A.round6 (previous.getD miner 0)
  else A.round6 (A.add (A.mul alpha (epochScores.getD miner 0))
    (A.mul (A.sub 1 alpha) (previous.getD miner 0)))

section
variable {previous epochScores : Dict String ℚ} {alpha : ℚ} {infra : List String}
  {miner : String}

theorem mem_emaMiners : miner ∈ emaMiners previous epochScores ↔
    miner ∈ previous.keys ∨ miner ∈ epochScores.keys := by
  unfold emaMiners
  rw [List.mem_insertionSort, List.mem_dedup, List.mem_append]

theorem nodup_emaMiners (previous epochScores : Dict String ℚ) :
    (emaMiners previous epochScores).Nodup :=
  (List.perm_insertionSort _ _).nodup_iff.mpr (List.nodup_dedup _)

theorem updateEmaScores_eq (A : FloatOps) :
    updateEmaScores A previous epochScores alpha infra =
      (emaMiners previous epochScores).map fun miner =>
        (miner, emaValue A previous epochScores alpha infra miner) := by
  unfold updateEmaScores
  apply List.map_congr_left
  intro miner _
  unfold emaValue
  split
  · rfl
  · rfl

theorem keys_updateEmaScores (A : FloatOps) :
    (updateEmaScores A previous epochScores alpha infra).keys = emaMiners previous epochScores := by
  rw [updateEmaScores_eq]
  unfold Dict.keys
  rw [List.map_map]
  exact List.map_id _

theorem getD_of_not_mem {V : Type} {d : Dict String V} (h : miner ∉ d.keys) (v : V) :
    d.getD miner v = v := by
  unfold Dict.getD
  cases hk : d.get? miner with
  | none => rfl
  | some w => exact absurd (Dict.mem_keys_of_get? hk) h

/-- a miner without a score and without a moving average has the value zero -/
theorem emaValue_unknown (hp : miner ∉ previous.keys) (hs : miner ∉ epochScores.keys) :
    emaValue exactOps previous epochScores alpha infra miner = 0 := by
  have hzero : exactOps.round6 0 = 0 := round6_onGrid onGrid_zero
  unfold emaValue
  rw [getD_of_not_mem hp, getD_of_not_mem hs]
  split
  · exact hzero
  · show exactOps.round6 (alpha * 0 + (1 - alpha) * 0) = 0
    rw [mul_zero, mul_zero, add_zero, hzero]

/-- the stored moving average of any miner -/
theorem getD_updateEmaScores (previous epochScores : Dict String ℚ) (alpha : ℚ)
    (infra : List String) (miner : String) :
    (updateEmaScores exactOps previous epochScores alpha infra).getD miner 0 =
      emaValue exactOps previous epochScores alpha infra miner := by
  by_cases hmem : miner ∈ emaMiners previous epochScores
  · rw [updateEmaScores_eq]
    unfold Dict.getD
    rw [Dict.get?_map_keys, if_pos hmem]
    rfl
  · have hnot := not_or.mp fun h => hmem (mem_emaMiners.mpr h)
    rw [emaValue_unknown hnot.1 hnot.2]
    apply getD_of_not_mem
    rw [keys_updateEmaScores]
    exact hmem

theorem emaValue_of_not_infra (hinfra : miner ∉ infra) :
    emaValue exactOps previous epochScores alpha infra miner =
      exactOps.round6 (alpha * epochScores.getD miner 0 +
        (1 - alpha) * previous.getD miner 0) := by
  unfold emaValue
  rw [if_neg hinfra]
  rfl

theorem onGrid_emaValue : OnGrid (emaValue exactOps previous epochScores alpha infra miner) := by
  unfold emaValue
  split
  · exact onGrid_round6 _
  · exact onGrid_round6 _

/-- an average of two values in a range whose ends are on the grid stays in the range -/
theorem emaValue_mem {low high : ℚ} (hlow : OnGrid low) (hhigh : OnGrid high)
    (halpha : 0 ≤ alpha ∧ alpha ≤ 1)
    (hprevious : low ≤ previous.getD miner 0 ∧ previous.getD miner 0 ≤ high)
    (hscore : low ≤ epochScores.getD miner 0 ∧ epochScores.getD miner 0 ≤ high) :
    low ≤ emaValue exactOps previous epochScores alpha infra miner ∧
      emaValue exactOps previous epochScores alpha infra miner ≤ high := by
  by_cases hinfra : miner ∈ infra
  · unfold emaValue
    rw [if_pos hinfra]
    exact round6_mem hlow hhigh hprevious
  · rw [emaValue_of_not_infra hinfra]
    apply round6_mem hlow hhigh
    have hcomplement : 0 ≤ 1 - alpha := by linarith [halpha.2]
    constructor
    · have h1 := mul_le_mul_of_nonneg_left hscore.1 halpha.1
      have h2 := mul_le_mul_of_nonneg_left hprevious.1 hcomplement
      linarith
    · have h1 := mul_le_mul_of_nonneg_left hscore.2 halpha.1
      have h2 := mul_le_mul_of_nonneg_left hprevious.2 hcomplement
      linarith

end

/-! ## an epoch without a score -/

/-- a moving average of seven tenths of a value -/
def stepDown (q : ℚ) : ℚ := exactOps.round6 (7 / 10 * q)

/-- one millionth is rounded back to itself -/
theorem stepDown_millionth : stepDown (1 / 1000000) = 1 / 1000000 := by
  have hnear : NearestEven (7 / 10 * (1 / 1000000) * 1000000) 1 := by
    left
    norm_num [abs_lt]
  show (roundHalfEven (7 / 10 * (1 / 1000000) * 1000000) : ℚ) / 1000000 = _
  rw [roundHalfEven_eq_iff.mpr hnear]
  norm_num

/-- no positive value of the grid steps down to zero -/
theorem le_stepDown {q : ℚ} (h : 1 / 1000000 ≤ q) : 1 / 1000000 ≤ stepDown q := by
  rw [← stepDown_millionth]
  exact round6_mono (by linarith)

/-- a positive value of the grid steps down unless it is one millionth -/
theorem stepDown_lt_iff {q : ℚ} (hgrid : OnGrid q) (hpos : 0 < q) :
    stepDown q < q ↔ q ≠ 1 / 1000000 := by
  constructor
  · intro hlt heq
    rw [heq, stepDown_millionth] at hlt
    exact lt_irrefl _ hlt
  · intro hne
    obtain ⟨n, hn⟩ := hgrid
    have hlow := (OnGrid.le_of_pos ⟨n, hn⟩ hpos).lt_of_ne (Ne.symm hne)
    rw [hn] at hlow ⊢
    have hn1 : (1 : ℚ) < n := by linarith
    have hn1' : (1 : Int) < n := by exact_mod_cast hn1
    have htwo : (2 : Int) ≤ n := by omega
    have htwo' : (2 : ℚ) ≤ n := by exact_mod_cast htwo
    -- from two millionths on, the loss of three tenths is more than half a millionth
    show (roundHalfEven (7 / 10 * ((n : ℚ) / 1000000) * 1000000) : ℚ) / 1000000 < n / 1000000
    have hexact : 7 / 10 * ((n : ℚ) / 1000000) * 1000000 = 7 / 10 * n := by ring
    rw [hexact]
    have hnear := (neg_le_abs (7 / 10 * (n : ℚ) - roundHalfEven (7 / 10 * (n : ℚ)))).trans
      (nearestEven_roundHalfEven (7 / 10 * (n : ℚ))).abs_le
    have hlt : (roundHalfEven (7 / 10 * (n : ℚ)) : ℚ) < n := by linarith
    exact div_lt_div_of_pos_right hlt (by norm_num)

/-! ## the best values of a miner -/

theorem exactOps_sum (values : List ℚ) : exactOps.sum values = values.sum := by
  unfold FloatOps.sum
  rw [List.sum_eq_foldl]
  rfl

theorem sum_mem {values : List ℚ} (h : ∀ v ∈ values, 0 ≤ v ∧ v ≤ 1) :
    0 ≤ values.sum ∧ values.sum ≤ values.length := by
  induction values with
  | nil => exact ⟨le_rfl, by norm_num⟩
  | cons v values ih =>
    obtain ⟨hv, hv'⟩ := h v List.mem_cons_self
    obtain ⟨hs, hs'⟩ := ih fun w hw => h w (List.mem_cons_of_mem v hw)
    rw [List.sum_cons, List.length_cons]
    push_cast
    exact ⟨by linarith, by linarith⟩

theorem clipZero_of_nonneg {q : ℚ} (h : 0 ≤ q) : clipZero q = q := max_eq_right h

/-- the best values are at most `k`, and all in the unit interval -/
theorem topK_mem {values : List ℚ} (h : ∀ v ∈ values, 0 ≤ v ∧ v ≤ 1) (k : Nat) :
    0 ≤ exactOps.round6 (exactOps.sum (pyTake k ((values.map clipZero).insertionSort
      fun a b => b ≤ a))) ∧
    exactOps.round6 (exactOps.sum (pyTake k ((values.map clipZero).insertionSort
      fun a b => b ≤ a))) ≤ k := by
  have htake : pyTake k ((values.map clipZero).insertionSort fun a b => b ≤ a) =
      ((values.map clipZero).insertionSort fun a b => b ≤ a).take k := by
    unfold pyTake
    rw [if_pos (Int.natCast_nonneg k), Int.toNat_natCast]
  have hmem : ∀ v ∈ ((values.map clipZero).insertionSort fun a b => b ≤ a).take k,
      0 ≤ v ∧ v ≤ 1 := by
    intro v hv
    have hv' := List.mem_of_mem_take hv
    rw [List.mem_insertionSort] at hv'
    obtain ⟨w, hw, hwv⟩ := List.mem_map.mp hv'
    rw [← hwv, clipZero_of_nonneg (h w hw).1]
    exact h w hw
  rw [htake, exactOps_sum]
  obtain ⟨hlow, hhigh⟩ := sum_mem hmem
  have hlen : ((((values.map clipZero).insertionSort fun a b => b ≤ a).take k).length : ℚ) ≤ k := by
    exact_mod_cast List.length_take_le k _
  exact round6_mem onGrid_zero (by exact_mod_cast onGrid_intCast k) ⟨hlow, hhigh.trans hlen⟩

end Dolores
