import Mathlib.Algebra.Order.BigOperators.Group.List
import Mathlib.Algebra.Order.Field.Basic
import Mathlib.Data.List.Induction
import Mathlib.Tactic.Linarith
import Mathlib.Tactic.Ring

/-!
# A budget that refills

A level is spent at times that do not decrease.  It refills at `rate`, and is never above `cap`.

* `Spent cap rate es level time`   after the pairs of `es`, a time and what it cost, the level is
                                   `level` at `time`;
* `spentIn s t es`                 what was spent from `s` to `t`;
* `Spent.spent_since`              what was spent since `s` and what is left were there at `s` or
                                   came in since;
* `Spent.spent_in`                 any interval costs at most `cap` and what came in during it;
* `Filled.affords`                 a level that was full at the start can pay whatever keeps every
                                   interval within that bound.
-/

set_option linter.unusedSectionVars false

namespace Budget

section
variable {K : Type} [Field K] [LinearOrder K] [IsStrictOrderedRing K]
  {cap rate level time s t u cost : K} {es : List (K × K)}

/-- the level at `t`, before anything is spent there -/
def refilled (cap rate level time t : K) : K := min cap (level + (t - time) * rate)

inductive Spent (cap rate : K) : List (K × K) → K → K → Prop
  | start {level : K} (time : K) (hpos : 0 ≤ level) (hcap : level ≤ cap) :
      Spent cap rate [] level time
  | snoc {es : List (K × K)} {level time t cost : K} (h : Spent cap rate es level time)
      (htime : time ≤ t) (hcost : cost ≤ refilled cap rate level time t) :
      Spent cap rate (es ++ [(t, cost)]) (refilled cap rate level time t - cost) t

def spentIn (s t : K) (es : List (K × K)) : K :=
  ((es.filter fun e => s ≤ e.1 ∧ e.1 ≤ t).map Prod.snd).sum

theorem spentIn_nil (s t : K) : spentIn s t [] = 0 := rfl

theorem spentIn_snoc (s t : K) (es : List (K × K)) (u cost : K) :
    spentIn s t (es ++ [(u, cost)]) = spentIn s t es + if s ≤ u ∧ u ≤ t then cost else 0 := by
  unfold spentIn
  rw [List.filter_append, List.map_append, List.sum_append]
  by_cases h : s ≤ u ∧ u ≤ t
  · rw [if_pos h, List.filter_cons_of_pos (by exact decide_eq_true h)]
    rw [List.filter_nil, List.map_singleton, List.sum_singleton]
  · rw [if_neg h, List.filter_cons_of_neg (by simpa using h)]
    rfl

theorem refilled_le_cap : refilled cap rate level time t ≤ cap := min_le_left _ _

theorem refilled_le : refilled cap rate level time t ≤ level + (t - time) * rate := min_le_right _ _

theorem Spent.level_nonneg (h : Spent cap rate es level time) : 0 ≤ level := by
  cases h with
  | start _ hpos => exact hpos
  | snoc _ _ hcost => exact sub_nonneg.mpr hcost

/-- nothing has been spent in an interval that is yet to come -/
theorem Spent.spent_later (h : Spent cap rate es level time) (hlater : time < s) :
    spentIn s t es = 0 := by
  induction h with
  | start => exact spentIn_nil s t
  | snoc h htime _ ih =>
    rw [spentIn_snoc, ih (lt_of_le_of_lt htime hlater),
      if_neg fun hmem => absurd hmem.1 (not_le.mpr hlater), add_zero]

theorem Spent.spent_since (hrate : 0 ≤ rate) (h : Spent cap rate es level time) (hs : s ≤ time)
    (ht : time ≤ t) : spentIn s t es + level ≤ cap + (time - s) * rate := by
  induction h with
  | start time _ hcap =>
    rw [spentIn_nil, zero_add]
    exact le_add_of_le_of_nonneg hcap (mul_nonneg (sub_nonneg.mpr hs) hrate)
  | @snoc es level time u cost h htime _ ih =>
    rw [spentIn_snoc, if_pos ⟨hs, ht⟩]
    by_cases hbefore : s ≤ time
    · have hrest := ih hbefore (le_trans htime ht)
      have hrefill : refilled cap rate level time u ≤ level + (u - time) * rate := refilled_le
      have hsplit : (time - s) * rate + (u - time) * rate = (u - s) * rate := by ring
      linarith
    · have hrefill : refilled cap rate level time u ≤ cap := refilled_le_cap
      have hgain := mul_nonneg (sub_nonneg.mpr hs) hrate
      rw [h.spent_later (not_le.mp hbefore)]
      linarith

theorem Spent.spent_in (hcap : 0 ≤ cap) (hrate : 0 ≤ rate) (hst : s ≤ t)
    (h : Spent cap rate es level time) : spentIn s t es ≤ cap + (t - s) * rate := by
  induction h with
  | start =>
    rw [spentIn_nil]
    exact add_nonneg hcap (mul_nonneg (sub_nonneg.mpr hst) hrate)
  | @snoc es level time u cost h htime hcost ih =>
    by_cases hmem : s ≤ u ∧ u ≤ t
    · -- the history ends inside the interval
      have hnext := h.snoc htime hcost
      have hsince := hnext.spent_since hrate hmem.1 hmem.2
      have hlater : (u - s) * rate ≤ (t - s) * rate :=
        mul_le_mul_of_nonneg_right (sub_le_sub_right hmem.2 s) hrate
      have hleft := hnext.level_nonneg
      linarith
    · rw [spentIn_snoc, if_neg hmem, add_zero]
      exact ih

/-! ## from a full level on -/

theorem spentIn_nonneg (hes : ∀ e ∈ es, 0 ≤ e.2) : 0 ≤ spentIn s t es := by
  apply List.sum_nonneg
  intro cost hcost
  obtain ⟨e, he, rfl⟩ := List.mem_map.mp hcost
  exact hes e (List.mem_of_mem_filter he)

theorem spentIn_mono (hes : ∀ e ∈ es, 0 ≤ e.2) (htu : t ≤ u) :
    spentIn s t es ≤ spentIn s u es := by
  induction es using List.reverseRecOn with
  | nil => exact le_rfl
  | append_singleton es e ih =>
    have hrest := ih fun e he => hes e (List.mem_append_left _ he)
    have hcost : 0 ≤ e.2 := hes e (List.mem_append_right _ List.mem_cons_self)
    rw [spentIn_snoc, spentIn_snoc]
    by_cases hmem : s ≤ e.1 ∧ e.1 ≤ t
    · rw [if_pos hmem, if_pos ⟨hmem.1, hmem.2.trans htu⟩]
      exact add_le_add_left hrest _
    · rw [if_neg hmem, add_zero]
      split
      · exact hrest.trans (le_add_of_nonneg_right hcost)
      · rw [add_zero]
        exact hrest

/-- the level was full at some time, and has only paid for what was spent since -/
def Filled (cap rate : K) (es : List (K × K)) (level time : K) : Prop :=
  ∃ s, s ≤ time ∧ cap + (time - s) * rate - spentIn s time es ≤ level

theorem Filled.start (cap rate time : K) : Filled cap rate [] cap time := by
  refine ⟨time, le_rfl, ?_⟩
  rw [spentIn_nil, sub_self, zero_mul, add_zero, sub_zero]

theorem Filled.snoc (h : Filled cap rate es level time) (hes : ∀ e ∈ es, 0 ≤ e.2)
    (htime : time ≤ t) :
    Filled cap rate (es ++ [(t, cost)]) (refilled cap rate level time t - cost) t := by
  obtain ⟨s, hs, hlevel⟩ := h
  rcases le_total cap (level + (t - time) * rate) with hfull | hnot
  · -- the level is full at `t` itself
    refine ⟨t, le_rfl, ?_⟩
    have hspent : 0 ≤ spentIn t t es := spentIn_nonneg hes
    rw [spentIn_snoc, if_pos ⟨le_rfl, le_rfl⟩, refilled, min_eq_left hfull, sub_self, zero_mul]
    linarith
  · refine ⟨s, hs.trans htime, ?_⟩
    have hspent : spentIn s time es ≤ spentIn s t es := spentIn_mono hes htime
    have hsplit : (time - s) * rate + (t - time) * rate = (t - s) * rate := by ring
    rw [spentIn_snoc, if_pos ⟨hs.trans htime, le_rfl⟩, refilled, min_eq_right hnot]
    linarith

theorem Filled.affords (h : Filled cap rate es level time) (hes : ∀ e ∈ es, 0 ≤ e.2)
    (htime : time ≤ t) (hwithin : ∀ s ≤ t, spentIn s t es + cost ≤ cap + (t - s) * rate) :
    cost ≤ refilled cap rate level time t := by
  obtain ⟨s, hs, hlevel⟩ := h
  apply le_min
  · have hnow := hwithin t le_rfl
    have hspent : 0 ≤ spentIn t t es := spentIn_nonneg hes
    rw [sub_self, zero_mul] at hnow
    linarith
  · have hsince := hwithin s (hs.trans htime)
    have hspent : spentIn s time es ≤ spentIn s t es := spentIn_mono hes htime
    have hsplit : (time - s) * rate + (t - time) * rate = (t - s) * rate := by ring
    linarith

end

end Budget
