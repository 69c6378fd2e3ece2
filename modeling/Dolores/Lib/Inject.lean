import Mathlib.Logic.Function.Iterate

/-!
# One event inside a run

A deterministic machine takes steps.  At one moment, in place of a step, something from outside
changes its configuration.

* `run step inject k c`   the run in which the event comes in place of step `k`, if it comes;
* `run_before`, `run_after`   the run up to the event, and from it;
* `exists_run_iff`        what the run passes through;
* `eq_of_fixed`           a run stops in at most one configuration.
-/

namespace Inject

section
variable {C : Type} {step inject : C → C} {c : C} {k n : Nat}

def run (step inject : C → C) (k : Option Nat) (c : C) : Nat → C
  | 0 => c
  | n + 1 => if k = some n then inject (run step inject k c n) else step (run step inject k c n)

theorem run_none (n : Nat) : run step inject none c n = step^[n] c := by
  induction n with
  | zero => rfl
  | succ n ih =>
    rw [run, if_neg (Option.some_ne_none n).symm, ih, Function.iterate_succ_apply']

theorem run_before (h : n ≤ k) : run step inject (some k) c n = step^[n] c := by
  induction n with
  | zero => rfl
  | succ n ih =>
    have hne : some k ≠ some n := by
      intro heq
      have hk := Option.some.inj heq
      omega
    rw [run, if_neg hne, ih (by omega), Function.iterate_succ_apply']

theorem run_after (n : Nat) :
    run step inject (some k) c (k + 1 + n) = step^[n] (inject (step^[k] c)) := by
  induction n with
  | zero =>
    show run step inject (some k) c (k + 1) = _
    rw [run, if_pos rfl, run_before (Nat.le_refl k)]
    rfl
  | succ n ih =>
    have hne : some k ≠ some (k + 1 + n) := by
      intro heq
      have hk := Option.some.inj heq
      omega
    show run step inject (some k) c (k + 1 + n + 1) = _
    rw [run, if_neg hne, ih, Function.iterate_succ_apply']

theorem exists_run_iff {P : C → Prop} :
    (∃ n, P (run step inject (some k) c n)) ↔
      (∃ n ≤ k, P (step^[n] c)) ∨ ∃ n, P (step^[n] (inject (step^[k] c))) := by
  constructor
  · intro h
    obtain ⟨n, hn⟩ := h
    by_cases hle : n ≤ k
    · rw [run_before hle] at hn
      exact .inl ⟨n, hle, hn⟩
    · obtain ⟨m, rfl⟩ := Nat.exists_eq_add_of_le (Nat.lt_of_not_le hle)
      have hafter := @run_after _ step inject c k m
      exact .inr ⟨m, by rw [← hafter]; exact hn⟩
  · intro h
    rcases h with ⟨n, hle, hn⟩ | ⟨n, hn⟩
    · refine ⟨n, ?_⟩
      rw [run_before hle]
      exact hn
    · refine ⟨k + 1 + n, ?_⟩
      rw [run_after]
      exact hn

theorem iterate_of_fixed (h : step (step^[n] c) = step^[n] c) (m : Nat) :
    step^[n + m] c = step^[n] c := by
  induction m with
  | zero => rfl
  | succ m ih => rw [← Nat.add_assoc, Function.iterate_succ_apply', ih, h]

theorem eq_of_fixed {m : Nat} (hn : step (step^[n] c) = step^[n] c)
    (hm : step (step^[m] c) = step^[m] c) : step^[n] c = step^[m] c := by
  rcases Nat.le_total n m with hle | hle
  · obtain ⟨d, rfl⟩ := Nat.exists_eq_add_of_le hle
    exact (iterate_of_fixed hn d).symm
  · obtain ⟨d, rfl⟩ := Nat.exists_eq_add_of_le hle
    exact iterate_of_fixed hm d

end

end Inject
