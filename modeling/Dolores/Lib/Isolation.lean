import Mathlib.Order.Defs.PartialOrder

/-!
# Users of one machine

A machine answers one input after the other, and changes its state with each.  Some of the inputs
are those of one user.

* `answers`, `final`       a run: each input with its answer, and the state at the end;
* `Unwinding`              what one step does to two states that the user cannot tell apart;
* `Unwinding.isolated`     the user gets the answers of a run of these inputs alone.
-/

namespace Isolation

section
variable {σ ι ο τ : Type} [Preorder τ] (step : σ → ι → ο × σ)

def answers : σ → List ι → List (ι × ο)
  | _, [] => []
  | s, i :: is => (i, (step s i).1) :: answers (step s i).2 is

def final (s : σ) (is : List ι) : σ := is.foldl (fun s i => (step s i).2) s

theorem final_snoc (s : σ) (is : List ι) (i : ι) :
    final step s (is ++ [i]) = (step (final step s is) i).2 := by
  unfold final
  rw [List.foldl_append]
  rfl

theorem answers_snoc (s : σ) (is : List ι) (i : ι) :
    answers step s (is ++ [i]) = answers step s is ++ [(i, (step (final step s is) i).1)] := by
  induction is generalizing s with
  | nil => rfl
  | cons i' is ih =>
    show (i', (step s i').1) :: answers step (step s i').2 (is ++ [i]) = _
    rw [ih]
    rfl

theorem map_fst_answers (s : σ) (is : List ι) : (answers step s is).map Prod.fst = is := by
  induction is generalizing s with
  | nil => rfl
  | cons i is ih =>
    show i :: (answers step (step s i).2 is).map Prod.fst = _
    rw [ih]

/-- `R t` relates two states that the inputs of the user cannot tell apart, if they come at `t` or
later -/
structure Unwinding (time : ι → τ) (user : ι → Bool) (R : τ → σ → σ → Prop) : Prop where
  own : ∀ {t s s' i}, R t s s' → t ≤ time i → user i = true →
    (step s i).1 = (step s' i).1 ∧ R (time i) (step s i).2 (step s' i).2
  other : ∀ {t s s' i}, R t s s' → t ≤ time i → user i = false → R (time i) (step s i).2 s'

variable {step} {time : ι → τ} {user : ι → Bool} {R : τ → σ → σ → Prop} {t : τ} {s s' : σ}
  {is : List ι}

theorem Unwinding.isolated (h : Unwinding step time user R) (hR : R t s s')
    (hstart : ∀ i ∈ is, t ≤ time i) (hsorted : is.Pairwise fun i j => time i ≤ time j) :
    (answers step s is).filter (fun a => user a.1) = answers step s' (is.filter user) := by
  induction is generalizing t s s' with
  | nil => rfl
  | cons i is ih =>
    obtain ⟨hlater, hrest⟩ := List.pairwise_cons.mp hsorted
    have hi : t ≤ time i := hstart i List.mem_cons_self
    rw [answers, List.filter_cons, List.filter_cons]
    cases huser : user i with
    | true =>
      obtain ⟨hanswer, hnext⟩ := h.own hR hi huser
      rw [if_pos rfl, if_pos rfl, answers, ih hnext hlater hrest, hanswer]
    | false =>
      rw [if_neg Bool.false_ne_true, if_neg Bool.false_ne_true]
      exact ih (h.other hR hi huser) hlater hrest

end

end Isolation
