import Dolores.Lib.Except
import Dolores.Lib.Crash

/-!
# Two runs side by side

Two programs agree along a relation of states when, from related states, their runs end in the same
way: both return related values, or both raise the same exception, or both are killed, and the
states they leave are related again.

* `Ends S R`     how two finished runs compare;
* `Agree S R`    two programs compared from all related states;
* `Agree.bind`, `Agree.handle`, `Agree.ite`, ..   one rule per way of composing programs;
* `Ends.bind`, `Ends.bind_into`   one run at a time.
-/

set_option linter.unusedSectionVars false

namespace Crash

section
variable {σ τ ε α β γ δ : Type}

/-- the two runs end in the same way -/
inductive Ends (S : σ → τ → Prop) (R : α → β → Prop) :
    Outcome ε α × σ → Outcome ε β × τ → Prop
  | ok {a : α} {b : β} {s : σ} {t : τ} : R a b → S s t → Ends S R (.ok a, s) (.ok b, t)
  | raise {e : ε} {s : σ} {t : τ} : S s t → Ends S R (.raise e, s) (.raise e, t)
  | killed {s : σ} {t : τ} : S s t → Ends S R (.killed, s) (.killed, t)

/-- from related states, the two programs end in the same way -/
def Agree (S : σ → τ → Prop) (R : α → β → Prop) (p : Proc σ ε α) (q : Proc τ ε β) : Prop :=
  ∀ s t, S s t → Ends S R (p s) (q t)

variable {S S' : σ → τ → Prop} {R R' : α → β → Prop}

theorem Ends.mono {x : Outcome ε α × σ} {y : Outcome ε β × τ} (h : Ends S R x y)
    (hS : ∀ s t, S s t → S' s t) (hR : ∀ a b, R a b → R' a b) : Ends S' R' x y := by
  cases h with
  | ok hr hs => exact .ok (hR _ _ hr) (hS _ _ hs)
  | raise hs => exact .raise (hS _ _ hs)
  | killed hs => exact .killed (hS _ _ hs)

/-- one run after the other, with a weaker relation of the states from then on -/
theorem Ends.bind_into {p : Proc σ ε α} {q : Proc τ ε β} {f : α → Proc σ ε γ}
    {g : β → Proc τ ε δ} {Q : γ → δ → Prop} {s : σ} {t : τ} (h : Ends S R (p s) (q t))
    (hS : ∀ s t, S s t → S' s t)
    (hfg : ∀ a b s' t', R a b → S s' t' → Ends S' Q (f a s') (g b t')) :
    Ends S' Q ((p >>= f) s) ((q >>= g) t) := by
  show Ends S' Q (Proc.bind p f s) (Proc.bind q g t)
  unfold Proc.bind
  generalize p s = x at h
  generalize q t = y at h
  cases h with
  | ok hr hs => exact hfg _ _ _ _ hr hs
  | raise hs => exact .raise (hS _ _ hs)
  | killed hs => exact .killed (hS _ _ hs)

theorem Ends.bind {p : Proc σ ε α} {q : Proc τ ε β} {f : α → Proc σ ε γ} {g : β → Proc τ ε δ}
    {Q : γ → δ → Prop} {s : σ} {t : τ} (h : Ends S R (p s) (q t))
    (hfg : ∀ a b s' t', R a b → S s' t' → Ends S Q (f a s') (g b t')) :
    Ends S Q ((p >>= f) s) ((q >>= g) t) := h.bind_into (fun _ _ => id) hfg

/-- one run compared with itself -/
theorem Ends.refl (x : Outcome ε α × σ) : Ends Eq Eq x x := by
  obtain ⟨o, s⟩ := x
  cases o with
  | ok a => exact .ok rfl rfl
  | raise e => exact .raise rfl
  | killed => exact .killed rfl

theorem Agree.mono {p : Proc σ ε α} {q : Proc τ ε β} (h : Agree S R p q)
    (hR : ∀ a b, R a b → R' a b) : Agree S R' p q :=
  fun s t hs => (h s t hs).mono (fun _ _ => id) hR

theorem Agree.pure {a : α} {b : β} (h : R a b) :
    Agree S R (pure a : Proc σ ε α) (pure b : Proc τ ε β) := fun _ _ hs => .ok h hs

theorem Agree.raise (e : ε) :
    Agree S R (Proc.raise e : Proc σ ε α) (Proc.raise e : Proc τ ε β) := fun _ _ hs => .raise hs

theorem Agree.get : Agree S S (Proc.get : Proc σ ε σ) (Proc.get : Proc τ ε τ) :=
  fun _ _ hs => .ok hs hs

theorem Agree.modify {f : σ → σ} {g : τ → τ} (h : ∀ s t, S s t → S (f s) (g t)) :
    Agree S (fun _ _ => True) (Proc.modify f : Proc σ ε Unit) (Proc.modify g : Proc τ ε Unit) :=
  fun s t hs => .ok trivial (h s t hs)

theorem Agree.ofBoth {x : Except ε α} {y : Except ε β} (h : Except.Both R x y) :
    Agree S R (Proc.ofExcept x : Proc σ ε α) (Proc.ofExcept y : Proc τ ε β) := fun _ _ hs => by
  cases h with
  | ok hr => exact .ok hr hs
  | error e => exact .raise hs

theorem Agree.ofExcept (x : Except ε α) :
    Agree S Eq (Proc.ofExcept x : Proc σ ε α) (Proc.ofExcept x : Proc τ ε α) :=
  Agree.ofBoth (Except.Both.refl x)

theorem Agree.bind {p : Proc σ ε α} {q : Proc τ ε β} {f : α → Proc σ ε γ} {g : β → Proc τ ε δ}
    {Q : γ → δ → Prop} (h : Agree S R p q) (hfg : ∀ a b, R a b → Agree S Q (f a) (g b)) :
    Agree S Q (p >>= f) (q >>= g) :=
  fun s t hs => (h s t hs).bind fun a b s' t' hr hs' => hfg a b hr s' t' hs'

/-- the values of the first parts are equal -/
theorem Agree.bind_eq {p : Proc σ ε α} {q : Proc τ ε α} {f : α → Proc σ ε γ} {g : α → Proc τ ε δ}
    {Q : γ → δ → Prop} (h : Agree S Eq p q) (hfg : ∀ a, Agree S Q (f a) (g a)) :
    Agree S Q (p >>= f) (q >>= g) :=
  h.bind fun a b hab => by
    rw [← hab]
    exact hfg a

theorem Agree.handle {p : Proc σ ε α} {q : Proc τ ε β} {f : ε → Proc σ ε α} {g : ε → Proc τ ε β}
    (h : Agree S R p q) (hfg : ∀ e, Agree S R (f e) (g e)) :
    Agree S R (p.handle f) (q.handle g) := fun s t hs => by
  unfold Proc.handle
  have hends := h s t hs
  generalize p s = x at hends
  generalize q t = y at hends
  cases hends with
  | ok hr hs' => exact .ok hr hs'
  | raise hs' => exact hfg _ _ _ hs'
  | killed hs' => exact .killed hs'

theorem Agree.ite {c c' : Prop} [Decidable c] [Decidable c'] {p p' : Proc σ ε α}
    {q q' : Proc τ ε β} (hc : c ↔ c') (h : Agree S R p q) (h' : Agree S R p' q') :
    Agree S R (if c then p else p') (if c' then q else q') := by
  by_cases hcase : c
  · rw [if_pos hcase, if_pos (hc.mp hcase)]
    exact h
  · rw [if_neg hcase, if_neg fun hc' => hcase (hc.mpr hc')]
    exact h'

end

end Crash
