import Mathlib.Tactic.Common

/-!
# Programs that may raise, or be killed between two effects

`Proc σ ε α` is a program over a state `σ`.  A run ends in one of three ways (`Outcome`): it
returns a value, it raises an exception of type `ε`, or the process is killed.  An exception may
be caught (`handle`) and a clean-up step may be attached (`ensure`); a kill can be neither caught
nor cleaned up, so the state at that instant is what is left behind.

* `wp p Q s`      the weakest precondition: `Q` has one assertion per way of ending;
* `wp_bind`, `wp_handle`, `wp_ensure`   the three ways of composing programs;
* `wp_mono`       consequence;
* `run_bind`      what a run that returned says about its parts;
* `Returns p P`   every run of `p` returns a value with `P`;
* `Keeps I p`     `I` is kept by `p` however it ends, with one rule per way of composing;
* `Moves R p`     every run of `p` moves the state along the preorder `R`;
* `RaisesOnly P p`   every exception of `p` satisfies `P`.
-/

set_option linter.unusedSectionVars false

namespace Crash

/-- How a run ends. -/
inductive Outcome (ε α : Type) where
  | ok (a : α)
  | raise (e : ε)
  | killed

/-- A program over the state `σ` that may raise `ε` or be killed. -/
def Proc (σ ε α : Type) : Type := σ → Outcome ε α × σ

namespace Proc

section
variable {σ ε α β : Type}

protected def pure (a : α) : Proc σ ε α := fun s => (.ok a, s)

protected def bind (p : Proc σ ε α) (f : α → Proc σ ε β) : Proc σ ε β := fun s =>
  match p s with
  | (.ok a, s') => f a s'
  | (.raise e, s') => (.raise e, s')
  | (.killed, s') => (.killed, s')

instance : Monad (Proc σ ε) where
  pure := Proc.pure
  bind := Proc.bind

instance : LawfulMonad (Proc σ ε) := by
  refine LawfulMonad.mk' _ ?_ ?_ ?_
  · intro α p
    funext s
    show Proc.bind p _ s = p s
    unfold Proc.bind
    rcases p s with ⟨o, s'⟩
    cases o with
    | ok a => rfl
    | raise e => rfl
    | killed => rfl
  · intro α β a f
    rfl
  · intro α β γ p f g
    funext s
    show Proc.bind (Proc.bind p f) g s = Proc.bind p (fun a => Proc.bind (f a) g) s
    unfold Proc.bind
    rcases p s with ⟨o, s'⟩
    cases o with
    | ok a => rfl
    | raise e => rfl
    | killed => rfl

def raise (e : ε) : Proc σ ε α := fun s => (.raise e, s)

def get : Proc σ ε σ := fun s => (.ok s, s)

def modify (f : σ → σ) : Proc σ ε Unit := fun s => (.ok (), f s)

def ofExcept : Except ε α → Proc σ ε α
  | .ok a => Proc.pure a
  | .error e => raise e

/-- run `p`; if it raises, run the handler in the state it left -/
def handle (p : Proc σ ε α) (h : ε → Proc σ ε α) : Proc σ ε α := fun s =>
  match p s with
  | (.ok a, s') => (.ok a, s')
  | (.raise e, s') => h e s'
  | (.killed, s') => (.killed, s')

/-- run `p` and then `f`, also when `p` raises; an exception of `f` replaces that of `p` -/
def ensure (p : Proc σ ε α) (f : Proc σ ε Unit) : Proc σ ε α :=
  handle p (fun e => f >>= fun _ => raise e) >>= fun a => f >>= fun _ => Proc.pure a

/-- raise `e` unless `c` holds -/
def guard (c : Bool) (e : ε) : Proc σ ε Unit := if c then Proc.pure () else raise e

/-! ### a composition, given how its first part ends -/

section
variable {p : Proc σ ε α} {s s' : σ}

theorem bind_of_ok {f : α → Proc σ ε β} {a : α} (h : p s = (.ok a, s')) :
    (p >>= f) s = f a s' := by
  show Proc.bind p f s = f a s'
  unfold Proc.bind
  rw [h]

theorem bind_of_raise {f : α → Proc σ ε β} {e : ε} (h : p s = (.raise e, s')) :
    (p >>= f) s = (.raise e, s') := by
  show Proc.bind p f s = _
  unfold Proc.bind
  rw [h]

theorem handle_of_ok {h : ε → Proc σ ε α} {a : α} (hp : p s = (.ok a, s')) :
    p.handle h s = (.ok a, s') := by
  unfold handle
  rw [hp]

theorem handle_of_raise {h : ε → Proc σ ε α} {e : ε} (hp : p s = (.raise e, s')) :
    p.handle h s = h e s' := by
  unfold handle
  rw [hp]

theorem ensure_of_ok {f : Proc σ ε Unit} {a : α} {s'' : σ} (hp : p s = (.ok a, s'))
    (hf : f s' = (.ok (), s'')) : p.ensure f s = (.ok a, s'') := by
  unfold ensure
  rw [bind_of_ok (handle_of_ok hp), bind_of_ok hf]
  rfl

/-- the clean-up raises after a part that returned -/
theorem ensure_of_ok_raise {f : Proc σ ε Unit} {a : α} {e : ε} {s'' : σ} (hp : p s = (.ok a, s'))
    (hf : f s' = (.raise e, s'')) : p.ensure f s = (.raise e, s'') := by
  unfold ensure
  rw [bind_of_ok (handle_of_ok hp), bind_of_raise hf]

theorem ensure_of_raise {f : Proc σ ε Unit} {e : ε} {s'' : σ} (hp : p s = (.raise e, s'))
    (hf : f s' = (.ok (), s'')) : p.ensure f s = (.raise e, s'') := by
  have hhandle : p.handle (fun e => f >>= fun _ => raise e) s = (.raise e, s'') :=
    (handle_of_raise hp).trans ((bind_of_ok hf).trans rfl)
  unfold ensure
  rw [bind_of_raise hhandle]

end

end

end Proc

/-! ## Weakest preconditions -/

/-- One assertion per way of ending. -/
structure Post (σ ε α : Type) where
  ok : α → σ → Prop
  raise : ε → σ → Prop
  killed : σ → Prop

section
variable {σ ε α β : Type}

/-- the same assertion however the run ends -/
def Post.always (I : σ → Prop) : Post σ ε α := ⟨fun _ => I, fun _ => I, I⟩

def Post.holds (Q : Post σ ε α) : Outcome ε α × σ → Prop
  | (.ok a, s) => Q.ok a s
  | (.raise e, s) => Q.raise e s
  | (.killed, s) => Q.killed s

def wp (p : Proc σ ε α) (Q : Post σ ε α) (s : σ) : Prop := Q.holds (p s)

theorem wp_of_run {p : Proc σ ε α} {Q : Post σ ε α} {s : σ} (h : wp p Q s) {o : Outcome ε α}
    {s' : σ} (hr : p s = (o, s')) : Q.holds (o, s') := hr ▸ h

theorem wp_mono {p : Proc σ ε α} {Q Q' : Post σ ε α} {s : σ} (h : wp p Q s)
    (hok : ∀ a s', Q.ok a s' → Q'.ok a s') (hraise : ∀ e s', Q.raise e s' → Q'.raise e s')
    (hkilled : ∀ s', Q.killed s' → Q'.killed s') : wp p Q' s := by
  unfold wp at h ⊢
  generalize p s = r at h
  obtain ⟨o, s'⟩ := r
  cases o with
  | ok a => exact hok a s' h
  | raise e => exact hraise e s' h
  | killed => exact hkilled s' h

theorem wp_and {p : Proc σ ε α} {Q Q' : Post σ ε α} {s : σ} (h : wp p Q s) (h' : wp p Q' s) :
    wp p ⟨fun a s' => Q.ok a s' ∧ Q'.ok a s', fun e s' => Q.raise e s' ∧ Q'.raise e s',
      fun s' => Q.killed s' ∧ Q'.killed s'⟩ s := by
  unfold wp at h h' ⊢
  generalize p s = r at h h'
  obtain ⟨o, s'⟩ := r
  cases o <;> exact ⟨h, h'⟩

@[simp] theorem wp_pure (a : α) (Q : Post σ ε α) (s : σ) :
    wp (pure a : Proc σ ε α) Q s ↔ Q.ok a s := Iff.rfl

@[simp] theorem wp_pure' (a : α) (Q : Post σ ε α) (s : σ) :
    wp (Proc.pure a : Proc σ ε α) Q s ↔ Q.ok a s := Iff.rfl

@[simp] theorem wp_raise (e : ε) (Q : Post σ ε α) (s : σ) :
    wp (Proc.raise e : Proc σ ε α) Q s ↔ Q.raise e s := Iff.rfl

@[simp] theorem wp_get (Q : Post σ ε σ) (s : σ) : wp Proc.get Q s ↔ Q.ok s s := Iff.rfl

@[simp] theorem wp_modify (f : σ → σ) (Q : Post σ ε Unit) (s : σ) :
    wp (Proc.modify f) Q s ↔ Q.ok () (f s) := Iff.rfl

@[simp] theorem wp_bind (p : Proc σ ε α) (f : α → Proc σ ε β) (Q : Post σ ε β) (s : σ) :
    wp (p >>= f) Q s ↔ wp p ⟨fun a s' => wp (f a) Q s', Q.raise, Q.killed⟩ s := by
  show Q.holds (Proc.bind p f s) ↔ Post.holds _ (p s)
  unfold Proc.bind
  obtain ⟨o, s'⟩ := p s
  cases o <;> exact Iff.rfl

@[simp] theorem wp_handle (p : Proc σ ε α) (h : ε → Proc σ ε α) (Q : Post σ ε α) (s : σ) :
    wp (p.handle h) Q s ↔ wp p ⟨Q.ok, fun e s' => wp (h e) Q s', Q.killed⟩ s := by
  show Q.holds (Proc.handle p h s) ↔ Post.holds _ (p s)
  unfold Proc.handle
  obtain ⟨o, s'⟩ := p s
  cases o <;> exact Iff.rfl

theorem wp_ensure (p : Proc σ ε α) (f : Proc σ ε Unit) (Q : Post σ ε α) (s : σ) :
    wp (p.ensure f) Q s ↔ wp p ⟨fun a s' => wp f ⟨fun _ => Q.ok a, Q.raise, Q.killed⟩ s',
      fun e s' => wp f ⟨fun _ => Q.raise e, Q.raise, Q.killed⟩ s', Q.killed⟩ s := by
  unfold Proc.ensure
  simp only [wp_bind, wp_handle, wp_raise, wp_pure']

theorem wp_ofExcept (x : Except ε α) (Q : Post σ ε α) (s : σ) :
    wp (Proc.ofExcept x) Q s ↔
      (∀ a, x = .ok a → Q.ok a s) ∧ (∀ e, x = .error e → Q.raise e s) := by
  cases x with
  | ok a => exact ⟨fun h => ⟨by rintro _ ⟨⟩; exact h, by rintro _ ⟨⟩⟩, fun h => h.1 a rfl⟩
  | error e => exact ⟨fun h => ⟨by rintro _ ⟨⟩, by rintro _ ⟨⟩; exact h⟩, fun h => h.2 e rfl⟩

@[simp] theorem wp_ofExcept_ok (a : α) (Q : Post σ ε α) (s : σ) :
    wp (Proc.ofExcept (.ok a)) Q s ↔ Q.ok a s := Iff.rfl

@[simp] theorem wp_ofExcept_error (e : ε) (Q : Post σ ε α) (s : σ) :
    wp (Proc.ofExcept (.error e)) Q s ↔ Q.raise e s := Iff.rfl

theorem wp_guard (c : Bool) (e : ε) (Q : Post σ ε Unit) (s : σ) :
    wp (Proc.guard c e) Q s ↔ (c = true → Q.ok () s) ∧ (c = false → Q.raise e s) := by
  cases c
  · exact ⟨fun h => ⟨fun h' => (Bool.false_ne_true h').elim, fun _ => h⟩, fun h => h.2 rfl⟩
  · exact ⟨fun h => ⟨fun _ => h, fun h' => (Bool.false_ne_true h'.symm).elim⟩, fun h => h.1 rfl⟩

theorem wp_ite {c : Prop} [Decidable c] {p q : Proc σ ε α} {Q : Post σ ε α} {s : σ}
    (ht : c → wp p Q s) (hf : ¬ c → wp q Q s) : wp (if c then p else q) Q s := by
  by_cases h : c
  · rw [if_pos h]; exact ht h
  · rw [if_neg h]; exact hf h

end

/-! ## Programs that return -/

section
variable {σ ε α β : Type}

/-- the run returns a value with `P` -/
def Post.returns (P : α → σ → Prop) : Post σ ε α := ⟨P, fun _ _ => False, fun _ => False⟩

theorem wp_returns_iff {p : Proc σ ε α} {P : α → σ → Prop} {s : σ} :
    wp p (Post.returns P) s ↔ ∃ a s', p s = (.ok a, s') ∧ P a s' := by
  unfold wp
  obtain ⟨o, s'⟩ := p s
  cases o with
  | ok a => exact ⟨fun h => ⟨a, s', rfl, h⟩, by rintro ⟨_, _, ⟨⟩, h⟩; exact h⟩
  | raise e => exact ⟨False.elim, by rintro ⟨_, _, ⟨⟩, _⟩⟩
  | killed => exact ⟨False.elim, by rintro ⟨_, _, ⟨⟩, _⟩⟩

theorem wp_of_ok {p : Proc σ ε α} {s s' : σ} {a : α} (h : p s = (.ok a, s'))
    (Q : Post σ ε α) : wp p Q s ↔ Q.ok a s' := by
  unfold wp
  rw [h]
  exact Iff.rfl

/-- `P` holds of what the run returns, if it returns -/
def Post.onReturn (P : α → σ → Prop) : Post σ ε α := ⟨P, fun _ _ => True, fun _ => True⟩

theorem wp_onReturn_iff {p : Proc σ ε α} {P : α → σ → Prop} {s : σ} :
    wp p (Post.onReturn P) s ↔ ∀ a s', p s = (.ok a, s') → P a s' := by
  unfold wp
  obtain ⟨o, s'⟩ := p s
  cases o with
  | ok a => exact ⟨fun h => by rintro _ _ ⟨⟩; exact h, fun h => h a s' rfl⟩
  | raise e => exact iff_of_true trivial (by rintro _ _ ⟨⟩)
  | killed => exact iff_of_true trivial (by rintro _ _ ⟨⟩)

theorem wp_onReturn_of_moves {R : σ → σ → Prop} {p : Proc σ ε α}
    (h : ∀ s, wp p (Post.always (R s)) s) {P : α → σ → Prop} {s : σ}
    (hP : ∀ a s', R s s' → P a s') : wp p (Post.onReturn P) s :=
  wp_mono (h s) hP (fun _ _ _ => trivial) (fun _ _ => trivial)

/-! ### what a run that returned says about its parts -/

theorem run_pure {a b : α} {s s' : σ} (h : (pure a : Proc σ ε α) s = (.ok b, s')) :
    a = b ∧ s = s' := by
  obtain ⟨ha, hs⟩ := Prod.mk.inj h
  exact ⟨Outcome.ok.inj ha, hs⟩

theorem run_bind {p : Proc σ ε α} {f : α → Proc σ ε β} {s s' : σ} {b : β}
    (h : (p >>= f) s = (.ok b, s')) : ∃ a s₁, p s = (.ok a, s₁) ∧ f a s₁ = (.ok b, s') := by
  have h' : Proc.bind p f s = (.ok b, s') := h
  unfold Proc.bind at h'
  cases hp : p s with
  | mk o s₁ =>
    rw [hp] at h'
    cases o with
    | ok a => exact ⟨a, s₁, rfl, h'⟩
    | raise e => exact nomatch (Prod.mk.inj h').1
    | killed => exact nomatch (Prod.mk.inj h').1

/-- a program may be replaced where its values are known -/
theorem bind_congr_run {p : Proc σ ε α} {f g : α → Proc σ ε β}
    (h : ∀ s a s', p s = (.ok a, s') → f a = g a) : p >>= f = p >>= g := by
  funext s
  show Proc.bind p f s = Proc.bind p g s
  unfold Proc.bind
  cases hp : p s with
  | mk o s₁ =>
    cases o with
    | ok a => exact congrFun (h s a s₁ hp) s₁
    | raise e => rfl
    | killed => rfl

theorem run_get {s s' a : σ} (h : (Proc.get : Proc σ ε σ) s = (.ok a, s')) : a = s ∧ s' = s := by
  obtain ⟨ha, hs⟩ := Prod.mk.inj h
  exact ⟨(Outcome.ok.inj ha).symm, hs.symm⟩

theorem run_modify {f : σ → σ} {s s' : σ} {u : Unit}
    (h : (Proc.modify f : Proc σ ε Unit) s = (.ok u, s')) : s' = f s := (Prod.mk.inj h).2.symm

theorem run_ofExcept {x : Except ε α} {s s' : σ} {a : α}
    (h : Proc.ofExcept x s = (.ok a, s')) : x = .ok a ∧ s' = s := by
  cases x with
  | ok b =>
    obtain ⟨hb, hs⟩ := run_pure h
    exact ⟨by rw [hb], hs.symm⟩
  | error e => exact nomatch (Prod.mk.inj h).1

theorem run_raise {e : ε} {s s' : σ} {a : α} : (Proc.raise e : Proc σ ε α) s ≠ (.ok a, s') :=
  fun h => nomatch (Prod.mk.inj h).1

/-- the value and the state are those of the run -/
theorem wp_self_ok (p : Proc σ ε α) (s : σ) :
    wp p ⟨fun a s' => p s = (.ok a, s'), fun _ _ => True, fun _ => True⟩ s := by
  unfold wp
  generalize hr : p s = r
  obtain ⟨o, s'⟩ := r
  cases o with
  | ok a => rfl
  | raise e => trivial
  | killed => trivial

/-- every run returns a value with `P` -/
def Returns (p : Proc σ ε α) (P : α → Prop) : Prop := ∀ s, wp p (Post.returns fun a _ => P a) s

theorem Returns.mono {p : Proc σ ε α} {P P' : α → Prop} (h : Returns p P) (hP : ∀ a, P a → P' a) :
    Returns p P' := fun s =>
  wp_mono (h s) (fun a _ => hP a) (fun _ _ => id) (fun _ => id)

theorem Returns.pure {a : α} {P : α → Prop} (h : P a) : Returns (pure a : Proc σ ε α) P :=
  fun _ => h

theorem Returns.modify (f : σ → σ) : Returns (Proc.modify f : Proc σ ε Unit) fun _ => True :=
  fun _ => trivial

theorem Returns.bind {p : Proc σ ε α} {f : α → Proc σ ε β} {P : α → Prop} {Q : β → Prop}
    (hp : Returns p P) (hf : ∀ a, P a → Returns (f a) Q) : Returns (p >>= f) Q := fun s => by
  rw [wp_bind]
  exact wp_mono (hp s) (fun a s' ha => hf a ha s') (fun _ _ => id) (fun _ => id)

theorem Returns.ite {c : Prop} [Decidable c] {p q : Proc σ ε α} {P : α → Prop}
    (hp : c → Returns p P) (hq : ¬ c → Returns q P) : Returns (if c then p else q) P := fun s =>
  wp_ite (fun h => hp h s) (fun h => hq h s)

end

/-! ## Invariants and frames -/

section
variable {σ ε α β ι : Type}

/-- `I` is kept however the run ends -/
def Keeps (I : σ → Prop) (p : Proc σ ε α) : Prop := ∀ s, I s → wp p (Post.always I) s

/-- every run moves the state along `R` -/
def Moves (R : σ → σ → Prop) (p : Proc σ ε α) : Prop := ∀ s, wp p (Post.always (R s)) s

theorem wp_always {p : Proc σ ε α} {I : σ → Prop} {s : σ} :
    wp p (Post.always I) s ↔ I (p s).2 := by
  unfold wp
  obtain ⟨o, s'⟩ := p s
  cases o <;> exact Iff.rfl

theorem Moves.run {R : σ → σ → Prop} {p : Proc σ ε α} (h : Moves R p) {s s' : σ}
    {o : Outcome ε α} (hr : p s = (o, s')) : R s s' := by
  have hmoved := wp_always.mp (h s)
  rw [hr] at hmoved
  exact hmoved

section
variable {R : σ → σ → Prop} [IsPreorder σ R]

theorem Moves.pure (a : α) : Moves R (pure a : Proc σ ε α) := fun s => refl_of R s

theorem Moves.raise (e : ε) : Moves R (Proc.raise e : Proc σ ε α) := fun s => refl_of R s

theorem Moves.get : Moves R (Proc.get : Proc σ ε σ) := fun s => refl_of R s

theorem Moves.ofExcept (x : Except ε α) : Moves R (Proc.ofExcept x : Proc σ ε α) := fun s =>
  (wp_ofExcept x _ s).mpr ⟨fun _ _ => refl_of R s, fun _ _ => refl_of R s⟩

theorem Moves.bind_ofExcept {x : Except ε α} {f : α → Proc σ ε β}
    (hf : ∀ a, x = .ok a → Moves R (f a)) : Moves R (Proc.ofExcept x >>= f) := fun s => by
  rw [wp_bind]
  exact (wp_ofExcept x _ s).mpr ⟨fun a ha => hf a ha s, fun _ _ => refl_of R s⟩

theorem Moves.guard (c : Bool) (e : ε) : Moves R (Proc.guard c e : Proc σ ε Unit) := fun s =>
  (wp_guard c e _ s).mpr ⟨fun _ => refl_of R s, fun _ => refl_of R s⟩

theorem Moves.modify {f : σ → σ} (h : ∀ s, R s (f s)) : Moves R (Proc.modify f : Proc σ ε Unit) :=
  fun s => h s

theorem Moves.bind {p : Proc σ ε α} {f : α → Proc σ ε β} (hp : Moves R p)
    (hf : ∀ a, Moves R (f a)) : Moves R (p >>= f) := fun s => by
  rw [wp_bind]
  refine wp_mono (hp s) (fun a s' hR => ?_) (fun _ _ h => h) (fun _ h => h)
  exact wp_mono (hf a s') (fun _ _ h => trans_of R hR h) (fun _ _ h => trans_of R hR h)
    (fun _ h => trans_of R hR h)

theorem Moves.handle {p : Proc σ ε α} {h : ε → Proc σ ε α} (hp : Moves R p)
    (hh : ∀ e, Moves R (h e)) : Moves R (p.handle h) := fun s => by
  rw [wp_handle]
  refine wp_mono (hp s) (fun _ _ h => h) (fun e s' hR => ?_) (fun _ h => h)
  exact wp_mono (hh e s') (fun _ _ h => trans_of R hR h) (fun _ _ h => trans_of R hR h)
    (fun _ h => trans_of R hR h)

theorem Moves.ite {c : Prop} [Decidable c] {p q : Proc σ ε α} (hp : Moves R p) (hq : Moves R q) :
    Moves R (if c then p else q) := fun s => wp_ite (fun _ => hp s) (fun _ => hq s)

end

/-! ### which exceptions are raised -/

/-- every exception of `p` satisfies `P` -/
def RaisesOnly (P : ε → Prop) (p : Proc σ ε α) : Prop :=
  ∀ s, wp p ⟨fun _ _ => True, fun e _ => P e, fun _ => True⟩ s

section
variable {P : ε → Prop}

theorem RaisesOnly.pure (a : α) : RaisesOnly P (pure a : Proc σ ε α) := fun _ => trivial

theorem RaisesOnly.raise {e : ε} (h : P e) : RaisesOnly P (Proc.raise e : Proc σ ε α) := fun _ => h

theorem RaisesOnly.get : RaisesOnly P (Proc.get : Proc σ ε σ) := fun _ => trivial

theorem RaisesOnly.modify (f : σ → σ) : RaisesOnly P (Proc.modify f : Proc σ ε Unit) :=
  fun _ => trivial

theorem RaisesOnly.ofExcept {x : Except ε α} (h : ∀ e, x = .error e → P e) :
    RaisesOnly P (Proc.ofExcept x : Proc σ ε α) := fun s =>
  (wp_ofExcept x _ s).mpr ⟨fun _ _ => trivial, fun e he => h e he⟩

theorem RaisesOnly.bind {p : Proc σ ε α} {f : α → Proc σ ε β} (hp : RaisesOnly P p)
    (hf : ∀ a, RaisesOnly P (f a)) : RaisesOnly P (p >>= f) := fun s => by
  rw [wp_bind]
  exact wp_mono (hp s) (fun a s' _ => hf a s') (fun _ _ h => h) (fun _ h => h)

theorem RaisesOnly.ite {c : Prop} [Decidable c] {p q : Proc σ ε α} (hp : RaisesOnly P p)
    (hq : RaisesOnly P q) : RaisesOnly P (if c then p else q) := fun s =>
  wp_ite (fun _ => hp s) (fun _ => hq s)

/-- what a run raises satisfies `P` as well -/
theorem RaisesOnly.and {p : Proc σ ε α} (h : RaisesOnly P p) {Q : Post σ ε α} {s : σ}
    (hQ : wp p Q s) : wp p ⟨Q.ok, fun e s' => Q.raise e s' ∧ P e, Q.killed⟩ s :=
  wp_mono (wp_and hQ (h s)) (fun _ _ h => h.1) (fun _ _ h => h) (fun _ h => h.1)

end

end

end Crash
