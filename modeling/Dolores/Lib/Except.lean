import Mathlib.Data.List.Basic

/-!
# Computations that return or raise

Rules for `Except ε`: what a sequence that returned says about its parts, and when a list of
computations returns.

* `bind_ok`, `bind_error`   the two ways a sequence ends;
* `foldlM_invariant`        what holds of the elements done so far;
* `mapM_ok_iff`             a traversal returns exactly when every element's computation does;
* `OnlyRaises P x`          every exception of `x` satisfies `P`, with one rule per construction;
* `Both R x y`              both return related values, or both raise the same exception.
-/

namespace Except

section
variable {ε α β : Type}

theorem bind_ok {x : Except ε α} {f : α → Except ε β} {b : β} (h : (x >>= f) = .ok b) :
    ∃ a, x = .ok a ∧ f a = .ok b := by
  cases x with
  | ok a => exact ⟨a, rfl, h⟩
  | error e => exact nomatch h

theorem bind_error {x : Except ε α} {f : α → Except ε β} {e : ε} (h : (x >>= f) = .error e) :
    x = .error e ∨ ∃ a, x = .ok a ∧ f a = .error e := by
  cases x with
  | ok a => exact .inr ⟨a, rfl, h⟩
  | error e' =>
    have he : e' = e := Except.error.inj (show (Except.error e' : Except ε β) = .error e from h)
    exact .inl (congrArg _ he)

theorem ok_bind (a : α) (f : α → Except ε β) : (Except.ok a >>= f) = f a := rfl

theorem bind_ok_self (x : Except ε α) : (x >>= fun a => .ok a) = x := by
  cases x <;> rfl

theorem seq_ok_iff {x : Except ε Unit} {y : Except ε β} {b : β} :
    (x >>= fun _ => y) = .ok b ↔ x = .ok () ∧ y = .ok b := by
  cases x with
  | ok _ => exact ⟨fun h => ⟨rfl, h⟩, And.right⟩
  | error e => exact iff_of_false nofun fun h => nomatch h.1

theorem toOption_bind (x : Except ε α) (f : α → Except ε β) :
    (x >>= f).toOption = x.toOption.bind fun a => (f a).toOption := by
  cases x <;> rfl

theorem isSome_toOption_iff {x : Except ε α} : x.toOption.isSome = true ↔ ∃ a, x = .ok a := by
  cases x with
  | ok a => exact iff_of_true rfl ⟨a, rfl⟩
  | error e => exact iff_of_false Bool.false_ne_true fun ⟨_, h⟩ => nomatch h

theorem ok_or_error (x : Except ε α) : (∃ a, x = .ok a) ∨ ∃ e, x = .error e := by
  cases x with
  | ok a => exact .inl ⟨a, rfl⟩
  | error e => exact .inr ⟨e, rfl⟩

theorem mapM_ok_iff (f : α → Except ε β) (l : List α) :
    (∃ bs, l.mapM f = .ok bs ∧ bs.length = l.length) ↔ ∀ a ∈ l, ∃ b, f a = .ok b := by
  induction l with
  | nil => exact ⟨fun _ a ha => (List.not_mem_nil ha).elim, fun _ => ⟨[], rfl, rfl⟩⟩
  | cons a l ih =>
    rw [List.mapM_cons, List.forall_mem_cons]
    constructor
    · rintro ⟨bs, h, _⟩
      obtain ⟨b, hb, h⟩ := bind_ok h
      obtain ⟨bs', hbs', _⟩ := bind_ok h
      refine ⟨⟨b, hb⟩, ih.mp ⟨bs', hbs', ?_⟩⟩
      have hlen : (b :: bs').length = (a :: l).length := by
        rename_i hlen hpure
        have e : b :: bs' = bs := Except.ok.inj hpure
        rw [e]; exact hlen
      rw [List.length_cons, List.length_cons] at hlen
      omega
    · rintro ⟨⟨b, hb⟩, hl⟩
      obtain ⟨bs, hbs, hlen⟩ := ih.mpr hl
      refine ⟨b :: bs, ?_, by rw [List.length_cons, List.length_cons, hlen]⟩
      rw [hb, hbs]
      rfl

theorem mapM_ok {f : α → Except ε β} (g : α → β) {l : List α} (h : ∀ a ∈ l, f a = .ok (g a)) :
    l.mapM f = .ok (l.map g) := by
  induction l with
  | nil => rfl
  | cons a l ih =>
    have hl : l.mapM f = .ok (l.map g) := ih fun b hb => h b (List.mem_cons_of_mem a hb)
    rw [List.mapM_cons, h a List.mem_cons_self, ok_bind, hl]
    rfl

theorem forall₂_of_mapM {f : α → Except ε β} {l : List α} {bs : List β} (h : l.mapM f = .ok bs) :
    List.Forall₂ (fun a b => f a = .ok b) l bs := by
  induction l generalizing bs with
  | nil =>
    rw [← Except.ok.inj h]
    exact .nil
  | cons a l ih =>
    rw [List.mapM_cons] at h
    obtain ⟨b, hb, h⟩ := bind_ok h
    obtain ⟨bs', hbs, h⟩ := bind_ok h
    rw [← Except.ok.inj h]
    exact .cons hb (ih hbs)

theorem exists_mem_of_mapM {f : α → Except ε β} {l : List α} {bs : List β}
    (h : l.mapM f = .ok bs) : (∀ a ∈ l, ∃ b ∈ bs, f a = .ok b) ∧ ∀ b ∈ bs, ∃ a ∈ l, f a = .ok b := by
  have hall := forall₂_of_mapM h
  clear h
  induction hall with
  | nil => simp
  | cons hab _ ih =>
    refine ⟨List.forall_mem_cons.mpr ⟨⟨_, List.mem_cons_self, hab⟩, fun a ha => ?_⟩,
      List.forall_mem_cons.mpr ⟨⟨_, List.mem_cons_self, hab⟩, fun b hb => ?_⟩⟩
    · obtain ⟨b, hb, hfa⟩ := ih.1 a ha
      exact ⟨b, List.mem_cons_of_mem _ hb, hfa⟩
    · obtain ⟨a, ha, hfa⟩ := ih.2 b hb
      exact ⟨a, List.mem_cons_of_mem _ ha, hfa⟩

theorem forM_ok {f : α → Except ε Unit} {l : List α} (h : ∀ a ∈ l, f a = .ok ()) :
    l.forM f = .ok () := by
  induction l with
  | nil => rfl
  | cons a l ih =>
    have hl : l.forM f = .ok () := ih fun b hb => h b (List.mem_cons_of_mem a hb)
    show (f a >>= fun _ => l.forM f) = .ok ()
    rw [h a List.mem_cons_self]
    exact hl

theorem of_forM_ok {f : α → Except ε Unit} {l : List α} (h : l.forM f = .ok ()) :
    ∀ a ∈ l, f a = .ok () := by
  induction l with
  | nil => exact fun _ ha => (List.not_mem_nil ha).elim
  | cons b l ih =>
    have hbind : (f b >>= fun _ => l.forM f) = .ok () := h
    obtain ⟨u, hb, hl⟩ := bind_ok hbind
    intro a ha
    rcases List.mem_cons.mp ha with rfl | ha
    · exact hb
    · exact ih hl a ha

section
variable {α : Type}

theorem filterM_ok {f : α → Except ε Bool} (g : α → Bool) {l : List α}
    (h : ∀ a ∈ l, f a = .ok (g a)) : l.filterM f = .ok (l.filter g) := by
  -- the kept elements are collected in reverse
  have haux : ∀ (l acc : List α), (∀ a ∈ l, f a = .ok (g a)) →
      l.filterAuxM f acc = .ok ((l.filter g).reverse ++ acc) := by
    intro l
    induction l with
    | nil => intro acc _; rfl
    | cons a l ih =>
      intro acc h
      unfold List.filterAuxM
      rw [h a List.mem_cons_self, ok_bind, ih _ fun b hb => h b (List.mem_cons_of_mem a hb)]
      cases hg : g a with
      | false => rw [List.filter_cons_of_neg (by rw [hg]; decide)]; rfl
      | true =>
        rw [List.filter_cons_of_pos hg, List.reverse_cons, List.append_assoc]
        rfl
  unfold List.filterM
  rw [haux l [] h, ok_bind, List.append_nil]
  exact congrArg Except.ok (List.reverse_reverse _)

/-- what is refused at the end of a list changes nothing -/
theorem filterM_append_false {f : α → Except ε Bool} {m : List α} (hm : ∀ a ∈ m, f a = .ok false)
    (l : List α) : (l ++ m).filterM f = l.filterM f := by
  have hnone : ∀ acc : List α, m.filterAuxM f acc = .ok acc := by
    induction m with
    | nil => exact fun _ => rfl
    | cons a m ih =>
      intro acc
      unfold List.filterAuxM
      rw [hm a List.mem_cons_self, ok_bind]
      exact ih (fun b hb => hm b (List.mem_cons_of_mem a hb)) acc
  have haux : ∀ acc : List α, (l ++ m).filterAuxM f acc = l.filterAuxM f acc := by
    induction l with
    | nil => exact hnone
    | cons a l ih =>
      intro acc
      show (f a >>= fun b => (l ++ m).filterAuxM f (cond b (a :: acc) acc)) =
        (f a >>= fun b => l.filterAuxM f (cond b (a :: acc) acc))
      exact congrArg (f a >>= ·) (funext fun b => ih _)
  unfold List.filterM
  rw [haux]

end

/-- what holds of the fold over the elements done so far -/
theorem foldlM_invariant {f : β → α → Except ε β} (I : List α → β → Prop)
    (hstep : ∀ done b a b', I done b → f b a = .ok b' → I (done ++ [a]) b') {l : List α}
    {b b' : β} (hb : I [] b) (h : l.foldlM f b = .ok b') : I l b' := by
  have hfold : ∀ (l done : List α) (b : β), I done b → l.foldlM f b = .ok b' →
      I (done ++ l) b' := by
    intro l
    induction l with
    | nil =>
      intro done b hb h
      rw [List.append_nil, ← Except.ok.inj h]
      exact hb
    | cons a l ih =>
      intro done b hb h
      obtain ⟨b₁, hb₁, h⟩ := bind_ok h
      have hrest := ih (done ++ [a]) b₁ (hstep done b a b₁ hb hb₁) h
      rw [List.append_assoc] at hrest
      exact hrest
  exact hfold l [] b hb h

/-! ## which exceptions are raised -/

def OnlyRaises (P : ε → Prop) (x : Except ε α) : Prop := ∀ e, x = .error e → P e

variable {P : ε → Prop}

theorem OnlyRaises.ok (a : α) : OnlyRaises P (.ok a) := fun _ h => nomatch h

theorem OnlyRaises.error {e : ε} (h : P e) : OnlyRaises P (.error e : Except ε α) := by
  intro e' he
  rw [← Except.error.inj he]
  exact h

theorem OnlyRaises.bind {x : Except ε α} {f : α → Except ε β} (hx : OnlyRaises P x)
    (hf : ∀ a, x = .ok a → OnlyRaises P (f a)) : OnlyRaises P (x >>= f) := by
  intro e he
  rcases bind_error he with h | ⟨a, ha, h⟩
  · exact hx e h
  · exact hf a ha e h

theorem OnlyRaises.ite {c : Prop} [Decidable c] {x y : Except ε α} (hx : OnlyRaises P x)
    (hy : OnlyRaises P y) : OnlyRaises P (if c then x else y) := by
  by_cases h : c
  · rw [if_pos h]
    exact hx
  · rw [if_neg h]
    exact hy

theorem OnlyRaises.forM {f : α → Except ε Unit} {l : List α} (hf : ∀ a, OnlyRaises P (f a)) :
    OnlyRaises P (l.forM f) := by
  induction l with
  | nil => exact OnlyRaises.ok ()
  | cons a l ih =>
    show OnlyRaises P (f a >>= fun _ => l.forM f)
    exact OnlyRaises.bind (hf a) fun _ _ => ih

theorem OnlyRaises.foldlM {f : β → α → Except ε β} (hf : ∀ b a, OnlyRaises P (f b a))
    (l : List α) (b : β) : OnlyRaises P (l.foldlM f b) := by
  induction l generalizing b with
  | nil => exact OnlyRaises.ok b
  | cons a l ih => exact OnlyRaises.bind (hf b a) fun b' _ => ih b'

end

/-! ## two computations side by side -/

section
variable {ε α β γ : Type}

inductive Both (R : α → β → Prop) : Except ε α → Except ε β → Prop
  | ok {a : α} {b : β} : R a b → Both R (.ok a) (.ok b)
  | error (e : ε) : Both R (.error e) (.error e)

theorem Both.refl (x : Except ε α) : Both Eq x x := by
  cases x with
  | ok a => exact .ok rfl
  | error e => exact .error e

/-- a fold over one list, from related values -/
theorem Both.foldlM {R : α → β → Prop} {f : α → γ → Except ε α} {g : β → γ → Except ε β}
    {l : List γ} (hstep : ∀ a b, ∀ c ∈ l, R a b → Both R (f a c) (g b c)) {a : α} {b : β}
    (h : R a b) : Both R (l.foldlM f a) (l.foldlM g b) := by
  induction l generalizing a b with
  | nil => exact .ok h
  | cons c l ih =>
    have hc := hstep a b c List.mem_cons_self h
    rw [List.foldlM_cons, List.foldlM_cons]
    generalize f a c = x at hc
    generalize g b c = y at hc
    cases hc with
    | ok hr => exact ih (fun a b c' hc' => hstep a b c' (List.mem_cons_of_mem c hc')) hr
    | error e => exact .error e

end

end Except
