import Dolores.Lib.Except

/-!
# Sorting with a comparison that may raise

`sortBy less` is a stable insertion sort whose comparison may raise.  Elements have kinds, and
two elements can be compared exactly when their kinds agree.

* `sortBy_perm`     a sort that returns permutes the list;
* `sortBy_ok_iff`   the sort returns exactly when all kinds agree.
-/

namespace Except

section
variable {ε α κ : Type} (less : α → α → Except ε Bool)

/-- `a`, which stood before the elements of `l`, goes before the first that is not less -/
def insertBy (a : α) : List α → Except ε (List α)
  | [] => .ok [a]
  | b :: l => do
    let isLess ← less b a
    if isLess then do
      let l ← insertBy a l
      .ok (b :: l)
    else .ok (a :: b :: l)

def sortBy : List α → Except ε (List α)
  | [] => .ok []
  | a :: l => do
    let l ← sortBy l
    insertBy less a l

variable {less}

theorem insertBy_perm {a : α} {l l' : List α} (h : insertBy less a l = .ok l') :
    l'.Perm (a :: l) := by
  induction l generalizing l' with
  | nil =>
    rw [← Except.ok.inj h]
  | cons b l ih =>
    obtain ⟨isLess, _, h⟩ := bind_ok h
    cases isLess with
    | false =>
      have he : a :: b :: l = l' := Except.ok.inj h
      rw [he]
    | true =>
      obtain ⟨l₁, hl₁, h⟩ := bind_ok (show (insertBy less a l >>= _) = .ok l' from h)
      have he : b :: l₁ = l' := Except.ok.inj h
      rw [← he]
      exact (List.Perm.cons b (ih hl₁)).trans (List.Perm.swap a b l)

theorem insertBy_ok {a : α} {l : List α} (h : ∀ b ∈ l, ∃ c, less b a = .ok c) :
    ∃ l', insertBy less a l = .ok l' := by
  induction l with
  | nil => exact ⟨[a], rfl⟩
  | cons b l ih =>
    obtain ⟨c, hc⟩ := h b List.mem_cons_self
    obtain ⟨l', hl'⟩ := ih fun b' hb' => h b' (List.mem_cons_of_mem b hb')
    rw [insertBy, hc, ok_bind]
    cases c with
    | false => exact ⟨_, rfl⟩
    | true =>
      refine ⟨b :: l', ?_⟩
      rw [if_pos rfl, hl', ok_bind]

/-- the element is compared with the first of a list that is not empty -/
theorem insertBy_first {a b : α} {l l' : List α} (h : insertBy less a (b :: l) = .ok l') :
    ∃ c, less b a = .ok c := by
  obtain ⟨c, hc, _⟩ := bind_ok h
  exact ⟨c, hc⟩

theorem sortBy_perm {l l' : List α} (h : sortBy less l = .ok l') : l'.Perm l := by
  induction l generalizing l' with
  | nil =>
    rw [← Except.ok.inj h]
  | cons a l ih =>
    obtain ⟨l₁, hl₁, h⟩ := bind_ok h
    exact (insertBy_perm h).trans (List.Perm.cons a (ih hl₁))

theorem sortBy_ok_iff (kind : α → κ) {l : List α}
    (hless : ∀ a ∈ l, ∀ b ∈ l, (∃ c, less a b = .ok c) ↔ kind a = kind b) :
    (∃ l', sortBy less l = .ok l') ↔ ∀ a ∈ l, ∀ b ∈ l, kind a = kind b := by
  induction l with
  | nil => exact ⟨fun _ a ha => (List.not_mem_nil ha).elim, fun _ => ⟨[], rfl⟩⟩
  | cons a l ih =>
    have hl := ih fun x hx y hy =>
      hless x (List.mem_cons_of_mem a hx) y (List.mem_cons_of_mem a hy)
    constructor
    · intro h
      obtain ⟨l', h⟩ := h
      obtain ⟨l₁, hl₁, h⟩ := bind_ok h
      have hkinds := hl.mp ⟨l₁, hl₁⟩
      have hperm : l₁.Perm l := sortBy_perm hl₁
      -- the first of the sorted rest ties the kind of `a` to all the others
      have hhead : ∀ b ∈ l, kind b = kind a := by
        intro b hb
        cases hl₂ : l₁ with
        | nil =>
          rw [hl₂] at hperm
          rw [List.nil_perm.mp hperm] at hb
          exact (List.not_mem_nil hb).elim
        | cons c l₂ =>
          rw [hl₂] at h hperm
          have hc : c ∈ l := hperm.mem_iff.mp List.mem_cons_self
          have hca : kind c = kind a :=
            (hless c (List.mem_cons_of_mem a hc) a List.mem_cons_self).mp (insertBy_first h)
          rw [hkinds b hb c hc, hca]
      intro x hx y hy
      rcases List.mem_cons.mp hx with hxa | hx
      · rcases List.mem_cons.mp hy with hya | hy
        · rw [hxa, hya]
        · rw [hxa, hhead y hy]
      · rcases List.mem_cons.mp hy with hya | hy
        · rw [hya, hhead x hx]
        · exact hkinds x hx y hy
    · intro h
      obtain ⟨l₁, hl₁⟩ := hl.mpr fun x hx y hy =>
        h x (List.mem_cons_of_mem a hx) y (List.mem_cons_of_mem a hy)
      rw [sortBy, hl₁, ok_bind]
      apply insertBy_ok
      intro b hb
      have hb' : b ∈ l := (sortBy_perm hl₁).mem_iff.mp hb
      exact (hless b (List.mem_cons_of_mem a hb') a List.mem_cons_self).mpr
        (h b (List.mem_cons_of_mem a hb') a List.mem_cons_self)

end

end Except
