import Mathlib.Logic.Function.Basic

/-!
# An exclusive lock on one file

The lock is owned through a descriptor of the file, not by who opened it: it is free again when
the owning descriptor unlocks it or is closed.

* `openFile`, `lock`, `unlock`, `close`  what is done to the descriptors of the file;
* `Owns`                                 the opener of the descriptor that owns the lock;
* `Owns.unique`                          there is one owner at a time;
* `Closed`                               a descriptor that was open, and stays closed.
-/

structure Flock (O : Type) where
  /-- who opened each descriptor that is open -/
  opener : Nat → Option O
  owner : Option Nat
  /-- the descriptors from here on were never open -/
  next : Nat
  fresh : ∀ fd, next ≤ fd → opener fd = none
  owned : ∀ fd, owner = some fd → (opener fd).isSome

namespace Flock
variable {O : Type}

/-- nobody has opened the file -/
def unopened (O : Type) : Flock O where
  opener _ := none
  owner := none
  next := 0
  fresh _ _ := rfl
  owned _ h := nomatch h

/-- a new descriptor, which is `next` -/
def openFile (k : Flock O) (o : O) : Flock O where
  opener := Function.update k.opener k.next (some o)
  owner := k.owner
  next := k.next + 1
  fresh := by
    intro fd hfd
    rw [Function.update_of_ne (Nat.ne_of_gt hfd)]
    exact k.fresh fd (Nat.le_of_succ_le hfd)
  owned := by
    intro fd hfd
    by_cases heq : fd = k.next
    · rw [heq, Function.update_self]
      rfl
    · rw [Function.update_of_ne heq]
      exact k.owned fd hfd

/-- the lock is taken, unless another descriptor owns it or this one is not open -/
def lock (k : Flock O) (fd : Nat) : Option (Flock O) :=
  if h : (k.opener fd).isSome ∧ (k.owner = none ∨ k.owner = some fd) then
    some
      { k with
        owner := some fd
        owned := by
          intro fd' hfd'
          rw [← Option.some.inj hfd']
          exact h.1 }
  else none

/-- nothing happens unless this descriptor owns the lock -/
def unlock (k : Flock O) (fd : Nat) : Flock O where
  opener := k.opener
  owner := if k.owner = some fd then none else k.owner
  next := k.next
  fresh := k.fresh
  owned := by
    intro fd' hfd'
    split at hfd'
    · exact nomatch hfd'
    · exact k.owned fd' hfd'

/-- the descriptor is closed, and owns the lock no longer -/
def close (k : Flock O) (fd : Nat) : Flock O where
  opener := Function.update k.opener fd none
  owner := if k.owner = some fd then none else k.owner
  next := k.next
  fresh := by
    intro fd' hfd'
    by_cases heq : fd' = fd
    · rw [heq, Function.update_self]
    · rw [Function.update_of_ne heq]
      exact k.fresh fd' hfd'
  owned := by
    intro fd' hfd'
    split at hfd'
    · exact nomatch hfd'
    · next hother =>
      have hne : fd' ≠ fd := by
        intro heq
        rw [heq] at hfd'
        exact hother hfd'
      rw [Function.update_of_ne hne]
      exact k.owned fd' hfd'

/-- this opener's descriptor owns the lock -/
def OwnsBy (k : Flock O) (o : O) (fd : Nat) : Prop := k.owner = some fd ∧ k.opener fd = some o

def Owns (k : Flock O) (o : O) : Prop := ∃ fd, k.OwnsBy o fd

/-- a descriptor that was open once and is not any more -/
def Closed (k : Flock O) (fd : Nat) : Prop := fd < k.next ∧ k.opener fd = none

section
variable {k k' : Flock O} {o p : O} {fd fd' : Nat}

theorem OwnsBy.unique (h : k.OwnsBy o fd) (h' : k.OwnsBy p fd') : o = p ∧ fd = fd' := by
  have hfd : fd = fd' := Option.some.inj (h.1.symm.trans h'.1)
  refine ⟨?_, hfd⟩
  rw [← hfd] at h'
  exact Option.some.inj (h.2.symm.trans h'.2)

/-- at most one opener owns the lock -/
theorem Owns.unique (h : k.Owns o) (h' : k.Owns p) : o = p := by
  obtain ⟨fd, hfd⟩ := h
  obtain ⟨fd', hfd'⟩ := h'
  exact (hfd.unique hfd').1

theorem exists_ownsBy (h : k.owner = some fd) : ∃ o, k.OwnsBy o fd := by
  obtain ⟨o, ho⟩ := Option.isSome_iff_exists.mp (k.owned fd h)
  exact ⟨o, h, ho⟩

theorem lt_next (h : k.opener fd = some o) : fd < k.next := by
  by_contra hge
  rw [k.fresh fd (Nat.le_of_not_lt hge)] at h
  exact nomatch h

theorem next_not_owner (k : Flock O) : k.owner ≠ some k.next := by
  intro h
  have hopen := k.owned _ h
  rw [k.fresh _ (Nat.le_refl _)] at hopen
  exact nomatch hopen

/-! ## the file opened -/

@[simp] theorem owner_openFile (k : Flock O) (o : O) : (k.openFile o).owner = k.owner := rfl

@[simp] theorem next_openFile (k : Flock O) (o : O) : (k.openFile o).next = k.next + 1 := rfl

theorem opener_openFile (k : Flock O) (o : O) : (k.openFile o).opener k.next = some o :=
  Function.update_self _ _ _

theorem opener_openFile_of_lt (h : fd < k.next) (o : O) :
    (k.openFile o).opener fd = k.opener fd :=
  Function.update_of_ne (Nat.ne_of_lt h) _ _

theorem Closed.openFile (h : k.Closed fd) (o : O) : (k.openFile o).Closed fd :=
  ⟨Nat.lt_succ_of_lt h.1, (opener_openFile_of_lt h.1 o).trans h.2⟩

/-! ## the lock taken -/

theorem lock_eq_some (h : k.lock fd = some k') :
    (k.owner = none ∨ k.owner = some fd) ∧ k'.owner = some fd ∧ k'.opener = k.opener ∧
      k'.next = k.next := by
  unfold lock at h
  split at h
  · next hfree =>
    rw [← Option.some.inj h]
    exact ⟨hfree.2, rfl, rfl, rfl⟩
  · exact nomatch h

/-- a free lock is taken by any descriptor that is open -/
theorem lock_of_free (hopen : k.opener fd = some o) (hfree : k.owner = none) :
    ∃ k', k.lock fd = some k' := by
  unfold lock
  rw [dif_pos ⟨by rw [hopen]; rfl, .inl hfree⟩]
  exact ⟨_, rfl⟩

/-! ## the lock given back -/

@[simp] theorem opener_unlock (k : Flock O) (fd : Nat) : (k.unlock fd).opener = k.opener := rfl

@[simp] theorem next_unlock (k : Flock O) (fd : Nat) : (k.unlock fd).next = k.next := rfl

theorem owner_unlock (h : k.owner = some fd) : (k.unlock fd).owner = none := if_pos h

theorem owner_unlock_of_ne (h : k.owner ≠ some fd) : (k.unlock fd).owner = k.owner := if_neg h

theorem unlock_not_owner (k : Flock O) (fd : Nat) : (k.unlock fd).owner ≠ some fd := by
  by_cases h : k.owner = some fd
  · rw [owner_unlock h]
    exact fun h => nomatch h
  · rw [owner_unlock_of_ne h]
    exact h

/-- the others keep what they own -/
theorem owner_unlock_other (hne : fd' ≠ fd) :
    (k.unlock fd).owner = some fd' ↔ k.owner = some fd' := by
  by_cases h : k.owner = some fd
  · rw [owner_unlock h, h]
    constructor
    · exact fun h => nomatch h
    · exact fun h => absurd (Option.some.inj h).symm hne
  · rw [owner_unlock_of_ne h]

/-! ## a descriptor closed -/

@[simp] theorem next_close (k : Flock O) (fd : Nat) : (k.close fd).next = k.next := rfl

theorem owner_close (k : Flock O) (fd : Nat) : (k.close fd).owner = (k.unlock fd).owner := rfl

theorem opener_close (k : Flock O) (fd : Nat) : (k.close fd).opener fd = none :=
  Function.update_self _ _ _

theorem opener_close_of_ne (h : fd' ≠ fd) : (k.close fd).opener fd' = k.opener fd' :=
  Function.update_of_ne h _ _

theorem closed_close (h : k.opener fd = some o) : (k.close fd).Closed fd :=
  ⟨show fd < k.next from lt_next h, opener_close k fd⟩

theorem Closed.close (h : k.Closed fd) (fd' : Nat) : (k.close fd').Closed fd := by
  refine ⟨h.1, ?_⟩
  by_cases heq : fd = fd'
  · rw [heq]
    exact opener_close k fd'
  · rw [opener_close_of_ne heq]
    exact h.2

end

end Flock
