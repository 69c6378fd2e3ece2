import Mathlib.Data.Option.Basic

/-!
# Canonical encodings

`read` takes an encoding apart, and may accept many encodings of one value; `write` makes one.
An encoding is canonical when writing what is read from it gives it back.

* `isCanonical_iff`       one that is read is canonical when it is what is written;
* `IsCanonical.eq`        canonical encodings of one value are equal;
* `isCanonical_of_write`  what is written and read back is canonical.
-/

section
variable {α β : Type} {read : β → Option α} {write : α → Option β} {a a' : α} {b b' : β}

def IsCanonical (read : β → Option α) (write : α → Option β) (b : β) : Prop :=
  ∃ a, read b = some a ∧ write a = some b

/-- any value that is written alike will do -/
theorem isCanonical_iff (h : read b = some a) (hwrite : write a' = write a) :
    IsCanonical read write b ↔ write a' = some b := by
  rw [hwrite]
  constructor
  · rintro ⟨a'', ha, hb⟩
    rw [Option.some.inj (h.symm.trans ha)]
    exact hb
  · exact fun hb => ⟨a, h, hb⟩

theorem IsCanonical.eq (h : IsCanonical read write b) (h' : IsCanonical read write b')
    (hread : read b = read b') : b = b' := by
  obtain ⟨a, ha, hb⟩ := h
  obtain ⟨a', ha', hb'⟩ := h'
  rw [ha, ha'] at hread
  rw [Option.some.inj hread, hb'] at hb
  exact (Option.some.inj hb).symm

/-- among the encodings of one value, a canonical one is equal to the canonical ones -/
theorem IsCanonical.eq_iff (h : IsCanonical read write b) (hread : read b = read b') :
    b = b' ↔ IsCanonical read write b' :=
  ⟨fun hb => hb ▸ h, fun h' => h.eq h' hread⟩

theorem isCanonical_of_write (hwrite : write a = some b) (hread : read b = some a) :
    IsCanonical read write b := ⟨a, hread, hwrite⟩

end
