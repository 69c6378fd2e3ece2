import Dolores.Py.JsonRead

/-!
# The keys of a value that was read

A repeated key overwrites the member before it, so that the keys of each object of a value that
`json.loads` returned are distinct (`distinctKeys_loads`), whatever the text repeats.
-/

namespace Dolores
namespace JsonText

mutual
/-- the keys of each object are distinct -/
def DistinctKeys : Json → Prop
  | .arr xs => DistinctKeysItems xs
  | .obj fs => (Dict.keys fs).Nodup ∧ DistinctKeysFields fs
  | _ => True

def DistinctKeysItems : List Json → Prop
  | [] => True
  | x :: xs => DistinctKeys x ∧ DistinctKeysItems xs

def DistinctKeysFields : List (String × Json) → Prop
  | [] => True
  | (_, x) :: fs => DistinctKeys x ∧ DistinctKeysFields fs
end

theorem distinctKeysItems_iff {xs : List Json} :
    DistinctKeysItems xs ↔ ∀ x ∈ xs, DistinctKeys x := by
  induction xs with
  | nil =>
    rw [DistinctKeysItems]
    exact ⟨fun _ x hx => absurd hx List.not_mem_nil, fun _ => trivial⟩
  | cons x xs ih => rw [DistinctKeysItems, ih, List.forall_mem_cons]

theorem distinctKeysFields_iff {fs : List (String × Json)} :
    DistinctKeysFields fs ↔ ∀ p ∈ fs, DistinctKeys p.2 := by
  induction fs with
  | nil =>
    rw [DistinctKeysFields]
    exact ⟨fun _ p hp => absurd hp List.not_mem_nil, fun _ => trivial⟩
  | cons p fs ih =>
    obtain ⟨k, x⟩ := p
    rw [DistinctKeysFields, ih, List.forall_mem_cons]

theorem distinctKeys_arr {xs : List Json} :
    DistinctKeys (.arr xs) ↔ ∀ x ∈ xs, DistinctKeys x := by
  rw [DistinctKeys, distinctKeysItems_iff]

theorem distinctKeys_obj {fs : Obj} :
    DistinctKeys (.obj fs) ↔ (Dict.keys fs).Nodup ∧ ∀ p ∈ fs, DistinctKeys p.2 := by
  rw [DistinctKeys, distinctKeysFields_iff]

theorem DistinctKeys.get {fs : Obj} (h : DistinctKeys (.obj fs)) {k : String} {j : Json}
    (hget : Dict.get? fs k = some j) : DistinctKeys j :=
  (distinctKeys_obj.mp h).2 _ (Dict.mem_of_get? hget)

/-! ## the parsers -/

section
variable {α : Type} {close : Nat} {p : List Char → Option (α × List Char)} {P : α → Prop}

/-- what holds of every item that is read holds of the items of a list -/
theorem items_forall (hp : ∀ cs a rest, p cs = some (a, rest) → P a) {m : Nat}
    {cs rest : List Char} {as : List α} (h : items close p m cs = some (as, rest)) :
    ∀ a ∈ as, P a := by
  induction m generalizing cs as rest with
  | zero => exact absurd h.symm (Option.some_ne_none _)
  | succ m ih =>
    rw [items] at h
    cases hitem : p cs with
    | none =>
      rw [hitem] at h
      exact absurd h.symm (Option.some_ne_none _)
    | some r =>
      obtain ⟨a, left⟩ := r
      have ha : P a := hp _ _ _ hitem
      rw [hitem] at h
      dsimp only at h
      cases hskip : skip left with
      | nil =>
        rw [hskip] at h
        exact absurd h.symm (Option.some_ne_none _)
      | cons c after =>
        rw [hskip] at h
        dsimp only at h
        split at h
        · rw [← (Prod.mk.inj (Option.some.inj h)).1, List.forall_mem_singleton]
          exact ha
        · split at h
          · obtain ⟨more, hmore, hcons⟩ := map_read h
            rw [← hcons, List.forall_mem_cons]
            exact ⟨ha, ih hmore⟩
          · exact absurd h.symm (Option.some_ne_none _)

theorem sequence_forall (hp : ∀ cs a rest, p cs = some (a, rest) → P a) {m : Nat}
    {cs rest : List Char} {as : List α} (h : sequence close p m cs = some (as, rest)) :
    ∀ a ∈ as, P a := by
  unfold sequence at h
  cases hskip : skip cs with
  | nil =>
    rw [hskip] at h
    exact nomatch h
  | cons c after =>
    rw [hskip] at h
    dsimp only at h
    split at h
    · rw [← (Prod.mk.inj (Option.some.inj h)).1]
      exact fun a ha => absurd ha List.not_mem_nil
    · exact items_forall hp h

end

section
variable {T : PyText}

theorem distinctKeys_number {cs rest : List Char} {j : Json}
    (h : number T cs = some (j, rest)) : DistinctKeys j := by
  unfold number numberOf at h
  rw [Option.map_map] at h
  obtain ⟨r, -, hr⟩ := Option.map_eq_some_iff.mp h
  have hj := (Prod.mk.inj hr).1
  dsimp only at hj
  rw [← hj]
  split
  · simp [DistinctKeys]
  · simp [DistinctKeys]

theorem distinctKeys_scalar {cs rest : List Char} {j : Json}
    (h : scalar T cs = some (j, rest)) : DistinctKeys j := by
  have hword : ∀ {v : Json} {left : List Char}, DistinctKeys v →
      some (v, left) = some (j, rest) → DistinctKeys j := by
    intro v left hv heq
    rw [← (Prod.mk.inj (Option.some.inj heq)).1]
    exact hv
  unfold scalar at h
  iterate 6
    split at h
    · exact hword (by simp [DistinctKeys]) h
  exact distinctKeys_number h

theorem distinctKeys_ofPairs {fs : List (String × Json)} (h : ∀ p ∈ fs, DistinctKeys p.2) :
    DistinctKeys (.obj (Dict.ofPairs fs)) := by
  refine distinctKeys_obj.mpr ⟨Dict.nodup_ofPairs fs, fun p hp => ?_⟩
  exact h p (Dict.mem_of_mem_ofPairs hp)

theorem distinctKeys_value (n : Nat) {cs rest : List Char} {j : Json}
    (h : value T n cs = some (j, rest)) : DistinctKeys j := by
  induction n generalizing cs j rest with
  | zero => exact nomatch h
  | succ n ih =>
    cases cs with
    | nil => exact nomatch h
    | cons c cs =>
      rw [value] at h
      split at h
      · obtain ⟨k, -, hj⟩ := map_read h
        rw [← hj]
        simp [DistinctKeys]
      · split at h
        · obtain ⟨fs, hfs, hj⟩ := map_read (f := fun fs => Json.obj (Dict.ofPairs fs)) h
          rw [← hj]
          refine distinctKeys_ofPairs (sequence_forall (fun cs kj rest hmember => ?_) hfs)
          obtain ⟨_, _, _, _, _, -, -, -, -, -, hval⟩ := member_read (k := kj.1) (j := kj.2) hmember
          exact ih hval
        · split at h
          · obtain ⟨xs, hxs, hj⟩ := map_read h
            rw [← hj, distinctKeys_arr]
            exact sequence_forall (fun _ _ _ hitem => ih hitem) hxs
          · exact distinctKeys_scalar h

/-- `json.loads` returns objects without a repeated key -/
theorem distinctKeys_loads {cs : List Char} {j : Json} (h : loads T cs = some j) :
    DistinctKeys j := by
  unfold loads at h
  cases hvalue : value T cs.length (skip cs) with
  | none =>
    rw [hvalue] at h
    exact nomatch h
  | some r =>
    rw [hvalue] at h
    dsimp only at h
    split at h
    · rw [← Option.some.inj h]
      exact distinctKeys_value _ hvalue
    · exact nomatch h

end

end JsonText
end Dolores
