import Mathlib.Data.List.Sort
import Mathlib.Order.Basic

/-!
# Insertion-ordered dictionaries

A dictionary is the list of its items in insertion order.  `set` overwrites in place and appends
a new key at the end, so that iteration order is the order in which keys were first set.

* `get?_set`, `get?_modify`, `foldl_set_get?`   what a lookup sees after an update;
* `get?_sorted`, `sorted_eq_of_sorted`          sorting the items by key changes no lookup;
* `keys_set`, `nodup_set`                       the keys of an updated dictionary;
* `get?_perm`, `modify_perm`, `modify_comm`     what does not depend on the order of the items;
* `perm_of_get?`                                the lookups tell all but that order;
* `SameItems`                                   equality up to that order;
* `insertionSort_eq_of_perm`                    a sort by distinct keys does not either;
* `ofPairs_map`                                 pairs made from their keys, in the order of the
                                                first appearances.
-/

set_option linter.unusedSectionVars false

abbrev Dict (K V : Type) : Type := List (K × V)

namespace Dict

section
variable {K V W : Type} [BEq K]

def get? (d : Dict K V) (k : K) : Option V := d.lookup k

def getD (d : Dict K V) (k : K) (v : V) : V := (d.get? k).getD v

def keys (d : Dict K V) : List K := d.map Prod.fst

def values (d : Dict K V) : List V := d.map Prod.snd

def contains (d : Dict K V) (k : K) : Bool := (d.get? k).isSome

def set : Dict K V → K → V → Dict K V
  | [], k, v => [(k, v)]
  | (k', v') :: d, k, v => if k == k' then (k', v) :: d else (k', v') :: set d k v

/-- `f` applied to the value at `k`; nothing happens when `k` is absent -/
def modify (d : Dict K V) (k : K) (f : V → V) : Dict K V :=
  match d.get? k with
  | some v => d.set k (f v)
  | none => d

def ofPairs (l : List (K × V)) : Dict K V := l.foldl (fun d p => d.set p.1 p.2) []

def mapValues (f : V → W) (d : Dict K V) : Dict K W := d.map fun p => (p.1, f p.2)

end

section
variable {K V W : Type} [BEq K] [LawfulBEq K] [DecidableEq K]

@[simp] theorem get?_nil (k : K) : get? ([] : Dict K V) k = none := rfl

theorem get?_cons (k k' : K) (v : V) (d : Dict K V) :
    get? ((k', v) :: d) k = if k = k' then some v else d.get? k := by
  unfold get?
  rw [List.lookup_cons]
  by_cases h : k = k'
  · simp [h]
  · have h' : (k == k') = false := by simpa using h
    simp [h, h']

theorem get?_set (d : Dict K V) (k k' : K) (v : V) :
    (d.set k v).get? k' = if k' = k then some v else d.get? k' := by
  induction d with
  | nil => rw [set, get?_cons]
  | cons p d ih =>
    obtain ⟨a, b⟩ := p
    rw [set]
    by_cases h : k = a
    · subst h
      simp only [beq_self_eq_true, if_true, get?_cons]
      split <;> rfl
    · have h' : (k == a) = false := by simpa using h
      simp only [h', Bool.false_eq_true, if_false, get?_cons, ih]
      by_cases h2 : k' = a
      · have h3 : ¬ a = k := fun e => h e.symm
        simp [h2, h3]
      · simp [h2]

@[simp] theorem get?_set_self (d : Dict K V) (k : K) (v : V) : (d.set k v).get? k = some v := by
  simp [get?_set]

theorem get?_modify (d : Dict K V) (k k' : K) (f : V → V) :
    (d.modify k f).get? k' = if k' = k then (d.get? k).map f else d.get? k' := by
  unfold modify
  cases h : d.get? k with
  | none =>
    by_cases e : k' = k
    · simp [e, h]
    · simp [e]
  | some v =>
    show (d.set k (f v)).get? k' = _
    rw [get?_set]
    rfl

theorem get?_mapValues (f : V → W) (d : Dict K V) (k : K) :
    (d.mapValues f).get? k = (d.get? k).map f := by
  induction d with
  | nil => rfl
  | cons p d ih =>
    obtain ⟨a, b⟩ := p
    show get? ((a, f b) :: mapValues f d) k = _
    rw [get?_cons, get?_cons, ih]
    split <;> rfl

theorem keys_mapValues (f : V → W) (d : Dict K V) : (d.mapValues f).keys = d.keys := by
  unfold mapValues keys
  rw [List.map_map]
  rfl

theorem mem_keys_of_get? {d : Dict K V} {k : K} {v : V} (h : d.get? k = some v) : k ∈ d.keys := by
  induction d with
  | nil => cases h
  | cons p d ih =>
    obtain ⟨a, b⟩ := p
    rw [get?_cons] at h
    by_cases e : k = a
    · exact e ▸ List.mem_cons_self
    · rw [if_neg e] at h
      exact List.mem_cons_of_mem _ (ih h)

theorem mem_of_get? {d : Dict K V} {k : K} {v : V} (h : d.get? k = some v) : (k, v) ∈ d := by
  induction d with
  | nil => cases h
  | cons p d ih =>
    obtain ⟨a, b⟩ := p
    rw [get?_cons] at h
    by_cases e : k = a
    · rw [if_pos e] at h
      rw [e, ← Option.some.inj h]
      exact List.mem_cons_self
    · rw [if_neg e] at h
      exact List.mem_cons_of_mem _ (ih h)

theorem get?_isSome_iff {d : Dict K V} {k : K} : (d.get? k).isSome ↔ k ∈ d.keys := by
  induction d with
  | nil => simp [keys]
  | cons p d ih =>
    obtain ⟨a, b⟩ := p
    rw [get?_cons]
    show _ ↔ k ∈ a :: keys d
    by_cases e : k = a
    · simp [e]
    · rw [if_neg e, ih, List.mem_cons]
      simp [e]

theorem not_mem_keys_of_get? {d : Dict K V} {k : K} (h : d.get? k = none) : k ∉ d.keys := by
  intro hmem
  have hsome := get?_isSome_iff.mpr hmem
  rw [h] at hsome
  exact Bool.false_ne_true hsome

theorem keys_set (d : Dict K V) (k : K) (v : V) :
    (d.set k v).keys = if k ∈ d.keys then d.keys else d.keys ++ [k] := by
  induction d with
  | nil => rfl
  | cons p d ih =>
    obtain ⟨a, b⟩ := p
    rw [set]
    by_cases e : k = a
    · subst e
      simp [keys]
    · have e' : (k == a) = false := by simpa using e
      rw [e']
      show a :: keys (set d k v) = _
      rw [ih]
      show _ = if k ∈ a :: keys d then a :: keys d else a :: keys d ++ [k]
      by_cases h : k ∈ keys d
      · simp [h]
      · simp [h, e]

theorem set_of_not_mem {d : Dict K V} {k : K} (h : k ∉ d.keys) (v : V) :
    d.set k v = d ++ [(k, v)] := by
  induction d with
  | nil => rfl
  | cons p d ih =>
    obtain ⟨a, b⟩ := p
    obtain ⟨hne, hd⟩ := not_or.mp fun hc => h (List.mem_cons.mpr hc)
    rw [set, if_neg (by simpa using hne), ih hd]
    rfl

theorem nodup_set {d : Dict K V} (h : d.keys.Nodup) (k : K) (v : V) : (d.set k v).keys.Nodup := by
  rw [keys_set]
  split
  · exact h
  · next hk => exact List.nodup_append.mpr ⟨h, List.nodup_singleton k, by
      intro a ha b hb e
      rw [List.mem_singleton] at hb
      exact hk (hb ▸ e ▸ ha)⟩

theorem get?_of_mem {d : Dict K V} (h : d.keys.Nodup) {k : K} {v : V} (hm : (k, v) ∈ d) :
    d.get? k = some v := by
  induction d with
  | nil => cases hm
  | cons p d ih =>
    obtain ⟨a, b⟩ := p
    obtain ⟨ha, hd⟩ := List.nodup_cons.mp h
    rw [get?_cons]
    rcases List.mem_cons.mp hm with e | hm'
    · obtain ⟨rfl, rfl⟩ := Prod.mk.inj e
      simp
    · have hk : k ∈ keys d := List.mem_map.mpr ⟨(k, v), hm', rfl⟩
      have hne : ¬ k = a := fun e => ha (e ▸ hk)
      rw [if_neg hne, ih hd hm']

theorem mem_iff_get? {d : Dict K V} (h : d.keys.Nodup) {k : K} {v : V} :
    (k, v) ∈ d ↔ d.get? k = some v :=
  ⟨get?_of_mem h, mem_of_get?⟩

/-! ### dictionaries from pairs -/

theorem foldl_set_get? (l : List (K × V)) (d : Dict K V) (k : K) :
    (l.foldl (fun d p => d.set p.1 p.2) d).get? k
      = ((l.reverse.lookup k).or (d.get? k)) := by
  induction l generalizing d with
  | nil => rfl
  | cons p l ih =>
    obtain ⟨a, b⟩ := p
    rw [List.foldl_cons, ih, get?_set, List.reverse_cons, List.lookup_append, Option.or_assoc]
    congr 1
    show _ = ((get? [(a, b)] k).or (d.get? k))
    rw [get?_cons]
    split <;> rfl

theorem nodup_foldl_set (l : List (K × V)) {d : Dict K V} (h : d.keys.Nodup) :
    (l.foldl (fun d p => d.set p.1 p.2) d).keys.Nodup := by
  induction l generalizing d with
  | nil => exact h
  | cons p l ih => exact ih (nodup_set h _ _)

theorem nodup_ofPairs (l : List (K × V)) : (ofPairs l).keys.Nodup :=
  nodup_foldl_set l List.nodup_nil

theorem mem_of_mem_ofPairs {l : List (K × V)} {p : K × V} (h : p ∈ ofPairs l) : p ∈ l := by
  have hget := get?_of_mem (nodup_ofPairs l) (k := p.1) (v := p.2) h
  unfold ofPairs at hget
  rw [foldl_set_get?, get?_nil, Option.or_none] at hget
  exact List.mem_reverse.mp (mem_of_get? (d := l.reverse) hget)

theorem foldl_set_of_nodup (l : List (K × V)) {d : Dict K V} (h : (keys (d ++ l)).Nodup) :
    l.foldl (fun d p => d.set p.1 p.2) d = d ++ l := by
  induction l generalizing d with
  | nil => rw [List.append_nil]; rfl
  | cons p l ih =>
    have hk : p.1 ∉ d.keys := by
      intro hmem
      have hsplit : (d.keys ++ keys (p :: l)).Nodup := by
        rw [keys, List.map_append] at h
        exact h
      have hdisjoint := (List.nodup_append.mp hsplit).2.2
      exact hdisjoint p.1 hmem p.1 List.mem_cons_self rfl
    have happ : d ++ p :: l = d ++ [p] ++ l := by
      rw [List.append_assoc]
      rfl
    rw [List.foldl_cons, set_of_not_mem hk, happ]
    rw [happ] at h
    exact ih h

theorem ofPairs_of_nodup {d : Dict K V} (h : d.keys.Nodup) : ofPairs d = d :=
  foldl_set_of_nodup d h

/-- the keys in the order of their first appearances -/
def firstAppearances : List K → List K
  | [] => []
  | k :: ks => k :: (firstAppearances ks).filter fun k' => k' ≠ k

theorem keys_foldl_set (l : List (K × V)) (d : Dict K V) :
    (l.foldl (fun d p => d.set p.1 p.2) d).keys =
      d.keys ++ (firstAppearances (l.map Prod.fst)).filter fun k => k ∉ d.keys := by
  induction l generalizing d with
  | nil => exact (List.append_nil _).symm
  | cons p l ih =>
    obtain ⟨a, b⟩ := p
    rw [List.foldl_cons, ih, keys_set]
    show _ = d.keys ++ (a :: (firstAppearances (l.map Prod.fst)).filter fun k => k ≠ a).filter _
    by_cases h : a ∈ d.keys
    · rw [if_pos h, List.filter_cons_of_neg (by simpa using h), List.filter_filter]
      congr 1
      apply List.filter_congr
      intro k _
      by_cases hk : k ∈ d.keys
      · simp [hk]
      · have hne : k ≠ a := fun e => hk (e ▸ h)
        simp [hk, hne]
    · rw [if_neg h, List.filter_cons_of_pos (by simpa using h), List.filter_filter,
        List.append_assoc]
      congr 1
      show _ = a :: _
      rw [List.singleton_append]
      congr 1
      apply List.filter_congr
      intro k _
      by_cases hk : k ∈ d.keys
      · simp [hk]
      · simp [hk]

theorem keys_ofPairs (l : List (K × V)) :
    (ofPairs l).keys = firstAppearances (l.map Prod.fst) := by
  unfold ofPairs
  rw [keys_foldl_set]
  show [] ++ _ = _
  rw [List.nil_append]
  exact List.filter_eq_self.mpr fun k _ => by simp [keys]

theorem nodup_firstAppearances (ks : List K) : (firstAppearances ks).Nodup := by
  induction ks with
  | nil => exact List.nodup_nil
  | cons k ks ih =>
    refine List.nodup_cons.mpr ⟨?_, ih.filter _⟩
    intro h
    have hne := (List.mem_filter.mp h).2
    simp at hne

theorem mem_firstAppearances {k : K} {ks : List K} : k ∈ firstAppearances ks ↔ k ∈ ks := by
  induction ks with
  | nil => exact Iff.rfl
  | cons a ks ih =>
    show k ∈ a :: (firstAppearances ks).filter _ ↔ _
    rw [List.mem_cons, List.mem_cons, List.mem_filter, ih]
    by_cases e : k = a
    · simp [e]
    · simp [e]

theorem firstAppearances_of_nodup {ks : List K} (h : ks.Nodup) : firstAppearances ks = ks := by
  induction ks with
  | nil => rfl
  | cons k ks ih =>
    obtain ⟨hk, hks⟩ := List.nodup_cons.mp h
    show k :: (firstAppearances ks).filter _ = k :: ks
    rw [ih hks]
    congr 1
    exact List.filter_eq_self.mpr fun k' hk' => by simpa using fun e : k' = k => hk (e ▸ hk')

/-- a dictionary is known by its keys and what they are looked up as -/
theorem eq_map_keys {d : Dict K V} (h : d.keys.Nodup) {f : K → V}
    (hf : ∀ k ∈ d.keys, d.get? k = some (f k)) : d = d.keys.map fun k => (k, f k) := by
  unfold keys
  rw [List.map_map]
  refine (List.map_congr_left fun p hp => ?_).trans (List.map_id d) |>.symm
  have hk : p.1 ∈ d.keys := List.mem_map_of_mem hp
  have hp' := hf p.1 hk
  rw [get?_of_mem h (show (p.1, p.2) ∈ d from hp)] at hp'
  show (p.1, f p.1) = p
  rw [← Option.some.inj hp']

theorem get?_map_keys (f : K → V) (ks : List K) (k : K) :
    get? (ks.map fun k => (k, f k)) k = if k ∈ ks then some (f k) else none := by
  induction ks with
  | nil => rfl
  | cons a ks ih =>
    show get? ((a, f a) :: ks.map fun k => (k, f k)) k = _
    rw [get?_cons]
    by_cases e : k = a
    · simp [e]
    · rw [if_neg e, ih]
      simp [e]

/-- pairs made from their keys are listed by the first appearances of the keys -/
theorem ofPairs_map (f : K → V) (ks : List K) :
    ofPairs (ks.map fun k => (k, f k)) = (firstAppearances ks).map fun k => (k, f k) := by
  have hkeys : (ofPairs (ks.map fun k => (k, f k))).keys = firstAppearances ks := by
    rw [keys_ofPairs, List.map_map]
    congr 1
    exact List.map_id ks
  rw [← hkeys]
  apply eq_map_keys (nodup_ofPairs _)
  intro k hk
  have hmem : k ∈ ks := by
    rw [hkeys] at hk
    exact mem_firstAppearances.mp hk
  show get? _ k = _
  unfold ofPairs
  rw [foldl_set_get?, ← List.map_reverse, show (ks.reverse.map fun k => (k, f k)).lookup k =
    get? (ks.reverse.map fun k => (k, f k)) k from rfl, get?_map_keys,
    if_pos (List.mem_reverse.mpr hmem)]
  rfl

/-! ### the order of the items -/

theorem keys_perm {d d' : Dict K V} (h : d.Perm d') : d.keys.Perm d'.keys := h.map _

theorem values_perm {d d' : Dict K V} (h : d.Perm d') : d.values.Perm d'.values := h.map _

theorem mapValues_perm (f : V → W) {d d' : Dict K V} (h : d.Perm d') :
    (d.mapValues f).Perm (d'.mapValues f) := h.map _

/-- a lookup does not depend on the order of the items -/
theorem get?_perm {d d' : Dict K V} (h : d.Perm d') (hn : d.keys.Nodup) (k : K) :
    d.get? k = d'.get? k := by
  cases hk : d.get? k with
  | none =>
    have hnot : ¬ k ∈ d'.keys := by
      rw [← (keys_perm h).mem_iff, ← get?_isSome_iff, hk]
      exact Bool.false_ne_true
    rw [← get?_isSome_iff] at hnot
    exact (Option.not_isSome_iff_eq_none.mp hnot).symm
  | some v =>
    have hmem : (k, v) ∈ d := mem_of_get? hk
    exact (get?_of_mem ((keys_perm h).nodup_iff.mp hn) (h.mem_iff.mp hmem)).symm

/-- dictionaries in which every key is looked up alike differ in their order only -/
theorem perm_of_get? {d d' : Dict K V} (hn : d.keys.Nodup) (hn' : d'.keys.Nodup)
    (h : ∀ k, d.get? k = d'.get? k) : d.Perm d' := by
  refine (List.perm_ext_iff_of_nodup hn.of_map hn'.of_map).mpr fun p => ?_
  obtain ⟨k, v⟩ := p
  rw [mem_iff_get? hn, mem_iff_get? hn', h]

theorem modify_cons (a k : K) (b : V) (d : Dict K V) (f : V → V) :
    modify ((a, b) :: d) k f = if k = a then (a, f b) :: d else (a, b) :: d.modify k f := by
  unfold modify
  rw [get?_cons]
  by_cases e : k = a
  · rw [if_pos e, if_pos e]
    show set ((a, b) :: d) k (f b) = _
    rw [set, if_pos (beq_iff_eq.mpr e)]
  · rw [if_neg e, if_neg e]
    cases d.get? k with
    | none => rfl
    | some v =>
      show set ((a, b) :: d) k (f v) = _
      rw [set, if_neg (by simpa using e)]

theorem keys_modify (d : Dict K V) (k : K) (f : V → V) : (d.modify k f).keys = d.keys := by
  induction d with
  | nil => rfl
  | cons p d ih =>
    obtain ⟨a, b⟩ := p
    rw [modify_cons]
    split
    · rfl
    · show a :: keys (modify d k f) = a :: keys d
      rw [ih]

theorem contains_modify (d : Dict K V) (k k' : K) (f : V → V) :
    (d.modify k f).contains k' = d.contains k' := by
  unfold contains
  rw [Bool.eq_iff_iff, get?_isSome_iff, get?_isSome_iff, keys_modify]

theorem modify_comm (d : Dict K V) {k k' : K} (h : k ≠ k') (f f' : V → V) :
    (d.modify k f).modify k' f' = (d.modify k' f').modify k f := by
  induction d with
  | nil => rfl
  | cons p d ih =>
    obtain ⟨a, b⟩ := p
    rw [modify_cons, modify_cons]
    by_cases e : k = a
    · have e' : k' ≠ a := fun e' => h (e.trans e'.symm)
      rw [if_pos e, if_neg e', modify_cons, modify_cons, if_neg e', if_pos e]
    · by_cases e' : k' = a
      · rw [if_neg e, if_pos e', modify_cons, modify_cons, if_pos e', if_neg e]
      · rw [if_neg e, if_neg e', modify_cons, modify_cons, if_neg e', if_neg e, ih]

theorem modify_perm {d d' : Dict K V} (h : d.Perm d') (hn : d.keys.Nodup) (k : K) (f : V → V) :
    (d.modify k f).Perm (d'.modify k f) := by
  have hmap : ∀ d : Dict K V, d.keys.Nodup →
      d.modify k f = d.map fun p => if k = p.1 then (p.1, f p.2) else p := by
    intro d hd
    induction d with
    | nil => rfl
    | cons p d ih =>
      obtain ⟨a, b⟩ := p
      obtain ⟨ha, hd⟩ := List.nodup_cons.mp hd
      rw [modify_cons, List.map_cons]
      by_cases e : k = a
      · have hrest : (d.map fun p => if k = p.1 then (p.1, f p.2) else p) = d := by
          refine (List.map_congr_left fun p hp => ?_).trans (List.map_id d)
          have hkey : p.1 ∈ keys d := List.mem_map.mpr ⟨p, hp, rfl⟩
          have hne : k ≠ p.1 := fun hk => ha (by rw [← e, hk]; exact hkey)
          exact if_neg hne
        rw [if_pos e, hrest, if_pos e]
      · rw [if_neg e, ih hd, if_neg e]
  rw [hmap d hn, hmap d' ((keys_perm h).nodup_iff.mp hn)]
  exact h.map _

end

/-! ### sorting by key -/

/-- elements with distinct keys have one order -/
theorem insertionSort_eq_of_perm {α K : Type} [LinearOrder K] (key : α → K) {l l' : List α}
    (h : l.Perm l') (hn : (l.map key).Nodup) :
    (l.insertionSort fun a b => key a ≤ key b) = l'.insertionSort fun a b => key a ≤ key b := by
  have : Std.Total (fun a b : α => key a ≤ key b) := ⟨fun a b => le_total (key a) (key b)⟩
  have : IsTrans α (fun a b => key a ≤ key b) := ⟨fun _ _ _ h h' => le_trans h h'⟩
  have hl := List.perm_insertionSort (fun a b : α => key a ≤ key b) l
  have hl' := List.perm_insertionSort (fun a b : α => key a ≤ key b) l'
  refine ((hl.trans h).trans hl'.symm).eq_of_pairwise (fun a b ha hb hle hle' => ?_)
    (List.pairwise_insertionSort _ l) (List.pairwise_insertionSort _ l')
  have ha' : a ∈ l := hl.mem_iff.mp ha
  have hb' : b ∈ l := h.mem_iff.mpr (hl'.mem_iff.mp hb)
  exact List.inj_on_of_nodup_map hn ha' hb' (le_antisymm hle hle')

section
variable {K V : Type} [LinearOrder K]

/-- the items in key order -/
def sorted (d : Dict K V) : Dict K V := d.insertionSort fun a b => a.1 ≤ b.1

variable [BEq K] [LawfulBEq K]

theorem get?_orderedInsert (p : K × V) (d : Dict K V) (k : K) :
    get? (d.orderedInsert (fun a b => a.1 ≤ b.1) p) k = get? (p :: d) k := by
  induction d with
  | nil => rfl
  | cons q d ih =>
    obtain ⟨a, b⟩ := p
    obtain ⟨a', b'⟩ := q
    rw [List.orderedInsert_cons]
    split
    · rfl
    · next h =>
      have hne : a ≠ a' := fun e => h (le_of_eq e)
      rw [get?_cons, ih, get?_cons, get?_cons, get?_cons]
      by_cases e : k = a'
      · have e' : ¬ k = a := fun e2 => hne (e2 ▸ e)
        simp [e, hne.symm]
      · simp [e]

theorem get?_sorted (d : Dict K V) (k : K) : (sorted d).get? k = d.get? k := by
  induction d with
  | nil => rfl
  | cons p d ih =>
    show get? (List.orderedInsert _ p (sorted d)) k = _
    obtain ⟨a, b⟩ := p
    rw [get?_orderedInsert, get?_cons, get?_cons, ih]

theorem sorted_perm (d : Dict K V) : (sorted d).Perm d := List.perm_insertionSort _ d

theorem sorted_pairwise (d : Dict K V) : (sorted d).Pairwise fun a b => a.1 ≤ b.1 :=
  haveI : Std.Total (fun a b : K × V => a.1 ≤ b.1) := ⟨fun a b => le_total a.1 b.1⟩
  haveI : IsTrans (K × V) (fun a b => a.1 ≤ b.1) := ⟨fun _ _ _ h h' => le_trans h h'⟩
  List.pairwise_insertionSort _ d

theorem sorted_eq_of_sorted {d : Dict K V} (h : d.Pairwise fun a b => a.1 ≤ b.1) :
    sorted d = d :=
  List.Pairwise.insertionSort_eq h

theorem keys_sorted (d : Dict K V) : (sorted d).keys = d.keys.insertionSort (· ≤ ·) := by
  unfold sorted keys
  exact List.map_insertionSort _ _ _ d fun a _ b _ => Iff.rfl

/-- dictionaries with the same items are sorted alike -/
theorem sorted_eq_of_perm {d d' : Dict K V} (h : d.Perm d') (hn : d.keys.Nodup) :
    sorted d = sorted d' := insertionSort_eq_of_perm Prod.fst h hn

@[simp] theorem sorted_sorted (d : Dict K V) : sorted (sorted d) = sorted d :=
  sorted_eq_of_sorted (sorted_pairwise d)

end

/-! ### equality as dictionaries -/

/-- the same items in some order, one for each key -/
structure SameItems {K V : Type} (d d' : Dict K V) : Prop where
  perm : d.Perm d'
  nodup : d.keys.Nodup

namespace SameItems

section
variable {K V W : Type} [BEq K] [LawfulBEq K] [DecidableEq K] {d d' : Dict K V}
  (h : SameItems d d')
include h

theorem get? (k : K) : d.get? k = d'.get? k := get?_perm h.perm h.nodup k

theorem getD (k : K) (v : V) : d.getD k v = d'.getD k v := by
  unfold Dict.getD
  rw [h.get?]

theorem mapValues (f : V → W) : SameItems (d.mapValues f) (d'.mapValues f) where
  perm := mapValues_perm f h.perm
  nodup := by
    rw [keys_mapValues]
    exact h.nodup

theorem modify (k : K) (f : V → V) : SameItems (d.modify k f) (d'.modify k f) where
  perm := modify_perm h.perm h.nodup k f
  nodup := by
    rw [keys_modify]
    exact h.nodup

end

theorem sorted {K V : Type} [LinearOrder K] [BEq K] [LawfulBEq K] {d d' : Dict K V}
    (h : SameItems d d') : d.sorted = d'.sorted := sorted_eq_of_perm h.perm h.nodup

end SameItems

end Dict
