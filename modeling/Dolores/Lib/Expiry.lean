import Mathlib.Algebra.Order.Group.Defs
import Mathlib.Algebra.Group.Basic
import Dolores.Lib.Dict

/-!
# Caches whose entries expire

A cache remembers when each key was admitted.  A request first evicts the entries that are older
than `age`, and is admitted unless its key is still there.

* `mem_run_of_absent`   a key that the cache does not hold is admitted at its first request;
* `run_nodup_iff`       no key is admitted twice exactly when no two requests of one key are further
                        apart than `age`;
* `Agree`               two caches that differ, for some keys, in entries that are too old at most.
-/

set_option linter.unusedSectionVars false

namespace Expiry

section
variable {κ τ : Type} [BEq κ] [LawfulBEq κ] [DecidableEq κ] [AddCommGroup τ] [LinearOrder τ]
  [IsOrderedAddMonoid τ] (age : τ)

/-- the entries that are not older than the cutoff -/
def evict (cutoff : τ) (cache : Dict κ τ) : Dict κ τ := cache.filter fun p => cutoff ≤ p.2

/-- one request: whether it is admitted, and the cache after it -/
def offer (cache : Dict κ τ) (r : κ × τ) : Bool × Dict κ τ :=
  let cache := evict (r.2 - age) cache
  if Dict.contains cache r.1 then (false, cache) else (true, Dict.set cache r.1 r.2)

/-- the keys that are admitted, in order -/
def run : Dict κ τ → List (κ × τ) → List κ
  | _, [] => []
  | cache, r :: rs =>
    if (offer age cache r).1 then r.1 :: run (offer age cache r).2 rs
    else run (offer age cache r).2 rs

variable {age} {cache : Dict κ τ} {r : κ × τ} {rs : List (κ × τ)}

theorem mem_evict {cutoff : τ} {p : κ × τ} : p ∈ evict cutoff cache ↔ p ∈ cache ∧ cutoff ≤ p.2 := by
  unfold evict
  rw [List.mem_filter, decide_eq_true_iff]

theorem nodup_evict (h : cache.keys.Nodup) (cutoff : τ) : (evict cutoff cache).keys.Nodup :=
  h.sublist (List.filter_sublist.map _)

theorem contains_iff {k : κ} : Dict.contains cache k = true ↔ k ∈ cache.keys :=
  Dict.get?_isSome_iff

theorem mem_keys {k : κ} : k ∈ cache.keys ↔ ∃ t, (k, t) ∈ cache := by
  unfold Dict.keys
  rw [List.mem_map]
  constructor
  · intro h
    obtain ⟨⟨k', t⟩, hp, he⟩ := h
    have hk : k' = k := he
    exact ⟨t, hk ▸ hp⟩
  · intro h
    obtain ⟨t, hp⟩ := h
    exact ⟨(k, t), hp, rfl⟩

theorem mem_keys_of_evict {k : κ} {cutoff : τ} (h : k ∈ (evict cutoff cache).keys) :
    k ∈ cache.keys := by
  obtain ⟨t, ht⟩ := mem_keys.mp h
  exact mem_keys.mpr ⟨t, (mem_evict.mp ht).1⟩

/-- with distinct keys, an evicted key is gone -/
theorem not_mem_keys_evict (h : cache.keys.Nodup) {p : κ × τ} (hp : p ∈ cache) {cutoff : τ}
    (hold : p.2 < cutoff) : p.1 ∉ (evict cutoff cache).keys := by
  intro hmem
  obtain ⟨t, ht⟩ := mem_keys.mp hmem
  obtain ⟨hcache, hle⟩ := mem_evict.mp ht
  have h₁ := Dict.get?_of_mem h (show (p.1, p.2) ∈ cache from hp)
  rw [Dict.get?_of_mem h hcache] at h₁
  rw [Option.some.inj h₁] at hle
  exact absurd hle (not_le.mpr hold)

theorem offer_present (h : r.1 ∈ (evict (r.2 - age) cache).keys) :
    offer age cache r = (false, evict (r.2 - age) cache) := if_pos (contains_iff.mpr h)

theorem offer_absent (h : r.1 ∉ (evict (r.2 - age) cache).keys) :
    offer age cache r = (true, Dict.set (evict (r.2 - age) cache) r.1 r.2) :=
  if_neg fun hc => h (contains_iff.mp hc)

theorem run_present (h : r.1 ∈ (evict (r.2 - age) cache).keys) :
    run age cache (r :: rs) = run age (evict (r.2 - age) cache) rs := by
  rw [run, offer_present h]
  rfl

theorem run_absent (h : r.1 ∉ (evict (r.2 - age) cache).keys) :
    run age cache (r :: rs) = r.1 :: run age (Dict.set (evict (r.2 - age) cache) r.1 r.2) rs := by
  rw [run, offer_absent h]
  rfl

theorem mem_of_mem_run {k : κ} (h : k ∈ run age cache rs) : ∃ r ∈ rs, r.1 = k := by
  induction rs generalizing cache with
  | nil => exact (List.not_mem_nil h).elim
  | cons r rs ih =>
    by_cases hr : r.1 ∈ (evict (r.2 - age) cache).keys
    · rw [run_present hr] at h
      obtain ⟨r', hr', he⟩ := ih h
      exact ⟨r', List.mem_cons_of_mem r hr', he⟩
    · rw [run_absent hr] at h
      rcases List.mem_cons.mp h with he | h
      · exact ⟨r, List.mem_cons_self, he.symm⟩
      · obtain ⟨r', hr', he⟩ := ih h
        exact ⟨r', List.mem_cons_of_mem r hr', he⟩

theorem mem_run_of_absent {k : κ} (hk : k ∉ cache.keys) (h : ∃ r ∈ rs, r.1 = k) :
    k ∈ run age cache rs := by
  induction rs generalizing cache with
  | nil =>
    obtain ⟨r, hr, _⟩ := h
    exact (List.not_mem_nil hr).elim
  | cons r rs ih =>
    have hevicted : k ∉ (evict (r.2 - age) cache).keys := fun hmem => hk (mem_keys_of_evict hmem)
    by_cases he : r.1 = k
    · have hr : r.1 ∉ (evict (r.2 - age) cache).keys := by rw [he]; exact hevicted
      rw [run_absent hr, he]
      exact List.mem_cons_self
    · have hrest : ∃ r' ∈ rs, r'.1 = k := by
        obtain ⟨r', hr', he'⟩ := h
        rcases List.mem_cons.mp hr' with hr' | hr'
        · rw [hr'] at he'
          exact (he he').elim
        · exact ⟨r', hr', he'⟩
      by_cases hr : r.1 ∈ (evict (r.2 - age) cache).keys
      · rw [run_present hr]
        exact ih hevicted hrest
      · rw [run_absent hr]
        refine List.mem_cons_of_mem _ (ih ?_ hrest)
        rw [Dict.keys_set, if_neg hr, List.mem_append, List.mem_singleton]
        intro hc
        rcases hc with hc | hc
        · exact hevicted hc
        · exact he hc.symm

/-- two requests of one key are no further apart than `age` -/
def Close (age : τ) (a b : κ × τ) : Prop := a.1 = b.1 → b.2 ≤ a.2 + age

/-- an entry that a later request has evicted: its key is admitted again exactly when it is
requested again, and every such request is too late -/
theorem evicted_iff {p : κ × τ} {cutoff : τ} (hcutoff : ∀ r ∈ rs, cutoff ≤ r.2 - age)
    (hold : p.2 < cutoff) (habsent : p.1 ∉ cache.keys) :
    p.1 ∉ run age cache rs ↔ ∀ r ∈ rs, Close age p r := by
  constructor
  · intro h r hr he
    exact (h (mem_run_of_absent habsent ⟨r, hr, he.symm⟩)).elim
  · intro h hmem
    obtain ⟨r, hr, he⟩ := mem_of_mem_run hmem
    have hclose := h r hr he.symm
    have hlate : p.2 < r.2 - age := lt_of_lt_of_le hold (hcutoff r hr)
    exact absurd hclose (not_le.mpr (lt_sub_iff_add_lt.mp hlate))

variable (age cache rs) in
/-- what `run_nodup_iff` says, of a run from a cache that holds entries -/
def OnceIffClose : Prop :=
  ((run age cache rs).Nodup ∧ ∀ p ∈ cache, p.1 ∉ run age cache rs) ↔
    rs.Pairwise (Close age) ∧ ∀ p ∈ cache, ∀ r ∈ rs, Close age p r

/-- the request is refused: an entry of its key is no older than `age` -/
theorem onceIffClose_refused (hnodup : cache.keys.Nodup) (hpast : ∀ p ∈ cache, p.2 ≤ r.2)
    (hlater : ∀ r' ∈ rs, r.2 ≤ r'.2) (hr : r.1 ∈ (evict (r.2 - age) cache).keys)
    (hi : OnceIffClose age (evict (r.2 - age) cache) rs) : OnceIffClose age cache (r :: rs) := by
  unfold OnceIffClose at hi ⊢
  have hcutoff : ∀ r' ∈ rs, r.2 - age ≤ r'.2 - age := fun r' hr' =>
    sub_le_sub_right (hlater r' hr') age
  obtain ⟨t, ht⟩ := mem_keys.mp hr
  rw [run_present hr, List.pairwise_cons]
  constructor
  · rintro ⟨hrun, hout⟩
    obtain ⟨hclose, hcached⟩ := hi.mp ⟨hrun, fun p hp => hout p (mem_evict.mp hp).1⟩
    refine ⟨⟨?_, hclose⟩, ?_⟩
    · intro r' hr' he
      have hentry : r'.2 ≤ t + age := hcached (r.1, t) ht r' hr' he
      exact hentry.trans (add_le_add_left (hpast (r.1, t) (mem_evict.mp ht).1) age)
    · intro p hp r' hr'
      by_cases hold : p.2 < r.2 - age
      · have hgone := not_mem_keys_evict hnodup hp hold
        rcases List.mem_cons.mp hr' with hr' | hr'
        · intro he
          rw [hr'] at he
          exact (hgone (he ▸ hr)).elim
        · exact (evicted_iff hcutoff hold hgone).mp (hout p hp) r' hr'
      · rcases List.mem_cons.mp hr' with hr' | hr'
        · intro _
          rw [hr']
          exact sub_le_iff_le_add.mp (not_lt.mp hold)
        · exact hcached p (mem_evict.mpr ⟨hp, not_lt.mp hold⟩) r' hr'
  · rintro ⟨⟨_, hclose⟩, hcached⟩
    obtain ⟨hrun, hout⟩ := hi.mpr ⟨hclose, fun p hp r' hr' =>
      hcached p (mem_evict.mp hp).1 r' (List.mem_cons_of_mem r hr')⟩
    refine ⟨hrun, ?_⟩
    intro p hp
    by_cases hold : p.2 < r.2 - age
    · exact (evicted_iff hcutoff hold (not_mem_keys_evict hnodup hp hold)).mpr fun r' hr' =>
        hcached p hp r' (List.mem_cons_of_mem r hr')
    · exact hout p (mem_evict.mpr ⟨hp, not_lt.mp hold⟩)

/-- the request is admitted, and its entry joins the cache -/
theorem onceIffClose_admitted (hnodup : cache.keys.Nodup) (hlater : ∀ r' ∈ rs, r.2 ≤ r'.2)
    (hr : r.1 ∉ (evict (r.2 - age) cache).keys)
    (hi : OnceIffClose age (Dict.set (evict (r.2 - age) cache) r.1 r.2) rs) :
    OnceIffClose age cache (r :: rs) := by
  unfold OnceIffClose at hi ⊢
  have hcutoff : ∀ r' ∈ rs, r.2 - age ≤ r'.2 - age := fun r' hr' =>
    sub_le_sub_right (hlater r' hr') age
  rw [run_absent hr, List.pairwise_cons, List.nodup_cons]
  have hmem : ∀ p, p ∈ Dict.set (evict (r.2 - age) cache) r.1 r.2 ↔
      p ∈ evict (r.2 - age) cache ∨ p = r := by
    intro p
    rw [Dict.set_of_not_mem hr r.2, List.mem_append, List.mem_singleton]
  have hstay : ∀ p ∈ cache, ¬ p.2 < r.2 - age →
      p ∈ Dict.set (evict (r.2 - age) cache) r.1 r.2 := fun p hp hnew =>
    (hmem p).mpr (.inl (mem_evict.mpr ⟨hp, not_lt.mp hnew⟩))
  have hgone : ∀ p ∈ cache, p.2 < r.2 - age → p.1 ≠ r.1 →
      p.1 ∉ (Dict.set (evict (r.2 - age) cache) r.1 r.2).keys := by
    intro p hp hold hne hkey
    obtain ⟨t, ht⟩ := mem_keys.mp hkey
    rcases (hmem _).mp ht with ht | ht
    · exact not_mem_keys_evict hnodup hp hold (mem_keys.mpr ⟨t, ht⟩)
    · exact hne (by rw [← ht])
  generalize Dict.set (evict (r.2 - age) cache) r.1 r.2 = cache' at *
  constructor
  · rintro ⟨⟨hnot, hrun⟩, hout⟩
    have hne : ∀ p ∈ cache, p.1 ≠ r.1 := fun p hp he => hout p hp (he ▸ List.mem_cons_self)
    have hrest : ∀ p ∈ cache, p.1 ∉ run age cache' rs := fun p hp hm =>
      hout p hp (List.mem_cons_of_mem _ hm)
    have hcache : ∀ p ∈ cache', p.1 ∉ run age cache' rs := by
      intro p hp
      rcases (hmem p).mp hp with hp | hp
      · exact hrest p (mem_evict.mp hp).1
      · rw [hp]
        exact hnot
    obtain ⟨hclose, hcached⟩ := hi.mp ⟨hrun, hcache⟩
    refine ⟨⟨fun r' hr' => hcached r ((hmem r).mpr (.inr rfl)) r' hr', hclose⟩, ?_⟩
    intro p hp r' hr'
    rcases List.mem_cons.mp hr' with hr' | hr'
    · intro he
      rw [hr'] at he
      exact (hne p hp he).elim
    · by_cases hold : p.2 < r.2 - age
      · exact (evicted_iff hcutoff hold (hgone p hp hold (hne p hp))).mp (hrest p hp) r' hr'
      · exact hcached p (hstay p hp hold) r' hr'
  · rintro ⟨⟨hnext, hclose⟩, hcached⟩
    have hne : ∀ p ∈ cache, p.1 ≠ r.1 := by
      intro p hp he
      by_cases hold : p.2 < r.2 - age
      · exact absurd (hcached p hp r List.mem_cons_self he)
          (not_le.mpr (lt_sub_iff_add_lt.mp hold))
      · exact hr (mem_keys.mpr ⟨p.2, he ▸ mem_evict.mpr ⟨hp, not_lt.mp hold⟩⟩)
    have hcache : ∀ p ∈ cache', ∀ r' ∈ rs, Close age p r' := by
      intro p hp r' hr'
      rcases (hmem p).mp hp with hp | hp
      · exact hcached p (mem_evict.mp hp).1 r' (List.mem_cons_of_mem r hr')
      · rw [hp]
        exact hnext r' hr'
    obtain ⟨hrun, hout⟩ := hi.mpr ⟨hclose, hcache⟩
    refine ⟨⟨hout r ((hmem r).mpr (.inr rfl)), hrun⟩, ?_⟩
    intro p hp hm
    rcases List.mem_cons.mp hm with he | hm
    · exact hne p hp he
    · by_cases hold : p.2 < r.2 - age
      · exact (evicted_iff hcutoff hold (hgone p hp hold (hne p hp))).mpr
          (fun r' hr' => hcached p hp r' (List.mem_cons_of_mem r hr')) hm
      · exact hout p (hstay p hp hold) hm

variable (age cache) in
theorem run_from_iff (hnodup : cache.keys.Nodup) (hpast : ∀ p ∈ cache, ∀ r ∈ rs, p.2 ≤ r.2)
    (hmono : rs.Pairwise fun a b => a.2 ≤ b.2) : OnceIffClose age cache rs := by
  induction rs generalizing cache with
  | nil =>
    exact iff_of_true ⟨List.nodup_nil, fun _ _ => List.not_mem_nil⟩
      ⟨.nil, fun _ _ r hr => (List.not_mem_nil hr).elim⟩
  | cons r rs ih =>
    obtain ⟨hlater, hmono'⟩ := List.pairwise_cons.mp hmono
    have hnodup' := nodup_evict hnodup (r.2 - age)
    have hpast' : ∀ p ∈ evict (r.2 - age) cache, ∀ r' ∈ rs, p.2 ≤ r'.2 := fun p hp r' hr' =>
      hpast p (mem_evict.mp hp).1 r' (List.mem_cons_of_mem r hr')
    by_cases hr : r.1 ∈ (evict (r.2 - age) cache).keys
    · have hbefore : ∀ p ∈ cache, p.2 ≤ r.2 := fun p hp => hpast p hp r List.mem_cons_self
      exact onceIffClose_refused hnodup hbefore hlater hr (ih _ hnodup' hpast' hmono')
    · refine onceIffClose_admitted hnodup hlater hr (ih _ (Dict.nodup_set hnodup' _ _) ?_ hmono')
      intro p hp r' hr'
      rw [Dict.set_of_not_mem hr] at hp
      rcases List.mem_append.mp hp with hp | hp
      · exact hpast' p hp r' hr'
      · rw [List.mem_singleton.mp hp]
        exact hlater r' hr'

/-- **No key is admitted twice** exactly when no two requests of one key are further apart than
`age`. -/
theorem run_nodup_iff (hmono : rs.Pairwise fun a b => a.2 ≤ b.2) :
    (run age [] rs).Nodup ↔ rs.Pairwise (Close age) := by
  have h := run_from_iff age [] List.nodup_nil
    (fun p hp => (List.not_mem_nil hp).elim) hmono
  constructor
  · intro hrun
    exact (h.mp ⟨hrun, fun p hp => (List.not_mem_nil hp).elim⟩).1
  · intro hclose
    exact (h.mpr ⟨hclose, fun p hp => (List.not_mem_nil hp).elim⟩).1

/-! ## two caches -/

/-- the caches hold the same entries of these keys, apart from those that are older -/
def Agree (p : κ → Prop) (since : τ) (cache cache' : Dict κ τ) : Prop :=
  ∀ k t, p k → since ≤ t → ((k, t) ∈ cache ↔ (k, t) ∈ cache')

variable {p : κ → Prop} {since cutoff : τ} {cache' : Dict κ τ}

theorem Agree.later (h : Agree p since cache cache') (hle : since ≤ cutoff) :
    Agree p cutoff cache cache' := fun k t hk ht => h k t hk (hle.trans ht)

theorem Agree.evict (h : Agree p since cache cache') (hle : since ≤ cutoff) :
    Agree p cutoff (evict cutoff cache) (evict cutoff cache') := by
  intro k t hk ht
  rw [mem_evict, mem_evict, h k t hk (hle.trans ht)]

theorem Agree.evict_left (h : Agree p since cache cache') (hle : since ≤ cutoff) :
    Agree p cutoff (Expiry.evict cutoff cache) cache' := by
  intro k t hk ht
  rw [mem_evict, h k t hk (hle.trans ht)]
  exact and_iff_left ht

theorem Agree.mem_keys (h : Agree p since cache cache') (hle : since ≤ cutoff) {k : κ} (hk : p k) :
    k ∈ (Expiry.evict cutoff cache).keys ↔ k ∈ (Expiry.evict cutoff cache').keys := by
  rw [Expiry.mem_keys, Expiry.mem_keys]
  apply exists_congr
  intro t
  rw [mem_evict, mem_evict]
  exact and_congr_left fun ht => h k t hk (hle.trans ht)

/-- a request of one of these keys -/
theorem Agree.offer (h : Agree p since cache cache') (hle : since ≤ r.2 - age) (hr : p r.1) :
    (offer age cache r).1 = (offer age cache' r).1 ∧
      Agree p (r.2 - age) (offer age cache r).2 (offer age cache' r).2 := by
  have hevicted := h.evict hle
  by_cases hmem : r.1 ∈ (Expiry.evict (r.2 - age) cache).keys
  · rw [offer_present hmem, offer_present ((h.mem_keys hle hr).mp hmem)]
    exact ⟨rfl, hevicted⟩
  · have hmem' := mt (h.mem_keys hle hr).mpr hmem
    rw [offer_absent hmem, offer_absent hmem']
    refine ⟨rfl, fun k t hk ht => ?_⟩
    rw [Dict.set_of_not_mem hmem, Dict.set_of_not_mem hmem', List.mem_append, List.mem_append,
      hevicted k t hk ht]

/-- a request of another key, to the first of the caches -/
theorem Agree.offer_other (h : Agree p since cache cache') (hle : since ≤ r.2 - age)
    (hr : ¬ p r.1) : Agree p (r.2 - age) (Expiry.offer age cache r).2 cache' := by
  have hevicted := h.evict_left hle
  by_cases hmem : r.1 ∈ (Expiry.evict (r.2 - age) cache).keys
  · rw [offer_present hmem]
    exact hevicted
  · rw [offer_absent hmem]
    intro k t hk ht
    have hne : (k, t) ≠ r := by
      intro he
      rw [← he] at hr
      exact hr hk
    rw [Dict.set_of_not_mem hmem, List.mem_append, List.mem_singleton, or_iff_left hne]
    exact hevicted k t hk ht

end

end Expiry
