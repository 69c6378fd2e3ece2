import Dolores.Epoch.Impl
import Dolores.Epoch.Marker

/-!
# The package hashes of an epoch

The hashes of the outcomes become keys of a dictionary when they are aggregated, and the keys are
sorted for the artifact.

* `sortItems_ok_iff`            when keys can be sorted;
* `HashesComparable`            the hashes that are kept are all texts or all numbers;
* `aggregateOutcomes_cases`     what the aggregation keeps, or why it raises;
* `taskValues_sorted_iff`       the outcomes are aggregated and their keys sorted exactly when the
                                hashes are comparable.
-/

set_option linter.unusedSectionVars false

namespace Dolores
open Crash Except

/-! ## keys that can be compared -/

def Json.isText : Json → Bool
  | .str _ => true
  | _ => false

/-- a text or a number -/
def Json.sortable (j : Json) : Bool := j.isText || j.isNumber

theorem Json.sortable_of_key {j : Json} (ht : j.truthy = true) (hh : j.hashable = true) :
    j.sortable = true := by
  cases j with
  | null => exact (Bool.false_ne_true ht).elim
  | arr xs => exact (Bool.false_ne_true hh).elim
  | obj fs => exact (Bool.false_ne_true hh).elim
  | bool b => rfl
  | int i => rfl
  | float x => rfl
  | str s => rfl

theorem Json.hashable_of_sortable {j : Json} (h : j.sortable = true) : j.hashable = true := by
  cases j with
  | null => exact (Bool.false_ne_true h).elim
  | arr xs => exact (Bool.false_ne_true h).elim
  | obj fs => exact (Bool.false_ne_true h).elim
  | bool b => rfl
  | int i => rfl
  | float x => rfl
  | str s => rfl

theorem Json.sortable_cases {j : Json} (h : j.sortable = true) :
    (∃ s, j = .str s) ∨ j.isText = false ∧ ∃ x, j.floatKey? = some x := by
  cases j with
  | null => exact (Bool.false_ne_true h).elim
  | arr xs => exact (Bool.false_ne_true h).elim
  | obj fs => exact (Bool.false_ne_true h).elim
  | bool b => exact .inr ⟨rfl, _, rfl⟩
  | int i => exact .inr ⟨rfl, _, rfl⟩
  | float x => exact .inr ⟨rfl, _, rfl⟩
  | str s => exact .inl ⟨s, rfl⟩

/-- unless both are texts, the keys are compared as numbers -/
theorem Json.lessKey_numbers {a b : Json} (h : a.isText = false ∨ b.isText = false) :
    (∃ c, a.lessKey b = .ok c) ↔ (∃ x, a.floatKey? = some x) ∧ ∃ y, b.floatKey? = some y := by
  unfold Json.lessKey
  split
  · rcases h with h | h
    · exact (Bool.false_ne_true h.symm).elim
    · exact (Bool.false_ne_true h.symm).elim
  · split
    · next x y hx hy => exact iff_of_true ⟨_, rfl⟩ ⟨⟨x, hx⟩, ⟨y, hy⟩⟩
    · next hnot =>
      refine iff_of_false (fun hc => nomatch hc) fun hc => ?_
      obtain ⟨⟨x, hx⟩, y, hy⟩ := hc
      exact hnot x y hx hy

/-- two texts or two numbers can be compared, and nothing else -/
theorem Json.lessKey_ok_iff {a b : Json} (ha : a.sortable = true) (hb : b.sortable = true) :
    (∃ c, a.lessKey b = .ok c) ↔ a.isText = b.isText := by
  rcases Json.sortable_cases ha with ⟨s, rfl⟩ | ⟨hta, x, hx⟩
  · rcases Json.sortable_cases hb with ⟨t, rfl⟩ | ⟨htb, y, hy⟩
    · exact iff_of_true ⟨_, rfl⟩ rfl
    · rw [Json.lessKey_numbers (.inr htb), htb]
      exact iff_of_false (fun h => nomatch h.1) (fun h => Bool.false_ne_true h.symm)
  · rcases Json.sortable_cases hb with ⟨t, rfl⟩ | ⟨htb, y, hy⟩
    · rw [Json.lessKey_numbers (.inl hta), hta]
      exact iff_of_false (fun h => nomatch h.2) Bool.false_ne_true
    · rw [Json.lessKey_numbers (.inl hta), hta, htb]
      exact iff_of_true ⟨⟨x, hx⟩, ⟨y, hy⟩⟩ rfl

/-- equal keys are both texts or both something else -/
theorem Json.isText_of_sameKey {a b : Json} (h : a.sameKey b = true) : a.isText = b.isText := by
  cases a with
  | str s =>
    cases b with
    | str t => rfl
    | null => exact (Bool.false_ne_true h).elim
    | arr xs => exact (Bool.false_ne_true h).elim
    | obj fs => exact (Bool.false_ne_true h).elim
    | bool c => exact (Bool.false_ne_true h).elim
    | int i => exact (Bool.false_ne_true h).elim
    | float x =>
      revert h
      cases x <;> exact fun h => (Bool.false_ne_true h).elim
  | null => cases b <;> first | rfl | exact (Bool.false_ne_true h).elim
  | arr xs => cases b <;> first | rfl | exact (Bool.false_ne_true h).elim
  | obj fs => cases b <;> first | rfl | exact (Bool.false_ne_true h).elim
  | bool c => cases b <;> first | rfl | exact (Bool.false_ne_true h).elim
  | int i => cases b <;> first | rfl | exact (Bool.false_ne_true h).elim
  | float x =>
    cases b with
    | str t =>
      revert h
      cases x <;> exact fun h => (Bool.false_ne_true h).elim
    | null => rfl
    | arr xs => rfl
    | obj fs => rfl
    | bool c => rfl
    | int i => rfl
    | float y => rfl

theorem sortItems_ok_iff {items : List (Json × ℚ)} (h : ∀ p ∈ items, p.1.sortable = true) :
    (∃ sorted, sortItems items = .ok sorted) ↔
      ∀ p ∈ items, ∀ q ∈ items, p.1.isText = q.1.isText :=
  sortBy_ok_iff (fun p : Json × ℚ => p.1.isText) fun p hp q hq =>
    Json.lessKey_ok_iff (h p hp) (h q hq)

/-! ## aggregation -/

theorem mem_setTaskValue {d : List (Json × ℚ)} {key : Json} {value : ℚ} {p : Json × ℚ}
    (h : p ∈ setTaskValue d key value) : p.1 = key ∨ ∃ q ∈ d, p.1 = q.1 := by
  induction d with
  | nil =>
    rw [List.mem_singleton.mp h]
    exact .inl rfl
  | cons q d ih =>
    obtain ⟨key', value'⟩ := q
    unfold setTaskValue at h
    split at h
    · rcases List.mem_cons.mp h with hp | hp
      · rw [hp]
        exact .inr ⟨(key', value'), List.mem_cons_self, rfl⟩
      · exact .inr ⟨p, List.mem_cons_of_mem _ hp, rfl⟩
    · rcases List.mem_cons.mp h with hp | hp
      · rw [hp]
        exact .inr ⟨(key', value'), List.mem_cons_self, rfl⟩
      · rcases ih hp with hk | ⟨q, hq, hk⟩
        · exact .inl hk
        · exact .inr ⟨q, List.mem_cons_of_mem _ hq, hk⟩

/-- the keys stay, and the new one is there or an equal one is -/
theorem keys_setTaskValue (d : List (Json × ℚ)) (key : Json) (value : ℚ) :
    (∀ q ∈ d, ∃ p ∈ setTaskValue d key value, p.1 = q.1) ∧
      ∃ p ∈ setTaskValue d key value, p.1.isText = key.isText := by
  induction d with
  | nil =>
    refine ⟨fun q hq => (List.not_mem_nil hq).elim, (key, value), List.mem_singleton_self _, rfl⟩
  | cons q d ih =>
    obtain ⟨key', value'⟩ := q
    obtain ⟨hold, p, hp, hpk⟩ := ih
    unfold setTaskValue
    split
    · next hsame =>
      refine ⟨fun q hq => ?_, (key', value), List.mem_cons_self, Json.isText_of_sameKey hsame⟩
      rcases List.mem_cons.mp hq with hq | hq
      · rw [hq]
        exact ⟨(key', value), List.mem_cons_self, rfl⟩
      · exact ⟨q, List.mem_cons_of_mem _ hq, rfl⟩
    · refine ⟨fun q hq => ?_, p, List.mem_cons_of_mem _ hp, hpk⟩
      rcases List.mem_cons.mp hq with hq | hq
      · rw [hq]
        exact ⟨(key', value'), List.mem_cons_self, rfl⟩
      · obtain ⟨p', hp', hk⟩ := hold q hq
        exact ⟨p', List.mem_cons_of_mem _ hp', hk⟩

/-- the task values carry the kinds of the hashes that are kept, and no others -/
structure HashesKept (activeHotkeys : List String) (outcomes : List (Miner × SubmissionOutcome))
    (g : Aggregate) : Prop where
  hotkeys : ∀ hotkey ∈ activeHotkeys, Dict.contains g.minerStatuses hotkey = true
  sortable : ∀ p ∈ g.taskValues, p.1.sortable = true
  fromOutcome : ∀ p ∈ g.taskValues, ∃ q ∈ outcomes, q.2.packageHash.truthy = true ∧
    p.1.isText = q.2.packageHash.isText
  fromHash : ∀ q ∈ outcomes, q.2.packageHash.truthy = true →
    ∃ p ∈ g.taskValues, p.1.isText = q.2.packageHash.isText

theorem contains_modify {V : Type} {d : Dict String V} {k k' : String} {f : V → V}
    (h : Dict.contains d k' = true) : Dict.contains (Dict.modify d k f) k' = true := by
  unfold Dict.contains at h ⊢
  rw [Dict.get?_modify]
  split
  · next he =>
    rw [he] at h
    rw [Option.isSome_map]
    exact h
  · exact h

section
variable {activeHotkeys : List String} {outcomes : List (Miner × SubmissionOutcome)}
  {g : Aggregate} {p : Miner × SubmissionOutcome}

theorem HashesKept.append_falsy (h : HashesKept activeHotkeys outcomes g)
    (hp : p.2.packageHash.truthy = false) {g' : Aggregate}
    (hs : ∀ hotkey, Dict.contains g.minerStatuses hotkey = true →
      Dict.contains g'.minerStatuses hotkey = true) (ht : g'.taskValues = g.taskValues) :
    HashesKept activeHotkeys (outcomes ++ [p]) g' where
  hotkeys hotkey hh := hs hotkey (h.hotkeys hotkey hh)
  sortable q hq := h.sortable q (ht ▸ hq)
  fromOutcome q hq := by
    obtain ⟨o, ho, hfields⟩ := h.fromOutcome q (ht ▸ hq)
    exact ⟨o, List.mem_append_left _ ho, hfields⟩
  fromHash q hq htruthy := by
    rw [ht]
    rcases List.mem_append.mp hq with hq | hq
    · exact h.fromHash q hq htruthy
    · rw [List.mem_singleton.mp hq, hp] at htruthy
      exact (Bool.false_ne_true htruthy).elim

theorem HashesKept.append_hash (h : HashesKept activeHotkeys outcomes g)
    (hp : p.2.packageHash.truthy = true) (hh : p.2.packageHash.hashable = true) {g' : Aggregate}
    (hs : ∀ hotkey, Dict.contains g.minerStatuses hotkey = true →
      Dict.contains g'.minerStatuses hotkey = true)
    (ht : g'.taskValues = setTaskValue g.taskValues p.2.packageHash p.2.taskValue) :
    HashesKept activeHotkeys (outcomes ++ [p]) g' where
  hotkeys hotkey hh := hs hotkey (h.hotkeys hotkey hh)
  sortable q hq := by
    rcases mem_setTaskValue (ht ▸ hq) with hk | ⟨q', hq', hk⟩
    · rw [hk]
      exact Json.sortable_of_key hp hh
    · rw [hk]
      exact h.sortable q' hq'
  fromOutcome q hq := by
    rcases mem_setTaskValue (ht ▸ hq) with hk | ⟨q', hq', hk⟩
    · exact ⟨p, List.mem_append_right _ (List.mem_singleton_self p), hp, by rw [hk]⟩
    · obtain ⟨o, ho, htruthy, htext⟩ := h.fromOutcome q' hq'
      exact ⟨o, List.mem_append_left _ ho, htruthy, by rw [hk, htext]⟩
  fromHash q hq htruthy := by
    obtain ⟨hold, hnew⟩ := keys_setTaskValue g.taskValues p.2.packageHash p.2.taskValue
    rw [ht]
    rcases List.mem_append.mp hq with hq | hq
    · obtain ⟨r, hr, htext⟩ := h.fromHash q hq htruthy
      obtain ⟨r', hr', hk⟩ := hold r hr
      exact ⟨r', hr', by rw [hk, htext]⟩
    · rw [List.mem_singleton.mp hq]
      exact hnew

/-- one outcome of an active miner is aggregated unless its hash is an unhashable value -/
theorem aggregateOutcome_step (h : HashesKept activeHotkeys outcomes g)
    (hactive : p.1.hotkey ∈ activeHotkeys) :
    if p.2.packageHash.truthy = true ∧ p.2.packageHash.hashable = false then
      aggregateOutcome g p = .error p.2.packageHash.unhashable
    else ∃ g', aggregateOutcome g p = .ok g' ∧ HashesKept activeHotkeys (outcomes ++ [p]) g' := by
  have hcontains := h.hotkeys _ hactive
  have hmodify : ∀ hotkey, Dict.contains g.minerStatuses hotkey = true →
      Dict.contains (Dict.modify g.minerStatuses p.1.hotkey (· ++ [p.2.status])) hotkey = true :=
    fun hotkey hk => contains_modify hk
  obtain ⟨miner, outcome⟩ := p
  unfold aggregateOutcome
  dsimp only at hcontains hmodify ⊢
  rw [hcontains, if_neg (show ¬ true = false by decide)]
  cases ht : outcome.packageHash.truthy with
  | false =>
    rw [if_neg (fun hc => Bool.false_ne_true hc.1), if_pos rfl]
    exact ⟨_, rfl, h.append_falsy ht hmodify rfl⟩
  | true =>
    cases hh : outcome.packageHash.hashable with
    | false =>
      rw [if_pos ⟨rfl, rfl⟩, if_neg (show ¬ true = false by decide), if_pos rfl]
    | true =>
      rw [if_neg (fun hc => Bool.false_ne_true hc.2.symm), if_neg (show ¬ true = false by decide),
        if_neg (show ¬ true = false by decide)]
      exact ⟨_, rfl, h.append_hash ht hh hmodify rfl⟩

theorem newAggregate_kept : HashesKept activeHotkeys [] (newAggregate activeHotkeys) where
  hotkeys hotkey hh := by
    unfold newAggregate Dict.contains
    dsimp only
    rw [Dict.ofPairs, Dict.foldl_set_get?]
    have hmem : (hotkey, ([] : List String)) ∈
        (activeHotkeys.map fun hotkey => (hotkey, ([] : List String))).reverse := by
      rw [List.mem_reverse]
      exact List.mem_map.mpr ⟨hotkey, hh, rfl⟩
    rw [Option.isSome_or, List.lookup_isSome_iff.mpr ⟨_, hmem, beq_self_eq_true _⟩]
    rfl
  sortable q hq := (List.not_mem_nil hq).elim
  fromOutcome q hq := (List.not_mem_nil hq).elim
  fromHash q hq := (List.not_mem_nil hq).elim

/-- the outcomes are aggregated unless some hash is an unhashable value -/
theorem aggregateOutcomes_cases (hactive : ∀ p ∈ outcomes, p.1.hotkey ∈ activeHotkeys) :
    if ∃ p ∈ outcomes, p.2.packageHash.truthy = true ∧ p.2.packageHash.hashable = false then
      ∃ e, aggregateOutcomes activeHotkeys outcomes = .error e
    else ∃ g, aggregateOutcomes activeHotkeys outcomes = .ok g ∧
      HashesKept activeHotkeys outcomes g := by
  -- the fold over the rest, from an aggregate of what is done
  have hfold : ∀ (rest done : List (Miner × SubmissionOutcome)) (g : Aggregate),
      (∀ p ∈ rest, p.1.hotkey ∈ activeHotkeys) → HashesKept activeHotkeys done g →
      if ∃ p ∈ rest, p.2.packageHash.truthy = true ∧ p.2.packageHash.hashable = false then
        ∃ e, rest.foldlM aggregateOutcome g = .error e
      else ∃ g', rest.foldlM aggregateOutcome g = .ok g' ∧
        HashesKept activeHotkeys (done ++ rest) g' := by
    intro rest
    induction rest with
    | nil =>
      intro done g _ hg
      rw [if_neg (fun h => by
        obtain ⟨p, hp, _⟩ := h
        exact List.not_mem_nil hp), List.append_nil]
      exact ⟨g, rfl, hg⟩
    | cons p rest ih =>
      intro done g hrest hg
      have hstep := aggregateOutcome_step hg (hrest p List.mem_cons_self)
      by_cases hp : p.2.packageHash.truthy = true ∧ p.2.packageHash.hashable = false
      · rw [if_pos hp] at hstep
        rw [if_pos ⟨p, List.mem_cons_self, hp⟩, List.foldlM_cons, hstep]
        exact ⟨_, rfl⟩
      · rw [if_neg hp] at hstep
        obtain ⟨g', hg', hkept⟩ := hstep
        have hrest' := ih (done ++ [p]) g' (fun q hq => hrest q (List.mem_cons_of_mem p hq)) hkept
        rw [List.append_assoc, List.singleton_append] at hrest'
        rw [List.foldlM_cons, hg', ok_bind]
        have hiff : (∃ q ∈ p :: rest, q.2.packageHash.truthy = true ∧
            q.2.packageHash.hashable = false) ↔
            ∃ q ∈ rest, q.2.packageHash.truthy = true ∧ q.2.packageHash.hashable = false := by
          rw [List.exists_mem_cons_iff]
          exact or_iff_right hp
        by_cases hex : ∃ q ∈ rest, q.2.packageHash.truthy = true ∧ q.2.packageHash.hashable = false
        · rw [if_pos hex] at hrest'
          rw [if_pos (hiff.mpr hex)]
          exact hrest'
        · rw [if_neg hex] at hrest'
          rw [if_neg fun h => hex (hiff.mp h)]
          exact hrest'
  have h := hfold outcomes [] (newAggregate activeHotkeys) hactive newAggregate_kept
  rw [List.nil_append] at h
  exact h

/-- the hashes that become keys are all texts, or all numbers -/
def HashesComparable (outcomes : List (Miner × SubmissionOutcome)) : Prop :=
  (∀ p ∈ outcomes, p.2.packageHash.truthy = true → p.2.packageHash.isText = true) ∨
    ∀ p ∈ outcomes, p.2.packageHash.truthy = true → p.2.packageHash.isNumber = true

theorem hashable_of_comparable (h : HashesComparable outcomes) :
    ¬ ∃ p ∈ outcomes, p.2.packageHash.truthy = true ∧ p.2.packageHash.hashable = false := by
  intro hex
  obtain ⟨p, hp, htruthy, hnot⟩ := hex
  have hsortable : p.2.packageHash.sortable = true := by
    unfold Json.sortable
    rw [Bool.or_eq_true]
    rcases h with h | h
    · exact .inl (h p hp htruthy)
    · exact .inr (h p hp htruthy)
  rw [Json.hashable_of_sortable hsortable] at hnot
  exact Bool.false_ne_true hnot.symm

theorem isText_of_number {j : Json} (h : j.isNumber = true) : j.isText = false := by
  cases j with
  | str s => exact (Bool.false_ne_true h).elim
  | null => rfl
  | bool b => rfl
  | int i => rfl
  | float x => rfl
  | arr xs => rfl
  | obj fs => rfl

/-- the task values can be collected and sorted exactly when the hashes are comparable -/
theorem taskValues_sorted_iff (hactive : ∀ p ∈ outcomes, p.1.hotkey ∈ activeHotkeys) :
    (∃ g, aggregateOutcomes activeHotkeys outcomes = .ok g ∧
      ∃ sorted, sortItems g.taskValues = .ok sorted) ↔ HashesComparable outcomes := by
  have hcases := aggregateOutcomes_cases hactive
  constructor
  · intro h
    obtain ⟨g, hg, hsorted⟩ := h
    by_cases hex : ∃ p ∈ outcomes, p.2.packageHash.truthy = true ∧ p.2.packageHash.hashable = false
    · rw [if_pos hex] at hcases
      obtain ⟨e, he⟩ := hcases
      rw [he] at hg
      exact nomatch hg
    rw [if_neg hex] at hcases
    obtain ⟨g', hg', hkept⟩ := hcases
    have hgg : g' = g := Except.ok.inj (hg'.symm.trans hg)
    rw [hgg] at hkept
    have huniform := (sortItems_ok_iff hkept.sortable).mp hsorted
    by_cases htext : ∃ p ∈ outcomes, p.2.packageHash.truthy = true ∧ p.2.packageHash.isText = true
    · obtain ⟨p, hp, htruthy, hpt⟩ := htext
      obtain ⟨x, hx, hxp⟩ := hkept.fromHash p hp htruthy
      refine .inl fun q hq hq' => ?_
      obtain ⟨y, hy, hyq⟩ := hkept.fromHash q hq hq'
      rw [← hyq, huniform y hy x hx, hxp, hpt]
    · refine .inr fun q hq hq' => ?_
      have hhash : q.2.packageHash.hashable = true := by
        by_contra hn
        exact hex ⟨q, hq, hq', Bool.eq_false_of_not_eq_true hn⟩
      have hsortable := Json.sortable_of_key hq' hhash
      unfold Json.sortable at hsortable
      rw [Bool.or_eq_true] at hsortable
      exact hsortable.resolve_left fun ht => htext ⟨q, hq, hq', ht⟩
  · intro h
    rw [if_neg (hashable_of_comparable h)] at hcases
    obtain ⟨g, hg, hkept⟩ := hcases
    refine ⟨g, hg, (sortItems_ok_iff hkept.sortable).mpr fun x hx y hy => ?_⟩
    obtain ⟨p, hp, hp', hxp⟩ := hkept.fromOutcome x hx
    obtain ⟨q, hq, hq', hyq⟩ := hkept.fromOutcome y hy
    rw [hxp, hyq]
    rcases h with h | h
    · rw [h p hp hp', h q hq hq']
    · rw [isText_of_number (h p hp hp'), isText_of_number (h q hq hq')]

end

end Dolores
