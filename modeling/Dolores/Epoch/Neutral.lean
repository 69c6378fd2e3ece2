import Dolores.Epoch.History

/-!
# Infrastructure errors and the moving averages

An outcome with the status `infra_error` adds no value; a miner with no other outcome keeps its
moving average.

* `aggregate_lists`          what is aggregated for a miner is read off the outcomes;
* `mem_infraOnly`            the miners whose averages are frozen;
* `topK_perm`                the best values do not depend on the order;
* `emaState_of_aggregate`    the moving average of a miner, from its outcomes alone;
* `infra_errors_are_neutral` two epochs that differ in the infrastructure errors of one miner.
-/

namespace Dolores

/-! ## the outcomes of a miner -/

def statusesOf (hotkey : String) (outcomes : List (Miner × SubmissionOutcome)) : List String :=
  (outcomes.filter fun p => p.1.hotkey == hotkey).map (·.2.status)

def scoredValues (hotkey : String) (outcomes : List (Miner × SubmissionOutcome)) : List ℚ :=
  ((outcomes.filter fun p => p.1.hotkey == hotkey).filter
    fun p => p.2.status != "infra_error").map (·.2.taskValue)

section
variable {hotkey : String} {outcomes outcomes' extra : List (Miner × SubmissionOutcome)}

theorem statusesOf_append : statusesOf hotkey (outcomes ++ extra) =
    statusesOf hotkey outcomes ++ statusesOf hotkey extra := by
  unfold statusesOf
  rw [List.filter_append, List.map_append]

theorem scoredValues_append : scoredValues hotkey (outcomes ++ extra) =
    scoredValues hotkey outcomes ++ scoredValues hotkey extra := by
  unfold scoredValues
  rw [List.filter_append, List.filter_append, List.map_append]

theorem statusesOf_perm (h : outcomes.Perm outcomes') :
    (statusesOf hotkey outcomes).Perm (statusesOf hotkey outcomes') := (h.filter _).map _

theorem scoredValues_perm (h : outcomes.Perm outcomes') :
    (scoredValues hotkey outcomes).Perm (scoredValues hotkey outcomes') :=
  ((h.filter _).filter _).map _

theorem statusesOf_other (h : ∀ p ∈ extra, p.1.hotkey ≠ hotkey) : statusesOf hotkey extra = [] := by
  unfold statusesOf
  rw [List.filter_eq_nil_iff.mpr fun p hp => by simpa using h p hp, List.map_nil]

theorem scoredValues_infra (h : ∀ p ∈ extra, p.2.status = "infra_error") :
    scoredValues hotkey extra = [] := by
  have hnone : (extra.filter fun p => p.1.hotkey == hotkey).filter
      (fun p => p.2.status != "infra_error") = [] := by
    apply List.filter_eq_nil_iff.mpr
    intro p hp
    rw [h p (List.mem_of_mem_filter hp)]
    exact Bool.noConfusion
  unfold scoredValues
  rw [hnone, List.map_nil]

theorem mem_statusesOf {status : String} : status ∈ statusesOf hotkey outcomes ↔
    ∃ p ∈ outcomes, p.1.hotkey = hotkey ∧ p.2.status = status := by
  unfold statusesOf
  rw [List.mem_map]
  constructor
  · intro h
    obtain ⟨p, hp, hs⟩ := h
    obtain ⟨hp, hk⟩ := List.mem_filter.mp hp
    exact ⟨p, hp, beq_iff_eq.mp hk, hs⟩
  · intro h
    obtain ⟨p, hp, hk, hs⟩ := h
    exact ⟨p, List.mem_filter.mpr ⟨hp, beq_iff_eq.mpr hk⟩, hs⟩

end

/-! ## what is aggregated -/

section
variable {active : List String} {outcomes : List (Miner × SubmissionOutcome)} {g : Aggregate}

/-- the lists of the active miners are those of their outcomes -/
structure ListsOf (active : List String) (outcomes : List (Miner × SubmissionOutcome))
    (g : Aggregate) : Prop where
  hotkeys : ∀ p ∈ outcomes, p.1.hotkey ∈ active
  statuses : ∀ hotkey, Dict.get? g.minerStatuses hotkey =
    if hotkey ∈ active then some (statusesOf hotkey outcomes) else none
  values : ∀ hotkey, Dict.get? g.minerValues hotkey =
    if hotkey ∈ active then some (scoredValues hotkey outcomes) else none
  nodup : g.minerStatuses.keys.Nodup

theorem listsOf_new : ListsOf active [] (newAggregate active) := by
  have hget : ∀ {V : Type} (hotkey : String),
      Dict.get? (Dict.ofPairs (active.map fun k => (k, ([] : List V)))) hotkey =
        if hotkey ∈ active then some [] else none := by
    intro V hotkey
    rw [Dict.ofPairs_map, Dict.get?_map_keys]
    by_cases h : hotkey ∈ active
    · rw [if_pos h, if_pos (Dict.mem_firstAppearances.mpr h)]
    · rw [if_neg h, if_neg fun hm => h (Dict.mem_firstAppearances.mp hm)]
  exact ⟨fun p hp => (List.not_mem_nil hp).elim, hget, hget, Dict.nodup_ofPairs _⟩

/-- one outcome is appended to the lists of its miner -/
theorem ListsOf.add (h : ListsOf active outcomes g) {p : Miner × SubmissionOutcome}
    (hp : p.1.hotkey ∈ active) : ListsOf active (outcomes ++ [p]) (addToMiner g p) := by
  have hother : ∀ hotkey, hotkey ≠ p.1.hotkey →
      statusesOf hotkey [p] = [] ∧ scoredValues hotkey [p] = [] := by
    intro hotkey hne
    have hbeq : (p.1.hotkey == hotkey) = false := by simpa using Ne.symm hne
    unfold statusesOf scoredValues
    rw [List.filter_singleton, hbeq]
    exact ⟨rfl, rfl⟩
  refine ⟨?_, ?_, ?_, ?_⟩
  · intro q hq
    rcases List.mem_append.mp hq with hq | hq
    · exact h.hotkeys q hq
    · rw [List.mem_singleton.mp hq]
      exact hp
  · intro hotkey
    show Dict.get? (Dict.modify _ _ _) hotkey = _
    rw [Dict.get?_modify, statusesOf_append]
    by_cases e : hotkey = p.1.hotkey
    · have hone : statusesOf hotkey [p] = [p.2.status] := by
        unfold statusesOf
        rw [List.filter_singleton, e, beq_self_eq_true]
        rfl
      rw [if_pos e, ← e, h.statuses, hone]
      split
      · rfl
      · rfl
    · rw [if_neg e, h.statuses, (hother hotkey e).1, List.append_nil]
  · intro hotkey
    show Dict.get? (if _ then _ else _) hotkey = _
    rw [scoredValues_append]
    by_cases hinfra : p.2.status = "infra_error"
    · have hnone : scoredValues hotkey [p] = [] := scoredValues_infra fun q hq => by
        rw [List.mem_singleton.mp hq, hinfra]
      rw [if_neg (not_not.mpr hinfra), hnone, List.append_nil, h.values]
    · rw [if_pos hinfra, Dict.get?_modify]
      by_cases e : hotkey = p.1.hotkey
      · have hone : scoredValues hotkey [p] = [p.2.taskValue] := by
          have hbne : (p.2.status != "infra_error") = true := by simpa using hinfra
          unfold scoredValues
          rw [List.filter_singleton, e, beq_self_eq_true]
          show ((List.filter _ [p]).map _) = _
          rw [List.filter_singleton, hbne]
          rfl
        rw [if_pos e, ← e, h.values, hone]
        split
        · rfl
        · rfl
      · rw [if_neg e, h.values, (hother hotkey e).2, List.append_nil]
  · show (Dict.modify _ _ _).keys.Nodup
    rw [Dict.keys_modify]
    exact h.nodup

/-- what is aggregated for a miner is read off the outcomes -/
theorem aggregate_lists (h : aggregateOutcomes active outcomes = .ok g) :
    ListsOf active outcomes g := by
  refine Except.foldlM_invariant (ListsOf active) ?_ listsOf_new h
  intro done g p g' hg hstep
  rw [aggregateOutcome_eq] at hstep
  split at hstep
  · cases hstep
  next hcontains =>
    have hactive : p.1.hotkey ∈ active := by
      by_contra hnot
      apply hcontains
      unfold Dict.contains
      rw [hg.statuses, if_neg hnot]
      rfl
    have hadd := hg.add hactive
    split at hstep
    · rw [← Except.ok.inj hstep]
      exact hadd
    · split at hstep
      · cases hstep
      · rw [← Except.ok.inj hstep]
        exact ⟨hadd.hotkeys, hadd.statuses, hadd.values, hadd.nodup⟩

/-- the miners that have outcomes, all of them infrastructure errors -/
theorem mem_infraOnly (h : ListsOf active outcomes g) (hotkey : String) :
    hotkey ∈ infraOnlyMiners g.minerStatuses ↔
      hotkey ∈ active ∧ statusesOf hotkey outcomes ≠ [] ∧
        ∀ status ∈ statusesOf hotkey outcomes, status = "infra_error" := by
  have htest : ∀ statuses : List String,
      (!statuses.isEmpty && statuses.all (· == "infra_error")) = true ↔
        statuses ≠ [] ∧ ∀ status ∈ statuses, status = "infra_error" := by
    intro statuses
    rw [Bool.and_eq_true, Bool.not_eq_true', List.isEmpty_eq_false_iff, List.all_eq_true]
    simp only [beq_iff_eq]
  have hget := h.statuses hotkey
  unfold infraOnlyMiners
  rw [List.mem_map]
  constructor
  · intro hmem
    obtain ⟨p, hp, hk⟩ := hmem
    obtain ⟨hp, hinfra⟩ := List.mem_filter.mp hp
    rw [← hk, Dict.get?_of_mem h.nodup (show (p.1, p.2) ∈ _ from hp)] at hget
    rw [← hk]
    by_cases hactive : p.1 ∈ active
    · rw [if_pos hactive] at hget
      rw [← Option.some.inj hget]
      exact ⟨hactive, (htest p.2).mp hinfra⟩
    · rw [if_neg hactive] at hget
      cases hget
  · intro hmem
    obtain ⟨hactive, hinfra⟩ := hmem
    rw [if_pos hactive] at hget
    exact ⟨_, List.mem_filter.mpr ⟨Dict.mem_of_get? hget, (htest _).mpr hinfra⟩, rfl⟩

end

/-! ## the moving average of a miner -/

/-- the best values do not depend on the order of the values -/
theorem topK_perm {values values' : List ℚ} (h : values.Perm values') (k : Int) :
    pyTake k ((values.map clipZero).insertionSort fun a b => b ≤ a) =
      pyTake k ((values'.map clipZero).insertionSort fun a b => b ≤ a) := by
  have : Std.Total (fun a b : ℚ => b ≤ a) := ⟨fun a b => le_total b a⟩
  have : IsTrans ℚ (fun a b => b ≤ a) := ⟨fun _ _ _ h h' => le_trans h' h⟩
  have hsorted : ((values.map clipZero).insertionSort fun a b => b ≤ a) =
      (values'.map clipZero).insertionSort fun a b => b ≤ a := by
    have hl := List.perm_insertionSort (fun a b : ℚ => b ≤ a) (values.map clipZero)
    have hl' := List.perm_insertionSort (fun a b : ℚ => b ≤ a) (values'.map clipZero)
    exact ((hl.trans (h.map clipZero)).trans hl'.symm).eq_of_pairwise
      (fun a b _ _ hle hle' => le_antisymm hle' hle) (List.pairwise_insertionSort _ _)
      (List.pairwise_insertionSort _ _)
  rw [hsorted]

/-- the epoch score of a miner with these values -/
def scoreOfValues (quota : Int) (values : List ℚ) : ℚ :=
  exactOps.round6 (exactOps.sum (pyTake quota ((values.map clipZero).insertionSort
    fun a b => b ≤ a)))

theorem scoreOfValues_nil (quota : Int) : scoreOfValues quota [] = 0 := by
  have hnil : pyTake quota (([] : List ℚ).map clipZero |>.insertionSort fun a b => b ≤ a) = [] := by
    unfold pyTake
    rw [List.map_nil, List.insertionSort_nil]
    split
    · exact List.take_nil
    · exact List.take_nil
  unfold scoreOfValues
  rw [hnil]
  exact round6_onGrid onGrid_zero

section
variable {active : List String} {outcomes : List (Miner × SubmissionOutcome)} {g : Aggregate}
  {previous : Dict String ℚ} {quota : Int} {alpha : ℚ} {statuses : List String}

theorem getD_topK (h : ListsOf active outcomes g) (hotkey : String) :
    (topKEpochScores exactOps g.minerValues quota).getD hotkey 0 =
      if hotkey ∈ active then scoreOfValues quota (scoredValues hotkey outcomes) else 0 := by
  unfold Dict.getD topKEpochScores
  rw [Dict.get?_mapValues, h.values]
  split
  · rfl
  · rfl

/-- the moving average of a miner after an epoch, from its outcomes alone -/
theorem emaState_of_aggregate (h : ListsOf active outcomes g) (hotkey : String) :
    (scoreEpoch exactOps alpha quota active previous g statuses).emaState.getD hotkey 0 =
      if hotkey ∈ active ∧ statusesOf hotkey outcomes ≠ [] ∧
          ∀ status ∈ statusesOf hotkey outcomes, status = "infra_error" then
        exactOps.round6 (previous.getD hotkey 0)
      else exactOps.round6 (alpha *
        (if hotkey ∈ active then scoreOfValues quota (scoredValues hotkey outcomes) else 0) +
          (1 - alpha) * previous.getD hotkey 0) := by
  show (updateEmaScores _ _ _ _ _).getD hotkey 0 = _
  rw [getD_updateEmaScores]
  by_cases hinfra : hotkey ∈ infraOnlyMiners g.minerStatuses
  · unfold emaValue
    rw [if_pos hinfra, if_pos ((mem_infraOnly h hotkey).mp hinfra)]
  · rw [emaValue_of_not_infra hinfra, if_neg fun hc => hinfra ((mem_infraOnly h hotkey).mpr hc),
      getD_topK h]

end

/-! ## two epochs -/

/-- the moving averages with and without additional infrastructure errors of one miner -/
structure InfraNeutral (previous : Dict String ℚ) (hotkey : String)
    (outcomes outcomes' : List (Miner × SubmissionOutcome)) (ema ema' : Dict String ℚ) : Prop where
  atLeast : ema.getD hotkey 0 ≤ ema'.getD hotkey 0
  equal : (∃ p ∈ outcomes, p.1.hotkey = hotkey ∧ p.2.status ≠ "infra_error") →
    ema'.getD hotkey 0 = ema.getD hotkey 0
  frozen : (∃ p ∈ outcomes', p.1.hotkey = hotkey) →
    (∀ p ∈ outcomes', p.1.hotkey = hotkey → p.2.status = "infra_error") →
    ema'.getD hotkey 0 = previous.getD hotkey 0
  others : ∀ hotkey' ≠ hotkey, ema'.getD hotkey' 0 = ema.getD hotkey' 0

section
variable {active : List String} {outcomes outcomes' extra : List (Miner × SubmissionOutcome)}
  {g g' : Aggregate} {alpha : ℚ} {previous : Dict String ℚ} {quota : Int} {hotkey : String}
  {statuses statuses' : List String}

/-- the values do not change, and neither do the statuses of the other miners -/
theorem lists_of_extra (hperm : outcomes'.Perm (outcomes ++ extra))
    (hextra : ∀ p ∈ extra, p.1.hotkey = hotkey ∧ p.2.status = "infra_error") :
    (∀ k, (scoredValues k outcomes').Perm (scoredValues k outcomes)) ∧
      ∀ k ≠ hotkey, (statusesOf k outcomes').Perm (statusesOf k outcomes) := by
  constructor
  · intro k
    have h : (scoredValues k outcomes').Perm (scoredValues k (outcomes ++ extra)) :=
      scoredValues_perm hperm
    rw [scoredValues_append, scoredValues_infra fun p hp => (hextra p hp).2, List.append_nil] at h
    exact h
  · intro k hk
    have hother : ∀ p ∈ extra, p.1.hotkey ≠ k := by
      intro p hp
      rw [(hextra p hp).1]
      exact Ne.symm hk
    have h : (statusesOf k outcomes').Perm (statusesOf k (outcomes ++ extra)) :=
      statusesOf_perm hperm
    rw [statusesOf_append, statusesOf_other hother, List.append_nil] at h
    exact h

theorem scoreOfValues_perm {values values' : List ℚ} (h : values.Perm values') :
    scoreOfValues quota values = scoreOfValues quota values' := by
  unfold scoreOfValues
  rw [topK_perm h]

theorem others_unchanged (hg : ListsOf active outcomes g) (hg' : ListsOf active outcomes' g')
    (hperm : outcomes'.Perm (outcomes ++ extra))
    (hextra : ∀ p ∈ extra, p.1.hotkey = hotkey ∧ p.2.status = "infra_error") {k : String}
    (hk : k ≠ hotkey) :
    (scoreEpoch exactOps alpha quota active previous g' statuses').emaState.getD k 0 =
      (scoreEpoch exactOps alpha quota active previous g statuses).emaState.getD k 0 := by
  obtain ⟨hvalues, hstatuses⟩ := lists_of_extra hperm hextra
  have hs := hstatuses k hk
  have hnil : statusesOf k outcomes' ≠ [] ↔ statusesOf k outcomes ≠ [] := by
    rw [← List.length_pos_iff, ← List.length_pos_iff, hs.length_eq]
  have hall : (∀ status ∈ statusesOf k outcomes', status = "infra_error") ↔
      ∀ status ∈ statusesOf k outcomes, status = "infra_error" :=
    forall_congr' fun status => by rw [hs.mem_iff]
  rw [emaState_of_aggregate hg, emaState_of_aggregate hg']
  simp only [hnil, hall, scoreOfValues_perm (hvalues k)]

/-- a miner with nothing but infrastructure errors keeps its average -/
theorem frozen_of_infra (hg : ListsOf active outcomes g) (hgrid : OnGrid (previous.getD hotkey 0))
    (hsome : ∃ p ∈ outcomes, p.1.hotkey = hotkey)
    (hall : ∀ p ∈ outcomes, p.1.hotkey = hotkey → p.2.status = "infra_error") :
    (scoreEpoch exactOps alpha quota active previous g statuses).emaState.getD hotkey 0 =
      previous.getD hotkey 0 := by
  obtain ⟨p, hp, hk⟩ := hsome
  have hactive : hotkey ∈ active := by
    rw [← hk]
    exact hg.hotkeys p hp
  have hne : statusesOf hotkey outcomes ≠ [] :=
    List.ne_nil_of_mem (mem_statusesOf.mpr ⟨p, hp, hk, rfl⟩)
  have hinfra : ∀ status ∈ statusesOf hotkey outcomes, status = "infra_error" := by
    intro status hs
    obtain ⟨q, hq, hqk, hqs⟩ := mem_statusesOf.mp hs
    rw [← hqs]
    exact hall q hq hqk
  rw [emaState_of_aggregate hg, if_pos ⟨hactive, hne, hinfra⟩]
  exact round6_onGrid hgrid

/-- the average of a miner with an outcome of another status depends on its values alone -/
theorem unfrozen_of_other (hg : ListsOf active outcomes g)
    (hother : ∃ p ∈ outcomes, p.1.hotkey = hotkey ∧ p.2.status ≠ "infra_error") :
    (scoreEpoch exactOps alpha quota active previous g statuses).emaState.getD hotkey 0 =
      exactOps.round6 (alpha *
        (if hotkey ∈ active then scoreOfValues quota (scoredValues hotkey outcomes) else 0) +
          (1 - alpha) * previous.getD hotkey 0) := by
  obtain ⟨p, hp, hk, hs⟩ := hother
  rw [emaState_of_aggregate hg, if_neg]
  intro hinfra
  exact hs (hinfra.2.2 _ (mem_statusesOf.mpr ⟨p, hp, hk, rfl⟩))

theorem equal_of_other (hg : ListsOf active outcomes g) (hg' : ListsOf active outcomes' g')
    (hperm : outcomes'.Perm (outcomes ++ extra))
    (hextra : ∀ p ∈ extra, p.1.hotkey = hotkey ∧ p.2.status = "infra_error")
    (hother : ∃ p ∈ outcomes, p.1.hotkey = hotkey ∧ p.2.status ≠ "infra_error") :
    (scoreEpoch exactOps alpha quota active previous g' statuses').emaState.getD hotkey 0 =
      (scoreEpoch exactOps alpha quota active previous g statuses).emaState.getD hotkey 0 := by
  have hother' : ∃ p ∈ outcomes', p.1.hotkey = hotkey ∧ p.2.status ≠ "infra_error" := by
    obtain ⟨p, hp, hps⟩ := hother
    exact ⟨p, hperm.mem_iff.mpr (List.mem_append_left _ hp), hps⟩
  rw [unfrozen_of_other hg hother, unfrozen_of_other hg' hother',
    scoreOfValues_perm ((lists_of_extra hperm hextra).1 hotkey)]

/-- an epoch without outcomes does not raise the average -/
theorem le_of_no_outcomes (hg : ListsOf active outcomes g) (halpha : 0 ≤ alpha)
    (hgrid : OnGrid (previous.getD hotkey 0)) (hnonneg : 0 ≤ previous.getD hotkey 0)
    (hnone : ∀ p ∈ outcomes, p.1.hotkey ≠ hotkey) :
    (scoreEpoch exactOps alpha quota active previous g statuses).emaState.getD hotkey 0 ≤
      previous.getD hotkey 0 := by
  have hvalues : scoredValues hotkey outcomes = [] := by
    have hfilter : (outcomes.filter fun p => p.1.hotkey == hotkey) = [] :=
      List.filter_eq_nil_iff.mpr fun p hp => by simpa using hnone p hp
    unfold scoredValues
    rw [hfilter]
    rfl
  rw [emaState_of_aggregate hg, statusesOf_other hnone, if_neg (fun h => h.2.1 rfl), hvalues,
    scoreOfValues_nil, ite_self, mul_zero, zero_add]
  have hle : (1 - alpha) * previous.getD hotkey 0 ≤ previous.getD hotkey 0 := by
    have hloss := mul_nonneg halpha hnonneg
    linarith
  exact (round6_mono hle).trans_eq (round6_onGrid hgrid)

theorem atLeast_of_extra (hg : ListsOf active outcomes g) (hg' : ListsOf active outcomes' g')
    (hperm : outcomes'.Perm (outcomes ++ extra))
    (hextra : ∀ p ∈ extra, p.1.hotkey = hotkey ∧ p.2.status = "infra_error") (halpha : 0 ≤ alpha)
    (hgrid : OnGrid (previous.getD hotkey 0)) (hnonneg : 0 ≤ previous.getD hotkey 0) :
    (scoreEpoch exactOps alpha quota active previous g statuses).emaState.getD hotkey 0 ≤
      (scoreEpoch exactOps alpha quota active previous g' statuses').emaState.getD hotkey 0 := by
  by_cases hother : ∃ p ∈ outcomes, p.1.hotkey = hotkey ∧ p.2.status ≠ "infra_error"
  · exact (equal_of_other hg hg' hperm hextra hother).ge
  · have hall : ∀ p ∈ outcomes, p.1.hotkey = hotkey → p.2.status = "infra_error" := by
      intro p hp hk
      by_contra hs
      exact hother ⟨p, hp, hk, hs⟩
    have hall' : ∀ p ∈ outcomes', p.1.hotkey = hotkey → p.2.status = "infra_error" := by
      intro p hp hk
      rcases List.mem_append.mp (hperm.mem_iff.mp hp) with hp | hp
      · exact hall p hp hk
      · exact (hextra p hp).2
    by_cases hsome : ∃ p ∈ outcomes, p.1.hotkey = hotkey
    · -- frozen in both epochs
      obtain ⟨p, hp, hk⟩ := hsome
      rw [frozen_of_infra hg hgrid ⟨p, hp, hk⟩ hall,
        frozen_of_infra hg' hgrid ⟨p, hperm.mem_iff.mpr (List.mem_append_left _ hp), hk⟩ hall']
    · have hnone : ∀ p ∈ outcomes, p.1.hotkey ≠ hotkey := fun p hp hk => hsome ⟨p, hp, hk⟩
      cases extra with
      | nil =>
        -- nothing is added, and the two lists have the same outcomes
        rw [List.append_nil] at hperm
        have hnone' : ∀ p ∈ outcomes', p.1.hotkey ≠ hotkey :=
          fun p hp => hnone p (hperm.mem_iff.mp hp)
        rw [emaState_of_aggregate hg, emaState_of_aggregate hg', statusesOf_other hnone,
          statusesOf_other hnone', scoreOfValues_perm (scoredValues_perm hperm)]
      | cons p extra =>
        have hp : p ∈ outcomes' :=
          hperm.mem_iff.mpr (List.mem_append_right _ List.mem_cons_self)
        have hk : p.1.hotkey = hotkey := (hextra p List.mem_cons_self).1
        rw [frozen_of_infra hg' hgrid ⟨p, hp, hk⟩ hall']
        exact le_of_no_outcomes hg halpha hgrid hnonneg hnone

end

/-- **Infrastructure errors are neutral** for the moving averages: additional ones of one miner
never lower its average, do not change it beside another outcome, and freeze it when the miner
has no other outcome. -/
theorem infra_errors_are_neutral {env : Env} {content : Option Content}
    {previous : Dict String ℚ} {quota : Int} {active : List String} {hotkey : String}
    {outcomes outcomes' extra : List (Miner × SubmissionOutcome)} {scores scores' : EpochScores}
    (hprevious : minerStateOf env content = .ok previous)
    (hgrid : ∀ k, OnGrid (previous.getD k 0) ∧ 0 ≤ previous.getD k 0)
    (hextra : ∀ p ∈ extra, p.1.hotkey = hotkey ∧ p.2.status = "infra_error")
    (hperm : outcomes'.Perm (outcomes ++ extra))
    (h : scoredEpoch env exactOps defaultAlpha quota active outcomes content = .ok scores)
    (h' : scoredEpoch env exactOps defaultAlpha quota active outcomes' content = .ok scores') :
    InfraNeutral previous hotkey outcomes outcomes' scores.emaState scores'.emaState := by
  obtain ⟨g, hg, h⟩ := Except.bind_ok h
  obtain ⟨g', hg', h'⟩ := Except.bind_ok h'
  rw [hprevious, Except.ok_bind] at h h'
  have hlists := aggregate_lists hg
  have hlists' := aggregate_lists hg'
  have halpha : 0 ≤ defaultAlpha := by
    unfold defaultAlpha
    norm_num
  obtain ⟨hgrid, hnonneg⟩ := hgrid hotkey
  rw [← Except.ok.inj h, ← Except.ok.inj h']
  exact ⟨atLeast_of_extra hlists hlists' hperm hextra halpha hgrid hnonneg,
    equal_of_other hlists hlists' hperm hextra, frozen_of_infra hlists' hgrid,
    fun k hk => others_unchanged hlists hlists' hperm hextra hk⟩

def infraOutcome : SubmissionOutcome :=
  { status := "infra_error", taskId := "t", packageHash := .null, taskValue := 0, gates := [] }

/-- a miner with a stored average and no outcomes, and the same miner with an infrastructure
error -/
theorem infra_errors_are_neutral_sample : ∃ scores scores',
    scoredEpoch Env.plain exactOps defaultAlpha 4 ["a"] [] (some (.doc (.obj [("a", .num 1)]))) =
      .ok scores ∧
    scoredEpoch Env.plain exactOps defaultAlpha 4 ["a"]
      [({ hotkey := "a", uid := 0 }, infraOutcome)] (some (.doc (.obj [("a", .num 1)]))) = .ok scores' ∧
    InfraNeutral [("a", 1)] "a" [] [({ hotkey := "a", uid := 0 }, infraOutcome)] scores.emaState
      scores'.emaState := by
  have hgrid : ∀ k, OnGrid (Dict.getD [("a", (1 : ℚ))] k 0) ∧ 0 ≤ Dict.getD [("a", (1 : ℚ))] k 0 :=
    fun k => getD_mem (P := fun q => OnGrid q ∧ 0 ≤ q)
      (fun p hp => by
        rw [List.mem_singleton.mp hp]
        exact ⟨by exact_mod_cast onGrid_intCast 1, by norm_num⟩) ⟨onGrid_zero, le_rfl⟩ k
  have hextra : ∀ p ∈ [(({ hotkey := "a", uid := 0 } : Miner), infraOutcome)],
      p.1.hotkey = "a" ∧ p.2.status = "infra_error" := by
    intro p hp
    rw [List.mem_singleton.mp hp]
    exact ⟨rfl, rfl⟩
  have hprevious : minerStateOf Env.plain (some (.doc (.obj [("a", .num 1)]))) =
      .ok [("a", 1)] := rfl
  exact ⟨_, _, rfl, rfl, infra_errors_are_neutral hprevious hgrid hextra (List.Perm.refl _) rfl rfl⟩

/-- a stored average of minus one, which is on the grid, is raised to -0.7 by an epoch without
outcomes and kept by an infrastructure error -/
theorem negative_average_is_frozen :
    ¬ ∀ (env : Env) (content : Option Content) (previous : Dict String ℚ) (quota : Int)
      (active : List String) (hotkey : String)
      (outcomes outcomes' extra : List (Miner × SubmissionOutcome)) (scores scores' : EpochScores),
      minerStateOf env content = .ok previous → (∀ k, OnGrid (previous.getD k 0)) →
      (∀ p ∈ extra, p.1.hotkey = hotkey ∧ p.2.status = "infra_error") →
      outcomes'.Perm (outcomes ++ extra) →
      scoredEpoch env exactOps defaultAlpha quota active outcomes content = .ok scores →
      scoredEpoch env exactOps defaultAlpha quota active outcomes' content = .ok scores' →
      InfraNeutral previous hotkey outcomes outcomes' scores.emaState scores'.emaState := by
  intro h
  have hgrid : ∀ k, OnGrid (Dict.getD [("a", (-1 : ℚ))] k 0) :=
    getD_mem (P := OnGrid) (fun p hp => by
      rw [List.mem_singleton.mp hp]
      exact_mod_cast onGrid_intCast (-1)) onGrid_zero
  have hextra : ∀ p ∈ [(({ hotkey := "a", uid := 0 } : Miner), infraOutcome)],
      p.1.hotkey = "a" ∧ p.2.status = "infra_error" := by
    intro p hp
    rw [List.mem_singleton.mp hp]
    exact ⟨rfl, rfl⟩
  have hneutral := h Env.plain (some (.doc (.obj [("a", .num (-1))]))) [("a", -1)] 4 ["a"] "a" []
    [({ hotkey := "a", uid := 0 }, infraOutcome)] _ _ _ rfl hgrid hextra (List.Perm.refl _) rfl rfl
  have hle := hneutral.atLeast
  revert hle
  decide +kernel

end Dolores
