import Dolores.Epoch.Blind

/-!
# The order of the miners: outcomes and scores

Two lists of the same miners yield the same submissions in the same order, terminal outcomes that
differ in their order alone, and scores that are equal as dictionaries.

* `sortedCollected_perm`      the submissions, sorted by their hashes;
* `agree_terminalOutcomes`    the terminal outcomes, in the order of either list;
* `both_aggregateOutcomes`    the aggregates of the two lists of outcomes;
* `sameScores_scoreEpoch`     the scores of the two aggregates, in exact arithmetic.
-/

set_option linter.unusedSectionVars false

namespace Dolores
open Crash

/-! ## the submissions -/

/-- every collected payload carries a string as its hash, and no two carry the same -/
def DistinctHashes (collected : List (Miner × Obj)) : Prop :=
  ∃ hashes : List String,
    collected.map (fun p => Obj.get p.2 "package_hash") = hashes.map .str ∧ hashes.Nodup

section
variable {miners miners' : List Miner} {epochId quota : Int} {T : PyText}

theorem submissionKey_of_hash {payload : Obj} {h : String}
    (hp : payload.get "package_hash" = .str h) : submissionKey T payload = h := by
  unfold Obj.get at hp
  unfold submissionKey
  cases hk : Dict.get? payload "package_hash" with
  | none =>
    rw [hk] at hp
    cases hp
  | some j =>
    rw [hk] at hp
    have hj : j = .str h := hp
    rw [hj]
    rfl

theorem nodup_submissionKeys {collected : List (Miner × Obj)} (h : DistinctHashes collected) :
    (collected.map fun p => submissionKey T p.2).Nodup := by
  obtain ⟨hashes, hmap, hnodup⟩ := h
  have hkeys : (collected.map fun p => submissionKey T p.2) = hashes := by
    clear hnodup
    induction collected generalizing hashes with
    | nil =>
      cases hashes with
      | nil => rfl
      | cons h hashes => cases hmap
    | cons p collected ih =>
      cases hashes with
      | nil => cases hmap
      | cons h hashes =>
        have hp : Obj.get p.2 "package_hash" = .str h := (List.cons.inj hmap).1
        have htail := (List.cons.inj hmap).2
        rw [List.map_cons, submissionKey_of_hash hp, ih hashes htail]
  rw [hkeys]
  exact hnodup

theorem collect_perm (h : miners.Perm miners') :
    (collect miners epochId quota).Perm (collect miners' epochId quota) := h.flatMap_right _

theorem sortedCollected_perm (h : miners.Perm miners')
    (hhashes : DistinctHashes (collect miners epochId quota)) :
    sortedCollected T (collect miners epochId quota) =
      sortedCollected T (collect miners' epochId quota) :=
  Dict.insertionSort_eq_of_perm (fun p : Miner × Obj => submissionKey T p.2) (collect_perm h)
    (nodup_submissionKeys hhashes)

end

/-! ## the terminal outcomes -/

/-- the terminal miners with their outcomes -/
def terminalsOf (miners : List Miner) : List (Miner × SubmissionOutcome) :=
  miners.filterMap fun miner => (terminalOutcome miner).map fun outcome => (miner, outcome)

section
variable {env : Env} {epochId : Int} {miners miners' : List Miner}

/-- the outcomes appended to the log, one after the other -/
def appendOutcomes (env : Env) (epochId : Int) :
    List (Miner × SubmissionOutcome) → M (List (Miner × SubmissionOutcome))
  | [] => pure []
  | (miner, outcome) :: outcomes => do
    appendOutcome env epochId miner outcome
    let rest ← appendOutcomes env epochId outcomes
    pure ((miner, outcome) :: rest)

theorem terminalOutcomes_eq :
    terminalOutcomes env epochId miners = appendOutcomes env epochId (terminalsOf miners) := by
  induction miners with
  | nil => rfl
  | cons miner miners ih =>
    unfold terminalOutcomes terminalsOf
    rw [List.filterMap_cons]
    cases terminalOutcome miner with
    | none => exact ih
    | some outcome =>
      show _ = (do
        appendOutcome env epochId miner outcome
        let rest ← appendOutcomes env epochId (terminalsOf miners)
        pure ((miner, outcome) :: rest))
      rw [← ih]

/-- equally many outcomes, whatever they are -/
theorem agree_appendOutcomes {outcomes outcomes' : List (Miner × SubmissionOutcome)}
    (h : outcomes.length = outcomes'.length) :
    Agree SameButLog (fun r r' => r = outcomes ∧ r' = outcomes')
      (appendOutcomes env epochId outcomes) (appendOutcomes env epochId outcomes') := by
  induction outcomes generalizing outcomes' with
  | nil =>
    rw [List.eq_nil_of_length_eq_zero h.symm]
    exact Agree.pure ⟨rfl, rfl⟩
  | cons p outcomes ih =>
    cases outcomes' with
    | nil => cases h
    | cons p' outcomes' =>
      have hlen : outcomes.length = outcomes'.length := Nat.succ.inj h
      refine Agree.bind (blind_appendSubmission _ _) fun _ _ _ => (ih hlen).bind fun r r' hr => ?_
      rw [hr.1, hr.2]
      exact Agree.pure ⟨rfl, rfl⟩

theorem terminalsOf_perm (h : miners.Perm miners') :
    (terminalsOf miners).Perm (terminalsOf miners') := h.filterMap _

theorem agree_terminalOutcomes (h : miners.Perm miners') :
    Agree SameButLog (fun r r' => r = terminalsOf miners ∧ r' = terminalsOf miners')
      (terminalOutcomes env epochId miners) (terminalOutcomes env epochId miners') := by
  rw [terminalOutcomes_eq, terminalOutcomes_eq]
  exact agree_appendOutcomes (terminalsOf_perm h).length_eq

theorem mem_terminalsOf {p : Miner × SubmissionOutcome} (h : p ∈ terminalsOf miners) :
    p.1 ∈ miners ∧ terminalOutcome p.1 = some p.2 := by
  obtain ⟨miner, hminer, hp⟩ := List.mem_filterMap.mp h
  cases ho : terminalOutcome miner with
  | none =>
    rw [ho] at hp
    cases hp
  | some outcome =>
    rw [ho] at hp
    have he : (miner, outcome) = p := Option.some.inj hp
    rw [← he]
    exact ⟨hminer, ho⟩

theorem terminal_packageHash {miner : Miner} {outcome : SubmissionOutcome}
    (h : terminalOutcome miner = some outcome) : outcome.packageHash = .null := by
  unfold terminalOutcome at h
  split at h
  · cases h
  · rw [← Option.some.inj h]

/-- a hotkey has one terminal outcome -/
theorem terminalsOf_inj (hn : (miners.map (·.hotkey)).Nodup) {p q : Miner × SubmissionOutcome}
    (hp : p ∈ terminalsOf miners) (hq : q ∈ terminalsOf miners)
    (h : p.1.hotkey = q.1.hotkey) : p = q := by
  obtain ⟨hp, hpo⟩ := mem_terminalsOf hp
  obtain ⟨hq, hqo⟩ := mem_terminalsOf hq
  have hminer : p.1 = q.1 := List.inj_on_of_nodup_map hn hp hq h
  rw [hminer] at hpo
  exact Prod.ext hminer (Option.some.inj (hpo.symm.trans hqo))

end

/-! ## the aggregates -/

/-- equal up to the order of the hotkeys -/
structure SameAggregate (g g' : Aggregate) : Prop where
  values : Dict.SameItems g.minerValues g'.minerValues
  statuses : Dict.SameItems g.minerStatuses g'.minerStatuses
  taskValues : g.taskValues = g'.taskValues

/-- what an outcome adds to the lists of its miner -/
def addToMiner (g : Aggregate) (p : Miner × SubmissionOutcome) : Aggregate :=
  { g with
    minerStatuses := Dict.modify g.minerStatuses p.1.hotkey (· ++ [p.2.status])
    minerValues := if p.2.status ≠ "infra_error" then
      Dict.modify g.minerValues p.1.hotkey (· ++ [p.2.taskValue]) else g.minerValues }

section
variable {g g' : Aggregate} {p q : Miner × SubmissionOutcome}

theorem aggregateOutcome_eq (g : Aggregate) (p : Miner × SubmissionOutcome) :
    aggregateOutcome g p =
      if Dict.contains g.minerStatuses p.1.hotkey = false then .error (.keyError p.1.hotkey)
      else if p.2.packageHash.truthy = false then .ok (addToMiner g p)
      else if p.2.packageHash.hashable = false then .error p.2.packageHash.unhashable
      else .ok { addToMiner g p with
        taskValues := setTaskValue g.taskValues p.2.packageHash p.2.taskValue } := rfl

theorem contains_addToMiner (g : Aggregate) (p : Miner × SubmissionOutcome) (hotkey : String) :
    Dict.contains (addToMiner g p).minerStatuses hotkey =
      Dict.contains g.minerStatuses hotkey := Dict.contains_modify _ _ _ _

theorem SameAggregate.contains (h : SameAggregate g g') (hotkey : String) :
    Dict.contains g.minerStatuses hotkey = Dict.contains g'.minerStatuses hotkey := by
  unfold Dict.contains
  rw [h.statuses.get?]

theorem SameAggregate.add (h : SameAggregate g g') (p : Miner × SubmissionOutcome) :
    SameAggregate (addToMiner g p) (addToMiner g' p) where
  values := by
    show Dict.SameItems (if _ then _ else _) (if _ then _ else _)
    split
    · exact h.values.modify _ _
    · exact h.values
  statuses := h.statuses.modify _ _
  taskValues := h.taskValues

/-- one outcome -/
theorem SameAggregate.step (h : SameAggregate g g') (p : Miner × SubmissionOutcome) :
    Except.Both SameAggregate (aggregateOutcome g p) (aggregateOutcome g' p) := by
  have hadd := h.add p
  rw [aggregateOutcome_eq, aggregateOutcome_eq, ← h.contains]
  split
  · exact .error _
  · split
    · exact .ok hadd
    · split
      · exact .error _
      · exact .ok ⟨hadd.values, hadd.statuses, by rw [h.taskValues]⟩

/-- outcomes of two miners commute -/
theorem addToMiner_comm (h : p.1.hotkey ≠ q.1.hotkey) (g : Aggregate) :
    addToMiner (addToMiner g p) q = addToMiner (addToMiner g q) p := by
  have hstatuses := Dict.modify_comm g.minerStatuses h (· ++ [p.2.status]) (· ++ [q.2.status])
  have hvalues := Dict.modify_comm g.minerValues h (· ++ [p.2.taskValue]) (· ++ [q.2.taskValue])
  unfold addToMiner
  dsimp only
  rw [hstatuses]
  by_cases hp : p.2.status = "infra_error"
  · by_cases hq : q.2.status = "infra_error"
    · simp only [hp, hq, ne_eq, not_true_eq_false, if_false]
    · simp only [hp, hq, ne_eq, not_true_eq_false, not_false_eq_true, if_true, if_false]
  · by_cases hq : q.2.status = "infra_error"
    · simp only [hp, hq, ne_eq, not_true_eq_false, not_false_eq_true, if_true, if_false]
    · simp only [hp, hq, ne_eq, not_false_eq_true, if_true]
      rw [hvalues]

end

section
variable {g : Aggregate} {outcomes outcomes' : List (Miner × SubmissionOutcome)}

/-- outcomes without a hash only add to the lists of their miners -/
theorem foldlM_without_hash
    (h : ∀ p ∈ outcomes, Dict.contains g.minerStatuses p.1.hotkey = true ∧
      p.2.packageHash.truthy = false) :
    outcomes.foldlM aggregateOutcome g = .ok (outcomes.foldl addToMiner g) := by
  induction outcomes generalizing g with
  | nil => rfl
  | cons p outcomes ih =>
    obtain ⟨hactive, hfalsy⟩ := h p List.mem_cons_self
    have hp : aggregateOutcome g p = .ok (addToMiner g p) := by
      rw [aggregateOutcome_eq, if_neg (by rw [hactive]; exact Bool.noConfusion), if_pos hfalsy]
    rw [List.foldlM_cons, hp, Except.ok_bind, List.foldl_cons]
    apply ih
    intro q hq
    rw [contains_addToMiner]
    exact h q (List.mem_cons_of_mem p hq)

theorem SameAggregate.foldl {g' : Aggregate} (h : SameAggregate g g') :
    SameAggregate (outcomes.foldl addToMiner g) (outcomes.foldl addToMiner g') := by
  induction outcomes generalizing g g' with
  | nil => exact h
  | cons p outcomes ih => exact ih (h.add p)

theorem foldl_addToMiner_perm (h : outcomes.Perm outcomes')
    (hinj : ∀ p ∈ outcomes, ∀ q ∈ outcomes, p.1.hotkey = q.1.hotkey → p = q) (g : Aggregate) :
    outcomes.foldl addToMiner g = outcomes'.foldl addToMiner g := by
  apply h.foldl_eq'
  intro p hp q hq g
  by_cases e : p.1.hotkey = q.1.hotkey
  · rw [hinj p hp q hq e]
  · exact addToMiner_comm e g

end

section
variable {active active' : List String} {miners miners' : List Miner}
  {outcomes : List (Miner × SubmissionOutcome)}

theorem keys_emptyLists {V : Type} (active : List String) (v : V) :
    Dict.keys (active.map fun hotkey => (hotkey, v)) = active := by
  unfold Dict.keys
  rw [List.map_map]
  exact List.map_id active

theorem newAggregate_eq (hn : active.Nodup) :
    newAggregate active = { minerValues := active.map fun hotkey => (hotkey, [])
                            minerStatuses := active.map fun hotkey => (hotkey, []) } := by
  unfold newAggregate
  rw [Dict.ofPairs_of_nodup (by rw [keys_emptyLists]; exact hn),
    Dict.ofPairs_of_nodup (by rw [keys_emptyLists]; exact hn)]

theorem sameAggregate_new (h : active.Perm active') (hn : active.Nodup) :
    SameAggregate (newAggregate active) (newAggregate active') := by
  rw [newAggregate_eq hn, newAggregate_eq (h.nodup_iff.mp hn)]
  exact ⟨⟨h.map _, by rw [keys_emptyLists]; exact hn⟩, ⟨h.map _, by rw [keys_emptyLists]; exact hn⟩,
    rfl⟩

theorem contains_newAggregate (hn : active.Nodup) {hotkey : String} (h : hotkey ∈ active) :
    Dict.contains (newAggregate active).minerStatuses hotkey = true := by
  rw [newAggregate_eq hn]
  unfold Dict.contains
  rw [Dict.get?_isSome_iff, keys_emptyLists]
  exact h

theorem foldlM_terminals (hn : (miners.map (·.hotkey)).Nodup) :
    (terminalsOf miners).foldlM aggregateOutcome (newAggregate (miners.map (·.hotkey))) =
      .ok ((terminalsOf miners).foldl addToMiner (newAggregate (miners.map (·.hotkey)))) := by
  apply foldlM_without_hash
  intro p hp
  obtain ⟨hminer, houtcome⟩ := mem_terminalsOf hp
  refine ⟨contains_newAggregate hn (List.mem_map.mpr ⟨p.1, hminer, rfl⟩), ?_⟩
  rw [terminal_packageHash houtcome]
  rfl

/-- the terminal outcomes in either order, and then the same outcomes -/
theorem both_aggregateOutcomes (h : miners.Perm miners') (hn : (miners.map (·.hotkey)).Nodup) :
    Except.Both SameAggregate
      (aggregateOutcomes (miners.map (·.hotkey)) (terminalsOf miners ++ outcomes))
      (aggregateOutcomes (miners'.map (·.hotkey)) (terminalsOf miners' ++ outcomes)) := by
  have hn' : (miners'.map (·.hotkey)).Nodup := (h.map _).nodup_iff.mp hn
  have hterminals : SameAggregate
      ((terminalsOf miners).foldl addToMiner (newAggregate (miners.map (·.hotkey))))
      ((terminalsOf miners').foldl addToMiner (newAggregate (miners'.map (·.hotkey)))) := by
    rw [← foldl_addToMiner_perm (terminalsOf_perm h)
      (fun p hp q hq e => terminalsOf_inj hn hp hq e) (newAggregate (miners'.map (·.hotkey)))]
    exact (sameAggregate_new (h.map _) hn).foldl
  unfold aggregateOutcomes
  rw [List.foldlM_append, List.foldlM_append, foldlM_terminals hn, foldlM_terminals hn']
  exact Except.Both.foldlM (fun g g' p _ hg => hg.step p) hterminals

end

/-! ## the scores -/

/-- equal, the dictionaries up to the order of the hotkeys -/
structure SameScores (x y : EpochScores) : Prop where
  epochScores : Dict.SameItems x.epochScores y.epochScores
  emaState : x.emaState = y.emaState
  weights : Dict.SameItems x.weights y.weights
  degraded : x.degraded = y.degraded
  weightReason : x.weightReason = y.weightReason

section
variable {α : Type} {l l' : List α}

theorem all_perm (h : l.Perm l') (f : α → Bool) : l.all f = l'.all f := by
  rw [Bool.eq_iff_iff, List.all_eq_true, List.all_eq_true]
  exact ⟨fun hl a ha => hl a (h.mem_iff.mpr ha), fun hl a ha => hl a (h.mem_iff.mp ha)⟩

theorem any_perm (h : l.Perm l') (f : α → Bool) : l.any f = l'.any f := by
  rw [Bool.eq_iff_iff, List.any_eq_true, List.any_eq_true]
  exact ⟨fun ⟨a, ha, hf⟩ => ⟨a, h.mem_iff.mp ha, hf⟩, fun ⟨a, ha, hf⟩ => ⟨a, h.mem_iff.mpr ha, hf⟩⟩

theorem isEmpty_perm (h : l.Perm l') : l.isEmpty = l'.isEmpty := by
  rw [Bool.eq_iff_iff, List.isEmpty_iff, List.isEmpty_iff]
  exact ⟨fun e => List.nil_perm.mp (e ▸ h), fun e => List.perm_nil.mp (e ▸ h)⟩

end

/-- exact sums do not depend on the order -/
theorem exactOps_sum_perm {values values' : List ℚ} (h : values.Perm values') :
    exactOps.sum values = exactOps.sum values' := by
  apply h.foldl_eq'
  intro x _ y _ z
  show z + x + y = z + y + x
  exact add_right_comm z x y

theorem sameItems_normalizeWeights {d d' : Dict String ℚ} (h : Dict.SameItems d d') :
    Dict.SameItems (normalizeWeights exactOps d) (normalizeWeights exactOps d') := by
  have hclipped := h.mapValues clipZero
  have htotal := exactOps_sum_perm (Dict.values_perm hclipped.perm)
  unfold normalizeWeights
  dsimp only
  rw [← htotal]
  split
  · exact hclipped.mapValues _
  · exact hclipped.mapValues _

section
variable {active active' : List String} {g g' : Aggregate} {statuses statuses' : List String}
  {emaAlpha : ℚ} {quota : Int} {previous scores scores' : Dict String ℚ}

theorem sameItems_normalizeActiveWeights (h : active.Perm active') (hn : active.Nodup)
    (ema : Dict String ℚ) : Dict.SameItems (normalizeActiveWeights exactOps ema active)
      (normalizeActiveWeights exactOps ema active') := by
  have hkeys : ∀ l : List String,
      Dict.keys (l.map fun hotkey => (hotkey, Dict.getD ema hotkey 0)) = l := by
    intro l
    unfold Dict.keys
    rw [List.map_map]
    exact List.map_id l
  unfold normalizeActiveWeights
  rw [Dict.ofPairs_of_nodup (by rw [hkeys]; exact hn),
    Dict.ofPairs_of_nodup (by rw [hkeys]; exact h.nodup_iff.mp hn)]
  exact sameItems_normalizeWeights ⟨h.map _, by rw [hkeys]; exact hn⟩

theorem mem_infraOnlyMiners (h : SameAggregate g g') (miner : String) :
    miner ∈ infraOnlyMiners g.minerStatuses ↔ miner ∈ infraOnlyMiners g'.minerStatuses :=
  ((h.statuses.perm.filter _).map _).mem_iff

theorem emaMiners_perm (h : Dict.SameItems scores scores') :
    emaMiners previous scores = emaMiners previous scores' := by
  have hkeys := ((Dict.keys_perm h.perm).append_left previous.keys).dedup
  exact Dict.insertionSort_eq_of_perm id hkeys (by rw [List.map_id]; exact List.nodup_dedup _)

theorem updateEmaScores_perm (h : Dict.SameItems scores scores') {infra infra' : List String}
    (hinfra : ∀ miner, miner ∈ infra ↔ miner ∈ infra') :
    updateEmaScores exactOps previous scores emaAlpha infra =
      updateEmaScores exactOps previous scores' emaAlpha infra' := by
  unfold updateEmaScores
  rw [emaMiners_perm h]
  apply List.map_congr_left
  intro miner _
  rw [h.getD]
  by_cases hm : miner ∈ infra
  · rw [if_pos hm, if_pos ((hinfra miner).mp hm)]
  · rw [if_neg hm, if_neg fun hm' => hm ((hinfra miner).mpr hm')]

/-- the scores do not depend on the order of the miners and of their outcomes -/
theorem sameScores_scoreEpoch (h : SameAggregate g g') (hactive : active.Perm active')
    (hn : active.Nodup) (hstatuses : statuses.Perm statuses') :
    SameScores (scoreEpoch exactOps emaAlpha quota active previous g statuses)
      (scoreEpoch exactOps emaAlpha quota active' previous g' statuses') := by
  have hscores : Dict.SameItems (topKEpochScores exactOps g.minerValues quota)
      (topKEpochScores exactOps g'.minerValues quota) :=
    h.values.mapValues _
  have hema : updateEmaScores exactOps previous (topKEpochScores exactOps g.minerValues quota)
        emaAlpha (infraOnlyMiners g.minerStatuses) =
      updateEmaScores exactOps previous (topKEpochScores exactOps g'.minerValues quota)
        emaAlpha (infraOnlyMiners g'.minerStatuses) :=
    updateEmaScores_perm hscores (mem_infraOnlyMiners h)
  have hweights := sameItems_normalizeActiveWeights hactive hn
    (updateEmaScores exactOps previous (topKEpochScores exactOps g.minerValues quota) emaAlpha
      (infraOnlyMiners g.minerStatuses))
  refine ⟨hscores, hema, ?_, any_perm (Dict.values_perm h.statuses.perm) _, ?_⟩
  · show Dict.SameItems _ (normalizeActiveWeights exactOps (updateEmaScores exactOps previous
      (topKEpochScores exactOps g'.minerValues quota) emaAlpha
      (infraOnlyMiners g'.minerStatuses)) active')
    rw [← hema]
    exact hweights
  · unfold scoreEpoch
    dsimp only
    rw [← hema, isEmpty_perm hstatuses, all_perm hstatuses,
      all_perm (Dict.values_perm hweights.perm)]

end

end Dolores
