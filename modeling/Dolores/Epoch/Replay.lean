import Dolores.Bridge.Isolation
import Dolores.Chain.Frame
import Dolores.Epoch.Conclude
import Dolores.Epoch.Weights

/-!
# The scores derived from the submission log

A completed epoch leaves one row for each outcome, in the order of the outcomes, and nothing else
touches the log.  The live path keys the scores by the active hotkeys, the replay by the rows.

* `LoggedRows`                  the log is the old lines and a row for each outcome;
* `evaluateEpoch_logged`        the evaluation of an epoch logs its outcomes;
* `aggregateOutcomes_values`, `replayRows_values`   the values of a hotkey on the two paths;
* `runEpoch_recorded`           what a completed epoch leaves;
* `reproducesScores_iff`        the replay gives the scores exactly when every active hotkey has a
                                row.
-/

set_option linter.unusedSectionVars false

namespace Dolores
open Crash

/-! ## rows -/

/-- the fields of a row that the replay reads -/
structure RowOf (epochId : Int) (p : Miner × SubmissionOutcome) (row : Obj) : Prop where
  epochId : Dict.get? row "epoch_id" = some (.int epochId)
  hotkey : Dict.get? row "miner_hotkey" = some (.str p.1.hotkey)
  status : Dict.get? row "status" = some (.str p.2.status)
  value : Dict.get? row "task_value" = some (.num p.2.taskValue)

/-- the lines of the log are `old` and then one row for each outcome -/
def LoggedRows (epochId : Int) (old : List Line) (outcomes : List (Miner × SubmissionOutcome))
    (w : World) : Prop :=
  ∃ rows : List Obj, w.submissions =
    some { lines := old ++ rows.map fun row => .value (.obj row), tail := none } ∧
    List.Forall₂ (RowOf epochId) outcomes rows

/-- a log that exists stays as it is -/
def SameLog (w w' : World) : Prop := ∀ log, w.submissions = some log → w'.submissions = some log

instance : IsPreorder World SameLog where
  refl _ _ h := h
  trans _ _ _ h h' log hl := h' log (h log hl)

theorem SameLog.of_eq {w w' : World} (h : w'.submissions = w.submissions) : SameLog w w' := by
  intro log hl
  rw [h, hl]

theorem sameLogFrame : EvaluationFrame SameLog where
  clock _ := SameLog.of_eq rfl
  db _ _ := SameLog.of_eq rfl
  panelCache _ _ := SameLog.of_eq rfl
  createLog w log h := by
    show some (w.submissions.getD {}) = some log
    rw [h]
    rfl
  pipelineRan _ _ _ := SameLog.of_eq rfl

theorem sameLogChainFrame (epochId : Int) : ChainFrame epochId SameLog where
  clock _ := SameLog.of_eq rfl
  connected _ := SameLog.of_eq rfl
  receipt _ _ := SameLog.of_eq rfl
  attempt _ _ := SameLog.of_eq rfl
  setWeights _ _ _ _ := SameLog.of_eq rfl

theorem LoggedRows.congr {epochId : Int} {old : List Line}
    {outcomes : List (Miner × SubmissionOutcome)} {w w' : World}
    (h : LoggedRows epochId old outcomes w) (hw : SameLog w w') :
    LoggedRows epochId old outcomes w' := by
  obtain ⟨rows, hlog, hrows⟩ := h
  exact ⟨rows, hw _ hlog, hrows⟩

section
variable {env : Env} {engine : Engine} {A : FloatOps} {cfg : SubnetConfig} {epochId quota : Int}
  {old : List Line}

/-- the row that is read back for an outcome -/
def loggedRow (epochId : Int) (p : Miner × SubmissionOutcome) (createdAt : String) : Obj :=
  Obj.canon (Dict.set (p.2.toRecord epochId p.1.hotkey p.1.uid) "created_at" (.str createdAt))

theorem rowOf_loggedRow (p : Miner × SubmissionOutcome) (createdAt : String) :
    RowOf epochId p (loggedRow epochId p createdAt) := by
  have hget : ∀ key, key ≠ "created_at" → Dict.get? (loggedRow epochId p createdAt) key =
      (Dict.get? (p.2.toRecord epochId p.1.hotkey p.1.uid) key).map Json.canon := by
    intro key hkey
    unfold loggedRow
    rw [Obj.get?_canon, Dict.get?_set, if_neg hkey]
  constructor
  · rw [hget _ (by decide)]
    exact congrArg some (Json.canon_int _)
  · rw [hget _ (by decide)]
    exact congrArg some (Json.canon_str _)
  · rw [hget _ (by decide)]
    exact congrArg some (Json.canon_str _)
  · rw [hget _ (by decide)]
    exact congrArg some (Json.canon_num _)

theorem appendOutcome_logged {miner : Miner} {outcome : SubmissionOutcome}
    {outcomes : List (Miner × SubmissionOutcome)} {w w' : World} {u : Unit}
    (h : LoggedRows epochId old outcomes w)
    (hrun : appendOutcome env epochId miner outcome w = (.ok u, w')) :
    LoggedRows epochId old (outcomes ++ [(miner, outcome)]) w' := by
  obtain ⟨rows, hlog, hrows⟩ := h
  obtain ⟨createdAt, w₁, hnow, hrun⟩ := run_bind hrun
  obtain ⟨_, hw₁⟩ := Prod.mk.inj hnow
  have hline : w'.submissions = some ((w₁.submissions.getD {}).append
      (Json.canon (.obj (Dict.set (outcome.toRecord epochId miner.hotkey miner.uid) "created_at"
        (.str createdAt))))) := by
    rw [run_effectful hrun]
    rfl
  refine ⟨rows ++ [loggedRow epochId (miner, outcome) createdAt], ?_, ?_⟩
  · rw [hline, ← hw₁, hlog, Json.canon_obj', List.map_append, ← List.append_assoc]
    rfl
  · exact List.rel_append hrows (.cons (rowOf_loggedRow (miner, outcome) createdAt) .nil)

/-! ## the evaluation -/

theorem terminalOutcomes_logged {miners : List Miner} {outcomes : List (Miner × SubmissionOutcome)}
    {terminals : List (Miner × SubmissionOutcome)} {w w' : World}
    (h : LoggedRows epochId old outcomes w)
    (hrun : terminalOutcomes env epochId miners w = (.ok terminals, w')) :
    LoggedRows epochId old (outcomes ++ terminals) w' ∧
      terminals.map (·.1) = miners.filter (·.terminal) := by
  induction miners generalizing outcomes terminals w w' with
  | nil =>
    obtain ⟨ht, hw⟩ := run_pure hrun
    rw [← ht, ← hw, List.append_nil]
    exact ⟨h, rfl⟩
  | cons miner miners ih =>
    unfold terminalOutcomes at hrun
    cases hm : miner.terminal with
    | false =>
      have hnone : terminalOutcome miner = none := if_pos hm
      rw [hnone] at hrun
      rw [List.filter_cons_of_neg (by rw [hm]; decide)]
      exact ih h hrun
    | true =>
      obtain ⟨outcome, houtcome⟩ : ∃ outcome, terminalOutcome miner = some outcome :=
        ⟨_, if_neg (by rw [hm]; decide)⟩
      rw [houtcome] at hrun
      obtain ⟨_, w₁, happend, hrun⟩ := run_bind hrun
      obtain ⟨rest, w₂, hrest, hrun⟩ := run_bind hrun
      obtain ⟨hlog, hminers⟩ := ih (appendOutcome_logged h happend) hrest
      obtain ⟨ht, hw⟩ := run_pure hrun
      rw [← ht, ← hw, List.filter_cons_of_pos hm, List.map_cons, hminers]
      rw [List.append_assoc] at hlog
      exact ⟨hlog, rfl⟩

theorem sameLog_recordPanel (plan : PanelPlan) (session : PanelSession)
    (outcome : SubmissionOutcome) :
    Moves SameLog (recordPanel env A plan session outcome) := by
  refine Moves.ite ?_ (Moves.ite ?_ (Moves.pure _))
  · refine Moves.bind (Moves.ofExcept _) fun _ => Moves.bind (Moves.ofExcept _) fun _ => ?_
    exact Moves.bind (sameLogFrame.record _ _ _ _ _ _) fun _ => Moves.pure _
  · exact Moves.bind (sameLogFrame.record _ _ _ _ _ _) fun _ => Moves.pure _

theorem evaluateSubmission_logged {e e' : Evaluation} {miner : Miner} {payload : Obj}
    {w w' : World} (h : LoggedRows epochId old e.outcomes w)
    (hrun : evaluateSubmission env engine A cfg epochId e miner payload w = (.ok e', w')) :
    LoggedRows epochId old e'.outcomes w' ∧
      e'.outcomes.map (·.1) = e.outcomes.map (·.1) ++ [miner] := by
  obtain ⟨⟨plan, session⟩, w₁, hplan, hrun⟩ := run_bind hrun
  obtain ⟨_, hw₁⟩ := run_ofExcept hplan
  rw [← hw₁] at h
  obtain ⟨⟨outcome, context⟩, w₂, hvalidate, hrun⟩ := run_bind hrun
  have h₂ := h.congr ((sameLogFrame.validateSubmission _ _ _ _).run hvalidate)
  obtain ⟨⟨outcome', session'⟩, w₃, hrecord, hrun⟩ := run_bind hrun
  have h₃ := h₂.congr ((sameLog_recordPanel _ _ _).run hrecord)
  obtain ⟨_, w₄, happend, hrun⟩ := run_bind hrun
  have h₄ := appendOutcome_logged h₃ happend
  obtain ⟨he, hw⟩ := run_pure hrun
  rw [← he, ← hw]
  refine ⟨h₄, ?_⟩
  rw [List.map_append]
  rfl

theorem evaluateAll_logged {collected : List (Miner × Obj)} {e e' : Evaluation} {w w' : World}
    (h : LoggedRows epochId old e.outcomes w)
    (hrun : evaluateAll env engine A cfg epochId collected e w = (.ok e', w')) :
    LoggedRows epochId old e'.outcomes w' ∧
      e'.outcomes.map (·.1) = e.outcomes.map (·.1) ++ collected.map (·.1) := by
  induction collected generalizing e w with
  | nil =>
    obtain ⟨he, hw⟩ := run_pure hrun
    rw [← he, ← hw, List.map_nil, List.append_nil]
    exact ⟨h, rfl⟩
  | cons p collected ih =>
    obtain ⟨miner, payload⟩ := p
    obtain ⟨e₁, w₁, hstep, hrun⟩ := run_bind hrun
    obtain ⟨h₁, hminers₁⟩ := evaluateSubmission_logged h hstep
    obtain ⟨h', hminers⟩ := ih h₁ hrun
    rw [hminers₁, List.append_assoc] at hminers
    exact ⟨h', hminers⟩

/-- the miner leaves at least one row -/
def Miner.LeavesRow (epochId quota : Int) (miner : Miner) : Prop :=
  miner.terminal = true ∨ miner.submissions epochId quota ≠ []

theorem mem_collect {miners : List Miner} {miner : Miner} :
    miner ∈ (collect miners epochId quota).map (·.1) ↔
      miner ∈ miners ∧ miner.terminal = false ∧ miner.submissions epochId quota ≠ [] := by
  unfold collect
  rw [List.map_flatMap, List.mem_flatMap]
  constructor
  · intro h
    obtain ⟨m, hm, hmem⟩ := h
    cases ht : m.terminal with
    | true =>
      rw [ht] at hmem
      exact (List.not_mem_nil hmem).elim
    | false =>
      rw [ht, if_neg (by decide), List.map_map] at hmem
      obtain ⟨payload, hpayload, he⟩ := List.mem_map.mp hmem
      have hmm : m = miner := he
      rw [← hmm]
      exact ⟨hm, ht, List.ne_nil_of_mem hpayload⟩
  · intro h
    obtain ⟨hm, ht, hne⟩ := h
    obtain ⟨payload, hpayload⟩ := List.exists_mem_of_ne_nil _ hne
    refine ⟨miner, hm, ?_⟩
    rw [ht, if_neg (by decide), List.map_map]
    exact List.mem_map.mpr ⟨payload, hpayload, rfl⟩

/-- the evaluation of an epoch repairs the log and appends one row for each outcome -/
theorem evaluateEpoch_logged {miners : List Miner} {e : Evaluation} {w w' : World}
    (hrun : evaluateEpoch env engine A cfg epochId quota miners w = (.ok e, w')) :
    (∃ old rows, readJsonl (w.submissions.getD {}) = .ok rows ∧
      old.foldlM readLine [] = .ok rows ∧ LoggedRows epochId old e.outcomes w') ∧
    ∀ miner, miner ∈ e.outcomes.map (·.1) ↔ miner ∈ miners ∧ miner.LeavesRow epochId quota := by
  obtain ⟨_, w₁, hinit, hrun⟩ := run_bind hrun
  obtain ⟨_, w₂, hrepair, hrun⟩ := run_bind hrun
  obtain ⟨repaired, hrepaired, hw₂⟩ := run_repairJsonlTail (run_initArchive hinit) hrepair
  obtain ⟨htail, rows, hread, hlines⟩ := repairedLog_rows hrepaired
  obtain ⟨w₃, w₄, hget, hrun⟩ := run_bind hrun
  rw [(run_get hget).1, (run_get hget).2] at hrun
  obtain ⟨session, w₅, hsession, hrun⟩ := run_bind hrun
  rw [(run_ofExcept hsession).2] at hrun
  obtain ⟨terminals, w₆, hterminals, hrun⟩ := run_bind hrun
  have h₂ : LoggedRows epochId repaired.lines [] w₂ := by
    refine ⟨[], ?_, .nil⟩
    rw [hw₂, List.map_nil, List.append_nil, ← htail]
  obtain ⟨h₆, hminers₆⟩ := terminalOutcomes_logged h₂ hterminals
  obtain ⟨h', hminers⟩ := evaluateAll_logged h₆ hrun
  refine ⟨⟨repaired.lines, rows, hread, hlines, h'⟩, fun miner => ?_⟩
  have hsorted : (sortedCollected env.text (collect miners epochId quota)).map (·.1) |>.Perm
      ((collect miners epochId quota).map (·.1)) := (List.perm_insertionSort _ _).map _
  rw [hminers, List.mem_append, hminers₆, List.mem_filter, hsorted.mem_iff, mem_collect]
  unfold Miner.LeavesRow
  cases miner.terminal with
  | false => simp
  | true => simp

end

/-! ## the values of a hotkey -/

section
variable {active : List String} {outcomes : List (Miner × SubmissionOutcome)} {hotkey : String}

/-- the values that count for a hotkey -/
def valuesOf (outcomes : List (Miner × SubmissionOutcome)) (hotkey : String) : List ℚ :=
  (outcomes.filter fun p => p.1.hotkey == hotkey && p.2.status != "infra_error").map (·.2.taskValue)

theorem valuesOf_append_counted {p : Miner × SubmissionOutcome} (hp : p.1.hotkey = hotkey)
    (hs : p.2.status ≠ "infra_error") :
    valuesOf (outcomes ++ [p]) hotkey = valuesOf outcomes hotkey ++ [p.2.taskValue] := by
  unfold valuesOf
  rw [List.filter_append, List.map_append, List.filter_cons_of_pos (by simpa using ⟨hp, hs⟩)]
  rfl

theorem valuesOf_append_other {p : Miner × SubmissionOutcome}
    (hp : p.1.hotkey = hotkey → p.2.status = "infra_error") :
    valuesOf (outcomes ++ [p]) hotkey = valuesOf outcomes hotkey := by
  unfold valuesOf
  rw [List.filter_append, List.map_append, List.filter_cons_of_neg (by simpa using hp)]
  exact List.append_nil _

/-- the entries of a table of values: one for each of `keys`, with the values of the outcomes -/
def HoldsValues (keys : List String) (outcomes : List (Miner × SubmissionOutcome))
    (table : Dict String (List ℚ)) : Prop :=
  ∀ hotkey, Dict.get? table hotkey =
    if hotkey ∈ keys then some (valuesOf outcomes hotkey) else none

theorem HoldsValues.append_infra {keys : List String} {table : Dict String (List ℚ)}
    (h : HoldsValues keys outcomes table) {p : Miner × SubmissionOutcome}
    (hp : p.2.status = "infra_error") : HoldsValues keys (outcomes ++ [p]) table := by
  intro hotkey
  rw [h hotkey, valuesOf_append_other fun _ => hp]

theorem HoldsValues.append_value {keys : List String} {table : Dict String (List ℚ)}
    (h : HoldsValues keys outcomes table) {p : Miner × SubmissionOutcome}
    (hp : p.2.status ≠ "infra_error") :
    HoldsValues keys (outcomes ++ [p])
      (Dict.modify table p.1.hotkey (· ++ [p.2.taskValue])) := by
  intro hotkey
  rw [Dict.get?_modify, h p.1.hotkey, h hotkey]
  by_cases he : hotkey = p.1.hotkey
  · rw [if_pos he, he, valuesOf_append_counted rfl hp]
    split <;> rfl
  · rw [if_neg he, valuesOf_append_other fun hc => (he hc.symm).elim]

theorem newAggregate_values : HoldsValues active [] (newAggregate active).minerValues := by
  intro hotkey
  show Dict.get? (Dict.ofPairs (active.map fun hotkey => (hotkey, ([] : List ℚ)))) hotkey = _
  rw [Dict.ofPairs_map fun _ => ([] : List ℚ), Dict.get?_map_keys]
  exact if_congr Dict.mem_firstAppearances rfl rfl

/-- the live path: the values of every active hotkey -/
theorem aggregateOutcomes_values {g : Aggregate} (h : aggregateOutcomes active outcomes = .ok g) :
    HoldsValues active outcomes g.minerValues := by
  refine Except.foldlM_invariant (fun done g => HoldsValues active done g.minerValues) ?_
    newAggregate_values h
  intro done g p g' hg hstep
  obtain ⟨miner, outcome⟩ := p
  have hvalues : HoldsValues active (done ++ [(miner, outcome)])
      (if outcome.status ≠ "infra_error" then
        Dict.modify g.minerValues miner.hotkey (· ++ [outcome.taskValue]) else g.minerValues) := by
    by_cases hs : outcome.status = "infra_error"
    · rw [if_neg (not_not_intro hs)]
      exact hg.append_infra hs
    · rw [if_pos hs]
      exact hg.append_value hs
  unfold aggregateOutcome at hstep
  dsimp only at hstep
  split at hstep
  · exact nomatch hstep
  · split at hstep
    · rw [← Except.ok.inj hstep]
      exact hvalues
    · split at hstep
      · exact nomatch hstep
      · rw [← Except.ok.inj hstep]
        exact hvalues

variable {env : Env} {epochId : Int}

theorem index_obj {fields : Obj} {key : String} {j : Json} (h : Dict.get? fields key = some j) :
    Json.index key (.obj fields) = .ok j := by
  unfold Json.index
  dsimp only
  rw [h]

variable (env) in
/-- the replay of one row -/
theorem replayRow_values {done : List (Miner × SubmissionOutcome)} {table : Dict String (List ℚ)}
    (h : HoldsValues (done.map (·.1.hotkey)) done table) {p : Miner × SubmissionOutcome} {row : Obj}
    (hrow : RowOf epochId p row) :
    ∃ table', replayRow env table row = .ok table' ∧
      HoldsValues ((done ++ [p]).map (·.1.hotkey)) (done ++ [p]) table' := by
  -- `setdefault` adds the hotkey of the row
  have hadded : HoldsValues ((done ++ [p]).map (·.1.hotkey)) done
      (if Dict.contains table p.1.hotkey then table else Dict.set table p.1.hotkey []) := by
    intro hotkey
    have hkeys : hotkey ∈ (done ++ [p]).map (·.1.hotkey) ↔
        hotkey ∈ done.map (·.1.hotkey) ∨ hotkey = p.1.hotkey := by
      rw [List.map_append, List.mem_append]
      exact or_congr_right List.mem_singleton
    by_cases hmem : p.1.hotkey ∈ done.map (·.1.hotkey)
    · have hcontains : Dict.contains table p.1.hotkey = true := by
        unfold Dict.contains
        rw [h p.1.hotkey, if_pos hmem]
        rfl
      have hsame : hotkey ∈ (done ++ [p]).map (·.1.hotkey) ↔ hotkey ∈ done.map (·.1.hotkey) :=
        hkeys.trans ⟨fun hc => hc.elim id fun he => he ▸ hmem, .inl⟩
      rw [if_pos hcontains, h hotkey]
      exact if_congr hsame.symm rfl rfl
    · have hcontains : ¬ Dict.contains table p.1.hotkey = true := by
        unfold Dict.contains
        rw [h p.1.hotkey, if_neg hmem]
        exact Bool.false_ne_true
      have hnone : valuesOf done p.1.hotkey = [] := by
        unfold valuesOf
        rw [List.map_eq_nil_iff, List.filter_eq_nil_iff]
        intro q hq hc
        rw [Bool.and_eq_true, beq_iff_eq] at hc
        exact hmem (List.mem_map.mpr ⟨q, hq, hc.1⟩)
      rw [if_neg hcontains, Dict.get?_set, h hotkey]
      by_cases he : hotkey = p.1.hotkey
      · rw [if_pos he, if_pos (hkeys.mpr (.inr he)), he, hnone]
      · rw [if_neg he]
        exact if_congr ⟨fun hm => hkeys.mpr (.inl hm), fun hm => (hkeys.mp hm).resolve_right he⟩
          rfl rfl
  unfold replayRow
  rw [index_obj hrow.hotkey, Except.ok_bind]
  dsimp only
  rw [index_obj hrow.status, Except.ok_bind]
  by_cases hs : p.2.status = "infra_error"
  · have heq : Json.eqStr (.str p.2.status) "infra_error" = true := by
      rw [hs]
      rfl
    rw [if_pos heq]
    exact ⟨_, rfl, hadded.append_infra hs⟩
  · have heq : ¬ Json.eqStr (.str p.2.status) "infra_error" = true := fun hc =>
      hs (beq_iff_eq.mp hc)
    rw [if_neg heq, index_obj hrow.value, Except.ok_bind, Json.toFloat_num]
    exact ⟨_, rfl, hadded.append_value hs⟩

variable (env) in
/-- the replay: the values of every hotkey that has a row -/
theorem replayRows_values {rows : List Obj} (h : List.Forall₂ (RowOf epochId) outcomes rows) :
    ∃ table, rows.foldlM (replayRow env) [] = .ok table ∧
      HoldsValues (outcomes.map (·.1.hotkey)) outcomes table := by
  have hfold : ∀ (done : List (Miner × SubmissionOutcome)) (table : Dict String (List ℚ)),
      HoldsValues (done.map (·.1.hotkey)) done table →
      ∃ table', rows.foldlM (replayRow env) table = .ok table' ∧
        HoldsValues ((done ++ outcomes).map (·.1.hotkey)) (done ++ outcomes) table' := by
    induction h with
    | nil =>
      intro done table htable
      rw [List.append_nil]
      exact ⟨table, rfl, htable⟩
    | cons hrow _ ih =>
      intro done table htable
      obtain ⟨table₁, hstep, htable₁⟩ := replayRow_values env htable hrow
      obtain ⟨table', hrest, htable'⟩ := ih _ table₁ htable₁
      rw [List.append_assoc] at htable'
      exact ⟨table', by rw [List.foldlM_cons, hstep, Except.ok_bind, hrest], htable'⟩
  exact hfold [] [] fun _ => rfl

end

/-! ## what a completed epoch leaves -/

/-- the log and the weights artifact of the epoch are as they were -/
def SameRecords (epochId : Int) (w w' : World) : Prop :=
  w'.submissions = w.submissions ∧
    w'.files (.epoch epochId .weights) = w.files (.epoch epochId .weights)

instance (epochId : Int) : IsPreorder World (SameRecords epochId) where
  refl _ := ⟨rfl, rfl⟩
  trans _ _ _ h h' := ⟨h'.1.trans h.1, h'.2.trans h.2⟩

/-- the hook touches neither the log nor the weights artifact -/
def KeepsRecords (epochId : Int) (phaseHook : Option (String → M Unit)) : Prop :=
  ∀ phase, Moves (SameRecords epochId) (emitPhase phaseHook phase)

/-- the end of an epoch with these outcomes, as far as the replay can see it -/
structure EpochRecorded (env : Env) (A : FloatOps) (cfg : SubnetConfig) (epochId quota : Int)
    (active : List String) (outcomes : List (Miner × SubmissionOutcome)) (g : Aggregate)
    (scores : EpochScores) (artifact : Obj) (w' : World) : Prop where
  aggregated : aggregateOutcomes active outcomes = .ok g
  epochScores : scores.epochScores = topKEpochScores A g.minerValues quota
  built : ∃ chainResult createdAt durationMs,
    epochArtifact env cfg epochId quota g scores chainResult createdAt durationMs = .ok artifact
  stored : w'.files (.epoch epochId .weights) = some (.doc (.canon (.obj artifact)))

section
variable {env : Env} {engine : Engine} {substrate : Substrate} {A : FloatOps} {cfg : SubnetConfig}
  {epochId quota : Int} {miners : List Miner} {client : Option ChainClient}
  {phaseHook : Option (String → M Unit)} {session : PanelSession} {r : EpochResult}

theorem sameRecords_atomicWriteJson {p : Path} (hp : p ≠ .epoch epochId .weights)
    (payload : Json) : Moves (SameRecords epochId) (atomicWriteJson env p payload) := fun w => by
  have hput : ∀ content, SameRecords epochId w (World.put p content w.tickClock) :=
    fun content => ⟨rfl, World.put_of_ne hp.symm _ _⟩
  exact wp_effectful (hput _) (fun _ => ⟨rfl, rfl⟩) (fun _ => hput _) ⟨rfl, rfl⟩ (hput _)

theorem sameRecords_writeEpochCompletionMarker (r : ChainWeightResult) :
    Moves (SameRecords epochId) (writeEpochCompletionMarker env epochId r) := by
  refine Moves.ite (Moves.raise _) (Moves.bind (Moves.ofExcept _) fun _ =>
    Moves.bind Moves.get fun _ => Moves.bind (Moves.ofExcept _) fun _ => ?_)
  exact Moves.bind (sameRecords_atomicWriteJson (by simp) _) fun _ =>
    Moves.bind Moves.get fun _ => Moves.bind (Moves.ofExcept _) fun _ => Moves.pure _

theorem sameLog_put (w : World) (p : Path) (content : Content) : SameLog w (w.put p content) :=
  SameLog.of_eq rfl

theorem sameLog_persistPanelSidecar :
    Moves SameLog (persistPanelSidecar env cfg session epochId) := by
  refine Moves.bind (Moves.ofExcept _) fun sidecar => Moves.bind ?_ fun _ =>
    sameLogFrame.atomicWriteJson (fun w => sameLog_put w _) _
  cases sidecar with
  | none => exact Moves.pure _
  | some record =>
    exact Moves.bind (sameLogFrame.writeText (fun w => sameLog_put w _) _) fun _ =>
      Moves.bind Moves.get fun _ => Moves.ofExcept _

theorem recordEpoch_recorded (hhook : KeepsRecords epochId phaseHook) {g : Aggregate}
    {scores : EpochScores} {chainResult : ChainWeightResult} {w w' : World}
    (hrun : recordEpoch env cfg epochId quota session g scores chainResult phaseHook w =
      (.ok r, w')) :
    SameLog w w' ∧ ∃ artifact createdAt durationMs,
      epochArtifact env cfg epochId quota g scores chainResult createdAt durationMs =
        .ok artifact ∧
      w'.files (.epoch epochId .weights) = some (.doc (.canon (.obj artifact))) := by
  obtain ⟨createdAt, w₁, hnow, hrun⟩ := run_bind hrun
  rw [← (Prod.mk.inj hnow).2] at hrun
  obtain ⟨w₂, w₃, hget, hrun⟩ := run_bind hrun
  rw [(run_get hget).1, (run_get hget).2] at hrun
  obtain ⟨artifact, w₄, hartifact, hrun⟩ := run_bind hrun
  obtain ⟨hartifact, hw₄⟩ := run_ofExcept hartifact
  rw [hw₄] at hrun
  obtain ⟨_, w₅, hsnapshot, hrun⟩ := run_bind hrun
  obtain ⟨_, w₆, hpanel, hrun⟩ := run_bind hrun
  obtain ⟨_, w₇, hweights, hrun⟩ := run_bind hrun
  have hlog₇ : SameLog w w₇ := by
    have h₅ : SameLog w w₅ := (sameLogFrame.atomicWriteJson (fun w => sameLog_put w _) _).run hsnapshot
    have h₆ : SameLog w₅ w₆ := sameLog_persistPanelSidecar.run hpanel
    have h₇ : SameLog w₆ w₇ := (sameLogFrame.atomicWriteJson (fun w => sameLog_put w _) _).run hweights
    exact trans_of SameLog (trans_of SameLog h₅ h₆) h₇
  have hstored : w₇.files (.epoch epochId .weights) =
      some (.doc (.canon (.obj artifact))) := by
    rw [run_effectful hweights, World.put_self]
  have hrest : SameRecords epochId w₇ w' := by
    split at hrun
    · exact (run_raise hrun).elim
    · obtain ⟨_, w₈, hmarker, hrun⟩ := run_bind hrun
      obtain ⟨_, w₉, hrolling, hrun⟩ := run_bind hrun
      obtain ⟨_, w₁₀, hcommitted, hrun⟩ := run_bind hrun
      have h₈ : SameRecords epochId w₇ w₈ :=
        (sameRecords_writeEpochCompletionMarker chainResult).run hmarker
      have h₉ : SameRecords epochId w₈ w₉ :=
        (sameRecords_atomicWriteJson (by simp) _).run hrolling
      have h₁₀ : SameRecords epochId w₉ w₁₀ := (hhook "committed").run hcommitted
      rw [← (run_pure hrun).2]
      exact trans_of (SameRecords epochId) (trans_of (SameRecords epochId) h₈ h₉) h₁₀
  refine ⟨trans_of SameLog hlog₇ (SameLog.of_eq hrest.1), artifact, _, _, hartifact, ?_⟩
  rw [hrest.2, hstored]

theorem concludeEpoch_recorded (hhook : KeepsRecords epochId phaseHook)
    {outcomes : List (Miner × SubmissionOutcome)} {w w' : World}
    (hrun : concludeEpoch env substrate A cfg epochId quota miners client phaseHook outcomes session
      w = (.ok r, w')) :
    SameLog w w' ∧ ∃ g scores artifact, EpochRecorded env A cfg epochId quota
      (miners.map (·.hotkey)) outcomes g scores artifact w' := by
  obtain ⟨g, w₁, hg, hrun⟩ := run_bind hrun
  obtain ⟨hg, hw₁⟩ := run_ofExcept hg
  rw [hw₁] at hrun
  obtain ⟨ema, w₂, hload, hrun⟩ := run_bind hrun
  obtain ⟨_, w₃, hphase, hrun⟩ := run_bind hrun
  obtain ⟨chainResult, w₄, hchain, hrun⟩ := run_bind hrun
  obtain ⟨hrecorded, artifact, createdAt, durationMs, hartifact, hstored⟩ :=
    recordEpoch_recorded hhook hrun
  have hload' : Moves SameLog (loadMinerState env epochId) :=
    Moves.bind Moves.get fun _ => Moves.bind (Moves.modify fun _ => SameLog.of_eq rfl) fun _ =>
      Moves.ofExcept _
  have h₂ : SameLog w w₂ := hload'.run hload
  have h₃ : SameLog w₂ w₃ := SameLog.of_eq ((hhook _).run hphase).1
  have h₄ : SameLog w₃ w₄ :=
    (ChainFrame.applyWeights (s := ⟨epochId, _, _, _⟩) (sameLogChainFrame epochId) _ _).run hchain
  refine ⟨trans_of SameLog (trans_of SameLog (trans_of SameLog h₂ h₃) h₄) hrecorded, g, _,
    artifact, hg, rfl, ⟨chainResult, createdAt, durationMs, hartifact⟩, hstored⟩

/-- a completed epoch leaves its artifact, and a row for each outcome after the old rows -/
theorem runEpoch_recorded (hhook : KeepsRecords epochId phaseHook) {w w' : World}
    (hrun : runEpoch env engine substrate A cfg epochId quota miners client phaseHook w =
      (.ok r, w')) :
    ∃ outcomes g scores artifact, EpochRecorded env A cfg epochId quota (miners.map (·.hotkey))
        outcomes g scores artifact w' ∧
      (∃ old rows, readJsonl (w.submissions.getD {}) = .ok rows ∧
        old.foldlM readLine [] = .ok rows ∧ LoggedRows epochId old outcomes w') ∧
      ∀ miner, miner ∈ outcomes.map (·.1) ↔ miner ∈ miners ∧ miner.LeavesRow epochId quota := by
  obtain ⟨_, w₁, hphase, hrun⟩ := run_bind hrun
  obtain ⟨e, w₂, hevaluate, hrun⟩ := run_bind hrun
  have h₁ : w₁.submissions = w.submissions := ((hhook _).run hphase).1
  obtain ⟨⟨old, rows, hread, hlines, hlogged⟩, hminers⟩ := evaluateEpoch_logged hevaluate
  obtain ⟨hsame, g, scores, artifact, hrecorded⟩ := concludeEpoch_recorded hhook hrun
  rw [h₁] at hread
  exact ⟨e.outcomes, g, scores, artifact, hrecorded, ⟨old, rows, hread, hlines,
    hlogged.congr hsame⟩, hminers⟩

end

/-! ## the replay of a completed epoch -/

/-- every row of the log names another epoch -/
def OtherEpochs (epochId : Int) (log : Option Log) : Prop :=
  ∀ rows, readJsonl (log.getD {}) = .ok rows → ∀ row ∈ rows,
    ∃ id, Dict.get? row "epoch_id" = some id ∧ id.eqInt epochId = false

/-- the replay returns, and its scores are those of the stored artifact as maps -/
def ReproducesScores (env : Env) (A : FloatOps) (epochId : Int) (w : World) : Prop :=
  ∃ artifact replay stored, loadArtifact env w.files epochId = .ok artifact ∧
    replayEpoch env A w.files w.submissions epochId = .ok replay ∧
    artifact.index "epoch_scores" = .ok (.obj stored) ∧
    ∀ hotkey, Dict.get? stored hotkey = (Dict.get? replay.epochScores hotkey).map Json.num

section
variable {env : Env} {engine : Engine} {substrate : Substrate} {A : FloatOps} {cfg : SubnetConfig}
  {epochId quota : Int} {miners : List Miner} {client : Option ChainClient}
  {phaseHook : Option (String → M Unit)} {r : EpochResult}

theorem readJsonl_logged {old : List Line} {rows new : List Obj}
    (hold : old.foldlM readLine [] = .ok rows) :
    readJsonl { lines := old ++ new.map fun row => .value (.obj row), tail := none } =
      .ok (rows ++ new) := by
  unfold readJsonl
  dsimp only
  rw [List.foldlM_append, hold, Except.ok_bind, foldlM_readLine_rows]
  rfl

/-- only the new rows are of the epoch -/
theorem epochRows_logged {outcomes : List (Miner × SubmissionOutcome)} {rows new : List Obj}
    (hold : ∀ row ∈ rows, ∃ id, Dict.get? row "epoch_id" = some id ∧ id.eqInt epochId = false)
    (hnew : List.Forall₂ (RowOf epochId) outcomes new) :
    epochRows epochId (rows ++ new) = .ok new := by
  have hids : ∀ row ∈ new, Dict.get? row "epoch_id" = some (.int epochId) := by
    intro row hrow
    induction hnew with
    | nil => exact (List.not_mem_nil hrow).elim
    | cons h _ ih =>
      rcases List.mem_cons.mp hrow with hr | hr
      · rw [hr]
        exact h.epochId
      · exact ih hr
  have hself : Json.eqInt (.int epochId) epochId = true := beq_self_eq_true _
  have hget : ∀ (row : Obj) (id : Json), Dict.get? row "epoch_id" = some id →
      row.get "epoch_id" = id := by
    intro row id h
    unfold Obj.get
    rw [h]
    rfl
  unfold epochRows
  rw [Except.filterM_ok fun row => (Obj.get row "epoch_id").eqInt epochId]
  · rw [List.filter_append]
    have h₁ : rows.filter (fun row => (Obj.get row "epoch_id").eqInt epochId) = [] := by
      rw [List.filter_eq_nil_iff]
      intro row hrow hc
      obtain ⟨id, hid, hother⟩ := hold row hrow
      rw [hget row id hid, hother] at hc
      exact Bool.false_ne_true hc
    have h₂ : new.filter (fun row => (Obj.get row "epoch_id").eqInt epochId) = new := by
      rw [List.filter_eq_self]
      intro row hrow
      rw [hget row _ (hids row hrow)]
      exact hself
    rw [h₁, h₂]
    rfl
  · intro row hrow
    have hid : ∃ id, Dict.get? row "epoch_id" = some id := by
      rcases List.mem_append.mp hrow with hr | hr
      · obtain ⟨id, hid, _⟩ := hold row hr
        exact ⟨id, hid⟩
      · exact ⟨_, hids row hr⟩
    obtain ⟨id, hid⟩ := hid
    rw [index_obj hid, hget row id hid]
    rfl

/-- what the replay finds of a recorded epoch -/
theorem replayEpoch_recorded {active : List String} {outcomes : List (Miner × SubmissionOutcome)}
    {g : Aggregate} {scores : EpochScores} {artifact : Obj} {old : List Line} {rows : List Obj}
    {w : World}
    (h : EpochRecorded env A cfg epochId quota active outcomes g scores artifact w)
    (hlines : old.foldlM readLine [] = .ok rows) (hlogged : LoggedRows epochId old outcomes w)
    (hold : ∀ row ∈ rows, ∃ id, Dict.get? row "epoch_id" = some id ∧ id.eqInt epochId = false) :
    ∃ table replay, HoldsValues (outcomes.map (·.1.hotkey)) outcomes table ∧
      loadArtifact env w.files epochId = .ok (.canon (.obj artifact)) ∧
      replayEpoch env A w.files w.submissions epochId = .ok replay ∧
      replay.epochScores = topKEpochScores A table quota ∧
      Json.index "epoch_scores" (.canon (.obj artifact)) =
        .ok (.obj (scoresRecord scores.epochScores).canon) := by
  obtain ⟨new, hlog, hnew⟩ := hlogged
  obtain ⟨table, htable, hvalues⟩ := replayRows_values env hnew
  obtain ⟨_, _, _, hbuilt⟩ := h.built
  obtain ⟨items, _, hok⟩ := Except.bind_ok hbuilt
  have hfields := Except.ok.inj hok
  have hload : loadArtifact env w.files epochId = .ok (.canon (.obj artifact)) := by
    unfold loadArtifact
    rw [h.stored]
    rfl
  have hindex : ∀ (key : String) (o : Obj), Dict.get? artifact key = some (.obj o) →
      Json.index key (.canon (.obj artifact)) = .ok (.obj o.canon) := by
    intro key o hkey
    rw [Json.canon_obj']
    apply index_obj
    rw [Obj.get?_canon, hkey, Option.map_some, Json.canon_obj']
  have hemaField : Dict.get? artifact "ema_state" = some (.obj (scoresRecord scores.emaState)) := by
    rw [← hfields]
    rfl
  have hweightsField : Dict.get? artifact "weights" = some (.obj (scoresRecord scores.weights)) := by
    rw [← hfields]
    rfl
  obtain ⟨weights, hweights⟩ : ∃ weights,
      replayArtifactWeights env A (.canon (.obj artifact)) = .ok weights :=
    ⟨_, replayArtifactWeights_canon env A hemaField hweightsField⟩
  have hquota : Json.index "quota" (.obj (Obj.canon [("quota", .int quota), ("top_k", .int quota),
      ("ema_alpha", .num cfg.emaAlpha)])) = .ok (.int quota) := by
    apply index_obj
    rw [Obj.get?_canon]
    exact congrArg some (Json.canon_int quota)
  refine ⟨table, { epochScores := topKEpochScores A table quota, weights }, hvalues, hload, ?_, rfl,
    hindex _ _ (by rw [← hfields]; rfl)⟩
  unfold replayEpoch
  rw [hload, Except.ok_bind, hlog]
  dsimp only
  rw [readJsonl_logged hlines, Except.ok_bind, epochRows_logged hold hnew, Except.ok_bind,
    hindex "config" _ (by rw [← hfields]; rfl), Except.ok_bind, hquota, Except.ok_bind]
  show (replayScores env A new quota >>= _) = _
  unfold replayScores
  rw [htable, Except.ok_bind, Except.ok_bind, hweights]
  rfl

variable (A quota) in
/-- the scores agree exactly when the hotkeys of the rows are the active ones -/
theorem scores_agree_iff {active keys : List String} {outcomes : List (Miner × SubmissionOutcome)}
    {live table : Dict String (List ℚ)} (hlive : HoldsValues active outcomes live)
    (htable : HoldsValues keys outcomes table) :
    (∀ hotkey, Dict.get? (scoresRecord (topKEpochScores A live quota)).canon hotkey =
      (Dict.get? (topKEpochScores A table quota) hotkey).map Json.num) ↔
      ∀ hotkey, hotkey ∈ active ↔ hotkey ∈ keys := by
  refine forall_congr' fun hotkey => ?_
  rw [get?_scoresRecord]
  unfold topKEpochScores
  rw [Dict.get?_mapValues, Dict.get?_mapValues, hlive hotkey, htable hotkey]
  by_cases ha : hotkey ∈ active
  · by_cases hk : hotkey ∈ keys
    · rw [if_pos ha, if_pos hk]
      exact iff_of_true rfl (iff_of_true ha hk)
    · rw [if_pos ha, if_neg hk]
      exact iff_of_false (fun h => nomatch h) fun h => hk (h.mp ha)
  · by_cases hk : hotkey ∈ keys
    · rw [if_neg ha, if_pos hk]
      exact iff_of_false (fun h => nomatch h) fun h => ha (h.mpr hk)
    · rw [if_neg ha, if_neg hk]
      exact iff_of_true rfl (iff_of_false ha hk)

/-- every active hotkey has a miner that leaves a row -/
def AllLeaveRows (epochId quota : Int) (miners : List Miner) : Prop :=
  ∀ miner ∈ miners, ∃ m ∈ miners, m.hotkey = miner.hotkey ∧ m.LeavesRow epochId quota

/-- the replay of a completed epoch returns, and how its scores compare -/
theorem runEpoch_replays (hhook : KeepsRecords epochId phaseHook) {w w' : World}
    (hold : OtherEpochs epochId w.submissions)
    (hrun : runEpoch env engine substrate A cfg epochId quota miners client phaseHook w =
      (.ok r, w')) :
    ∃ artifact replay stored, loadArtifact env w'.files epochId = .ok artifact ∧
      replayEpoch env A w'.files w'.submissions epochId = .ok replay ∧
      artifact.index "epoch_scores" = .ok (.obj stored) ∧
      ((∀ hotkey, Dict.get? stored hotkey = (Dict.get? replay.epochScores hotkey).map Json.num) ↔
        AllLeaveRows epochId quota miners) := by
  obtain ⟨outcomes, g, scores, artifact, hrecorded, ⟨old, rows, hread, hlines, hlogged⟩, hminers⟩ :=
    runEpoch_recorded hhook hrun
  obtain ⟨table, replay, hvalues, hload, hreplay, hscores, hstored⟩ :=
    replayEpoch_recorded hrecorded hlines hlogged (hold rows hread)
  have hagree := scores_agree_iff A quota
    (aggregateOutcomes_values hrecorded.aggregated) hvalues
  rw [← hrecorded.epochScores, ← hscores] at hagree
  have hkeys : ∀ hotkey, hotkey ∈ outcomes.map (·.1.hotkey) ↔
      ∃ m ∈ miners, m.hotkey = hotkey ∧ m.LeavesRow epochId quota := by
    intro hotkey
    have hmap : outcomes.map (·.1.hotkey) = (outcomes.map (·.1)).map (·.hotkey) := by
      rw [List.map_map]
      rfl
    rw [hmap, List.mem_map]
    constructor
    · intro h
      obtain ⟨m, hm, he⟩ := h
      obtain ⟨hmem, hrow⟩ := (hminers m).mp hm
      exact ⟨m, hmem, he, hrow⟩
    · intro h
      obtain ⟨m, hmem, he, hrow⟩ := h
      exact ⟨m, (hminers m).mpr ⟨hmem, hrow⟩, he⟩
  have hcondition : (∀ hotkey, hotkey ∈ miners.map (·.hotkey) ↔
      hotkey ∈ outcomes.map (·.1.hotkey)) ↔ AllLeaveRows epochId quota miners := by
    constructor
    · intro h miner hm
      exact (hkeys _).mp ((h _).mp (List.mem_map.mpr ⟨miner, hm, rfl⟩))
    · intro h hotkey
      rw [hkeys, List.mem_map]
      constructor
      · intro hm
        obtain ⟨miner, hmem, he⟩ := hm
        rw [← he]
        exact h miner hmem
      · intro hm
        obtain ⟨m, hmem, he, _⟩ := hm
        exact ⟨m, hmem, he⟩
  exact ⟨_, replay, _, hload, hreplay, hstored, hagree.trans hcondition⟩

/-- **The replay reproduces the scores** of a completed epoch exactly when every active hotkey has
a miner that is terminal or has returned a submission. -/
theorem reproducesScores_iff (hhook : KeepsRecords epochId phaseHook) {w w' : World}
    (hold : OtherEpochs epochId w.submissions)
    (hrun : runEpoch env engine substrate A cfg epochId quota miners client phaseHook w =
      (.ok r, w')) :
    ReproducesScores env A epochId w' ↔ AllLeaveRows epochId quota miners := by
  obtain ⟨artifact, replay, stored, hload, hreplay, hstored, hiff⟩ :=
    runEpoch_replays hhook hold hrun
  rw [← hiff]
  constructor
  · intro h
    obtain ⟨artifact', replay', stored', hload', hreplay', hstored', hget⟩ := h
    rw [hload] at hload'
    rw [← Except.ok.inj hload', hstored] at hstored'
    rw [hreplay] at hreplay'
    rw [Except.ok.inj hreplay', Json.obj.inj (Except.ok.inj hstored')]
    exact hget
  · intro h
    exact ⟨artifact, replay, stored, hload, hreplay, hstored, h⟩

end

section

theorem keepsRecords_none (epochId : Int) : KeepsRecords epochId none := fun _ =>
  Moves.pure _

/-- a reachable miner that returns no submission -/
def silentMiner : Miner := { hotkey := "a", uid := 1 }

/-- the epoch of one miner completes when its evaluation leaves no files and no hashes -/
theorem plain_epoch_completes (miner : Miner) {e : Evaluation} {w₁ : World}
    (he : evaluateEpoch Env.plain Engine.plain exactOps {} 1 4 [miner] {} = (.ok e, w₁))
    (hsession : e.session.entries = []) (hfiles : w₁.files = fun _ => none)
    (hminers : ∀ p ∈ e.outcomes, p.1 = miner ∧ p.2.packageHash.truthy = false) :
    ∃ r w', runEpoch Env.plain Engine.plain offlineSubstrate exactOps {} 1 4 [miner] none none {} =
      (.ok r, w') := by
  have hcompletes : Completes Env.plain offlineSubstrate exactOps {} 1 4 [miner] none none e.outcomes
      e.session w₁ := by
    have hload : minerStateOf Env.plain (w₁.files .minerState) = .ok [] := by
      rw [hfiles]
      rfl
    refine completes_of_comparable (fun _ => rfl) (fun p hp => ?_) hload
      (chainAnswers_null _ _ _ _ _ _ _ _ ⟨by rw [hfiles], by rw [hfiles]⟩) (fun entry h => ?_)
      (.inl fun p hp ht => ?_)
    · rw [(hminers p hp).1]
      exact List.mem_singleton_self _
    · rw [hsession] at h
      exact (List.not_mem_nil h).elim
    · rw [(hminers p hp).2] at ht
      exact (Bool.false_ne_true ht).elim
  obtain ⟨r, w', hrun, _⟩ := hcompletes
  refine ⟨r, w', ?_⟩
  rw [← hrun]
  show (Proc.bind (evaluateEpoch Env.plain Engine.plain exactOps {} 1 4 [miner]) _) {} = _
  unfold Proc.bind
  rw [he]

theorem otherEpochs_none (epochId : Int) : OtherEpochs epochId none := by
  intro rows h row hrow
  rw [← Except.ok.inj (show Except.ok [] = Except.ok rows from h)] at hrow
  exact (List.not_mem_nil hrow).elim

/-- a miner with a submission that is paid -/
def paidMiner : Miner :=
  { hotkey := "a", uid := 1, submissions := fun _ _ => [samplePayload "x"] }

/-- an archive whose log holds a row of epoch 0 -/
def earlierWorld : World where
  submissions := some { lines := [.value (.obj [("epoch_id", .int 0), ("miner_hotkey", .str "a"),
    ("status", .str "accepted"), ("task_value", .num 1)])] }

theorem otherEpochs_earlier : OtherEpochs 1 earlierWorld.submissions := by
  intro rows h row hrow
  have hrows : [[("epoch_id", Json.int 0), ("miner_hotkey", .str "a"), ("status", .str "accepted"),
      ("task_value", .num 1)]] = rows := Except.ok.inj h
  rw [← hrows] at hrow
  rw [List.mem_singleton.mp hrow]
  exact ⟨.int 0, rfl, rfl⟩

def epochReturned : Outcome Exn EpochResult → Bool
  | .ok _ => true
  | .raise _ => false
  | .killed => false

theorem of_epochReturned {o : Outcome Exn EpochResult} (h : epochReturned o = true) :
    ∃ r, o = .ok r := by
  cases o with
  | ok r => exact ⟨r, rfl⟩
  | raise e => exact (Bool.false_ne_true h).elim
  | killed => exact (Bool.false_ne_true h).elim

theorem reproducesScores_sample : ∃ r w',
    runEpoch Env.plain isolatedEngine offlineSubstrate exactOps dockerConfig 1 4 [paidMiner] none
      none earlierWorld = (.ok r, w') ∧ ReproducesScores Env.plain exactOps 1 w' := by
  have hreturned : epochReturned (runEpoch Env.plain isolatedEngine offlineSubstrate exactOps
      dockerConfig 1 4 [paidMiner] none none earlierWorld).1 = true := by decide +kernel
  cases hrun : runEpoch Env.plain isolatedEngine offlineSubstrate exactOps dockerConfig 1 4
      [paidMiner] none none earlierWorld with
  | mk o w' =>
    rw [hrun] at hreturned
    obtain ⟨r, rfl⟩ := of_epochReturned hreturned
    refine ⟨r, w', rfl, (reproducesScores_iff (keepsRecords_none 1) otherEpochs_earlier
      hrun).mpr fun miner hm => ⟨miner, hm, rfl, .inr ?_⟩⟩
    rw [List.mem_singleton.mp hm]
    exact List.cons_ne_nil _ _

/-- a reachable miner without submissions is scored and leaves no row -/
theorem silent_miner_is_not_replayed :
    ¬ ∀ (env : Env) (engine : Engine) (substrate : Substrate) (A : FloatOps) (cfg : SubnetConfig)
        (epochId quota : Int) (miners : List Miner) (client : Option ChainClient)
        (phaseHook : Option (String → M Unit)) (r : EpochResult) (w w' : World),
      KeepsRecords epochId phaseHook → OtherEpochs epochId w.submissions →
      runEpoch env engine substrate A cfg epochId quota miners client phaseHook w = (.ok r, w') →
      ReproducesScores env A epochId w' := by
  intro h
  obtain ⟨r, w', hrun⟩ := plain_epoch_completes silentMiner rfl rfl rfl fun p hp =>
    (List.not_mem_nil hp).elim
  obtain ⟨artifact', replay', stored', hload', hreplay', hstored', hget⟩ :=
    h _ _ _ _ _ _ _ _ _ _ _ _ _ (keepsRecords_none 1) (otherEpochs_none 1) hrun
  obtain ⟨artifact, replay, stored, hload, hreplay, hstored, hiff⟩ :=
    runEpoch_replays (keepsRecords_none 1) (otherEpochs_none 1) hrun
  rw [hload] at hload'
  rw [← Except.ok.inj hload', hstored] at hstored'
  rw [hreplay] at hreplay'
  rw [← Except.ok.inj hreplay', ← Json.obj.inj (Except.ok.inj hstored')] at hget
  obtain ⟨m, hm, _, hrow⟩ := hiff.mp hget silentMiner (List.mem_singleton_self _)
  rw [List.mem_singleton.mp hm] at hrow
  rcases hrow with ht | hne
  · exact Bool.false_ne_true ht
  · exact hne rfl

end

end Dolores
