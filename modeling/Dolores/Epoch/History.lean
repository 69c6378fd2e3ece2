import Dolores.Chain.Frame
import Dolores.Score.Grid
import Dolores.Epoch.Conclude
import Dolores.Epoch.Permute
import Dolores.Epoch.Weights

/-!
# Scores and weights over a history of epochs

The rolling miner state starts absent; an epoch loads it, scores its outcomes and stores the new
moving averages, so that a history of epochs is a chain of contents of that file.

* `concludeEpoch_rolling`    every run of `concludeEpoch` leaves the rolling file alone or extends
                             the history by its scores;
* `values_mem`               the values of the miners are those of the outcomes;
* `weights_zero_iff`, `weights_proper`   the two branches of the normalisation;
* `minerStateOf_record`      what is stored is what is loaded;
* `scores_stay_in_range`     scores, moving averages and weights over any history.
-/

set_option linter.unusedSectionVars false

namespace Dolores
open Crash

/-! ## histories -/

/-- `ema_alpha` -/
def defaultAlpha : ℚ := 3 / 10

/-- what `run_epoch` computes from the outcomes and the content of the rolling file -/
def scoredEpoch (env : Env) (A : FloatOps) (emaAlpha : ℚ) (quota : Int) (active : List String)
    (outcomes : List (Miner × SubmissionOutcome)) (content : Option Content) :
    Except Exn EpochScores := do
  let g ← aggregateOutcomes active outcomes
  let previousEma ← minerStateOf env content
  .ok (scoreEpoch A emaAlpha quota active previousEma g (outcomes.map (·.2.status)))

/-- what an epoch stores in the rolling file -/
def EpochScores.content (scores : EpochScores) : Content :=
  .doc (Json.canon (.obj (scoresRecord scores.emaState)))

structure ScoredEpoch where
  quota : Int
  active : List String
  scores : EpochScores

def UnitValues (outcomes : List (Miner × SubmissionOutcome)) : Prop :=
  ∀ p ∈ outcomes, 0 ≤ p.2.taskValue ∧ p.2.taskValue ≤ 1

/-- the contents of the rolling file, and the epochs that led to them -/
inductive History (env : Env) : Option Content → List ScoredEpoch → Prop
  | start : History env none []
  | epoch {content : Option Content} {past : List ScoredEpoch} {quota : Int}
      {active : List String} {outcomes : List (Miner × SubmissionOutcome)} {scores : EpochScores} :
      History env content past → 1 ≤ quota → quota ≤ 4 → UnitValues outcomes →
      scoredEpoch env exactOps defaultAlpha quota active outcomes content = .ok scores →
      History env (some scores.content) (past ++ [⟨quota, active, scores⟩])

/-! ## the rolling file in a run -/

/-- the rolling file is the same -/
def SameRolling (w w' : World) : Prop := w'.files .minerState = w.files .minerState

instance : IsPreorder World SameRolling where
  refl _ := rfl
  trans _ _ _ h h' := h'.trans h

theorem rollingFrame (epochId : Int) : ChainFrame epochId SameRolling where
  clock _ := rfl
  connected _ := rfl
  receipt _ _ := World.put_of_ne (by simp) _ _
  attempt _ _ := World.put_of_ne (by simp) _ _
  setWeights _ _ _ _ := rfl

/-- the rolling file is the same, or it is what the epoch stores -/
def RollingAfter (scores : EpochScores) (w w' : World) : Prop :=
  SameRolling w w' ∨ w'.files .minerState = some scores.content

theorem SameRolling.after {scores : EpochScores} {w w₁ w' : World} (h : SameRolling w w₁)
    (h' : RollingAfter scores w₁ w') : RollingAfter scores w w' := by
  rcases h' with h' | h'
  · exact .inl (trans_of SameRolling h h')
  · exact .inr h'

section
variable {env : Env} {engine : Engine} {substrate : Substrate} {A : FloatOps} {cfg : SubnetConfig}
  {epochId quota : Int} {phaseHook : Option (String → M Unit)}

/-- a step that keeps the rolling file, before one that may store the averages -/
theorem wp_bind_sameRolling {α β : Type} {scores : EpochScores} {p : M α} {f : α → M β}
    {w w₀ : World} (hw : SameRolling w₀ w) (hp : Moves SameRolling p)
    (hf : ∀ a w', SameRolling w₀ w' → wp (f a) (Post.always (RollingAfter scores w₀)) w') :
    wp (p >>= f) (Post.always (RollingAfter scores w₀)) w := by
  rw [wp_bind]
  refine wp_mono (hp w) (fun a w' h => hf a w' (trans_of SameRolling hw h)) ?_ ?_
  · intro _ w' h
    exact .inl (trans_of SameRolling hw h)
  · intro w' h
    exact .inl (trans_of SameRolling hw h)

theorem keepsRolling_json (F : ClockFrame SameRolling) (file : EpochFile) (payload : Json) :
    Moves SameRolling (atomicWriteJson env (.epoch epochId file) payload) :=
  F.atomicWriteJson (fun _ _ => World.put_of_ne (by simp) _ _) payload

theorem keepsRolling_sidecar (F : ClockFrame SameRolling) (session : PanelSession) :
    Moves SameRolling (persistPanelSidecar env cfg session epochId) := by
  unfold persistPanelSidecar
  refine Moves.bind (Moves.ofExcept _) fun sidecar => ?_
  cases sidecar with
  | none => exact Moves.bind (Moves.pure _) fun _ => keepsRolling_json F _ _
  | some sidecar =>
    refine Moves.bind (Moves.bind ?_ fun _ => Moves.bind Moves.get fun _ => Moves.ofExcept _)
      fun _ => keepsRolling_json F _ _
    exact F.writeText (fun _ _ => World.put_of_ne (by simp) _ _) _

theorem keepsRolling_marker (F : ClockFrame SameRolling) (r : ChainWeightResult) :
    Moves SameRolling (writeEpochCompletionMarker env epochId r) := by
  unfold writeEpochCompletionMarker
  refine Moves.ite (Moves.raise _) (Moves.bind (Moves.ofExcept _) fun _ => ?_)
  refine Moves.bind Moves.get fun _ => Moves.bind (Moves.ofExcept _) fun _ => ?_
  refine Moves.bind (keepsRolling_json F _ _) fun _ => ?_
  exact Moves.bind Moves.get fun _ => Moves.bind (Moves.ofExcept _) fun _ => Moves.pure _

/-- the record of an epoch stores the moving averages last, and nothing else in that file -/
theorem recordEpoch_rolling (hhook : ∀ phase, Moves SameRolling (emitPhase phaseHook phase))
    (session : PanelSession) (g : Aggregate) (scores : EpochScores) (r : ChainWeightResult)
    {w w₀ : World} (hw : SameRolling w₀ w) :
    wp (recordEpoch env cfg epochId quota session g scores r phaseHook)
      (Post.always (RollingAfter scores w₀)) w := by
  have F : ClockFrame SameRolling := (rollingFrame epochId).toClockFrame
  have hnow : Moves SameRolling (now env) := fun w => by
    rw [wp_now]
    exact refl_of SameRolling w
  unfold recordEpoch
  refine wp_bind_sameRolling hw hnow fun _ w₁ h₁ => ?_
  refine wp_bind_sameRolling h₁ Moves.get fun _ w₂ h₂ => ?_
  refine wp_bind_sameRolling h₂ (Moves.ofExcept _) fun _ w₃ h₃ => ?_
  refine wp_bind_sameRolling h₃ (keepsRolling_json F _ _) fun _ w₄ h₄ => ?_
  refine wp_bind_sameRolling h₄ (keepsRolling_sidecar F _) fun _ w₅ h₅ => ?_
  refine wp_bind_sameRolling h₅ (keepsRolling_json F _ _) fun _ w₆ h₆ => ?_
  refine wp_ite (fun _ => .inl h₆) (fun _ => ?_)
  refine wp_bind_sameRolling h₆ (keepsRolling_marker F r) fun _ w₇ h₇ => ?_
  -- a crash at this write may come before or after it
  have hstored : ∀ w' : World, (w'.put .minerState scores.content).files .minerState =
      some scores.content := fun w' => World.put_self _ _ _
  rw [wp_bind]
  refine wp_effectful ?_ (fun _ => .inl h₇) (fun _ => .inr (hstored _)) (.inl h₇)
    (.inr (hstored _))
  dsimp only
  rw [wp_bind]
  refine wp_mono (hhook "committed" _) (fun _ w' h => ?_) (fun _ w' h => ?_) (fun w' h => ?_)
  · exact .inr (h.trans (hstored _))
  · exact .inr (h.trans (hstored _))
  · exact .inr (h.trans (hstored _))

/-- **A run of the end of an epoch is a step of the history**, however it ends: the rolling file
is left alone, or it holds the averages that the epoch computed from it. -/
theorem concludeEpoch_rolling (hhook : ∀ phase, Moves SameRolling (emitPhase phaseHook phase))
    {past : List ScoredEpoch} {miners : List Miner}
    {outcomes : List (Miner × SubmissionOutcome)} {w : World}
    (h : History env (w.files .minerState) past) (hlow : 1 ≤ quota) (hhigh : quota ≤ 4)
    (hvalues : UnitValues outcomes) (halpha : cfg.emaAlpha = defaultAlpha)
    (client : Option ChainClient) (session : PanelSession) :
    wp (concludeEpoch env substrate exactOps cfg epochId quota miners client phaseHook outcomes
        session)
      (Post.always fun w' => w'.files .minerState = w.files .minerState ∨
        ∃ scores, History env (w'.files .minerState)
          (past ++ [⟨quota, miners.map (·.hotkey), scores⟩])) w := by
  unfold concludeEpoch
  dsimp only
  rw [wp_bind]
  cases hg : aggregateOutcomes (miners.map (·.hotkey)) outcomes with
  | error e => exact .inl rfl
  | ok g =>
    rw [wp_ofExcept_ok]
    dsimp only
    unfold loadMinerState
    rw [wp_bind, wp_bind, wp_get]
    dsimp only
    rw [wp_bind, wp_logEvent]
    dsimp only
    cases hprevious : minerStateOf env (w.files .minerState) with
    | error e => exact .inl rfl
    | ok previous =>
      rw [wp_ofExcept_ok]
      dsimp only
      generalize hscores : scoreEpoch exactOps cfg.emaAlpha quota (miners.map (·.hotkey)) previous
        g (outcomes.map (·.2.status)) = scores
      have hscored : scoredEpoch env exactOps defaultAlpha quota (miners.map (·.hotkey)) outcomes
          (w.files .minerState) = .ok scores := by
        unfold scoredEpoch
        rw [hg, Except.ok_bind, hprevious, Except.ok_bind, ← halpha, hscores]
      have hstep := History.epoch h hlow hhigh hvalues hscored
      have hrolling : wp (do
          emitPhase phaseHook "weights_submitting"
          let chainResult ← (client.getD .null).applyWeights env substrate exactOps
            { epochId, weights := scores.weights, activeHotkeys := miners.map (·.hotkey)
              specVersion := cfg.specVersion } (scores.weightReason.getD "offline")
          recordEpoch env cfg epochId quota session g scores chainResult phaseHook)
          (Post.always (RollingAfter scores w))
          (w.log (.emaLoaded epochId (w.files .minerState))) := by
        refine wp_bind_sameRolling rfl (hhook _) fun _ w₁ h₁ => ?_
        refine wp_bind_sameRolling h₁ ((rollingFrame epochId).applyWeights _ _) fun r w₂ h₂ => ?_
        exact recordEpoch_rolling hhook session g scores r h₂
      refine wp_mono hrolling (fun _ w' h' => ?_) (fun _ w' h' => ?_) (fun w' h' => ?_)
      all_goals
        rcases h' with h' | h'
        · exact .inl h'
        · refine .inr ⟨scores, ?_⟩
          rw [h']
          exact hstep

end

/-! ## what is stored and loaded -/

theorem canon_scoresRecord (scores : Dict String ℚ) :
    (scoresRecord scores).canon = scoresRecord scores := by
  have hnums : Dict.mapValues Json.canon (scoresRecord scores) = scoresRecord scores := by
    unfold scoresRecord Dict.mapValues
    rw [List.map_map]
    apply List.map_congr_left
    intro p _
    exact congrArg (Prod.mk p.1) (Json.canon_num p.2)
  unfold Obj.canon
  rw [hnums]
  apply Dict.sorted_eq_of_sorted
  unfold scoresRecord Dict.mapValues
  rw [List.pairwise_map]
  exact Dict.sorted_pairwise scores

/-- what is stored is what is loaded -/
theorem minerStateOf_record (env : Env) (scores : EpochScores) :
    minerStateOf env (some scores.content) = .ok scores.emaState.sorted := by
  unfold EpochScores.content
  rw [Json.canon_obj', canon_scoresRecord]
  show (scoresRecord scores.emaState).mapM _ = _
  rw [Except.mapM_ok (fun p => (p.1, p.2.number?.getD 0))]
  · unfold scoresRecord Dict.mapValues
    rw [List.map_map]
    exact congrArg Except.ok (List.map_id _)
  · intro p hp
    obtain ⟨q, hq⟩ := mem_scoresRecord hp
    rw [hq]
    rfl

theorem getD_sorted (d : Dict String ℚ) (k : String) (v : ℚ) : d.sorted.getD k v = d.getD k v := by
  unfold Dict.getD
  rw [Dict.get?_sorted]

/-! ## the values of the miners -/

section
variable {active : List String} {outcomes : List (Miner × SubmissionOutcome)} {g : Aggregate}

theorem mem_set {d : Dict String (List ℚ)} {k : String} {v : List ℚ} {p : String × List ℚ}
    (h : p ∈ d.set k v) : p = (k, v) ∨ p ∈ d := by
  induction d with
  | nil => exact .inl (List.mem_singleton.mp h)
  | cons q d ih =>
    unfold Dict.set at h
    split at h
    next heq =>
      rcases List.mem_cons.mp h with h | h
      · rw [h, beq_iff_eq.mp heq]
        exact .inl rfl
      · exact .inr (List.mem_cons_of_mem q h)
    next =>
      rcases List.mem_cons.mp h with h | h
      · rw [h]
        exact .inr List.mem_cons_self
      · exact (ih h).imp id (List.mem_cons_of_mem q)

/-- every listed value is the value of an outcome -/
theorem values_mem (h : aggregateOutcomes active outcomes = .ok g) (hvalues : UnitValues outcomes) :
    ∀ p ∈ g.minerValues, ∀ v ∈ p.2, 0 ≤ v ∧ v ≤ 1 := by
  have hinv : ∀ p ∈ g.minerValues, ∀ v ∈ p.2, ∃ q ∈ outcomes, v = q.2.taskValue := by
    refine Except.foldlM_invariant (fun done g => ∀ p ∈ g.minerValues, ∀ v ∈ p.2,
      ∃ q ∈ done, v = q.2.taskValue) ?_ ?_ h
    · intro done g q g' hg hstep
      have hg' : g'.minerValues = (addToMiner g q).minerValues := by
        rw [aggregateOutcome_eq] at hstep
        split at hstep
        · cases hstep
        · split at hstep
          · rw [← Except.ok.inj hstep]
          · split at hstep
            · cases hstep
            · rw [← Except.ok.inj hstep]
      have hold : ∀ p ∈ g.minerValues, ∀ v ∈ p.2, ∃ r ∈ done ++ [q], v = r.2.taskValue := by
        intro p hp v hv
        obtain ⟨r, hr, hvr⟩ := hg p hp v hv
        exact ⟨r, List.mem_append_left _ hr, hvr⟩
      rw [hg']
      unfold addToMiner
      dsimp only
      split
      · unfold Dict.modify
        cases hk : Dict.get? g.minerValues q.1.hotkey with
        | none => exact hold
        | some vs =>
          intro p hp v hv
          rcases mem_set hp with hp | hp
          · rw [hp] at hv
            rcases List.mem_append.mp hv with hv | hv
            · exact hold _ (Dict.mem_of_get? hk) v hv
            · exact ⟨q, List.mem_append_right _ (List.mem_singleton_self q),
                List.mem_singleton.mp hv⟩
          · exact hold p hp v hv
      · exact hold
    · intro p hp v hv
      unfold newAggregate Dict.ofPairs at hp
      dsimp only at hp
      -- the lists are empty at the start
      have hempty : ∀ (ks : List String) (d : Dict String (List ℚ)), (∀ p ∈ d, p.2 = []) →
          ∀ p ∈ (ks.map fun k => (k, ([] : List ℚ))).foldl (fun d p => d.set p.1 p.2) d,
            p.2 = [] := by
        intro ks
        induction ks with
        | nil => exact fun d hd => hd
        | cons k ks ih =>
          intro d hd
          apply ih
          intro p hp
          rcases mem_set hp with hp | hp
          · rw [hp]
          · exact hd p hp
      rw [hempty active [] (fun p hp => (List.not_mem_nil hp).elim) p hp] at hv
      exact (List.not_mem_nil hv).elim
  intro p hp v hv
  obtain ⟨q, hq, hvq⟩ := hinv p hp v hv
  rw [hvq]
  exact hvalues q hq

end

/-! ## the weights -/

section
variable {ema : Dict String ℚ} {active : List String}

/-- what the moving averages of the active miners sum to -/
def activeTotal (ema : Dict String ℚ) (active : List String) : ℚ :=
  (clippedScores ema (liveOrder active)).sum

theorem mem_liveOrder {hotkey : String} : hotkey ∈ liveOrder active ↔ hotkey ∈ active :=
  Dict.mem_firstAppearances

theorem clippedScores_nonneg : ∀ q ∈ clippedScores ema (liveOrder active), 0 ≤ q := by
  intro q hq
  obtain ⟨k, _, hk⟩ := List.mem_map.mp hq
  rw [← hk]
  exact le_max_left _ _

theorem activeTotal_nonneg : 0 ≤ activeTotal ema active := List.sum_nonneg clippedScores_nonneg

/-- no clipped average exceeds the total -/
theorem clipped_le_total {hotkey : String} (h : hotkey ∈ active) :
    clipZero (ema.getD hotkey 0) ≤ activeTotal ema active :=
  List.single_le_sum clippedScores_nonneg _ (List.mem_map.mpr ⟨hotkey, mem_liveOrder.mpr h, rfl⟩)

theorem activeTotal_eq_zero_iff (hema : ∀ hotkey, 0 ≤ ema.getD hotkey 0) :
    activeTotal ema active = 0 ↔ ∀ hotkey ∈ active, ema.getD hotkey 0 = 0 := by
  constructor
  · intro h hotkey hmem
    have hle := @clipped_le_total ema _ _ hmem
    rw [h, clipZero_of_nonneg (hema hotkey)] at hle
    exact le_antisymm hle (hema hotkey)
  · intro h
    apply List.sum_eq_zero
    intro q hq
    obtain ⟨k, hk, hkq⟩ := List.mem_map.mp hq
    rw [← hkq, h k (mem_liveOrder.mp hk)]
    rfl

theorem weights_eq : normalizeActiveWeights exactOps ema active = (liveOrder active).map fun k =>
    (k, weightOf exactOps (activeTotal ema active) (clipZero (ema.getD k 0))) := by
  rw [normalizeActiveWeights_eq, exactOps_sum]
  rfl

theorem get?_weights (hotkey : String) :
    Dict.get? (normalizeActiveWeights exactOps ema active) hotkey =
      if hotkey ∈ active then
        some (weightOf exactOps (activeTotal ema active) (clipZero (ema.getD hotkey 0)))
      else none := by
  rw [weights_eq, Dict.get?_map_keys]
  by_cases h : hotkey ∈ active
  · rw [if_pos h, if_pos (mem_liveOrder.mpr h)]
  · rw [if_neg h, if_neg fun hl => h (mem_liveOrder.mp hl)]

theorem weightOf_pos {total score : ℚ} (h : 0 < total) :
    weightOf exactOps total score = score / total := by
  unfold weightOf
  rw [if_neg (not_le.mpr h)]
  rfl

theorem weights_zero_iff (hema : ∀ hotkey, 0 ≤ ema.getD hotkey 0) :
    (∀ p ∈ normalizeActiveWeights exactOps ema active, p.2 = 0) ↔
      ∀ hotkey ∈ active, ema.getD hotkey 0 = 0 := by
  rw [weights_eq, ← activeTotal_eq_zero_iff hema]
  constructor
  · intro h
    by_contra hne
    have hpos : 0 < activeTotal ema active := activeTotal_nonneg.lt_of_ne (Ne.symm hne)
    apply hne
    rw [activeTotal_eq_zero_iff hema]
    intro hotkey hmem
    have hweight := h _ (List.mem_map.mpr ⟨hotkey, mem_liveOrder.mpr hmem, rfl⟩)
    dsimp only at hweight
    rw [weightOf_pos hpos, div_eq_zero_iff, clipZero_of_nonneg (hema hotkey)] at hweight
    exact hweight.resolve_right hne
  · intro h p hp
    obtain ⟨k, _, hk⟩ := List.mem_map.mp hp
    rw [← hk]
    show weightOf exactOps (activeTotal ema active) _ = 0
    unfold weightOf
    rw [if_pos h.le]

/-- weights in the unit interval that sum to one and are proportional to the averages -/
structure ProperWeights (ema : Dict String ℚ) (active : List String) (weights : Dict String ℚ) :
    Prop where
  range : ∀ p ∈ weights, 0 ≤ p.2 ∧ p.2 ≤ 1
  sum : weights.values.sum = 1
  ratio : ∀ hotkey ∈ active, ∀ hotkey' ∈ active,
    weights.getD hotkey 0 * ema.getD hotkey' 0 = weights.getD hotkey' 0 * ema.getD hotkey 0

theorem sum_map_div (values : List ℚ) (total : ℚ) :
    (values.map (· / total)).sum = values.sum / total := by
  induction values with
  | nil => exact (zero_div total).symm
  | cons v values ih => rw [List.map_cons, List.sum_cons, List.sum_cons, ih, add_div]

theorem weights_proper (hema : ∀ hotkey, 0 ≤ ema.getD hotkey 0)
    (h : ¬ ∀ hotkey ∈ active, ema.getD hotkey 0 = 0) :
    ProperWeights ema active (normalizeActiveWeights exactOps ema active) := by
  have hne : activeTotal ema active ≠ 0 := fun h0 => h ((activeTotal_eq_zero_iff hema).mp h0)
  have hpos : 0 < activeTotal ema active := activeTotal_nonneg.lt_of_ne (Ne.symm hne)
  have hget : ∀ hotkey ∈ active, (normalizeActiveWeights exactOps ema active).getD hotkey 0 =
      ema.getD hotkey 0 / activeTotal ema active := by
    intro hotkey hmem
    unfold Dict.getD
    rw [get?_weights, if_pos hmem, weightOf_pos hpos]
    exact congrArg (· / activeTotal ema active) (clipZero_of_nonneg (hema hotkey))
  refine ⟨?_, ?_, ?_⟩
  · intro p hp
    rw [weights_eq] at hp
    obtain ⟨k, hk, hkp⟩ := List.mem_map.mp hp
    rw [← hkp]
    show 0 ≤ weightOf exactOps _ _ ∧ weightOf exactOps _ _ ≤ 1
    rw [weightOf_pos hpos]
    refine ⟨div_nonneg (le_max_left _ _) hpos.le, ?_⟩
    rw [div_le_one hpos]
    exact clipped_le_total (mem_liveOrder.mp hk)
  · have hvalues : (normalizeActiveWeights exactOps ema active).values =
        (clippedScores ema (liveOrder active)).map (· / activeTotal ema active) := by
      rw [weights_eq]
      unfold Dict.values clippedScores
      rw [List.map_map, List.map_map]
      apply List.map_congr_left
      intro k _
      exact weightOf_pos hpos
    rw [hvalues, sum_map_div]
    exact div_self hne
  · intro hotkey hmem hotkey' hmem'
    rw [hget hotkey hmem, hget hotkey' hmem']
    ring

end

/-! ## the ranges -/

/-- the stored averages are multiples of a millionth between zero and four -/
def EmaInRange (ema : Dict String ℚ) : Prop :=
  ∀ hotkey, OnGrid (ema.getD hotkey 0) ∧ 0 ≤ ema.getD hotkey 0 ∧ ema.getD hotkey 0 ≤ 4

structure ScoredEpoch.InRange (e : ScoredEpoch) : Prop where
  scores : ∀ p ∈ e.scores.epochScores, 0 ≤ p.2 ∧ p.2 ≤ e.quota
  averages : ∀ p ∈ e.scores.emaState, OnGrid p.2 ∧ 0 ≤ p.2 ∧ p.2 ≤ 4
  zero : (∀ p ∈ e.scores.weights, p.2 = 0) ↔
    ∀ hotkey ∈ e.active, e.scores.emaState.getD hotkey 0 = 0
  proper : (∀ p ∈ e.scores.weights, p.2 = 0) ∨
    ProperWeights e.scores.emaState e.active e.scores.weights
  active : ∀ hotkey, Dict.contains e.scores.weights hotkey = true ↔ hotkey ∈ e.active

theorem emaInRange_empty : EmaInRange [] := fun _ => ⟨onGrid_zero, le_rfl, by norm_num [Dict.getD]⟩

theorem onGrid_four : OnGrid 4 := by exact_mod_cast onGrid_intCast 4

section
variable {quota : Int} {active : List String} {previous : Dict String ℚ} {g : Aggregate}
  {statuses : List String}

/-- one epoch keeps the averages in range -/
theorem EmaInRange.step (hprevious : EmaInRange previous) {epochScores : Dict String ℚ}
    (hscores : ∀ hotkey, 0 ≤ epochScores.getD hotkey 0 ∧ epochScores.getD hotkey 0 ≤ 4)
    (infra : List String) :
    EmaInRange (updateEmaScores exactOps previous epochScores defaultAlpha infra) := by
  intro hotkey
  rw [getD_updateEmaScores]
  refine ⟨onGrid_emaValue, ?_⟩
  apply emaValue_mem onGrid_zero onGrid_four ?_ (hprevious hotkey).2 (hscores hotkey)
  unfold defaultAlpha
  norm_num

/-- the scores of an epoch whose values are in range -/
theorem epochScores_mem (hlow : 1 ≤ quota)
    (hvalues : ∀ p ∈ g.minerValues, ∀ v ∈ p.2, 0 ≤ v ∧ v ≤ 1) :
    ∀ p ∈ topKEpochScores exactOps g.minerValues quota, 0 ≤ p.2 ∧ p.2 ≤ quota := by
  intro p hp
  obtain ⟨q, hq, hqp⟩ := List.mem_map.mp hp
  have hk : ((quota.toNat : Nat) : Int) = quota := Int.toNat_of_nonneg (by omega)
  have hmem := topK_mem (hvalues q hq) quota.toNat
  rw [hk] at hmem
  have hcast : ((quota.toNat : Nat) : ℚ) = (quota : ℚ) := by exact_mod_cast congrArg Int.cast hk
  rw [hcast] at hmem
  rw [← hqp]
  exact hmem

theorem getD_mem {d : Dict String ℚ} {P : ℚ → Prop} (hd : ∀ p ∈ d, P p.2) (h0 : P 0)
    (hotkey : String) : P (d.getD hotkey 0) := by
  unfold Dict.getD
  cases hk : d.get? hotkey with
  | none => exact h0
  | some q => exact hd _ (Dict.mem_of_get? hk)

theorem scoreEpoch_inRange (hlow : 1 ≤ quota) (hhigh : quota ≤ 4)
    (hvalues : ∀ p ∈ g.minerValues, ∀ v ∈ p.2, 0 ≤ v ∧ v ≤ 1) (hprevious : EmaInRange previous) :
    ScoredEpoch.InRange ⟨quota, active,
      scoreEpoch exactOps defaultAlpha quota active previous g statuses⟩ ∧
    EmaInRange (scoreEpoch exactOps defaultAlpha quota active previous g statuses).emaState := by
  have hscores := epochScores_mem hlow hvalues
  have hquota : (quota : ℚ) ≤ 4 := by exact_mod_cast hhigh
  have hquota' : (0 : ℚ) ≤ quota := by exact_mod_cast (by omega : (0 : Int) ≤ quota)
  have hrange : ∀ hotkey,
      0 ≤ (topKEpochScores exactOps g.minerValues quota).getD hotkey 0 ∧
        (topKEpochScores exactOps g.minerValues quota).getD hotkey 0 ≤ 4 := by
    intro hotkey
    have hmem := getD_mem hscores (P := fun q => 0 ≤ q ∧ q ≤ quota) ⟨le_rfl, hquota'⟩ hotkey
    exact ⟨hmem.1, hmem.2.trans hquota⟩
  have hema : EmaInRange (scoreEpoch exactOps defaultAlpha quota active previous g
      statuses).emaState := hprevious.step hrange _
  have hnonneg := fun hotkey => (hema hotkey).2.1
  refine ⟨⟨hscores, ?_, weights_zero_iff hnonneg, ?_, ?_⟩, hema⟩
  · intro p hp
    have hnodup : (scoreEpoch exactOps defaultAlpha quota active previous g
        statuses).emaState.keys.Nodup := by
      show (updateEmaScores _ _ _ _ _).keys.Nodup
      rw [keys_updateEmaScores]
      exact nodup_emaMiners _ _
    have hget := Dict.get?_of_mem hnodup (show (p.1, p.2) ∈ _ from hp)
    have hp' := hema p.1
    unfold Dict.getD at hp'
    rw [hget] at hp'
    exact hp'
  · by_cases hzero : ∀ hotkey ∈ active, (scoreEpoch exactOps defaultAlpha quota active previous g
        statuses).emaState.getD hotkey 0 = 0
    · exact .inl ((weights_zero_iff hnonneg).mpr hzero)
    · exact .inr (weights_proper hnonneg hzero)
  · intro hotkey
    show (Dict.get? (normalizeActiveWeights exactOps _ active) hotkey).isSome = true ↔ _
    rw [get?_weights]
    by_cases hmem : hotkey ∈ active
    · rw [if_pos hmem]
      exact iff_of_true rfl hmem
    · rw [if_neg hmem]
      exact iff_of_false Bool.noConfusion hmem

end

/-- what a history preserves -/
theorem History.invariant {env : Env} {content : Option Content} {past : List ScoredEpoch}
    (h : History env content past) :
    (∀ e ∈ past, e.InRange) ∧
      ∃ previous, minerStateOf env content = .ok previous ∧ EmaInRange previous := by
  induction h with
  | start => exact ⟨fun e he => (List.not_mem_nil he).elim, [], rfl, emaInRange_empty⟩
  | @epoch content past quota active outcomes scores _ hlow hhigh hvalues hscored ih =>
    obtain ⟨hpast, previous, hprevious, hrange⟩ := ih
    obtain ⟨g, hg, hscored⟩ := Except.bind_ok hscored
    rw [hprevious, Except.ok_bind] at hscored
    have hstep := @scoreEpoch_inRange quota active _ _ (outcomes.map (·.2.status)) hlow hhigh
      (values_mem hg hvalues) hrange
    rw [Except.ok.inj hscored] at hstep
    constructor
    · intro e he
      rcases List.mem_append.mp he with he | he
      · exact hpast e he
      · rw [List.mem_singleton.mp he]
        exact hstep.1
    · refine ⟨_, minerStateOf_record env scores, fun hotkey => ?_⟩
      rw [getD_sorted]
      exact hstep.2 hotkey

/-- **Scores and weights stay in range** in every epoch of every history. -/
theorem scores_stay_in_range {env : Env} {content : Option Content} {past : List ScoredEpoch}
    (h : History env content past) : ∀ e ∈ past, e.InRange := h.invariant.1

/-- an accepted task of this value -/
def scoredTask (hotkey : String) (taskValue : ℚ) : Miner × SubmissionOutcome :=
  ({ hotkey, uid := 0 },
    { status := "accepted", taskId := "t", packageHash := .null, taskValue, gates := [] })

/-- two epochs: the first miner is paid in the first alone, and the second joins in the second -/
theorem scores_stay_in_range_sample : ∃ content first second,
    History Env.plain (some content) [⟨4, ["a"], first⟩, ⟨4, ["a", "b"], second⟩] ∧
      ScoredEpoch.InRange ⟨4, ["a", "b"], second⟩ := by
  have hvalues : ∀ {hotkey : String} {q : ℚ}, 0 ≤ q → q ≤ 1 →
      UnitValues [scoredTask hotkey q] := by
    intro hotkey q hlow hhigh p hp
    rw [List.mem_singleton.mp hp]
    exact ⟨hlow, hhigh⟩
  obtain ⟨first, hfirst⟩ : ∃ scores, scoredEpoch Env.plain exactOps defaultAlpha 4 ["a"]
    [scoredTask "a" (1 / 2)] none = .ok scores := ⟨_, rfl⟩
  obtain ⟨second, hsecond⟩ : ∃ scores, scoredEpoch Env.plain exactOps defaultAlpha 4 ["a", "b"]
      [scoredTask "b" 1] (some first.content) = .ok scores := by
    unfold scoredEpoch
    rw [minerStateOf_record]
    exact ⟨_, rfl⟩
  have h := (History.start.epoch (by decide) (by decide) (hvalues (by norm_num) (by norm_num))
    hfirst).epoch (by decide) (by decide) (hvalues (by norm_num) (by norm_num)) hsecond
  exact ⟨_, first, second, h, scores_stay_in_range h _ (by simp)⟩

end Dolores
