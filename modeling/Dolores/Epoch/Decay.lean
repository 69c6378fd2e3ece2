import Dolores.Epoch.Neutral

/-!
# Moving averages of idle miners

An epoch in which a miner scores nothing multiplies its moving average by seven tenths and rounds
the product to the grid.

* `IdleRun`                          consecutive epochs in which a miner scores nothing;
* `updateEmaScores_lt_iff`           such an epoch lowers the average unless it is one millionth;
* `IdleRun.millionth_le`             no number of them takes the average below one millionth;
* `weight_of_positive_average`       an active miner with a positive average has a positive weight;
* `idle_average_stays_positive`      so the average, the weight and the chain's reason never are
                                     those of a miner without history.
-/

namespace Dolores

/-! ## runs without a score -/

/-- the miner has outcomes, and all of them are infrastructure errors -/
def InfraOnly (miner : String) (outcomes : List (Miner × SubmissionOutcome)) : Prop :=
  statusesOf miner outcomes ≠ [] ∧ ∀ status ∈ statusesOf miner outcomes, status = "infra_error"

/-- epochs from a content of the rolling file on, in each of which the miner scores nothing and
is not frozen -/
inductive IdleRun (env : Env) (miner : String) (content : Option Content) :
    Option Content → List ScoredEpoch → Prop
  | start : IdleRun env miner content content []
  | epoch {content' : Option Content} {past : List ScoredEpoch} {quota : Int}
      {active : List String} {outcomes : List (Miner × SubmissionOutcome)} {scores : EpochScores} :
      IdleRun env miner content content' past →
      scoredEpoch env exactOps defaultAlpha quota active outcomes content' = .ok scores →
      scores.epochScores.getD miner 0 = 0 → ¬ InfraOnly miner outcomes →
      IdleRun env miner content (some scores.content) (past ++ [⟨quota, active, scores⟩])

/-! ## one epoch -/

section
variable {previous epochScores : Dict String ℚ} {infra : List String} {miner : String}

theorem emaValue_idle (hscore : epochScores.getD miner 0 = 0) (hinfra : miner ∉ infra) :
    emaValue exactOps previous epochScores defaultAlpha infra miner =
      stepDown (previous.getD miner 0) := by
  have hexact : defaultAlpha * 0 + (1 - defaultAlpha) * previous.getD miner 0 =
      7 / 10 * previous.getD miner 0 := by
    unfold defaultAlpha
    ring
  rw [emaValue_of_not_infra hinfra, hscore, hexact]
  rfl

/-- an epoch without a score lowers a positive average exactly when it is not one millionth -/
theorem updateEmaScores_lt_iff (hgrid : OnGrid (previous.getD miner 0))
    (hpos : 0 < previous.getD miner 0) (hscore : epochScores.getD miner 0 = 0)
    (hinfra : miner ∉ infra) :
    (updateEmaScores exactOps previous epochScores defaultAlpha infra).getD miner 0 <
      previous.getD miner 0 ↔ previous.getD miner 0 ≠ 1 / 1000000 := by
  rw [getD_updateEmaScores, emaValue_idle hscore hinfra]
  exact stepDown_lt_iff hgrid hpos

end

/-! ## a run -/

section
variable {env : Env} {miner : String} {content content' : Option Content}
  {past : List ScoredEpoch} {previous : Dict String ℚ}

theorem scoredEpoch_idle {quota : Int} {active : List String}
    {outcomes : List (Miner × SubmissionOutcome)} {scores : EpochScores}
    (hprevious : minerStateOf env content = .ok previous)
    (h : scoredEpoch env exactOps defaultAlpha quota active outcomes content = .ok scores)
    (hscore : scores.epochScores.getD miner 0 = 0) (hinfra : ¬ InfraOnly miner outcomes) :
    scores.emaState.getD miner 0 = stepDown (previous.getD miner 0) := by
  obtain ⟨g, hg, h⟩ := Except.bind_ok h
  rw [hprevious, Except.ok_bind] at h
  rw [← Except.ok.inj h] at hscore ⊢
  have hnot : miner ∉ infraOnlyMiners g.minerStatuses := by
    intro hmem
    exact hinfra ((mem_infraOnly (aggregate_lists hg) miner).mp hmem).2
  show (updateEmaScores _ _ _ _ _).getD miner 0 = _
  rw [getD_updateEmaScores]
  exact emaValue_idle hscore hnot

/-- what an idle run preserves -/
theorem IdleRun.millionth_le (h : IdleRun env miner content content' past)
    (hprevious : minerStateOf env content = .ok previous)
    (hpos : 1 / 1000000 ≤ previous.getD miner 0) :
    (∀ e ∈ past, 1 / 1000000 ≤ e.scores.emaState.getD miner 0) ∧
      ∃ last, minerStateOf env content' = .ok last ∧ 1 / 1000000 ≤ last.getD miner 0 := by
  induction h with
  | start => exact ⟨fun e he => (List.not_mem_nil he).elim, previous, hprevious, hpos⟩
  | @epoch content' past quota active outcomes scores _ hscored hscore hinfra ih =>
    obtain ⟨hpast, last, hlast, hle⟩ := ih
    have hema := scoredEpoch_idle hlast hscored hscore hinfra
    have hnext : 1 / 1000000 ≤ scores.emaState.getD miner 0 := by
      rw [hema]
      exact le_stepDown hle
    constructor
    · intro e he
      rcases List.mem_append.mp he with he | he
      · exact hpast e he
      · rw [List.mem_singleton.mp he]
        exact hnext
    · refine ⟨_, minerStateOf_record env scores, ?_⟩
      rw [getD_sorted]
      exact hnext

end

/-! ## the weight -/

section
variable {ema : Dict String ℚ} {active : List String} {miner : String}

theorem weight_of_positive_average (hactive : miner ∈ active) (hpos : 0 < ema.getD miner 0) :
    0 < (normalizeActiveWeights exactOps ema active).getD miner 0 := by
  have htotal : 0 < activeTotal ema active := by
    have hle := @clipped_le_total ema _ _ hactive
    rw [clipZero_of_nonneg hpos.le] at hle
    exact hpos.trans_le hle
  unfold Dict.getD
  rw [get?_weights, if_pos hactive, weightOf_pos htotal]
  show 0 < clipZero (ema.getD miner 0) / activeTotal ema active
  rw [clipZero_of_nonneg hpos.le]
  exact div_pos hpos htotal

/-- weights with a positive entry are not reported as all zero -/
theorem weightReason_of_positive {alpha : ℚ} {quota : Int} {previous : Dict String ℚ}
    {g : Aggregate} {statuses : List String} {scores : EpochScores}
    (hscores : scoreEpoch exactOps alpha quota active previous g statuses = scores)
    (hpos : 0 < scores.weights.getD miner 0) : scores.weightReason ≠ some "all_zero" := by
  have hnot : scores.weights.values.all (· == 0) = false := by
    rw [List.all_eq_false]
    unfold Dict.getD at hpos
    cases hk : scores.weights.get? miner with
    | none =>
      rw [hk] at hpos
      exact absurd hpos (lt_irrefl 0)
    | some weight =>
      rw [hk] at hpos
      have hne : weight ≠ 0 := (show (0 : ℚ) < weight from hpos).ne'
      exact ⟨weight, List.mem_map.mpr ⟨_, Dict.mem_of_get? hk, rfl⟩, by simpa using hne⟩
  rw [← hscores] at hnot ⊢
  show (if _ then some "epoch_degraded_all_infra" else
    if (normalizeActiveWeights exactOps _ active).values.all (· == 0) = true then some "all_zero"
      else none) ≠ some "all_zero"
  have hnot' : (normalizeActiveWeights exactOps (updateEmaScores exactOps previous
      (topKEpochScores exactOps g.minerValues quota) alpha (infraOnlyMiners g.minerStatuses))
      active).values.all (· == 0) = false := hnot
  rw [hnot']
  split
  · exact fun h => absurd (Option.some.inj h) (by decide)
  · exact nofun

end

/-- an idle run in which the average becomes zero -/
def ReachesZero (env : Env) (miner : String) (content : Option Content) : Prop :=
  ∃ content' past, IdleRun env miner content content' past ∧
    ∃ e ∈ past, e.scores.emaState.getD miner 0 = 0 ∨
      (miner ∈ e.active ∧ (e.scores.weights.getD miner 0 = 0 ∨
        e.scores.weightReason = some "all_zero"))

theorem IdleRun.reason {env : Env} {miner : String} {content content' : Option Content}
    {past : List ScoredEpoch} (h : IdleRun env miner content content' past) :
    ∀ e ∈ past, ∃ g previous statuses, scoreEpoch exactOps defaultAlpha e.quota e.active previous
      g statuses = e.scores := by
  induction h with
  | start => exact fun e he => (List.not_mem_nil he).elim
  | @epoch content' past quota active outcomes scores _ hscored _ _ ih =>
    intro e he
    rcases List.mem_append.mp he with he | he
    · exact ih e he
    · obtain ⟨g, hg, hscored⟩ := Except.bind_ok hscored
      obtain ⟨previous, hprevious, hscored⟩ := Except.bind_ok hscored
      rw [List.mem_singleton.mp he]
      exact ⟨g, previous, _, Except.ok.inj hscored⟩

/-- **An idle miner keeps a positive average.**  An epoch without a score lowers the average
unless it is one millionth, which is rounded back to itself; no number of such epochs takes the
average or the weight to zero, and none is reported as all zero while the miner is active. -/
theorem idle_average_stays_positive {env : Env} {miner : String} {content : Option Content}
    {previous : Dict String ℚ} (hprevious : minerStateOf env content = .ok previous)
    (hgrid : ∀ k, OnGrid (previous.getD k 0)) (hpos : 0 < previous.getD miner 0) :
    ((∀ (epochScores : Dict String ℚ) (infra : List String), epochScores.getD miner 0 = 0 →
        miner ∉ infra →
        (updateEmaScores exactOps previous epochScores defaultAlpha infra).getD miner 0 <
          previous.getD miner 0) ↔ previous.getD miner 0 ≠ 1 / 1000000) ∧
      ¬ ReachesZero env miner content := by
  constructor
  · constructor
    · intro h
      have hlt := h [] [] rfl (List.not_mem_nil)
      exact (updateEmaScores_lt_iff (hgrid miner) hpos rfl List.not_mem_nil).mp hlt
    · intro hne epochScores infra hscore hinfra
      exact (updateEmaScores_lt_iff (hgrid miner) hpos hscore hinfra).mpr hne
  · intro hzero
    obtain ⟨content', past, hrun, e, he, hzero⟩ := hzero
    have hle := (hrun.millionth_le hprevious ((hgrid miner).le_of_pos hpos)).1 e he
    have hema : 0 < e.scores.emaState.getD miner 0 := by linarith
    obtain ⟨g, last, statuses, hscores⟩ := hrun.reason e he
    rcases hzero with hzero | hzero
    · exact hema.ne' hzero
    · obtain ⟨hactive, hzero⟩ := hzero
      have hweight : 0 < e.scores.weights.getD miner 0 := by
        rw [← hscores] at hema ⊢
        exact weight_of_positive_average hactive hema
      rcases hzero with hzero | hzero
      · exact hweight.ne' hzero
      · exact weightReason_of_positive hscores hweight hzero

/-- a stored average of one half -/
theorem idle_average_stays_positive_sample :
    ((∀ (epochScores : Dict String ℚ) (infra : List String), epochScores.getD "a" 0 = 0 →
        "a" ∉ infra →
        (updateEmaScores exactOps [("a", 1 / 2)] epochScores defaultAlpha infra).getD "a" 0 <
          1 / 2) ↔ (1 / 2 : ℚ) ≠ 1 / 1000000) ∧
      ¬ ReachesZero Env.plain "a" (some (.doc (.obj [("a", .num (1 / 2))]))) := by
  have hgrid : ∀ k, OnGrid (Dict.getD [("a", (1 / 2 : ℚ))] k 0) :=
    getD_mem (P := OnGrid) (fun p hp => by
      rw [List.mem_singleton.mp hp]
      exact ⟨500000, by norm_num⟩) onGrid_zero
  have hprevious : minerStateOf Env.plain (some (.doc (.obj [("a", .num (1 / 2))]))) =
      .ok [("a", 1 / 2)] := rfl
  have hpos : (0 : ℚ) < Dict.getD [("a", (1 / 2 : ℚ))] "a" 0 := by decide +kernel
  exact idle_average_stays_positive hprevious hgrid hpos

/-- the average of one millionth is stored again after an epoch without a score -/
theorem millionth_is_not_lowered :
    ¬ ∀ (previous epochScores : Dict String ℚ) (infra : List String) (miner : String),
      (∀ k, OnGrid (previous.getD k 0)) → miner ∉ infra → epochScores.getD miner 0 = 0 →
      0 < previous.getD miner 0 →
      (updateEmaScores exactOps previous epochScores defaultAlpha infra).getD miner 0 <
        previous.getD miner 0 := by
  intro h
  have hgrid : ∀ k, OnGrid (Dict.getD [("a", (1 / 1000000 : ℚ))] k 0) :=
    getD_mem (P := OnGrid) (fun p hp => by
      rw [List.mem_singleton.mp hp]
      exact ⟨1, by norm_num⟩) onGrid_zero
  have hlt := h [("a", 1 / 1000000)] [("a", 0)] [] "a" hgrid List.not_mem_nil rfl
    (by decide +kernel)
  revert hlt
  decide +kernel

end Dolores
