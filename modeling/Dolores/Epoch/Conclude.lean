import Dolores.Epoch.Aggregate
import Dolores.Epoch.Outcome

/-!
# From a chain outcome to a completed epoch

`recordEpoch` returns with an accepted marker whenever the artifact can be built, so the only thing
that a submission can do to the end of an epoch is to make the artifact impossible.

* `summable_evaluateEpoch`        the evidence of a session can be summed;
* `sidecar_returns`               and so its sidecar can be built;
* `wp_recordEpoch_of_hook`        the record of an epoch whose artifact can be built;
* `ChainAnswers`                  in this run the chain client and the hook return;
* `concludeEpoch_completes_iff`   the chain outcome is followed by an accepted marker exactly when
                                  the hashes are comparable.
-/

set_option linter.unusedSectionVars false

namespace Dolores
open Crash Except

/-! ## the panel sidecar -/

/-- the estimates of the session's evidence are integers -/
def PanelSession.Summable (s : PanelSession) : Prop :=
  ∀ entry ∈ s.entries, ∃ i, (Dict.get? entry "estimated_attempts").getD (.int 0) = .int i

section
variable {env : Env} {cfg : SubnetConfig}

theorem estimatedTotal_returns (entries : List Obj)
    (h : ∀ entry ∈ entries, ∃ i, (Dict.get? entry "estimated_attempts").getD (.int 0) = .int i) :
    ∃ total, estimatedTotal entries = .ok total := by
  have hfold : ∀ start, ∃ total, entries.foldlM addEstimate start = .ok total := by
    induction entries with
    | nil => exact fun start => ⟨start, rfl⟩
    | cons entry entries ih =>
      intro start
      obtain ⟨i, hi⟩ := h entry List.mem_cons_self
      obtain ⟨total, ht⟩ := ih (fun e he => h e (List.mem_cons_of_mem entry he)) (start + i)
      have hadd : addEstimate start entry = .ok (start + i) := by
        unfold addEstimate
        rw [hi]
        rfl
      exact ⟨total, by rw [List.foldlM_cons, hadd, ok_bind, ht]⟩
  exact hfold 0

variable (cfg) in
theorem sidecar_returns {s : PanelSession} (h : s.Summable) (epochId : Int) :
    ∃ sidecar, s.sidecar cfg epochId = .ok sidecar := by
  unfold PanelSession.sidecar
  by_cases ha : s.active = false
  · rw [if_pos ha]
    exact ⟨_, rfl⟩
  · rw [if_neg ha]
    by_cases hd : s.dryRun = true
    · obtain ⟨total, ht⟩ := estimatedTotal_returns s.entries h
      dsimp only
      rw [if_pos hd, ht]
      exact ⟨_, rfl⟩
    · dsimp only
      rw [if_neg hd]
      exact ⟨_, rfl⟩

theorem sidecar_epochId {s : PanelSession} {epochId : Int} {sidecar : Obj}
    (h : s.sidecar cfg epochId = .ok (some sidecar)) : sidecar.get "epoch_id" = .int epochId := by
  unfold PanelSession.sidecar at h
  by_cases ha : s.active = false
  · rw [if_pos ha] at h
    exact nomatch Except.ok.inj h
  · rw [if_neg ha] at h
    dsimp only at h
    by_cases hd : s.dryRun = true
    · rw [if_pos hd] at h
      obtain ⟨total, _, h⟩ := bind_ok h
      rw [← Option.some.inj (Except.ok.inj h)]
      rfl
    · rw [if_neg hd] at h
      rw [← Option.some.inj (Except.ok.inj h)]
      rfl

theorem newPanelSession_entries {cacheFile : Option Log} {s : PanelSession}
    (h : newPanelSession env cfg cacheFile = .ok s) : s.entries = [] := by
  unfold newPanelSession at h
  dsimp only at h
  split at h
  · rw [← Except.ok.inj h]
  · split at h
    · exact nomatch h
    · obtain ⟨_, _, h⟩ := bind_ok h
      obtain ⟨_, _, h⟩ := bind_ok h
      obtain ⟨_, _, h⟩ := bind_ok h
      rw [← Except.ok.inj h]

variable {engine : Engine} {A : FloatOps}

/-- every entry that is recorded has an integer estimate, or none -/
theorem summable_record {s s' : PanelSession} {plan : PanelPlan} {taskId : String}
    {taskHash : Json} {rows : List Obj} {cachedRate : Json} {w w' : World} (hs : s.Summable)
    (hrun : s.record env A plan taskId taskHash rows cachedRate w = (.ok s', w')) :
    s'.Summable := by
  have hadd : ∀ (s₁ : PanelSession) (entry : Obj), s₁.Summable →
      (∃ i, (Dict.get? entry "estimated_attempts").getD (.int 0) = .int i) →
      ({ s₁ with entries := s₁.entries ++ [entry] } : PanelSession).Summable := by
    intro s₁ entry h₁ hentry e he
    rcases List.mem_append.mp he with he | he
    · exact h₁ e he
    · rw [List.mem_singleton.mp he]
      exact hentry
  unfold PanelSession.record at hrun
  split at hrun
  · rw [← (run_pure hrun).1]
    exact hs
  split at hrun
  · obtain ⟨s₁, w₁, hstore, hrun⟩ := run_bind hrun
    have hs₁ : s₁.Summable := by
      cases hrate : cleanSolveRateFromRows A env.text rows with
      | none =>
        rw [hrate] at hstore
        rw [← (run_pure hstore).1]
        exact hs
      | some rate =>
        rw [hrate] at hstore
        dsimp only at hstore
        split at hstore
        · unfold cacheStore at hstore
          split at hstore
          · exact (run_raise hstore).elim
          · obtain ⟨_, _, _, hstore⟩ := run_bind hstore
            rw [← (run_pure hstore).1]
            exact hs
        · rw [← (run_pure hstore).1]
          exact hs
    rw [← (run_pure hrun).1]
    exact hadd s₁ _ hs₁ ⟨0, rfl⟩
  split at hrun
  · rw [← (run_pure hrun).1]
    exact hadd s _ hs ⟨0, rfl⟩
  split at hrun
  · obtain ⟨attempts, _, _, hrun⟩ := run_bind hrun
    rw [← (run_pure hrun).1]
    exact hadd s _ hs ⟨attempts, rfl⟩
  · rw [← (run_pure hrun).1]
    exact hadd s _ hs ⟨0, rfl⟩

theorem summable_plan {s s' : PanelSession} {taskHash : Json} {plan : PanelPlan}
    (hs : s.Summable) (h : s.plan taskHash = .ok (plan, s')) : s'.Summable := by
  unfold PanelSession.plan at h
  split at h
  · rw [← (Prod.mk.inj (Except.ok.inj h)).2]
    exact hs
  · obtain ⟨rate, _, h⟩ := Except.bind_ok h
    split at h
    · rw [← (Prod.mk.inj (Except.ok.inj h)).2]
      exact hs
    · split at h
      · rw [← (Prod.mk.inj (Except.ok.inj h)).2]
        exact hs
      · split at h
        · rw [← (Prod.mk.inj (Except.ok.inj h)).2]
          exact hs
        · rw [← (Prod.mk.inj (Except.ok.inj h)).2]
          exact hs

theorem summable_evaluateSubmission {e e' : Evaluation} {epochId : Int} {miner : Miner}
    {payload : Obj} {w w' : World} (hs : e.session.Summable)
    (hrun : evaluateSubmission env engine A cfg epochId e miner payload w = (.ok e', w')) :
    e'.session.Summable := by
  obtain ⟨⟨plan, s₁⟩, w₁, hplan, hrun⟩ := run_bind hrun
  have hs₁ := summable_plan hs (run_ofExcept hplan).1
  obtain ⟨⟨outcome, context⟩, w₂, _, hrun⟩ := run_bind hrun
  obtain ⟨⟨outcome', s₂⟩, w₃, hrecord, hrun⟩ := run_bind hrun
  have hsettled : (settlePlan plan s₁ outcome).2.Summable := by
    unfold settlePlan
    split
    · exact hs₁
    · exact hs₁
  have hs₂ : s₂.Summable := by
    unfold recordPanel at hrecord
    split at hrecord
    · obtain ⟨_, _, _, hrecord⟩ := run_bind hrecord
      obtain ⟨_, _, _, hrecord⟩ := run_bind hrecord
      obtain ⟨s₃, _, hrecorded, hrecord⟩ := run_bind hrecord
      rw [← (Prod.mk.inj (run_pure hrecord).1).2]
      exact summable_record hsettled hrecorded
    · split at hrecord
      · obtain ⟨s₃, _, hrecorded, hrecord⟩ := run_bind hrecord
        rw [← (Prod.mk.inj (run_pure hrecord).1).2]
        exact summable_record hsettled hrecorded
      · rw [← (Prod.mk.inj (run_pure hrecord).1).2]
        exact hsettled
  obtain ⟨_, w₄, _, hrun⟩ := run_bind hrun
  rw [← (run_pure hrun).1]
  exact hs₂

/-- the session of an evaluated epoch can be summed up in its sidecar -/
theorem summable_evaluateEpoch {epochId quota : Int} {miners : List Miner} {e : Evaluation}
    {w w' : World}
    (hrun : evaluateEpoch env engine A cfg epochId quota miners w = (.ok e, w')) :
    e.session.Summable := by
  have hall : ∀ (collected : List (Miner × Obj)) (e₀ : Evaluation) (w₀ : World),
      e₀.session.Summable →
      evaluateAll env engine A cfg epochId collected e₀ w₀ = (.ok e, w') →
      e.session.Summable := by
    intro collected
    induction collected with
    | nil =>
      intro e₀ w₀ hs h
      rw [← (run_pure h).1]
      exact hs
    | cons p collected ih =>
      intro e₀ w₀ hs h
      obtain ⟨e₁, w₁, hstep, h⟩ := run_bind h
      exact ih e₁ w₁ (summable_evaluateSubmission hs hstep) h
  obtain ⟨_, _, _, hrun⟩ := run_bind hrun
  obtain ⟨_, _, _, hrun⟩ := run_bind hrun
  obtain ⟨_, _, _, hrun⟩ := run_bind hrun
  obtain ⟨session, _, hsession, hrun⟩ := run_bind hrun
  obtain ⟨_, _, _, hrun⟩ := run_bind hrun
  refine hall _ _ _ (fun entry hentry => ?_) hrun
  rw [newPanelSession_entries (run_ofExcept hsession).1] at hentry
  exact (List.not_mem_nil hentry).elim

/-! ## the writes of `recordEpoch` -/

/-- only the given file of the epoch differs -/
def OnlyFile (epochId : Int) (file : EpochFile) (w w' : World) : Prop :=
  ∀ p, p ≠ .epoch epochId file → w'.files p = w.files p

/-- the lock and the tick objects are as they were -/
structure SameTicks (w w' : World) : Prop where
  lockOwner : w'.lockOwner = w.lockOwner
  ticks : w'.ticks = w.ticks

instance : IsPreorder World SameTicks where
  refl _ := ⟨rfl, rfl⟩
  trans _ _ _ h h' := ⟨h'.lockOwner.trans h.lockOwner, h'.ticks.trans h.ticks⟩

/-- writing a file of the epoch -/
theorem wp_writeEpochFile (hf : env.NoFaults) {file : EpochFile} {payload : Json}
    {Q : Post World Exn Unit} {w : World}
    (h : ∀ w', OnlyFile epochId file w w' → SameTicks w w' →
      w'.files (.epoch epochId file) = some (.doc payload.canon) → Q.ok () w') :
    wp (atomicWriteJson env (.epoch epochId file) payload) Q w := by
  rw [wp_atomicWriteJson_of_noFaults hf]
  exact h _ (fun p hp => World.written_of_ne hp _ _) ⟨rfl, rfl⟩ (World.put_self _ _ _)

theorem wp_persistPanelSidecar (hf : env.NoFaults) {s : PanelSession} (hs : s.Summable)
    (epochId : Int) (w : World) :
    wp (persistPanelSidecar env cfg s epochId) (Post.returns fun _ w' =>
      OnlyFile epochId .panelSidecar w w' ∧
        Recorded w'.files (.epoch epochId .panelSidecar) [("epoch_id", .int epochId)] ∧
        SameTicks w w') w := by
  have hwritten : ∀ (payload : Obj) (w₁ : World), payload.get "epoch_id" = .int epochId →
      OnlyFile epochId .panelSidecar w w₁ → SameTicks w w₁ →
      wp (atomicWriteJson env (.epoch epochId .panelSidecar) (.obj payload)) (Post.returns
        fun _ w' => OnlyFile epochId .panelSidecar w w' ∧
          Recorded w'.files (.epoch epochId .panelSidecar) [("epoch_id", .int epochId)] ∧
          SameTicks w w') w₁ := by
    intro payload w₁ hid honly hticks
    refine wp_writeEpochFile hf fun w' h' hticks' hwritten => ⟨fun p hp => ?_,
      ⟨payload.canon, ?_, fun p hp => ?_⟩, trans_of SameTicks hticks hticks'⟩
    · exact (h' p hp).trans (honly p hp)
    · rw [hwritten, Json.canon_obj']
    · rw [List.mem_singleton.mp hp, Obj.get_canon, hid, Json.canon_int]
  obtain ⟨sidecar, hsidecar⟩ := sidecar_returns cfg hs epochId
  unfold persistPanelSidecar
  rw [wp_bind, hsidecar, wp_ofExcept_ok]
  dsimp only
  cases sidecar with
  | none => exact hwritten _ w rfl (fun _ _ => rfl) (refl_of SameTicks w)
  | some record =>
    dsimp only
    rw [wp_bind, wp_bind, wp_writeText_of_noFaults hf]
    dsimp only
    rw [wp_bind, wp_get]
    dsimp only
    have hload : loadJsonObject env (World.put (.epoch epochId .panelSidecar)
        (.doc (Json.canon (.obj record))) w.tickClock).files (.epoch epochId .panelSidecar)
        "panel sidecar" = .ok record.canon := by
      unfold loadJsonObject
      rw [World.put_self, Json.canon_obj']
      rfl
    rw [hload, wp_ofExcept_ok]
    dsimp only
    refine hwritten _ _ ?_ (fun p hp => ?_) ⟨rfl, rfl⟩
    · rw [Obj.get_canon, sidecar_epochId hsidecar, Json.canon_int]
    · exact World.written_of_ne hp _ _

/-! ## the written scores -/

theorem mem_scoresRecord {scores : Dict String ℚ} {p : String × Json}
    (h : p ∈ scoresRecord scores) : ∃ q, p.2 = .num q := by
  obtain ⟨a, _, ha⟩ := List.mem_map.mp h
  rw [← ha]
  exact ⟨a.2, rfl⟩

theorem scoresRecord_canon_numeric (scores : Dict String ℚ) :
    (scoresRecord scores).canon.values.all Json.isNumber = true := by
  rw [List.all_eq_true]
  intro j hj
  obtain ⟨p, hp, rfl⟩ := List.mem_map.mp hj
  have hp' : p ∈ Dict.mapValues Json.canon (scoresRecord scores) :=
    (Dict.sorted_perm _).mem_iff.mp hp
  obtain ⟨a, ha, rfl⟩ := List.mem_map.mp hp'
  obtain ⟨q, hq⟩ := mem_scoresRecord ha
  show Json.isNumber (Json.canon a.2) = true
  rw [hq, Json.canon_num]
  rfl

/-! ## the artifact -/

variable {epochId quota : Int} {g : Aggregate} {scores : EpochScores} {r : ChainWeightResult}

variable (env cfg epochId quota scores r) in
theorem epochArtifact_returns {items : List (Json × ℚ)} (h : sortItems g.taskValues = .ok items)
    (createdAt : String) (durationMs : Int) :
    ∃ artifact, epochArtifact env cfg epochId quota g scores r createdAt durationMs =
      .ok artifact := by
  unfold epochArtifact
  rw [h]
  exact ⟨_, rfl⟩

/-- what the artifact holds -/
theorem epochArtifact_fields {artifact : Obj} {createdAt : String} {durationMs : Int}
    (h : epochArtifact env cfg epochId quota g scores r createdAt durationMs = .ok artifact) :
    ∀ p ∈ [("epoch_id", .int epochId),
        ("config", .obj [("quota", .int quota), ("top_k", .int quota),
          ("ema_alpha", .num cfg.emaAlpha)]),
        ("epoch_scores", .obj (scoresRecord scores.epochScores)),
        ("ema_state", .obj (scoresRecord scores.emaState)),
        ("weights", .obj (scoresRecord scores.weights)),
        ("weight_result", .obj r.toRecord)], artifact.get p.1 = p.2 := by
  unfold epochArtifact at h
  obtain ⟨items, _, h⟩ := bind_ok h
  rw [← Except.ok.inj h]
  intro p hp
  simp only [List.mem_cons, List.not_mem_nil, or_false] at hp
  rcases hp with rfl | rfl | rfl | rfl | rfl | rfl <;> rfl

end

/-! ## `recordEpoch` and `concludeEpoch` -/

section
variable {env : Env} {substrate : Substrate} {A : FloatOps} {cfg : SubnetConfig}
  {epochId quota : Int} {session : PanelSession} {g : Aggregate} {scores : EpochScores}
  {r : ChainWeightResult} {phaseHook : Option (String → M Unit)}

/-- the snapshot, the sidecar and the artifact are what the marker needs -/
theorem artifactsInPlace_of_writes {w₁ w₂ w₃ : World} {artifact : Obj}
    (hsnapshot : w₁.files (.epoch epochId .minerState) =
      some (.doc (Json.canon (.obj (scoresRecord scores.emaState)))))
    (hpanel : Recorded w₂.files (.epoch epochId .panelSidecar) [("epoch_id", .int epochId)])
    (h₂ : OnlyFile epochId .panelSidecar w₁ w₂)
    (hweights : w₃.files (.epoch epochId .weights) = some (.doc (Json.canon (.obj artifact))))
    (h₃ : OnlyFile epochId .weights w₂ w₃)
    (hfields : ∀ p ∈ [("epoch_id", .int epochId), ("weight_result", .obj r.toRecord)],
      artifact.get p.1 = p.2) :
    ArtifactsInPlace w₃.files epochId r (scoresRecord scores.emaState).canon where
  snapshot := by
    rw [h₃ _ (by simp), h₂ _ (by simp), hsnapshot, Json.canon_obj']
  numeric := scoresRecord_canon_numeric _
  weights := by
    refine ⟨r.toRecord.canon, ⟨artifact.canon, by rw [hweights, Json.canon_obj'], fun p hp => ?_⟩,
      ?_, ?_⟩
    · simp only [List.mem_cons, List.not_mem_nil, or_false] at hp
      rcases hp with rfl | rfl
      · rw [Obj.get_canon, hfields _ List.mem_cons_self, Json.canon_int]
      · have hresult : artifact.get "weight_result" = .obj r.toRecord :=
          hfields _ (List.mem_cons_of_mem _ List.mem_cons_self)
        rw [Obj.get_canon, hresult, Json.canon_obj']
    · rw [Obj.get_canon]
      exact Json.canon_str _
    · rw [Obj.get_canon]
      show Json.canon (.ofOption .str r.reason) = _
      cases r.reason with
      | none => exact Json.canon_null
      | some reason => exact Json.canon_str reason
  panel := hpanel.congr (h₃ _ (by simp))

/-- the epoch is marked, and neither the chain's files nor the tick have changed since `w` -/
structure MarkedFrom (env : Env) (epochId : Int) (r : ChainWeightResult) (minerState : Obj)
    (w w' : World) : Prop where
  accepted : Accepted env w'.files epochId r minerState
  outcome : OutcomeInPlace w'.files epochId r
  state : w'.files .state = w.files .state
  ticks : SameTicks w w'

/-- what the record of the epoch has done when it calls the hook for the commit -/
theorem wp_recordEpoch_of_hook (hf : env.NoFaults) (hs : session.Summable)
    {items : List (Json × ℚ)} (hitems : sortItems g.taskValues = .ok items) {w : World}
    (hO : OutcomeInPlace w.files epochId r) {Q : Post World Exn EpochResult}
    (hhook : ∀ w₁, MarkedFrom env epochId r (scoresRecord scores.emaState).canon w w₁ →
      wp (emitPhase phaseHook "committed") ⟨fun _ w' => Q.ok
        { artifactPath := .epoch epochId .weights, weights := scores.weights,
          epochScores := scores.epochScores, chainResult := r,
          completionMarkerPath := .epoch epochId .completion } w', Q.raise, Q.killed⟩ w₁) :
    wp (recordEpoch env cfg epochId quota session g scores r phaseHook) Q w := by
  obtain ⟨artifact, hartifact⟩ := epochArtifact_returns env cfg epochId quota scores r
    hitems (env.now w.clock) (env.durationMs w.clock)
  have hall := epochArtifact_fields hartifact
  have hfields : ∀ p ∈ [("epoch_id", .int epochId), ("weight_result", .obj r.toRecord)],
      artifact.get p.1 = p.2 := by
    intro p hp
    apply hall p
    simp only [List.mem_cons, List.not_mem_nil, or_false] at hp ⊢
    rcases hp with hp | hp
    · exact .inl hp
    · exact .inr (.inr (.inr (.inr (.inr hp))))
  unfold recordEpoch
  rw [wp_bind, wp_now]
  dsimp only
  rw [wp_bind, wp_get]
  dsimp only
  rw [wp_bind, hartifact, wp_ofExcept_ok]
  dsimp only
  unfold saveMinerState
  rw [wp_bind]
  refine wp_writeEpochFile hf fun w₁ h₁ hticks₁ hsnapshot => ?_
  dsimp only
  rw [wp_bind]
  refine wp_mono (wp_persistPanelSidecar hf hs epochId w₁) ?_ (fun _ _ => False.elim)
    (fun _ => False.elim)
  intro _ w₂ hw₂
  obtain ⟨h₂, hpanel, hticks₂⟩ := hw₂
  dsimp only
  rw [wp_bind]
  refine wp_writeEpochFile hf fun w₃ h₃ hticks₃ hweights => ?_
  have hA := artifactsInPlace_of_writes hsnapshot hpanel h₂ hweights h₃ hfields
  have hkept : ∀ p, p ≠ .epoch epochId .minerState → p ≠ .epoch epochId .panelSidecar →
      p ≠ .epoch epochId .weights → w₃.files p = w.files p := by
    intro p hp₁ hp₂ hp₃
    rw [h₃ _ hp₃, h₂ _ hp₂, h₁ _ hp₁]
  have hO₃ : OutcomeInPlace w₃.files epochId r := by
    apply hO.outcome_congr
    · exact hkept _ (by simp) (by simp) (by simp)
    · exact hkept _ (by simp) (by simp) (by simp)
  dsimp only
  rw [if_neg (not_not_intro hO.recoverable), wp_bind]
  refine wp_mono (wp_writeEpochCompletionMarker hf hA hO₃) ?_ (fun _ _ => False.elim)
    (fun _ => False.elim)
  intro _ w₄ hw₄
  obtain ⟨⟨content, rfl⟩, haccepted⟩ := hw₄
  dsimp only
  rw [wp_bind, wp_atomicWriteJson_of_noFaults hf]
  dsimp only
  rw [wp_bind]
  refine hhook _ ⟨haccepted.congr fun file => ?_, ?_, ?_, ?_⟩
  · rw [World.written_of_ne (by simp)]
  · apply hO₃.outcome_congr
    · rw [World.written_of_ne (by simp), World.written_of_ne (by simp)]
    · rw [World.written_of_ne (by simp), World.written_of_ne (by simp)]
  · rw [World.written_of_ne (by simp), World.written_of_ne (by simp)]
    exact hkept _ (by simp) (by simp) (by simp)
  · have hticks := trans_of SameTicks (trans_of SameTicks hticks₁ hticks₂) hticks₃
    exact ⟨hticks.lockOwner, hticks.ticks⟩

theorem recordEpoch_sorts {P : EpochResult → World → Prop} {w : World}
    (h : wp (recordEpoch env cfg epochId quota session g scores r phaseHook) (Post.returns P) w) :
    ∃ items, sortItems g.taskValues = .ok items := by
  unfold recordEpoch at h
  rw [wp_bind, wp_now] at h
  dsimp only at h
  rw [wp_bind, wp_get] at h
  dsimp only at h
  rw [wp_bind, wp_ofExcept] at h
  rcases ok_or_error (sortItems g.taskValues) with hok | ⟨e, he⟩
  · exact hok
  · have hartifact : epochArtifact env cfg epochId quota g scores r (env.now w.clock)
        (env.durationMs w.clock) = .error e := by
      unfold epochArtifact
      rw [he]
      rfl
    exact (h.2 e hartifact).elim

variable {miners : List Miner} {client : Option ChainClient}
  {outcomes : List (Miner × SubmissionOutcome)}

/-- in this run the hook returns before the submission, `apply_weights` answers for an epoch without
an outcome, and the hook that follows the marker returns and leaves the epoch's files -/
def ChainAnswers (env : Env) (substrate : Substrate) (A : FloatOps) (cfg : SubnetConfig)
    (epochId quota : Int) (miners : List Miner) (client : Option ChainClient)
    (phaseHook : Option (String → M Unit)) (outcomes : List (Miner × SubmissionOutcome))
    (w : World) : Prop :=
  ∀ g previousEma, aggregateOutcomes (miners.map (·.hotkey)) outcomes = .ok g →
    minerStateOf env (w.files .minerState) = .ok previousEma →
    let scores := scoreEpoch A cfg.emaAlpha quota (miners.map (·.hotkey)) previousEma g
      (outcomes.map (·.2.status))
    ∃ w₁ r w₂, emitPhase phaseHook "weights_submitting"
        (w.log (.emaLoaded epochId (w.files .minerState))) = (.ok (), w₁) ∧
      NoOutcome epochId w₁ ∧
      (client.getD .null).applyWeights env substrate A
        { epochId, weights := scores.weights, activeHotkeys := miners.map (·.hotkey),
          specVersion := cfg.specVersion }
        (scores.weightReason.getD "offline") w₁ = (.ok r, w₂) ∧
      ∀ w₃, MarkedFrom env epochId r (scoresRecord scores.emaState).canon w₂ w₃ →
        ∃ w₄, emitPhase phaseHook "committed" w₃ = (.ok (), w₄) ∧
          ∀ file, w₄.files (.epoch epochId file) = w₃.files (.epoch epochId file)

/-- the epoch ends with the chain's outcome and an accepted marker for it -/
def Completes (env : Env) (substrate : Substrate) (A : FloatOps) (cfg : SubnetConfig)
    (epochId quota : Int) (miners : List Miner) (client : Option ChainClient)
    (phaseHook : Option (String → M Unit)) (outcomes : List (Miner × SubmissionOutcome))
    (session : PanelSession) (w : World) : Prop :=
  ∃ res w', concludeEpoch env substrate A cfg epochId quota miners client phaseHook outcomes
      session w = (.ok res, w') ∧
    ∃ v, verifyEpochCompletion env w'.files epochId = .ok v ∧
      v.mode = res.chainResult.mode.text ∧ v.reason = res.chainResult.reason.getD ""

variable (session) in
/-- what happens once the outcomes are aggregated -/
theorem completes_of_aggregate (hf : env.NoFaults) {w : World} {previousEma : Dict String ℚ}
    (hload : minerStateOf env (w.files .minerState) = .ok previousEma)
    (hchain : ChainAnswers env substrate A cfg epochId quota miners client phaseHook outcomes w)
    (hg : aggregateOutcomes (miners.map (·.hotkey)) outcomes = .ok g) :
    ∃ scores r w', OutcomeInPlace w'.files epochId r ∧
      (∀ w₃, MarkedFrom env epochId r (scoresRecord scores.emaState).canon w' w₃ →
        ∃ w₄, emitPhase phaseHook "committed" w₃ = (.ok (), w₄) ∧
          ∀ file, w₄.files (.epoch epochId file) = w₃.files (.epoch epochId file)) ∧
      ∀ P, wp (concludeEpoch env substrate A cfg epochId quota miners client phaseHook outcomes
          session) (Post.returns P) w ↔
        wp (recordEpoch env cfg epochId quota session g scores r phaseHook) (Post.returns P) w' := by
  have hanswers := hchain g previousEma hg hload
  obtain ⟨scores, hscores⟩ : ∃ scores, scores = scoreEpoch A cfg.emaAlpha quota
    (miners.map (·.hotkey)) previousEma g (outcomes.map (·.2.status)) := ⟨_, rfl⟩
  dsimp only at hanswers
  rw [← hscores] at hanswers
  obtain ⟨w₁, r, w₂, hrun₁, hempty, hrun₂, hhook⟩ := hanswers
  have hO := wp_onReturn_iff.mp (wp_applyWeights_outcome hf (client.getD .null) _ hempty) r w₂ hrun₂
  refine ⟨scores, r, w₂, hO.1, hhook, fun P => ?_⟩
  unfold concludeEpoch loadMinerState
  dsimp only
  rw [wp_bind, hg, wp_ofExcept_ok]
  dsimp only
  rw [wp_bind, wp_bind, wp_get]
  dsimp only
  rw [wp_bind, wp_logEvent]
  dsimp only
  rw [hload, wp_ofExcept_ok]
  dsimp only
  rw [← hscores, wp_bind, wp_of_ok hrun₁]
  dsimp only
  rw [wp_bind, wp_of_ok hrun₂]

theorem hotkeys_active (hminers : ∀ p ∈ outcomes, p.1 ∈ miners) :
    ∀ p ∈ outcomes, p.1.hotkey ∈ miners.map (·.hotkey) :=
  fun p hp => List.mem_map.mpr ⟨p.1, hminers p hp, rfl⟩

variable (hf : env.NoFaults) (hminers : ∀ p ∈ outcomes, p.1 ∈ miners) {w : World}
  {previousEma : Dict String ℚ} (hload : minerStateOf env (w.files .minerState) = .ok previousEma)
  (hchain : ChainAnswers env substrate A cfg epochId quota miners client phaseHook outcomes w)
include hf hminers hload hchain

theorem comparable_of_completes
    (h : Completes env substrate A cfg epochId quota miners client phaseHook outcomes session w) :
    HashesComparable outcomes := by
  unfold Completes at h
  rw [← wp_returns_iff] at h
  have hg : ∃ g, aggregateOutcomes (miners.map (·.hotkey)) outcomes = .ok g := by
    unfold concludeEpoch at h
    dsimp only at h
    rw [wp_bind, wp_ofExcept] at h
    rcases ok_or_error (aggregateOutcomes (miners.map (·.hotkey)) outcomes) with hok | ⟨e, he⟩
    · exact hok
    · exact (h.2 e he).elim
  obtain ⟨g, hg⟩ := hg
  obtain ⟨scores, r, w', _, _, hiff⟩ := completes_of_aggregate session hf hload hchain hg
  exact (taskValues_sorted_iff (hotkeys_active hminers)).mp
    ⟨g, hg, recordEpoch_sorts ((hiff _).mp h)⟩

theorem completes_of_comparable (hs : session.Summable) (h : HashesComparable outcomes) :
    Completes env substrate A cfg epochId quota miners client phaseHook outcomes session w := by
  obtain ⟨g, hg, items, hitems⟩ := (taskValues_sorted_iff (hotkeys_active hminers)).mpr h
  obtain ⟨scores, r, w', hO, hhook, hiff⟩ := completes_of_aggregate session hf hload hchain hg
  unfold Completes
  rw [← wp_returns_iff, hiff]
  refine wp_recordEpoch_of_hook hf hs hitems hO fun w₃ hmarked => ?_
  obtain ⟨w₄, hrun, hkept⟩ := hhook w₃ hmarked
  rw [wp_of_ok hrun]
  obtain ⟨v, hv, hmode, hreason, _⟩ := hmarked.accepted.congr hkept
  exact ⟨v, hv, hmode, hreason⟩

/-- **No package hash makes the end of an epoch fail**, except an unhashable one or one of another
kind than the rest: the chain's outcome is followed by an accepted marker exactly when the hashes
are comparable. -/
theorem concludeEpoch_completes_iff (hs : session.Summable) :
    Completes env substrate A cfg epochId quota miners client phaseHook outcomes session w ↔
      HashesComparable outcomes :=
  ⟨comparable_of_completes hf hminers hload hchain,
    completes_of_comparable hf hminers hload hchain hs⟩

end

section

/-- the outcome of a submission that failed a gate, with the hash it claims -/
def gateFailed (packageHash : Json) : SubmissionOutcome :=
  { status := "invalid", taskId := "unknown", packageHash, taskValue := 0,
    gates := [("schema_version", false)], reason := "invalid:schema_version" }

def sampleMiners : List Miner := [{ hotkey := "a", uid := 1 }, { hotkey := "b", uid := 2 }]

def sampleOutcomes (hash hash' : Json) : List (Miner × SubmissionOutcome) :=
  [({ hotkey := "a", uid := 1 }, gateFailed hash), ({ hotkey := "b", uid := 2 }, gateFailed hash')]

def idleSession : PanelSession := { active := false, dryRun := false, budgetRemaining := 0 }

/-- without a hook the null chain always answers -/
theorem chainAnswers_null (env : Env) (substrate : Substrate) (A : FloatOps) (cfg : SubnetConfig)
    (epochId quota : Int) (miners : List Miner) (outcomes : List (Miner × SubmissionOutcome))
    {w : World} (hw : NoOutcome epochId w) :
    ChainAnswers env substrate A cfg epochId quota miners none none outcomes w :=
  fun _ _ _ _ => ⟨_, _, _, rfl, ⟨hw.receipt, hw.attempt⟩, rfl, fun w₃ _ => ⟨w₃, rfl, fun _ => rfl⟩⟩

theorem mem_sampleOutcomes (hash hash' : Json) :
    ∀ p ∈ sampleOutcomes hash hash', p.1 ∈ sampleMiners := by
  intro p hp
  unfold sampleOutcomes at hp
  rcases List.mem_cons.mp hp with hp | hp
  · rw [hp]
    exact List.mem_cons_self
  · rw [List.mem_singleton.mp hp]
    exact List.mem_cons_of_mem _ (List.mem_singleton_self _)

def offlineSubstrate : Substrate where
  connect _ := .error (.runtimeError "offline")
  block _ := .error (.runtimeError "offline")
  subnetExists _ := .error (.runtimeError "offline")
  validatorHotkey _ := .error (.runtimeError "offline")
  hotkeyUid _ _ := .error (.runtimeError "offline")
  validatorPermit _ _ := .error (.runtimeError "offline")
  weightsRateLimit _ := .error (.runtimeError "offline")
  blocksSinceLastUpdate _ _ := .error (.runtimeError "offline")
  commitRevealEnabled _ := .error (.runtimeError "offline")
  processAndConvert _ _ _ := .error (.runtimeError "offline")
  setWeights _ _ _ _ := .error (.runtimeError "offline")
  readBackWeights _ _ := .error (.runtimeError "offline")
  minerEndpoints _ _ := .error (.runtimeError "offline")

/-- two miners whose rejected submissions claim the hashes `"x"` and `1` -/
theorem mixed_hashes_do_not_complete :
    ¬ ∀ (env : Env) (substrate : Substrate) (A : FloatOps) (cfg : SubnetConfig)
        (epochId quota : Int) (miners : List Miner) (client : Option ChainClient)
        (phaseHook : Option (String → M Unit)) (outcomes : List (Miner × SubmissionOutcome))
        (session : PanelSession) (w : World), env.NoFaults → session.Summable →
      (∀ p ∈ outcomes, p.1 ∈ miners) →
      (∃ ema, minerStateOf env (w.files .minerState) = .ok ema) →
      ChainAnswers env substrate A cfg epochId quota miners client phaseHook outcomes w →
      Completes env substrate A cfg epochId quota miners client phaseHook outcomes session w := by
  intro h
  have hchain : ChainAnswers Env.plain offlineSubstrate exactOps {} 1 4 sampleMiners none none
      (sampleOutcomes (.str "x") (.int 1)) {} := chainAnswers_null _ _ _ _ _ _ _ _ ⟨rfl, rfl⟩
  have hcomplete := h Env.plain offlineSubstrate exactOps {} 1 4 sampleMiners none none
    (sampleOutcomes (.str "x") (.int 1)) idleSession {} (fun _ => rfl)
    (fun _ h => (List.not_mem_nil h).elim) (mem_sampleOutcomes _ _) ⟨[], rfl⟩ hchain
  have hcomparable := comparable_of_completes (fun _ => rfl) (mem_sampleOutcomes _ _) rfl hchain
    hcomplete
  rcases hcomparable with htext | hnumber
  · exact Bool.false_ne_true (htext _ (List.mem_cons_of_mem _ (List.mem_singleton_self _)) rfl)
  · exact Bool.false_ne_true (hnumber _ List.mem_cons_self rfl)

end

end Dolores
