import Dolores.Validator.LogGrowth
import Dolores.Validator.TickRuns

/-!
# What is left of an epoch that is over

An epoch that is over keeps its files and its rows whatever the validator does afterwards, so that
its marker is accepted, and its replay comes out the same, at any later time.

* `Settled`                    the epoch is allocated and not at work any more;
* `Later`                      the worlds that further commands reach;
* `settled_files`              nothing that follows in a lawful journal writes its files;
* `wp_tickCommand_grows`       no later tick logs a row of it;
* `committed_evidence_stands`  what a run has committed stays and is accepted;
* `replay_stands`              and what its replay gives is given for ever.
-/

set_option linter.unusedSectionVars false

namespace Dolores
open Crash Except Journal

/-! ## epochs that are over -/

/-- the epoch is allocated, and it is not at work -/
structure Settled (s : ValidatorRuntimeState) (epochId : Int) : Prop where
  allocated : epochId < s.nextEpochId
  notOpen : s.activeEpochId = some epochId → s.phase = some .committed

/-- the event writes a file of the epoch -/
def Event.writesEpoch (epochId : Int) (e : Event) : Prop :=
  ∃ file c, e = .wrote (.epoch epochId file) c

/-- the files of the epoch are the same -/
def SameEpoch (epochId : Int) (files files' : Files) : Prop :=
  ∀ file, files' (.epoch epochId file) = files (.epoch epochId file)

section
variable {env : Env} {epochId : Int} {s t : ValidatorRuntimeState} {files : Files}

/-- an epoch that is over stays over -/
theorem Settled.follows (h : Settled s epochId) (hfollows : Follows env files s t) :
    Settled t epochId := by
  obtain ⟨hnext, hactive⟩ := hfollows.active
  refine ⟨h.allocated.trans_le hnext, fun ht => ?_⟩
  by_contra hphase
  rcases hactive epochId ht hphase with ⟨hs, hopen⟩ | hnew
  · exact hopen (h.notOpen hs)
  · have hlt := h.allocated
    omega

theorem Settled.canon (h : Settled s epochId) : Settled s.canon epochId := ⟨h.allocated, h.notOpen⟩

theorem settled_failedState (h : Settled s epochId) (error updatedAt : String) :
    Settled (failedState s error updatedAt) epochId :=
  ⟨h.allocated, fun hactive => nomatch hactive⟩

end

/-! ## the files -/

section
variable {env : Env} {Own : OwnUpdates} {epochId : Int} {past : List Event}
  {s : ValidatorRuntimeState}

theorem not_writesEpoch_of_writesNothing {e : Event} (h : e.writesNothing) :
    ¬ e.writesEpoch epochId := by
  rintro ⟨file, c, rfl⟩
  exact h

/-- one lawful event leaves the files of an epoch that is over -/
theorem settled_event {e : Event} (hs : Persisted env (archiveOf past) s)
    (h : Settled s epochId) (he : RunLaw env Own past e) :
    ¬ e.writesEpoch epochId ∧ SameEpoch epochId (archiveOf past) (archiveOf (past ++ [e])) ∧
      ∃ t, Persisted env (archiveOf (past ++ [e])) t ∧ Settled t epochId := by
  have hkept : e.leavesState → Persisted env (archiveOf (past ++ [e])) s := by
    intro hleaves
    unfold Persisted
    rw [archiveOf_snoc, Event.state_of_leavesState hleaves]
    exact hs
  have hquiet : e.writesNothing → ¬ e.writesEpoch epochId ∧
      SameEpoch epochId (archiveOf past) (archiveOf (past ++ [e])) := by
    intro hnothing
    refine ⟨not_writesEpoch_of_writesNothing hnothing, fun file => ?_⟩
    rw [archiveOf_snoc, Event.apply_of_writesNothing hnothing]
  cases e with
  | wrote p c =>
    cases p with
    | state =>
      obtain ⟨s', t, hs', hfollows, _, hvalid, rfl⟩ := he
      obtain rfl : s' = s := Except.ok.inj (hs'.symm.trans hs)
      refine ⟨fun hwrites => ?_, fun file => archiveOf_wrote_ne (by simp) _, t.canon,
        persisted_wrote hvalid, (h.follows hfollows).canon⟩
      obtain ⟨_, _, heq⟩ := hwrites
      exact nomatch (Event.wrote.inj heq).1
    | minerState =>
      refine ⟨fun hwrites => ?_, fun file => archiveOf_wrote_ne (by simp) _, s, hkept trivial, h⟩
      obtain ⟨_, _, heq⟩ := hwrites
      exact nomatch (Event.wrote.inj heq).1
    | epoch id file =>
      obtain ⟨⟨s', hs', hactive, hphase⟩, _⟩ := he
      obtain rfl : s' = s := Except.ok.inj (hs'.symm.trans hs)
      -- the epoch that is written is at work
      have hne : id ≠ epochId := by
        intro hid
        rw [hid] at hactive
        exact nomatch (h.notOpen hactive).symm.trans hphase
      refine ⟨fun hwrites => ?_, fun file' => archiveOf_wrote_ne (fun hp => hne ?_) _, s',
        hkept trivial, h⟩
      · obtain ⟨_, _, heq⟩ := hwrites
        exact hne (Path.epoch.inj (Event.wrote.inj heq).1).1
      · exact (Path.epoch.inj hp).1.symm
  | verified => exact ⟨(hquiet trivial).1, (hquiet trivial).2, s, hkept trivial, h⟩
  | setWeights => exact ⟨(hquiet trivial).1, (hquiet trivial).2, s, hkept trivial, h⟩
  | tickEntered => exact ⟨(hquiet trivial).1, (hquiet trivial).2, s, hkept trivial, h⟩
  | emaLoaded => exact ⟨(hquiet trivial).1, (hquiet trivial).2, s, hkept trivial, h⟩
  | pipelineRan => exact ⟨(hquiet trivial).1, (hquiet trivial).2, s, hkept trivial, h⟩

/-- and so does everything that follows -/
theorem settled_files {after : List Event} (hs : Persisted env (archiveOf past) s)
    (h : Settled s epochId) (hlawful : Lawful (RunLaw env Own) (past ++ after)) :
    (∀ e ∈ after, ¬ e.writesEpoch epochId) ∧
      SameEpoch epochId (archiveOf past) (archiveOf (past ++ after)) ∧
      ∃ t, Persisted env (archiveOf (past ++ after)) t ∧ Settled t epochId := by
  induction after using List.reverseRecOn with
  | nil =>
    rw [List.append_nil]
    exact ⟨fun _ hmem => (List.not_mem_nil hmem).elim, fun _ => rfl, s, hs, h⟩
  | append_singleton after e ih =>
    rw [← List.append_assoc] at hlawful ⊢
    obtain ⟨hbefore, he⟩ := hlawful.last
    obtain ⟨hquiet, hsame, t, ht, hsettled⟩ := ih hbefore
    obtain ⟨hquiet', hsame', hend⟩ := settled_event ht hsettled he
    refine ⟨fun e' hmem => ?_, fun file => (hsame' file).trans (hsame file), hend⟩
    rcases List.mem_append.mp hmem with hmem | hmem
    · exact hquiet e' hmem
    · rw [List.mem_singleton.mp hmem]
      exact hquiet'

/-- a committed epoch is over, and its marker is accepted -/
theorem settled_of_commits {before after : List Event} {e : Event}
    (hlawful : Lawful (RunLaw env Own) (before ++ e :: after)) (he : e.commits env epochId) :
    (∃ t, Persisted env (archiveOf (before ++ [e])) t ∧ Settled t epochId) ∧
      ∃ v, verifyEpochCompletion env (archiveOf (before ++ [e])) epochId = .ok v := by
  have hlaw := hlawful.at
  obtain ⟨c, rfl⟩ := stateWrite_of_not_leavesState fun hleaves =>
    not_commits_of_leavesState hleaves ⟨epochId, he⟩
  obtain ⟨s, t, hs, hfollows, _, hvalid, rfl⟩ := hlaw
  obtain ⟨hactive, hphase⟩ := (commits_stateWrite hvalid).mp he
  refine ⟨⟨t.canon, persisted_wrote hvalid, ?_⟩, ?_⟩
  · exact ⟨(hvalid.active epochId hactive).2.1, fun _ => hphase⟩
  · have hsame : SameEpoch epochId (archiveOf before)
        (archiveOf (before ++ [.wrote .state (stateContent t)])) := by
      intro file
      exact archiveOf_wrote_ne (by simp) _
    rw [verifyEpochCompletion_congr hsame]
    rcases hfollows.commits_or_keeps with ⟨id, v, _, hid, _, _, _, _, _, hv, _⟩ | ⟨_, hopen⟩
    · obtain rfl := Option.some.inj (hactive.symm.trans hid)
      exact ⟨v, hv⟩
    · exact (hopen hphase).elim

end

/-! ## the rows -/

section
variable {env : Env} {engine : Engine} {substrate : Substrate} {A : FloatOps} {cfg : SubnetConfig}
  {network : MinerNetwork} {args : TickArgs} {epochId : Int} {w : World}
  {s : ValidatorRuntimeState}

theorem onReturn_of_moves {α : Type} {p : M α} (h : Moves LogKept p) (w : World) {P : α → Prop}
    (hP : wp p (Post.onReturn fun a _ => P a) w) :
    wp p ⟨fun a w' => P a ∧ LogKept w w', fun _ w' => LogKept w w', fun w' => LogKept w w'⟩ w :=
  wp_mono (wp_and hP (h w)) (fun _ _ h => h) (fun _ _ h => h.2) fun _ h => h.2

theorem wp_beginIdle_other (h : Settled s epochId) :
    wp (beginIdle env s) (Post.onReturn fun begun _ => begun.2 ≠ epochId) w := by
  have hnext : s.nextEpochId ≠ epochId := by
    have hlt := h.allocated
    omega
  have hactive : ∀ {phase : ValidatorPhase}, s.phase = some phase → phase ≠ .committed →
      s.activeEpochId ≠ some epochId := by
    intro phase hphase hopen hs
    exact hopen (Option.some.inj (hphase.symm.trans (h.notOpen hs)))
  have hafter : ∀ (t : ValidatorRuntimeState) (id : Int) (w' : World), id ≠ epochId →
      wp (do
        writeState env t
        pure (t, id) : M (ValidatorRuntimeState × Int))
        (Post.onReturn fun begun _ => begun.2 ≠ epochId) w' := by
    intro t id w' hne
    rw [wp_bind]
    exact wp_mono (wp_self_ok (writeState env t) w') (fun _ _ _ => hne) (fun _ _ _ => trivial)
      fun _ _ => trivial
  unfold beginIdle
  split
  · next id hphase hid =>
    rw [wp_bind, wp_now]
    refine hafter _ _ _ fun he => hactive hphase (by decide) ?_
    rw [hid, he]
  · next id hphase hid =>
    rw [wp_bind, wp_now]
    refine hafter _ _ _ fun he => hactive hphase (by decide) ?_
    rw [hid, he]
  · rw [wp_bind, wp_now]
    refine hafter _ _ _ fun he => ?_
    split at he
    · exact hnext he
    · exact hnext he

theorem wp_beginSubmitting_other (h : Settled s epochId) (own : Int) :
    wp (beginSubmitting env s own) (Post.onReturn fun t _ => Settled t epochId) w := by
  unfold beginSubmitting
  rw [wp_bind, wp_raiseIfAmbiguousAttempt]
  refine ⟨fun _ _ => ?_, fun _ _ => trivial⟩
  dsimp only
  rw [wp_bind, wp_isFile]
  dsimp only
  refine wp_ite (fun _ => trivial) fun _ => ?_
  rw [wp_bind, wp_isFile]
  dsimp only
  refine wp_ite (fun _ => trivial) fun _ => ?_
  rw [wp_bind, wp_get]
  dsimp only
  rw [wp_bind, wp_ofExcept]
  refine ⟨fun receipt _ => ?_, fun _ _ => trivial⟩
  dsimp only
  refine wp_ite (fun _ => trivial) fun _ => ?_
  rw [wp_bind, wp_ofExcept]
  refine ⟨fun definite _ => ?_, fun _ _ => trivial⟩
  dsimp only
  refine wp_ite (fun _ => trivial) fun _ => ?_
  rw [wp_bind, wp_now]
  dsimp only
  rw [wp_bind]
  exact wp_mono (wp_self_ok (writeState env _) w) (fun _ _ _ => settled_failedState h _ _)
    (fun _ _ _ => trivial) fun _ _ => trivial

/-- an epoch that is over is not given to a tick -/
theorem wp_beginLocked_other (hs : Persisted env w.files s) (h : Settled s epochId) :
    wp (beginLocked env) (Post.onReturn fun begun _ => begun.2 ≠ epochId) w := by
  unfold beginLocked
  rw [wp_bind, wp_readState]
  refine ⟨fun s' hs' => ?_, fun _ _ => trivial⟩
  obtain rfl : s' = s := Except.ok.inj (hs'.symm.trans hs)
  dsimp only
  split
  · rw [wp_bind]
    exact wp_mono (wp_beginSubmitting_other h _) (fun t w' ht => wp_beginIdle_other ht)
      (fun _ _ _ => trivial) fun _ _ => trivial
  · trivial
  · exact wp_beginIdle_other h

theorem wp_enter_other (hs : Persisted env w.files s) (h : Settled s epochId) (id : Nat) :
    wp (ValidatorTick.enter env id) ⟨fun own w' => own ≠ epochId ∧ LogKept w w',
      fun _ w' => LogKept w w', fun w' => LogKept w w'⟩ w := by
  refine onReturn_of_moves (logKept_commandFrame.enter id) w ?_
  unfold ValidatorTick.enter
  rw [wp_bind]
  refine wp_mono (onlyReads_acquireLock (.tick id) w) (fun _ w₁ hr => ?_) (fun _ _ _ => trivial)
    fun _ _ => trivial
  rw [← hr.files] at hs
  dsimp only
  rw [wp_handle, wp_bind]
  refine wp_mono (wp_beginLocked_other hs h) (fun begun w₂ hne => ?_) (fun _ w₂ _ => ?_)
    fun _ _ => trivial
  · exact hne
  · dsimp only
    rw [wp_bind]
    exact wp_mono (wp_self_ok (releaseLock (.tick id)) w₂) (fun _ _ _ => trivial)
      (fun _ _ _ => trivial) fun _ _ => trivial

/-- a part that does not touch the log, before one that lets it grow -/
theorem wp_bind_rowsGrow {α β : Type} {p : M α} {f : α → M β} {w₀ : World}
    (hg : RowsGrow epochId w₀ w) (hp : Moves LogKept p)
    (hf : ∀ a w', RowsGrow epochId w₀ w' → wp (f a) (Post.always (RowsGrow epochId w₀)) w') :
    wp (p >>= f) (Post.always (RowsGrow epochId w₀)) w := by
  have hrows : ∀ {w'}, LogKept w w' → RowsGrow epochId w₀ w' := fun h =>
    trans_of (RowsGrow epochId) hg h.rowsGrow
  rw [wp_bind]
  exact wp_mono (hp w) (fun a w' h => hf a w' (hrows h)) (fun _ _ h => hrows h) fun _ h => hrows h

theorem Moves.rowsGrow {α : Type} {p : M α} {w₀ : World} (hp : Moves LogKept p)
    (hg : RowsGrow epochId w₀ w) : wp p (Post.always (RowsGrow epochId w₀)) w :=
  wp_mono (hp w) (fun _ _ h => trans_of (RowsGrow epochId) hg h.rowsGrow)
    (fun _ _ h => trans_of (RowsGrow epochId) hg h.rowsGrow)
    fun _ h => trans_of (RowsGrow epochId) hg h.rowsGrow

theorem wp_tickBody_grows {w₀ : World} (hspares : env.SparesEpoch epochId w₀.clock) {own : Int}
    (hown : own ≠ epochId) (hg : RowsGrow epochId w₀ w) (client : ChainClient) (id : Nat) :
    wp (tickBody env substrate network args engine A cfg client id own)
      (Post.always (RowsGrow epochId w₀)) w := by
  have F := logKept_commandFrame
  have hhook : ∀ phase, Moves LogKept (emitPhase (some (ValidatorTick.phaseHook env id)) phase) :=
    fun phase => F.phaseHook id phase
  refine wp_bind_rowsGrow hg (F.transition id _) fun _ w₁ hg₁ => ?_
  refine wp_bind_rowsGrow hg₁ (F.queryMinersForTick client own) fun miners w₂ hg₂ => ?_
  have hepoch : wp (runEpoch env engine substrate A cfg own args.quota miners (some client)
      (some (ValidatorTick.phaseHook env id))) (Post.always (RowsGrow epochId w₀)) w₂ := by
    refine wp_bind_rowsGrow hg₂ (hhook _) fun _ w₃ hg₃ => ?_
    rw [wp_bind]
    refine wp_mono (wp_evaluateEpoch_grows (hspares.mono hg₃.clock) hown miners) (fun e w₄ hg₄ => ?_)
      (fun _ _ h => trans_of (RowsGrow epochId) hg₃ h) fun _ h => trans_of (RowsGrow epochId) hg₃ h
    exact Moves.rowsGrow (F.concludeEpoch miners (F.applyWeights logKept_log _) hhook _ _)
      (trans_of (RowsGrow epochId) hg₃ hg₄)
  rw [wp_bind, wp_handle]
  refine wp_mono hepoch (fun _ _ h => h) (fun exc w₃ hg₃ => ?_) fun _ h => h
  exact wp_mono (Moves.rowsGrow (F.failIncomplete id exc) hg₃) (fun _ _ h => h) (fun _ _ h => h)
    fun _ h => h

/-- **A tick logs no row of an epoch that is over**, however it ends. -/
theorem wp_tickCommand_grows (hspares : env.SparesEpoch epochId w.clock) (hs : Persisted env w.files s)
    (h : Settled s epochId) (input : TickInput) :
    wp (tickCommand env substrate network args engine A input)
      (Post.always (RowsGrow epochId w)) w := by
  have F := logKept_commandFrame
  have hstart : RowsGrow epochId w w := refl_of (RowsGrow epochId) w
  unfold tickCommand
  rw [wp_bind, wp_ofExcept]
  refine ⟨fun prepared _ => ?_, fun _ _ => hstart⟩
  dsimp only
  rw [wp_bind, wp_modify]
  dsimp only
  rw [wp_bind]
  unfold withTick newTick
  rw [wp_bind, wp_bind, wp_get]
  dsimp only
  rw [wp_bind, wp_modify]
  dsimp only
  rw [wp_pure]
  dsimp only
  let w₁ : World := { w with connected := false, nextTick := w.nextTick + 1 }
  have hg₁ : RowsGrow epochId w w₁ := LogKept.rowsGrow (.of_eq le_rfl rfl)
  have hs₁ : Persisted env w₁.files s := hs
  rw [wp_bind]
  refine wp_mono (wp_enter_other hs₁ h w.nextTick) ?_
    (fun _ _ h => trans_of (RowsGrow epochId) hg₁ h.rowsGrow)
    fun _ h => trans_of (RowsGrow epochId) hg₁ h.rowsGrow
  intro own w₂ h₂
  have hg₂ : RowsGrow epochId w w₂ := trans_of (RowsGrow epochId) hg₁ h₂.2.rowsGrow
  dsimp only
  rw [wp_bind, wp_handle]
  refine wp_mono (wp_tickBody_grows hspares h₂.1 hg₂ prepared.2 w.nextTick) ?_ ?_ fun _ h => h
  · intro ended w₃ hg₃
    dsimp only
    rw [wp_bind]
    exact Moves.rowsGrow (F.exit w.nextTick none) hg₃
  · intro exc w₃ hg₃
    dsimp only
    rw [wp_bind]
    exact Moves.rowsGrow (F.exit w.nextTick (some exc)) hg₃

end

/-! ## later worlds -/

/-- one command on the archive, or the end of the process -/
inductive ArchiveStep (env : Env) : World → World → Prop
  | tick {w w' : World} {o : Outcome Exn Int} (t : TickRun) (hr : t.run env w = (o, w')) :
      ArchiveStep env w w'
  | recover {w w' : World} {o : Outcome Exn ValidatorRuntimeState}
      (hr : recoverReceipt env w = (o, w')) : ArchiveStep env w w'
  | restart {w : World} : ArchiveStep env w w.restart
  | pass {w : World} (clock : Nat) (h : w.clock ≤ clock) : ArchiveStep env w { w with clock }

/-- the worlds that further commands reach -/
abbrev Later (env : Env) : World → World → Prop := Relation.ReflTransGen (ArchiveStep env)

section
variable {env : Env} {A : FloatOps} {epochId : Int} {w w' : World}

theorem ArchiveRun.step (h : ArchiveRun env w) (hs : ArchiveStep env w w') : ArchiveRun env w' := by
  cases hs with
  | tick t hr => exact .tick t h hr
  | recover hr => exact .recover h hr
  | restart => exact .restart h
  | pass clock => exact .pass clock h

theorem ArchiveRun.later (h : ArchiveRun env w) (hl : Later env w w') : ArchiveRun env w' := by
  induction hl with
  | refl => exact h
  | tail _ hs ih => exact ih.step hs

theorem ArchiveStep.traceGrows (h : ArchiveStep env w w') : TraceGrows w w' := by
  cases h with
  | tick t hr =>
    have hcall : ∀ w e, TraceGrows w (w.log e) := fun _ _ => ⟨_, rfl⟩
    exact (traceGrows_frame.tickCommand fun _ client _ =>
      traceGrows_frame.applyWeights hcall client).run hr
  | recover hr => exact traceGrows_frame.recoverReceipt.run hr
  | restart => exact .of_eq rfl
  | pass clock => exact .of_eq rfl

theorem Later.traceGrows (h : Later env w w') : TraceGrows w w' := by
  induction h with
  | refl => exact refl_of TraceGrows w
  | tail _ hs ih => exact trans_of TraceGrows ih hs.traceGrows

/-- an epoch that is over in a run keeps its files, and stays over -/
theorem ArchiveRun.settled {s : ValidatorRuntimeState} (h : ArchiveRun env w)
    (hs : Persisted env w.files s) (hover : Settled s epochId) (hl : Later env w w') :
    Adds (fun e => ¬ e.writesEpoch epochId) w w' ∧ SameEpoch epochId w.files w'.files ∧
      ∃ t, Persisted env w'.files t ∧ Settled t epochId := by
  obtain ⟨es, htrace⟩ := hl.traceGrows
  have hJ := h.journaled
  have hJ' := (h.later hl).journaled
  have hlawful := hJ'.lawful
  rw [hJ.files] at hs
  rw [htrace] at hlawful
  obtain ⟨hquiet, hkept⟩ := settled_files hs hover hlawful
  refine ⟨⟨es, htrace, hquiet⟩, ?_⟩
  rw [hJ.files, hJ'.files, htrace]
  exact hkept

/-- what a run has committed is over, and accepted -/
theorem ArchiveRun.committed (h : ArchiveRun env w) {e : Event} (hmem : e ∈ w.trace)
    (he : e.commits env epochId) :
    (∃ s, Persisted env w.files s ∧ Settled s epochId) ∧
      ∃ v, verifyEpochCompletion env w.files epochId = .ok v := by
  obtain ⟨before, after, htrace⟩ := List.append_of_mem hmem
  have hJ := h.journaled
  have hlawful := hJ.lawful
  rw [htrace] at hlawful
  obtain ⟨⟨t, ht, hover⟩, v, hv⟩ := settled_of_commits hlawful he
  rw [List.append_cons before e after] at hlawful htrace
  obtain ⟨_, hsame, hend⟩ := settled_files ht hover hlawful
  rw [← htrace, ← hJ.files] at hsame hend
  refine ⟨hend, v, ?_⟩
  rw [verifyEpochCompletion_congr hsame, hv]

/-- **What is committed stays.** Whatever commands follow the commit of an epoch, none of them
writes a file of it, its files are the same and its completion marker is accepted. -/
theorem committed_evidence_stands (h : ArchiveRun env w) {e : Event} (hmem : e ∈ w.trace)
    (he : e.commits env epochId) :
    ∃ v, verifyEpochCompletion env w.files epochId = .ok v ∧ ∀ w', Later env w w' →
      Adds (fun e => ¬ e.writesEpoch epochId) w w' ∧ SameEpoch epochId w.files w'.files ∧
        verifyEpochCompletion env w'.files epochId = .ok v := by
  obtain ⟨⟨s, hs, hover⟩, v, hv⟩ := h.committed hmem he
  refine ⟨v, hv, fun w' hl => ?_⟩
  obtain ⟨hadds, hsame, _⟩ := h.settled hs hover hl
  exact ⟨hadds, hsame, by rw [verifyEpochCompletion_congr hsame, hv]⟩

/-! ## the replay -/

theorem logKept_recover : Moves LogKept (recoverReceipt env) := logKept_commandFrame.recoverReceipt

theorem later_rowsGrow {s : ValidatorRuntimeState} (h : ArchiveRun env w)
    (hs : Persisted env w.files s) (hover : Settled s epochId) (hspares : env.SparesEpoch epochId w.clock)
    (hl : Later env w w') : RowsGrow epochId w w' := by
  induction hl with
  | refl => exact refl_of (RowsGrow epochId) w
  | @tail w₁ w₂ hl hstep ih =>
    refine trans_of (RowsGrow epochId) ih ?_
    obtain ⟨_, _, t, ht, hover₁⟩ := h.settled hs hover hl
    cases hstep with
    | tick run hr =>
      have hgrows := wp_always.mp (@wp_tickCommand_grows (run.env env) run.engine run.substrate
        run.A run.network run.args _ _ _ (hspares.mono ih.clock) ht hover₁ run.input)
      have hend : (run.run env w₁).2 = w₂ := congrArg Prod.snd hr
      rw [← hend]
      exact hgrows
    | recover hr => exact (logKept_recover.run hr).rowsGrow
    | restart => exact LogKept.rowsGrow (.of_eq le_rfl rfl)
    | pass clock hclock => exact LogKept.rowsGrow (.of_eq hclock rfl)

theorem epochRows_append_elsewhere {new : List Obj} (hnew : ∀ row ∈ new, RowElsewhere epochId row)
    (rows : List Obj) : epochRows epochId (rows ++ new) = epochRows epochId rows := by
  refine filterM_append_false (fun row hrow => ?_) rows
  obtain ⟨id, hid, hne⟩ := hnew row hrow
  show (Json.index "epoch_id" (.obj row) >>= _) = _
  unfold Json.index
  dsimp only
  rw [hid]
  show Except.ok (some (id : ℚ) == some (epochId : ℚ)) = .ok false
  simpa using hne

/-- the replay reads the artifact of the epoch and its rows -/
theorem replayEpoch_congr (hsame : SameEpoch epochId w.files w'.files)
    (hgrow : RowsGrow epochId w w') {log : Log} {rows : List Obj} (hlog : w.submissions = some log)
    (hrows : readJsonl log = .ok rows) :
    replayEpoch env A w'.files w'.submissions epochId =
      replayEpoch env A w.files w.submissions epochId := by
  obtain ⟨log', new, hlog', hrows', hnew⟩ := hgrow.rows log rows hlog hrows
  have hload : loadArtifact env w'.files epochId = loadArtifact env w.files epochId := by
    unfold loadArtifact
    rw [hsame .weights]
  unfold replayEpoch
  rw [hload, hlog, hlog']
  refine congrArg (loadArtifact env w.files epochId >>= ·) (funext fun artifact => ?_)
  dsimp only
  rw [hrows, hrows', ok_bind, ok_bind, epochRows_append_elsewhere hnew]

/-- **What a replay finds is found for ever.** Once an epoch is committed and the log can be read,
neither its replay nor the comparison with the stored weights changes, whatever commands follow.
An append that is cut off leaves a part of a row of its own epoch, hence no row of this one. -/
theorem replay_stands (h : ArchiveRun env w) {e : Event} (hmem : e ∈ w.trace)
    (he : e.commits env epochId) (hspares : env.SparesEpoch epochId w.clock) {log : Log} {rows : List Obj}
    (hlog : w.submissions = some log) (hrows : readJsonl log = .ok rows)
    (hl : Later env w w') :
    replayEpoch env A w'.files w'.submissions epochId =
        replayEpoch env A w.files w.submissions epochId ∧
      assertReplayMatches env A w'.files w'.submissions epochId =
        assertReplayMatches env A w.files w.submissions epochId := by
  obtain ⟨⟨s, hs, hover⟩, _⟩ := h.committed hmem he
  obtain ⟨_, hsame, _⟩ := h.settled hs hover hl
  have hreplay := @replayEpoch_congr env A _ _ _ hsame
    (later_rowsGrow h hs hover hspares hl) _ _ hlog hrows
  refine ⟨hreplay, ?_⟩
  unfold assertReplayMatches loadArtifact
  rw [hreplay, hsame .weights]

end

/-! ## a run -/

section

theorem Later.ticked {env : Env} {w : World} (t : TickRun) : Later env w (t.after env w) :=
  .single (.tick t Prod.mk.eta.symm)

theorem wireWorld_later : Later Env.plain wireWorld wireWorld' := Later.ticked wireTick

theorem committed_evidence_stands_sample : ∃ v, verifyEpochCompletion Env.plain wireWorld.files 1 =
    .ok v ∧ verifyEpochCompletion Env.plain wireWorld'.files 1 = .ok v := by
  obtain ⟨e, hmem, he⟩ := wireWorld_commits
  obtain ⟨v, hv, hlater⟩ := committed_evidence_stands wireWorld_reached hmem he
  exact ⟨v, hv, (hlater _ wireWorld_later).2.2⟩

/-- the append of the second tick is cut off, and its process is killed -/
def tornEnv : Env :=
  { Env.plain with
    fault := fun n => if n = 31 then .killBefore else .none
    torn := fun _ => some .bad }

def tornWorld : World := wireTick.after tornEnv {}
def tornWorld' : World := wireTick.after tornEnv tornWorld

theorem tornWorld_reached : ArchiveRun tornEnv tornWorld :=
  (ArchiveRun.start (w := {}) rfl rfl).ticked wireTick

theorem tornWorld_commits : ∃ e ∈ tornWorld.trace, e.commits tornEnv 1 := by decide +kernel

/-- the row of the submission is in the log -/
theorem tornWorld_logged : ∃ log rows, tornWorld.submissions = some log ∧
    readJsonl log = .ok rows ∧ rows.length = 1 := by
  have hread : ((tornWorld.submissions.map readJsonl).bind Except.toOption).map List.length =
      some 1 := by decide +kernel
  cases hlog : tornWorld.submissions with
  | none => rw [hlog] at hread; exact nomatch hread
  | some log =>
    rw [hlog] at hread
    cases hrows : readJsonl log with
    | error e =>
      simp [hrows, Except.toOption] at hread
    | ok rows =>
      simp [hrows, Except.toOption] at hread
      exact ⟨log, rows, rfl, hrows, hread⟩

theorem replay_stands_sample : (tornWorld'.submissions.bind Log.tail).isSome ∧
    replayEpoch tornEnv exactOps tornWorld'.files tornWorld'.submissions 1 =
      replayEpoch tornEnv exactOps tornWorld.files tornWorld.submissions 1 := by
  obtain ⟨e, hmem, he⟩ := tornWorld_commits
  obtain ⟨log, rows, hlog, hrows, _⟩ := tornWorld_logged
  have hspares : tornEnv.SparesEpoch 1 tornWorld.clock := fun _ _ _ h => nomatch Option.some.inj h
  exact ⟨by decide +kernel,
    (replay_stands tornWorld_reached hmem he hspares hlog hrows (Later.ticked wireTick)).1⟩

end

end Dolores
