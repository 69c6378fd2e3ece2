import Dolores.Validator.RunLaw

/-!
# The moving averages of whole runs

What a journal under the law of whole ticks says of the rolling `miner_state.json`.

* `CommittedEma`         the snapshot that the last commit has committed;
* `EmaInv`               the invariant, kept by each event;
* `ema_loaded`           what a tick loads is the snapshot committed last;
* `ema_of_stateWrite`    and so is the rolling state whenever the state is written;
* `ema_of_commit`        a commit adds the epoch's update to the snapshot committed before it;
* `commits_increase`     each epoch is committed at most once.
-/

namespace Dolores
open Crash Except Journal

/-- the event commits some epoch -/
def Event.commitsSome (env : Env) (e : Event) : Prop := ∃ epochId, e.commits env epochId

/-- the snapshot of the epoch committed last, or nothing -/
def CommittedEma (env : Env) (past : List Event) (ema : Option Content) : Prop :=
  (∀ e ∈ past, ¬ e.commitsSome env) ∧ ema = none ∨
    ∃ before e epochId, LastWith (Event.commitsSome env) past before e ∧
      e.commits env epochId ∧ ema = archiveOf before (.epoch epochId .minerState)

structure EmaInv (env : Env) (Own : OwnUpdates) (past : List Event) (s : ValidatorRuntimeState) :
    Prop where
  updated : ∀ epochId c, archiveOf past (.epoch epochId .minerState) = some c →
    EmaUpdated env Own past epochId c
  allocated : ∀ epochId rolling, Event.emaLoaded epochId rolling ∈ past → epochId < s.nextEpochId
  /-- until it is committed, the active epoch has loaded what is still committed last -/
  current : ∀ epochId rolling, Event.emaLoaded epochId rolling ∈ past →
    s.activeEpochId = some epochId → s.phase ≠ some .committed →
    rolling = committedSnapshot (archiveOf past) s
  committed : CommittedEma env past (committedSnapshot (archiveOf past) s)
  done : ∀ e ∈ past, ∀ epochId, e.commits env epochId →
    ∃ done, s.lastCompletedEpoch = some done ∧ epochId ≤ done

section
variable {env : Env} {Own : OwnUpdates} {past : List Event} {epochId : Int} {e : Event}

theorem CommittedEma.snoc {ema : Option Content} (h : CommittedEma env past ema)
    (he : ¬ e.commitsSome env) : CommittedEma env (past ++ [e]) ema := by
  rcases h with ⟨hnone, hema⟩ | ⟨before, e', id, hlast, hcommits, hema⟩
  · refine .inl ⟨fun x hx => ?_, hema⟩
    rcases List.mem_append.mp hx with hx | hx
    · exact hnone x hx
    · rw [List.mem_singleton.mp hx]
      exact he
  · exact .inr ⟨before, e', id, hlast.snoc he, hcommits, hema⟩

theorem committedEma_of_commits (h : e.commits env epochId) :
    CommittedEma env (past ++ [e]) (archiveOf past (.epoch epochId .minerState)) :=
  .inr ⟨past, e, epochId, lastWith_snoc ⟨epochId, h⟩, h, rfl⟩

theorem EmaUpdated.snoc {c : Content} (h : EmaUpdated env Own past epochId c) (e : Event) :
    EmaUpdated env Own (past ++ [e]) epochId c := by
  obtain ⟨loaded, rolling, since, update, previous, hpast, h⟩ := h
  refine ⟨loaded, rolling, since ++ [e], update, previous, ?_, h⟩
  rw [hpast, List.append_assoc, List.cons_append]

theorem not_commits_of_leavesState (h : e.leavesState) : ¬ e.commitsSome env := by
  intro hcommits
  obtain ⟨id, hcommits⟩ := hcommits
  cases e with
  | wrote p c =>
    cases p with
    | state => exact h
    | minerState => exact hcommits
    | epoch => exact hcommits
  | verified => exact hcommits
  | setWeights => exact hcommits
  | tickEntered => exact hcommits
  | emaLoaded => exact hcommits
  | pipelineRan => exact hcommits

theorem commits_stateWrite {t : ValidatorRuntimeState} (hvalid : t.Valid) :
    (Event.wrote .state (stateContent t)).commits env epochId ↔
      t.activeEpochId = some epochId ∧ t.phase = some .committed := by
  constructor
  · intro h
    obtain ⟨s, hs, hactive, hphase⟩ := h
    obtain rfl : t.canon = s := Except.ok.inj ((stateOf_stateContent hvalid).symm.trans hs)
    exact ⟨hactive, hphase⟩
  · intro h
    exact ⟨t.canon, stateOf_stateContent hvalid, h.1, h.2⟩

/-! ## each event keeps the invariant -/

/-- only the snapshot of an epoch that is not completed is written -/
theorem committedSnapshot_snoc {s : ValidatorRuntimeState} (hs : Persisted env (archiveOf past) s)
    (holder : ∀ id, s.activeEpochId = some id → s.phase = some .weightsSubmitting →
      ∀ done, s.lastCompletedEpoch = some done → done < id)
    (hleaves : e.leavesState) (he : RunLaw env Own past e) :
    committedSnapshot (archiveOf (past ++ [e])) s = committedSnapshot (archiveOf past) s := by
  unfold committedSnapshot
  cases hdone : s.lastCompletedEpoch with
  | none => rfl
  | some done =>
    rw [Option.bind_some, Option.bind_some]
    cases e with
    | wrote p c =>
      cases p with
      | state => exact hleaves.elim
      | minerState => exact archiveOf_wrote_ne (by simp) c
      | epoch id file =>
        obtain ⟨⟨s', hs', hactive, hphase⟩, _⟩ := he
        obtain rfl : s' = s := Except.ok.inj (hs'.symm.trans hs)
        have hlt := holder id hactive hphase done hdone
        refine archiveOf_wrote_ne (fun hpath => ?_) c
        have hid := (Path.epoch.inj hpath).1
        omega
    | verified => exact congrFun (archiveOf_snoc past _) _
    | setWeights => exact congrFun (archiveOf_snoc past _) _
    | tickEntered => exact congrFun (archiveOf_snoc past _) _
    | emaLoaded => exact congrFun (archiveOf_snoc past _) _
    | pipelineRan => exact congrFun (archiveOf_snoc past _) _

/-- a snapshot that is written is an update, and the others stay -/
theorem updated_snoc (h : ∀ id c, archiveOf past (.epoch id .minerState) = some c →
      EmaUpdated env Own past id c) (he : RunLaw env Own past e) (id : Int) (c : Content)
    (hc : archiveOf (past ++ [e]) (.epoch id .minerState) = some c) :
    EmaUpdated env Own (past ++ [e]) id c := by
  have hkept : archiveOf (past ++ [e]) (.epoch id .minerState) =
      archiveOf past (.epoch id .minerState) → EmaUpdated env Own (past ++ [e]) id c := by
    intro hfile
    exact (h id c (hfile.symm.trans hc)).snoc e
  cases e with
  | wrote p c' =>
    by_cases hp : Path.epoch id .minerState = p
    · subst hp
      rw [archiveOf_wrote_self] at hc
      obtain rfl := Option.some.inj hc
      exact EmaUpdated.snoc he.2 _
    · exact hkept (archiveOf_wrote_ne hp c')
  | verified => exact hkept (congrFun (archiveOf_snoc past _) _)
  | setWeights => exact hkept (congrFun (archiveOf_snoc past _) _)
  | tickEntered => exact hkept (congrFun (archiveOf_snoc past _) _)
  | emaLoaded => exact hkept (congrFun (archiveOf_snoc past _) _)
  | pipelineRan => exact hkept (congrFun (archiveOf_snoc past _) _)

theorem emaLoaded_snoc_iff {rolling : Option Content} :
    Event.emaLoaded epochId rolling ∈ past ++ [e] ↔
      Event.emaLoaded epochId rolling ∈ past ∨ e = .emaLoaded epochId rolling := by
  rw [List.mem_append, List.mem_singleton]
  exact or_congr_right eq_comm

/-- an event that leaves the state -/
theorem EmaInv.of_leavesState {s : ValidatorRuntimeState} (h : EmaInv env Own past s)
    (hs : Persisted env (archiveOf past) s) (hvalid : s.Valid) (hrun : RunInv past s)
    (holder : ∀ id, s.activeEpochId = some id → s.phase = some .weightsSubmitting →
      ∀ done, s.lastCompletedEpoch = some done → done < id)
    (hleaves : e.leavesState) (he : RunLaw env Own past e) : EmaInv env Own (past ++ [e]) s := by
  have hsnapshot := committedSnapshot_snoc hs holder hleaves he
  have hnot : ¬ e.commitsSome env := not_commits_of_leavesState hleaves
  -- what an epoch loads while it is evaluated
  have hload : ∀ id rolling, e = .emaLoaded id rolling → s.activeEpochId = some id ∧
      rolling = committedSnapshot (archiveOf past) s := by
    intro id rolling hnew
    subst hnew
    obtain ⟨hrolling, s', hs', hactive, hphase⟩ := he
    obtain rfl : s' = s := Except.ok.inj (hs'.symm.trans hs)
    refine ⟨hactive, hrolling.trans (hrun.rolling.resolve_left fun hpending => ?_)⟩
    obtain ⟨_, _, hsubmitting, _⟩ := hpending
    exact nomatch hphase.symm.trans hsubmitting
  refine ⟨updated_snoc h.updated he, ?_, ?_, ?_, ?_⟩
  · intro id rolling hmem
    rcases emaLoaded_snoc_iff.mp hmem with hold | hnew
    · exact h.allocated id rolling hold
    · exact (hvalid.active id (hload id rolling hnew).1).2.1
  · intro id rolling hmem hactive hphase
    rw [hsnapshot]
    rcases emaLoaded_snoc_iff.mp hmem with hold | hnew
    · exact h.current id rolling hold hactive hphase
    · exact (hload id rolling hnew).2
  · rw [hsnapshot]
    exact h.committed.snoc hnot
  · intro x hx id hcommits
    rcases List.mem_append.mp hx with hx | hx
    · exact h.done x hx id hcommits
    · rw [List.mem_singleton.mp hx] at hcommits
      exact (hnot ⟨id, hcommits⟩).elim

/-- an epoch becomes active when it is allocated, and is not active again once it is over -/
theorem Follows.active {files : Files} {s t : ValidatorRuntimeState} (h : Follows env files s t) :
    s.nextEpochId ≤ t.nextEpochId ∧ ∀ id, t.activeEpochId = some id → t.phase ≠ some .committed →
      s.activeEpochId = some id ∧ s.phase ≠ some .committed ∨ s.nextEpochId = id := by
  have hnext : s.nextEpochId ≤ s.nextEpochId + 1 := by omega
  cases h with
  | retried updatedAt hphase =>
    refine ⟨le_rfl, fun id hactive _ => .inl ⟨hactive, ?_⟩⟩
    rcases hphase with hp | hp
    · rw [hp]
      exact fun he => nomatch he
    · rw [hp]
      exact fun he => nomatch he
  | allocated => exact ⟨hnext, fun id hactive _ => .inr (Option.some.inj hactive)⟩
  | abandoned => exact ⟨hnext, fun id hactive _ => .inr (Option.some.inj hactive)⟩
  | @moved current phase updatedAt hphase hallowed hne =>
    refine ⟨le_rfl, fun id hactive _ => .inl ⟨hactive, ?_⟩⟩
    rw [hphase]
    intro hcommitted
    rw [Option.some.inj hcommitted] at hallowed
    exact List.not_mem_nil hallowed
  | evaluationFailed => exact ⟨le_rfl, fun id hactive _ => nomatch hactive⟩
  | weightsFailed => exact ⟨le_rfl, fun id hactive _ => nomatch hactive⟩
  | committed => exact ⟨le_rfl, fun id _ hphase => (hphase rfl).elim⟩

theorem EmaInv.wroteState {s t : ValidatorRuntimeState} (h : EmaInv env Own past s)
    (holder : ∀ id, s.activeEpochId = some id → s.phase = some .weightsSubmitting →
      ∀ done, s.lastCompletedEpoch = some done → done < id)
    (hvalid : t.Valid) (hfollows : Follows env (archiveOf past) s t) :
    EmaInv env Own (past ++ [.wrote .state (stateContent t)]) t.canon := by
  have hsnapshot : ∀ x : ValidatorRuntimeState,
      committedSnapshot (archiveOf (past ++ [.wrote .state (stateContent t)])) x =
        committedSnapshot (archiveOf past) x := by
    intro x
    unfold committedSnapshot
    exact congrArg _ (funext fun id => archiveOf_wrote_ne (by simp) _)
  have hold : ∀ {id rolling},
      Event.emaLoaded id rolling ∈ past ++ [.wrote .state (stateContent t)] →
      Event.emaLoaded id rolling ∈ past := by
    intro id rolling hmem
    exact (emaLoaded_snoc_iff.mp hmem).resolve_right fun he => nomatch he
  obtain ⟨hnext, hactivated⟩ := hfollows.active
  refine ⟨?_, fun id rolling hmem => (h.allocated id rolling (hold hmem)).trans_le hnext, ?_, ?_, ?_⟩
  · intro id c hc
    rw [archiveOf_wrote_ne (by simp)] at hc
    exact (h.updated id c hc).snoc _
  · intro id rolling hmem hactive hphase
    rcases hactivated id hactive hphase with ⟨hactive', hphase'⟩ | hnew
    · have hkept : t.lastCompletedEpoch = s.lastCompletedEpoch := by
        rcases hfollows.commits_or_keeps with ⟨_, _, _, _, _, hcommitted, _⟩ | ⟨hkept, _⟩
        · exact (hphase hcommitted).elim
        · exact hkept
      rw [hsnapshot, h.current id rolling (hold hmem) hactive' hphase']
      show s.lastCompletedEpoch.bind _ = t.lastCompletedEpoch.bind _
      rw [hkept]
    · have hlt := h.allocated id rolling (hold hmem)
      omega
  · rw [hsnapshot]
    rcases hfollows.commits_or_keeps with
      ⟨id, _, _, hactive, hdone, hphase, _⟩ | ⟨hkept, hphase⟩
    · have hlast : committedSnapshot (archiveOf past) t.canon =
          archiveOf past (.epoch id .minerState) := by
        show t.lastCompletedEpoch.bind _ = _
        rw [hdone]
        rfl
      rw [hlast]
      exact committedEma_of_commits ((commits_stateWrite hvalid).mpr ⟨hactive, hphase⟩)
    · have hlast : committedSnapshot (archiveOf past) t.canon =
          committedSnapshot (archiveOf past) s := by
        show t.lastCompletedEpoch.bind _ = s.lastCompletedEpoch.bind _
        rw [hkept]
      rw [hlast]
      refine h.committed.snoc fun hcommits => ?_
      obtain ⟨id, hcommits⟩ := hcommits
      exact hphase ((commits_stateWrite hvalid).mp hcommits).2
  · intro x hx id hcommits
    show ∃ done, t.lastCompletedEpoch = some done ∧ id ≤ done
    rcases List.mem_append.mp hx with hx | hx
    · obtain ⟨done, hdone, hle⟩ := h.done x hx id hcommits
      rcases hfollows.commits_or_keeps with
        ⟨id', _, hactive, _, hdone', _, _, hphase, _⟩ | ⟨hkept, _⟩
      · have hlt := holder id' hactive hphase done hdone
        exact ⟨id', hdone', by omega⟩
      · exact ⟨done, hkept.trans hdone, hle⟩
    · rw [List.mem_singleton.mp hx] at hcommits
      obtain ⟨hactive, hphase⟩ := (commits_stateWrite hvalid).mp hcommits
      rcases hfollows.commits_or_keeps with ⟨id', _, _, hactive', hdone', _⟩ | ⟨_, hnot⟩
      · exact ⟨id', hdone', le_of_eq (Option.some.inj (hactive.symm.trans hactive'))⟩
      · exact (hnot hphase).elim

theorem emaInv_start : EmaInv env Own [] {} where
  updated _ _ hc := nomatch hc
  allocated _ _ hmem := (List.not_mem_nil hmem).elim
  current _ _ hmem := (List.not_mem_nil hmem).elim
  committed := .inl ⟨fun _ hmem => (List.not_mem_nil hmem).elim, rfl⟩
  done _ hmem := (List.not_mem_nil hmem).elim

/-- the state of a lawful journal, with all that the two invariants say -/
structure RunState (env : Env) (Own : OwnUpdates) (past : List Event) (s : ValidatorRuntimeState) :
    Prop where
  persisted : Persisted env (archiveOf past) s
  valid : s.Valid
  holder : ∀ id, s.activeEpochId = some id → s.phase = some .weightsSubmitting →
    ∀ done, s.lastCompletedEpoch = some done → done < id
  run : RunInv past s
  ema : EmaInv env Own past s

theorem runState_of_lawful (h : Lawful (RunLaw env Own) past) : ∃ s, RunState env Own past s := by
  have hbase : ∀ {past}, Lawful (RunLaw env Own) past → ∃ s, Persisted env (archiveOf past) s ∧
      s.Valid ∧ (∀ id, s.activeEpochId = some id → s.phase = some .weightsSubmitting →
        ∀ done, s.lastCompletedEpoch = some done → done < id) ∧ RunInv past s := by
    intro past h
    obtain ⟨s, hs, hledger, hrun⟩ := runInv_of_lawful h
    refine ⟨s, hs, hledger.valid.1, fun id hactive hphase done hdone => ?_, hrun⟩
    refine (ledger_lastCompleted hledger done hdone).2 id hactive ?_
    rw [hphase]
    exact fun he => nomatch he
  refine h.invariant (I := fun past => ∃ s, RunState env Own past s) ?_ fun past e hpast ih he => ?_
  · obtain ⟨s, hs, hvalid, holder, hrun⟩ := hbase Lawful.nil
    obtain rfl : {} = s := Except.ok.inj hs
    exact ⟨{}, hs, hvalid, holder, hrun, emaInv_start⟩
  · obtain ⟨s, h⟩ := ih
    obtain ⟨t, ht, hvalid, holder, hrun⟩ := hbase (hpast.snoc he)
    refine ⟨t, ht, hvalid, holder, hrun, ?_⟩
    by_cases hleaves : e.leavesState
    · unfold Persisted at ht
      rw [archiveOf_snoc, Event.state_of_leavesState hleaves] at ht
      obtain rfl : s = t := Except.ok.inj (h.persisted.symm.trans ht)
      exact h.ema.of_leavesState h.persisted h.valid h.run h.holder hleaves he
    · obtain ⟨c, rfl⟩ := stateWrite_of_not_leavesState hleaves
      obtain ⟨s', written, hs', hfollows, _, hvalid', rfl⟩ := he
      obtain rfl : s' = s := Except.ok.inj (hs'.symm.trans h.persisted)
      obtain rfl : written.canon = t := Except.ok.inj ((persisted_wrote hvalid').symm.trans ht)
      exact h.ema.wroteState h.holder hvalid' hfollows

/-! ## the moving averages -/

variable {before after : List Event}

/-- **What a tick loads is the snapshot that was committed last.** -/
theorem ema_loaded {rolling : Option Content}
    (h : Lawful (RunLaw env Own) (before ++ .emaLoaded epochId rolling :: after)) :
    CommittedEma env before rolling := by
  obtain ⟨s, hs⟩ := runState_of_lawful h.of_append
  obtain ⟨hrolling, s', hs', _, hphase⟩ := h.at
  obtain rfl : s' = s := Except.ok.inj (hs'.symm.trans hs.persisted)
  rw [hrolling, hs.run.rolling.resolve_left]
  · exact hs.ema.committed
  · intro hpending
    obtain ⟨_, _, hsubmitting, _⟩ := hpending
    exact nomatch hphase.symm.trans hsubmitting

/-- **Whenever the state is written, the rolling state is the snapshot committed last.** -/
theorem ema_of_stateWrite {c : Content}
    (h : Lawful (RunLaw env Own) (before ++ .wrote .state c :: after)) :
    CommittedEma env (before ++ [.wrote .state c]) (archiveOf before .minerState) := by
  obtain ⟨s, hs⟩ := runState_of_lawful h.of_append
  obtain ⟨s', t, hs', hfollows, hguard, hvalid, rfl⟩ := h.at
  obtain rfl : s' = s := Except.ok.inj (hs'.symm.trans hs.persisted)
  rw [hs.run.rolling_of_follows hfollows hguard]
  have hema := (hs.ema.wroteState hs.holder hvalid hfollows).committed
  have hsame : committedSnapshot (archiveOf (before ++ [.wrote .state (stateContent t)])) t.canon =
      committedSnapshot (archiveOf before) t := by
    unfold committedSnapshot
    exact congrArg _ (funext fun id => archiveOf_wrote_ne (by simp) _)
  rw [hsame] at hema
  exact hema

/-- the snapshot is this update of the moving averages -/
def OneUpdate (env : Env) (update : EmaUpdate) (rolling : Option Content) (c : Content) : Prop :=
  ∃ previous, minerStateOf env rolling = .ok previous ∧
    c = .doc (.obj (scoresRecord (update.apply previous)))

/-- **A commit adds the epoch's own update to what was committed before it**, once. -/
theorem ema_of_commit (h : Lawful (RunLaw env Own) (before ++ e :: after))
    (hcommits : e.commits env epochId) :
    ∃ loaded rolling since update snapshot,
      before = loaded ++ .emaLoaded epochId rolling :: since ∧ Own loaded epochId update ∧
      CommittedEma env before rolling ∧ OneUpdate env update rolling snapshot ∧
      archiveOf before (.epoch epochId .minerState) = some snapshot ∧
      archiveOf before .minerState = some snapshot := by
  obtain ⟨s, hs⟩ := runState_of_lawful h.of_append
  have hleaves : ¬ e.leavesState := fun hl => not_commits_of_leavesState hl ⟨epochId, hcommits⟩
  obtain ⟨c, rfl⟩ := stateWrite_of_not_leavesState hleaves
  obtain ⟨s', t, hs', hfollows, _, hvalid, rfl⟩ := h.at
  obtain rfl : s' = s := Except.ok.inj (hs'.symm.trans hs.persisted)
  obtain ⟨hactive, hphase⟩ := (commits_stateWrite hvalid).mp hcommits
  rcases hfollows.commits_or_keeps with
    ⟨id, v, hactive', hid, _, _, _, hsubmitting, hattempt, hverified, hrolling⟩ | ⟨_, hnot⟩
  · obtain rfl := Option.some.inj (hactive.symm.trans hid)
    have hsnapshot := hs.run.snapshot hverified hattempt
    obtain ⟨loaded, rolling, since, update, previous, hpast, hown, hprevious, hc⟩ :=
      hs.ema.updated epochId _ hsnapshot
    refine ⟨loaded, rolling, since, update, _, hpast, hown, ?_, ⟨previous, hprevious, hc⟩,
      hsnapshot, hrolling⟩
    have hloaded : Event.emaLoaded epochId rolling ∈ before := by
      rw [hpast]
      exact List.mem_append_right _ List.mem_cons_self
    rw [hs.ema.current epochId rolling hloaded hactive' ?_]
    · exact hs.ema.committed
    · rw [hsubmitting]
      exact fun he => nomatch he
  · exact (hnot hphase).elim

/-- **Each epoch is committed at most once**, in the order of the epochs. -/
theorem commits_increase {between : List Event} {e' : Event} {epochId' : Int}
    (h : Lawful (RunLaw env Own) (before ++ e :: (between ++ e' :: after)))
    (hcommits : e.commits env epochId) (hcommits' : e'.commits env epochId') :
    epochId < epochId' := by
  have hsecond : Lawful (RunLaw env Own) ((before ++ e :: between) ++ e' :: after) := by
    rw [List.append_assoc]
    exact h
  obtain ⟨s, hs⟩ := runState_of_lawful hsecond.of_append
  have hleaves : ¬ e'.leavesState := fun hl => not_commits_of_leavesState hl ⟨epochId', hcommits'⟩
  obtain ⟨c, rfl⟩ := stateWrite_of_not_leavesState hleaves
  obtain ⟨s', t, hs', hfollows, _, hvalid, rfl⟩ := hsecond.at
  obtain rfl : s' = s := Except.ok.inj (hs'.symm.trans hs.persisted)
  obtain ⟨hactive, hphase⟩ := (commits_stateWrite hvalid).mp hcommits'
  obtain ⟨done, hdone, hle⟩ :=
    hs.ema.done e (List.mem_append_right _ List.mem_cons_self) epochId hcommits
  rcases hfollows.commits_or_keeps with
    ⟨id, _, hactive', hid, _, _, _, hsubmitting, _⟩ | ⟨_, hnot⟩
  · obtain rfl := Option.some.inj (hactive.symm.trans hid)
    have hlt := hs.holder epochId' hactive' hsubmitting done hdone
    omega
  · exact (hnot hphase).elim

end

end Dolores
