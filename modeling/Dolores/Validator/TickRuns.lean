import Dolores.Bridge.Isolation
import Dolores.Validator.TickLawful

/-!
# Ticks and recoveries on one archive

A run is any number of ticks and recoveries on one archive, from an empty one.  Each tick has its
own arguments, environment, engine, chain and miners; it may be killed or raise at any effect, and
the process may end between the commands.

* `TickRun`, `ArchiveRun`            one tick, and the runs;
* `TickedRun`                        a run with the ticks it has made;
* `TickedRun.journaled`              it keeps the law, each update being one of its own ticks;
* `wp_tickCommand_sealed`            while submitted weights are not committed no tick begins;
* `weights_submitted_at_most_once`   each epoch's weights are submitted at most once, and it is
                                     committed before the next submission;
* `ema_applied_once`                 each completed epoch adds the update of its own tick to the
                                     moving averages, once.
-/

set_option linter.unusedSectionVars false

namespace Dolores
open Crash Except Journal

/-- all that a tick meets, but for what `Env` is for the whole run -/
structure TickRun where
  environ : String → Option String
  panelFile : Option PanelFile
  substrate : Substrate
  network : MinerNetwork
  engine : Engine
  A : FloatOps
  args : TickArgs
  input : TickInput

/-- the environment of the tick -/
def TickRun.env (t : TickRun) (env : Env) : Env :=
  { env with environ := t.environ, panelFile := t.panelFile }

def TickRun.run (env : Env) (t : TickRun) : M Int :=
  tickCommand (t.env env) t.substrate t.network t.args t.engine t.A t.input

/-- the worlds that a run reaches -/
inductive ArchiveRun (env : Env) : World → Prop
  | start {w : World} (hfiles : w.files = fun _ => none) (htrace : w.trace = []) : ArchiveRun env w
  | tick {w w' : World} {o : Outcome Exn Int} (t : TickRun) (h : ArchiveRun env w)
      (hr : t.run env w = (o, w')) : ArchiveRun env w'
  | recover {w w' : World} {o : Outcome Exn ValidatorRuntimeState} (h : ArchiveRun env w)
      (hr : recoverReceipt env w = (o, w')) : ArchiveRun env w'
  | restart {w : World} (h : ArchiveRun env w) : ArchiveRun env w.restart
  | pass {w : World} (clock : Nat) (h : ArchiveRun env w) : ArchiveRun env { w with clock }

/-- the same, with the ticks that were made and the worlds they began in -/
inductive TickedRun (env : Env) : List (World × TickRun) → World → Prop
  | start {w : World} (hfiles : w.files = fun _ => none) (htrace : w.trace = []) :
      TickedRun env [] w
  | tick {ticks : List (World × TickRun)} {w w' : World} {o : Outcome Exn Int} (t : TickRun)
      (h : TickedRun env ticks w) (hr : t.run env w = (o, w')) :
      TickedRun env (ticks ++ [(w, t)]) w'
  | recover {ticks : List (World × TickRun)} {w w' : World}
      {o : Outcome Exn ValidatorRuntimeState} (h : TickedRun env ticks w)
      (hr : recoverReceipt env w = (o, w')) : TickedRun env ticks w'
  | restart {ticks : List (World × TickRun)} {w : World} (h : TickedRun env ticks w) :
      TickedRun env ticks w.restart
  | pass {ticks : List (World × TickRun)} {w : World} (clock : Nat) (h : TickedRun env ticks w) :
      TickedRun env ticks { w with clock }

theorem TickedRun.forget {env : Env} {ticks : List (World × TickRun)} {w : World}
    (h : TickedRun env ticks w) : ArchiveRun env w := by
  induction h with
  | start hfiles htrace => exact .start hfiles htrace
  | tick t _ hr ih => exact .tick t ih hr
  | recover _ hr ih => exact .recover ih hr
  | restart _ ih => exact .restart ih
  | pass clock _ ih => exact .pass clock ih

/-- the runs are those of some list of ticks -/
theorem archiveRun_iff_ticked {env : Env} {w : World} :
    ArchiveRun env w ↔ ∃ ticks, TickedRun env ticks w := by
  refine ⟨fun h => ?_, fun ⟨_, h⟩ => h.forget⟩
  induction h with
  | start hfiles htrace => exact ⟨[], .start hfiles htrace⟩
  | @tick w _ _ t _ hr ih =>
    obtain ⟨ticks, h⟩ := ih
    exact ⟨ticks ++ [(w, t)], .tick t h hr⟩
  | recover _ hr ih =>
    obtain ⟨ticks, h⟩ := ih
    exact ⟨ticks, .recover h hr⟩
  | restart _ ih =>
    obtain ⟨ticks, h⟩ := ih
    exact ⟨ticks, .restart h⟩
  | pass clock _ ih =>
    obtain ⟨ticks, h⟩ := ih
    exact ⟨ticks, .pass clock h⟩

/-- the tick, begun in `w`, has evaluated the epoch up to these events, and this is the update of
what its miners were given -/
def TickRun.Updates (env : Env) (t : TickRun) (w : World) (loaded : List Event) (epochId : Int)
    (update : EmaUpdate) : Prop :=
  ∃ cfg client miners e w' g, prepareTick t.args t.input = .ok (cfg, client) ∧
    evaluatedTick (t.env env) t.substrate t.network t.args t.engine t.A cfg client w =
      (.ok (epochId, miners, e), w') ∧ w'.trace = loaded ∧
    aggregateOutcomes (miners.map (·.hotkey)) e.outcomes = .ok g ∧
    update = emaUpdate t.A cfg.emaAlpha t.args.quota g

/-- the update of one of these ticks -/
def TickUpdate (env : Env) (ticks : List (World × TickRun)) : OwnUpdates :=
  fun loaded epochId update => ∃ began ∈ ticks, began.2.Updates env began.1 loaded epochId update

/-- whatever update a tick makes -/
def AnyUpdate : OwnUpdates := fun _ _ _ => True

/-! ## the law does not depend on the environment of a tick -/

section
variable {env : Env} {Own : OwnUpdates} {w : World}

theorem follows_env (t : TickRun) {files : Files} {s u : ValidatorRuntimeState} :
    Follows (t.env env) files s u ↔ Follows env files s u := by
  constructor
  · intro h
    cases h with
    | retried updatedAt hphase => exact .retried updatedAt hphase
    | allocated updatedAt hphase => exact .allocated updatedAt hphase
    | abandoned updatedAt hphase => exact .abandoned updatedAt hphase
    | moved updatedAt hphase hallowed hne => exact .moved updatedAt hphase hallowed hne
    | evaluationFailed detail updatedAt hphase => exact .evaluationFailed detail updatedAt hphase
    | weightsFailed detail updatedAt hphase hactive hreleased =>
      exact .weightsFailed detail updatedAt hphase hactive hreleased
    | committed updatedAt hphase hactive hattempt hverified hrolling =>
      refine .committed updatedAt hphase hactive hattempt ?_ hrolling
      exact hverified
  · intro h
    cases h with
    | retried updatedAt hphase => exact .retried updatedAt hphase
    | allocated updatedAt hphase => exact .allocated updatedAt hphase
    | abandoned updatedAt hphase => exact .abandoned updatedAt hphase
    | moved updatedAt hphase hallowed hne => exact .moved updatedAt hphase hallowed hne
    | evaluationFailed detail updatedAt hphase => exact .evaluationFailed detail updatedAt hphase
    | weightsFailed detail updatedAt hphase hactive hreleased =>
      exact .weightsFailed detail updatedAt hphase hactive hreleased
    | committed updatedAt hphase hactive hattempt hverified hrolling =>
      refine .committed updatedAt hphase hactive hattempt ?_ hrolling
      exact hverified

theorem runLaw_env (t : TickRun) (past : List Event) (e : Event) :
    RunLaw (t.env env) Own past e ↔ RunLaw env Own past e := by
  cases e with
  | wrote p c =>
    cases p with
    | state =>
      constructor
      · intro h
        obtain ⟨s, u, hs, hfollows, h⟩ := h
        exact ⟨s, u, hs, (follows_env t).mp hfollows, h⟩
      · intro h
        obtain ⟨s, u, hs, hfollows, h⟩ := h
        exact ⟨s, u, hs, (follows_env t).mpr hfollows, h⟩
    | minerState => exact Iff.rfl
    | epoch id file =>
      cases file with
      | minerState => exact Iff.rfl
      | weights => exact Iff.rfl
      | panelSidecar => exact Iff.rfl
      | chainReceipt => exact Iff.rfl
      | chainAttempt => exact Iff.rfl
      | completion => exact Iff.rfl
  | verified => exact Iff.rfl
  | setWeights => exact Iff.rfl
  | tickEntered => exact Iff.rfl
  | emaLoaded => exact Iff.rfl
  | pipelineRan => exact Iff.rfl

theorem journaled_env (t : TickRun) :
    Journaled (RunLaw (t.env env) Own) w ↔ Journaled (RunLaw env Own) w := by
  constructor
  · intro h
    exact ⟨h.files, h.lawful.mono fun past e => (runLaw_env t past e).mp⟩
  · intro h
    exact ⟨h.files, h.lawful.mono fun past e => (runLaw_env t past e).mpr⟩

theorem Journaled.mono_own {Own' : OwnUpdates} (h : Journaled (RunLaw env Own) w)
    (hown : ∀ loaded epochId update, Own loaded epochId update → Own' loaded epochId update) :
    Journaled (RunLaw env Own') w :=
  ⟨h.files, h.lawful.mono fun _ _ he => he.mono hown⟩

/-- **Every run keeps the law**, and what it adds to the moving averages is the update of one of its
ticks. -/
theorem TickedRun.journaled {ticks : List (World × TickRun)} (h : TickedRun env ticks w) :
    Journaled (RunLaw env (TickUpdate env ticks)) w := by
  induction h with
  | start hfiles htrace =>
    refine ⟨?_, ?_⟩
    · rw [hfiles, htrace, archiveOf_nil]
    · rw [htrace]
      exact .nil
  | @tick ticks w w' o t _ hr ih =>
    have hbefore : Journaled (RunLaw env (TickUpdate env (ticks ++ [(w, t)]))) w := by
      refine ih.mono_own fun loaded epochId update hupdate => ?_
      obtain ⟨began, hmem, hupdates⟩ := hupdate
      exact ⟨began, List.mem_append_left _ hmem, hupdates⟩
    have hpost := wp_always.mp (@wp_tickCommand_lawful _ _ t.engine t.substrate t.A t.network
      t.args _ ((journaled_env t).mpr hbefore) t.input ?_)
    · have hrun : (t.run env w).2 = w' := congrArg Prod.snd hr
      rw [← journaled_env t, ← hrun]
      exact hpost
    · intro cfg client epochId miners e w₁ g hprepared hevaluated hg
      exact ⟨(w, t), List.mem_append_right _ (List.mem_singleton_self _),
        cfg, client, miners, e, w₁, g, hprepared, hevaluated, rfl, hg, rfl⟩
  | @recover _ w w' o _ hr ih =>
    have hpost := wp_of_run (wp_recoverReceipt (runLaw_store env _) ih) hr
    cases o with
    | ok a => exact hpost.1
    | raise e => exact hpost.1
    | killed => exact hpost
  | restart _ ih => exact ih.of_reads ⟨rfl, rfl⟩
  | pass _ _ ih => exact ih.of_reads ⟨rfl, rfl⟩

theorem ArchiveRun.journaled (h : ArchiveRun env w) : Journaled (RunLaw env AnyUpdate) w := by
  obtain ⟨ticks, h⟩ := archiveRun_iff_ticked.mp h
  exact h.journaled.mono_own fun _ _ _ _ => trivial

/-! ## while a submission is pending -/

/-- a submission whose attempt is sealed is not given up by the next tick -/
theorem wp_beginSubmitting_sealed {s : ValidatorRuntimeState} {epochId : Int}
    (h : Sealed w.files epochId) :
    wp (beginSubmitting env s epochId) ⟨fun _ _ => False, fun _ w' => w' = w, fun _ => False⟩ w := by
  unfold beginSubmitting
  rw [wp_bind, wp_raiseIfAmbiguousAttempt]
  refine ⟨fun _ hattempt => ?_, fun _ _ => rfl⟩
  dsimp only
  rw [wp_bind, wp_isFile]
  dsimp only
  refine wp_ite (fun _ => rfl) (fun _ => ?_)
  rw [wp_bind, wp_isFile]
  dsimp only
  refine wp_ite (fun _ => rfl) (fun _ => ?_)
  rw [wp_bind, wp_get]
  dsimp only
  rw [wp_bind, wp_ofExcept]
  refine ⟨fun receipt hreceipt => ?_, fun _ _ => rfl⟩
  dsimp only
  refine wp_ite (fun _ => rfl) (fun _ => ?_)
  rw [wp_bind, wp_ofExcept]
  refine ⟨fun definite hdefinite => ?_, fun _ _ => rfl⟩
  dsimp only
  refine wp_ite (fun _ => rfl) (fun hmode => ?_)
  -- a definite receipt would release the epoch
  rw [Bool.eq_true_of_not_eq_false hmode] at hdefinite
  exact (@Sealed.not_released env _ _ h (.inr ⟨hattempt, receipt, hreceipt, hdefinite⟩)).elim

theorem wp_enter_sealed {epochId : Int} (hw : Awaits env w.files epochId)
    (h : Sealed w.files epochId) (id : Nat) :
    wp (ValidatorTick.enter env id)
      ⟨fun _ _ => False, fun _ w' => OnlyReads w w', fun w' => OnlyReads w w'⟩ w := by
  obtain ⟨s, hs, hactive, hphase⟩ := hw
  unfold ValidatorTick.enter
  rw [wp_bind]
  refine wp_mono (onlyReads_acquireLock (.tick id) w) ?_ (fun _ _ hr => hr) (fun _ hr => hr)
  intro _ w₁ hr
  rw [← hr.files] at h
  dsimp only
  rw [wp_handle, wp_bind]
  unfold beginLocked
  rw [wp_bind, wp_readState]
  have hread : stateOf env (w₁.files .state) = .ok s := by
    rw [hr.files]
    exact hs
  rw [hread]
  have hraised : ∀ (e : Exn) (w₂ : World), w₂ = w₁ → wp (do
      releaseLock (.tick id)
      Proc.raise e : M Int)
      ⟨fun _ _ => False, fun _ w' => OnlyReads w w', fun w' => OnlyReads w w'⟩ w₂ := by
    intro e w₂ hw₂
    rw [hw₂, wp_bind]
    exact trans_of OnlyReads hr (wp_always.mp (onlyReads_releaseLock (.tick id) w₁))
  refine ⟨fun state hstate => ?_, fun e he => nomatch he⟩
  obtain rfl := Except.ok.inj hstate
  dsimp only
  rw [hphase, hactive]
  dsimp only
  rw [wp_bind]
  exact wp_mono (wp_beginSubmitting_sealed h) (fun _ _ => False.elim) hraised
    (fun _ => False.elim)

/-- **While submitted weights are not committed, no tick begins.** -/
theorem wp_tickCommand_sealed {substrate : Substrate} {network : MinerNetwork} {args : TickArgs}
    {engine : Engine} {A : FloatOps} {epochId : Int} (hw : Awaits env w.files epochId)
    (h : Sealed w.files epochId) (input : TickInput) :
    wp (tickCommand env substrate network args engine A input)
      ⟨fun _ _ => False, fun _ w' => OnlyReads w w', fun w' => OnlyReads w w'⟩ w := by
  unfold tickCommand
  rw [wp_bind, wp_ofExcept]
  refine ⟨fun prepared _ => ?_, fun _ _ => refl_of OnlyReads w⟩
  dsimp only
  rw [wp_bind, wp_modify]
  dsimp only
  rw [wp_bind]
  unfold withTick newTick
  rw [wp_bind, wp_bind, wp_get]
  dsimp only
  rw [wp_bind, wp_modify]
  dsimp only
  rw [wp_pure]
  dsimp only
  rw [wp_bind]
  let w₁ : World := { w with connected := false, nextTick := w.nextTick + 1 }
  have hw₁ : Awaits env w₁.files epochId := hw
  exact wp_mono (wp_enter_sealed hw₁ h w.nextTick) (fun _ _ => False.elim)
    (fun _ _ hr => ⟨hr.files, hr.trace⟩) (fun _ hr => ⟨hr.files, hr.trace⟩)

/-! ## the runs -/

theorem setWeights_of_callsFor {e : Event} {epochId : Int} (h : e.callsFor epochId = true) :
    ∃ uids weights versionKey, e = .setWeights epochId uids weights versionKey := by
  cases e with
  | setWeights id uids weights versionKey =>
    obtain rfl : id = epochId := of_decide_eq_true h
    exact ⟨uids, weights, versionKey, rfl⟩
  | wrote => exact nomatch h
  | verified => exact nomatch h
  | tickEntered => exact nomatch h
  | emaLoaded => exact nomatch h
  | pipelineRan => exact nomatch h

/-- **The weights of an epoch are submitted at most once.** Between two submissions the epoch of the
first is committed, and until it is committed every tick stops before an epoch is allocated. -/
theorem weights_submitted_at_most_once (h : ArchiveRun env w) :
    (∀ epochId, w.trace.countP (Event.callsFor epochId) ≤ 1) ∧
    (∀ before e between e' after epochId epochId',
      w.trace = before ++ e :: (between ++ e' :: after) → e.callsFor epochId = true →
      e'.callsFor epochId' = true → CommittedIn env (before ++ [e]) epochId between) ∧
    (∀ before e after epochId, w.trace = before ++ e :: after → e.callsFor epochId = true →
      ¬ CommittedIn env (before ++ [e]) epochId after →
      ∀ (t : TickRun) (o : Outcome Exn Int) (w' : World), t.run env w = (o, w') →
        (∀ code, o ≠ .ok code) ∧ OnlyReads w w') := by
  have hJ := h.journaled
  refine ⟨fun epochId => called_once hJ.lawful epochId, ?_, ?_⟩
  · intro before e between e' after epochId epochId' htrace he he'
    obtain ⟨uids, weights, versionKey, rfl⟩ := setWeights_of_callsFor he
    obtain ⟨uids', weights', versionKey', rfl⟩ := setWeights_of_callsFor he'
    have hlawful := hJ.lawful
    rw [htrace] at hlawful
    exact committed_between hlawful
  · intro before e after epochId htrace he hpending t o w' hr
    obtain ⟨uids, weights, versionKey, rfl⟩ := setWeights_of_callsFor he
    have hlawful := hJ.lawful
    rw [htrace] at hlawful
    have hwaits := (awaits_of_call hlawful).resolve_left hpending
    rw [← htrace, ← hJ.files] at hwaits
    obtain ⟨s, hs, hactive, hphase⟩ := hwaits
    obtain ⟨s', hs', _, hrun⟩ := runInv_of_lawful hJ.lawful
    rw [← hJ.files] at hs'
    obtain rfl : s' = s := Except.ok.inj (hs'.symm.trans hs)
    have hcalled : Called w.trace epochId := by
      refine ⟨uids, weights, versionKey, ?_⟩
      rw [htrace]
      exact List.mem_append_right _ List.mem_cons_self
    have hsealed := hrun.sealed epochId hactive hphase hcalled
    rw [← hJ.files] at hsealed
    have hawaits : Awaits (t.env env) w.files epochId := ⟨s', hs, hactive, hphase⟩
    have hpost := wp_of_run (wp_tickCommand_sealed hawaits hsealed t.input) hr
    cases o with
    | ok code => exact hpost.elim
    | raise e => exact ⟨nofun, hpost⟩
    | killed => exact ⟨nofun, hpost⟩

/-- **The moving averages are applied once for each completed epoch.** What a tick loads is the
snapshot committed last, the rolling state is that snapshot whenever the state is written, and a
commit adds to the snapshot committed before it the one update that the tick of the epoch has made
of its own outcomes. -/
theorem ema_applied_once {ticks : List (World × TickRun)} (h : TickedRun env ticks w) :
    w.files = archiveOf w.trace ∧
    (∀ before epochId rolling after, w.trace = before ++ .emaLoaded epochId rolling :: after →
      CommittedEma env before rolling) ∧
    (∀ before c after, w.trace = before ++ .wrote .state c :: after →
      CommittedEma env (before ++ [.wrote .state c]) (archiveOf before .minerState)) ∧
    (∀ before e after epochId, w.trace = before ++ e :: after → e.commits env epochId →
      ∃ loaded rolling since update snapshot,
        before = loaded ++ .emaLoaded epochId rolling :: since ∧
        TickUpdate env ticks loaded epochId update ∧
        CommittedEma env before rolling ∧ OneUpdate env update rolling snapshot ∧
        archiveOf before (.epoch epochId .minerState) = some snapshot ∧
        archiveOf before .minerState = some snapshot) ∧
    (∀ before e between e' after epochId epochId',
      w.trace = before ++ e :: (between ++ e' :: after) → e.commits env epochId →
      e'.commits env epochId' → epochId < epochId') := by
  have hJ := h.journaled
  have hlawful : ∀ {events}, w.trace = events →
      Lawful (RunLaw env (TickUpdate env ticks)) events := by
    intro events htrace
    rw [← htrace]
    exact hJ.lawful
  refine ⟨hJ.files, ?_, ?_, ?_, ?_⟩
  · intro before epochId rolling after htrace
    exact ema_loaded (hlawful htrace)
  · intro before c after htrace
    exact ema_of_stateWrite (hlawful htrace)
  · intro before e after epochId htrace hcommits
    exact ema_of_commit (hlawful htrace) hcommits
  · intro before e between e' after epochId epochId' htrace hcommits hcommits'
    exact commits_increase (hlawful htrace) hcommits hcommits'

end

section

/-- a live tick of an epoch with one paid submission -/
def liveTick : TickRun where
  environ := liveEnv.environ
  panelFile := none
  substrate := { readySubstrate with minerEndpoints := fun _ _ => .ok [[]] }
  network := ⟨fun _ _ => .ok [], fun _ _ rows => .ok rows, fun _ _ _ _ =>
    .ok [{ hotkey := "a", uid := 1, submissions := fun _ _ => [samplePayload "x"] }]⟩
  engine := isolatedEngine
  A := exactOps
  args := { network := some "test", netuid := some 523, publish := some .live,
            allowExtrinsics := true, confirmLive := liveConfirmation }
  input :=
    { config := .ok
        { dockerConfig with mode := .testnet, network := some "test", netuid := some 523 } }

/-- the archive after the tick -/
def liveWorld : World := (liveTick.run Env.plain {}).2

theorem liveWorld_reached : ArchiveRun Env.plain liveWorld :=
  .tick liveTick (.start (w := {}) rfl rfl) Prod.mk.eta.symm

theorem weights_submitted_at_most_once_sample : liveWorld.trace.countP (Event.callsFor 1) ≤ 1 :=
  (weights_submitted_at_most_once liveWorld_reached).1 1

/-- the world after a tick -/
def TickRun.after (t : TickRun) (env : Env) (w : World) : World := (t.run env w).2

theorem ArchiveRun.ticked {env : Env} {w : World} (h : ArchiveRun env w) (t : TickRun) :
    ArchiveRun env (t.after env w) := .tick t h Prod.mk.eta.symm

theorem TickedRun.ticked {env : Env} {ticks : List (World × TickRun)} {w : World}
    (h : TickedRun env ticks w) (t : TickRun) :
    TickedRun env (ticks ++ [(w, t)]) (t.after env w) := .tick t h Prod.mk.eta.symm

instance (env : Env) (epochId : Int) (e : Event) : Decidable (e.commits env epochId) :=
  match e with
  | .wrote .state c =>
    match h : stateOf env (some c) with
    | .ok s => decidable_of_iff (s.activeEpochId = some epochId ∧ s.phase = some .committed)
        ⟨fun hs => ⟨s, h, hs⟩, fun ⟨_, hs, ht⟩ => Except.ok.inj (h.symm.trans hs) ▸ ht⟩
    | .error _ => isFalse fun ⟨_, hs, _⟩ => nomatch h.symm.trans hs
  | .wrote .minerState _ | .wrote (.epoch ..) _ | .verified .. | .setWeights .. | .tickEntered _
  | .emaLoaded .. | .pipelineRan .. => isFalse fun h => h

/-- a tick without a chain, of an epoch with one paid submission -/
def wireTick : TickRun :=
  { liveTick with
    network := { liveTick.network with manualEndpoints := fun _ _ => .ok [[]] }
    args := { mode := .wire, minerEndpoints := "m", publish := none }
    input := { config := .ok { dockerConfig with mode := .wire } } }

/-- the archive after one tick, and after two -/
def wireWorld : World := wireTick.after Env.plain {}
def wireWorld' : World := wireTick.after Env.plain wireWorld

theorem wireWorld_reached : ArchiveRun Env.plain wireWorld :=
  (ArchiveRun.start (w := {}) rfl rfl).ticked wireTick

theorem wireWorld_commits : ∃ e ∈ wireWorld.trace, e.commits Env.plain 1 := by decide +kernel

theorem wireWorld'_commits : ∃ e ∈ wireWorld'.trace, e.commits Env.plain 2 := by decide +kernel

/-- the two ticks, and where they began -/
def wireTicks : List (World × TickRun) := [({}, wireTick), (wireWorld, wireTick)]

theorem wireWorld'_ticked : TickedRun Env.plain wireTicks wireWorld' :=
  ((TickedRun.start (w := {}) rfl rfl).ticked wireTick).ticked wireTick

/-- the second tick adds its own update to what the first has committed -/
theorem ema_applied_once_sample : ∃ before loaded rolling update snapshot,
    before <+: wireWorld'.trace ∧ TickUpdate Env.plain wireTicks loaded 2 update ∧
      CommittedEma Env.plain before rolling ∧ OneUpdate Env.plain update rolling snapshot ∧
      archiveOf before .minerState = some snapshot := by
  obtain ⟨e, hmem, he⟩ := wireWorld'_commits
  obtain ⟨before, after, htrace⟩ := List.append_of_mem hmem
  obtain ⟨loaded, rolling, _, update, snapshot, _, hupdate, hcommitted, hone, _, hrolling⟩ :=
    (ema_applied_once wireWorld'_ticked).2.2.2.1 before e after 2 htrace he
  exact ⟨before, loaded, rolling, update, snapshot, ⟨e :: after, htrace.symm⟩, hupdate,
    hcommitted, hone, hrolling⟩

end

end Dolores
