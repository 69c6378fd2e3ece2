import Dolores.Validator.Evidence
import Dolores.Validator.PreSeam
import Dolores.Validator.Settle

/-!
# Ready, recoverable, or wedged

An epoch that stopped while its weights were being submitted blocks the validator.  What its files
say decides what is left: a new tick gives it up, `recover_receipt` commits it, or nothing that the
program offers changes the archive any more.

* `Standing`, `standing`       what the files allow;
* `wp_tickCommand_blocked`     no tick begins unless they are ready;
* `wp_recoverReceipt_blocked`  no recovery succeeds unless they are recoverable;
* `standing_exact`             and where nothing fails, both do what the standing says;
* `tick_or_recovery_or_never`  there is no fourth case.
-/

set_option linter.unusedSectionVars false

namespace Dolores
open Crash Except Journal

/-! ## nothing is written -/

/-- the archive is as it was: its files, and the logs, the cache and the database -/
structure LeavesArchive (w w' : World) : Prop extends OnlyReads w w' where
  submissions : w'.submissions = w.submissions
  panelCache : w'.panelCache = w.panelCache
  db : w'.db = w.db

instance : IsPreorder World LeavesArchive where
  refl w := ⟨refl_of OnlyReads w, rfl, rfl, rfl⟩
  trans _ _ _ h h' := ⟨trans_of OnlyReads h.toOnlyReads h'.toOnlyReads,
    h'.submissions.trans h.submissions, h'.panelCache.trans h.panelCache, h'.db.trans h.db⟩

theorem leavesArchiveFrame : ReadFrame LeavesArchive where
  clock _ := ⟨⟨rfl, rfl⟩, rfl, rfl, rfl⟩
  connected _ := ⟨⟨rfl, rfl⟩, rfl, rfl, rfl⟩

theorem leavesArchive_acquireLock {env : Env} (o : Owner) :
    Moves LeavesArchive (acquireLock env o) := by
  refine Moves.bind Moves.get fun w => Moves.ite (Moves.raise _) (Moves.ite (Moves.raise _) ?_)
  refine Moves.bind (leavesArchiveFrame.effectful (fun _ => ?_) fun _ => ?_) fun _ =>
    Moves.modify fun _ => ?_
  all_goals exact ⟨⟨rfl, rfl⟩, rfl, rfl, rfl⟩

theorem leavesArchive_releaseLock (o : Owner) : Moves LeavesArchive (releaseLock o) := by
  refine Moves.modify fun w => ?_
  split
  all_goals exact ⟨⟨rfl, rfl⟩, rfl, rfl, rfl⟩

/-- what the archive still allows: a tick, the recovery of the pending epoch, or nothing -/
inductive Standing where
  | ready
  | recoverable
  | wedged
deriving DecidableEq, Repr

section
variable (env : Env) (files : Files)

/-- the receipt of the epoch says that nothing was submitted -/
def receiptReleases (epochId : Int) : Bool :=
  match loadStateObject env files (.epoch epochId .chainReceipt) "chain receipt" with
  | .error _ => false
  | .ok receipt => (receipt.get "epoch_id").eqInt epochId &&
      ((receipt.get "mode").inNames ["dry_run", "skipped", "error"]).toOption == some true

/-- the standing of an epoch whose weights are being submitted -/
def submittingStanding (epochId : Int) : Standing :=
  match checkAttempt env files epochId with
  | .error _ => .wedged
  | .ok () =>
    if (files (.epoch epochId .completion)).isSome then
      match verifiedCompletion env files epochId with
      | .ok _ => .recoverable
      | .error _ => .wedged
    else if receiptReleases env files epochId then .ready
    else .wedged

def standing : Standing :=
  match stateOf env (files .state) with
  | .error _ => .wedged
  | .ok state =>
    match state.phase, state.activeEpochId with
    | some .weightsSubmitting, some epochId => submittingStanding env files epochId
    | some .weightsSubmitting, none => .wedged
    | _, _ => .ready

end

section
variable {env : Env} {files : Files} {epochId : Int} {s : ValidatorRuntimeState} {w : World}

theorem standing_submitting (hs : Persisted env files s) (hphase : s.phase = some .weightsSubmitting)
    (hactive : s.activeEpochId = some epochId) :
    standing env files = submittingStanding env files epochId := by
  unfold standing
  rw [hs]
  dsimp only
  rw [hphase, hactive]

theorem standing_idle (hs : Persisted env files s) (hphase : s.phase ≠ some .weightsSubmitting) :
    standing env files = .ready := by
  unfold standing
  rw [hs]
  dsimp only
  split
  · next h _ => exact (hphase h).elim
  · next h _ => exact (hphase h).elim
  · rfl

/-! ## what is blocked -/

/-- a part that raises and leaves the world as it is -/
def Post.refuses {α : Type} (w : World) : Post World Exn α :=
  ⟨fun _ _ => False, fun _ w' => w' = w, fun _ => False⟩

theorem wp_beginSubmitting_blocked (h : submittingStanding env w.files epochId ≠ .ready) :
    wp (beginSubmitting env s epochId) (Post.refuses w) w := by
  unfold beginSubmitting
  rw [wp_bind, wp_raiseIfAmbiguousAttempt]
  refine ⟨fun u hattempt => ?_, fun _ _ => rfl⟩
  unfold submittingStanding at h
  rw [hattempt] at h
  dsimp only at h ⊢
  rw [wp_bind, wp_isFile]
  dsimp only
  refine wp_ite (fun _ => rfl) fun hmarked => ?_
  rw [if_neg hmarked] at h
  rw [wp_bind, wp_isFile]
  dsimp only
  refine wp_ite (fun _ => rfl) fun _ => ?_
  rw [wp_bind, wp_get]
  dsimp only
  rw [wp_bind, wp_ofExcept]
  refine ⟨fun receipt hreceipt => ?_, fun _ _ => rfl⟩
  dsimp only
  refine wp_ite (fun _ => rfl) fun hepoch => ?_
  rw [wp_bind, wp_ofExcept]
  refine ⟨fun definite hdefinite => ?_, fun _ _ => rfl⟩
  dsimp only
  refine wp_ite (fun _ => rfl) fun hmode => ?_
  -- otherwise the receipt releases the epoch
  refine (h (if_pos ?_)).elim
  unfold receiptReleases
  rw [hreceipt]
  dsimp only
  rw [hdefinite, Bool.eq_true_of_not_eq_false hepoch, Bool.eq_true_of_not_eq_false hmode]
  rfl

theorem wp_beginLocked_blocked (h : standing env w.files ≠ .ready) :
    wp (beginLocked env) (Post.refuses w) w := by
  unfold beginLocked
  rw [wp_bind, wp_readState]
  refine ⟨fun s hs => ?_, fun _ _ => rfl⟩
  dsimp only
  split
  · next hphase hactive =>
    rw [standing_submitting hs hphase hactive] at h
    rw [wp_bind]
    exact wp_mono (wp_beginSubmitting_blocked h) (fun _ _ => False.elim) (fun _ _ h => h)
      fun _ => False.elim
  · exact rfl
  · next hnot hnone =>
    refine (h (standing_idle hs fun hphase => ?_)).elim
    cases hactive : s.activeEpochId with
    | none => exact hnone hphase hactive
    | some epochId => exact hnot epochId hphase hactive

/-- a part that does not return, and only reads -/
def Post.onlyReads {α : Type} (w : World) : Post World Exn α :=
  ⟨fun _ _ => False, fun _ w' => LeavesArchive w w', fun w' => LeavesArchive w w'⟩

theorem wp_enter_blocked (h : standing env w.files ≠ .ready) (id : Nat) :
    wp (ValidatorTick.enter env id) (Post.onlyReads w) w := by
  unfold ValidatorTick.enter
  rw [wp_bind]
  refine wp_mono (leavesArchive_acquireLock (.tick id) w) ?_ (fun _ _ hr => hr) (fun _ hr => hr)
  intro _ w₁ hr
  rw [← hr.files] at h
  dsimp only
  rw [wp_handle, wp_bind]
  refine wp_mono (wp_beginLocked_blocked h) (fun _ _ => False.elim) ?_ fun _ => False.elim
  intro e w₂ hw₂
  dsimp only
  rw [hw₂, wp_bind]
  exact trans_of LeavesArchive hr (wp_always.mp (leavesArchive_releaseLock (.tick id) w₁))

/-- **No tick begins unless the archive is ready**; a tick that does not begin only reads. -/
theorem wp_tickCommand_blocked {substrate : Substrate} {network : MinerNetwork} {args : TickArgs}
    {engine : Engine} {A : FloatOps} (h : standing env w.files ≠ .ready) (input : TickInput) :
    wp (tickCommand env substrate network args engine A input) (Post.onlyReads w) w := by
  unfold tickCommand
  rw [wp_bind, wp_ofExcept]
  refine ⟨fun prepared _ => ?_, fun _ _ => refl_of LeavesArchive w⟩
  dsimp only
  rw [wp_bind, wp_modify]
  dsimp only
  rw [wp_bind]
  unfold withTick newTick
  rw [wp_bind, wp_bind, wp_get]
  dsimp only
  rw [wp_bind, wp_modify]
  dsimp only
  rw [wp_pure]
  dsimp only
  rw [wp_bind]
  let w₁ : World := { w with connected := false, nextTick := w.nextTick + 1 }
  have h₁ : standing env w₁.files ≠ .ready := h
  have hstart : LeavesArchive w w₁ := ⟨⟨rfl, rfl⟩, rfl, rfl, rfl⟩
  exact wp_mono (wp_enter_blocked h₁ w.nextTick) (fun _ _ => False.elim)
    (fun _ _ hr => trans_of LeavesArchive hstart hr) fun _ hr => trans_of LeavesArchive hstart hr

theorem wp_commitFromCompletion_blocked (hattempt : checkAttempt env w.files epochId = .ok ())
    (hmarked : (w.files (.epoch epochId .completion)).isSome)
    (h : submittingStanding env w.files epochId ≠ .recoverable) :
    wp (commitFromCompletion env s epochId) (Post.refuses w) w := by
  unfold commitFromCompletion
  rw [wp_bind, wp_raiseIfAmbiguousAttempt]
  refine ⟨fun u _ => ?_, fun _ _ => rfl⟩
  dsimp only
  rw [wp_bind, wp_isFile]
  dsimp only
  refine wp_ite (fun _ => rfl) fun _ => ?_
  rw [wp_bind, wp_get]
  dsimp only
  rw [wp_bind, wp_ofExcept]
  refine ⟨fun v hv => ?_, fun _ _ => rfl⟩
  refine (h ?_).elim
  unfold submittingStanding
  rw [hattempt]
  dsimp only
  rw [if_pos hmarked, hv]

theorem wp_recoverLocked_blocked (h : standing env w.files ≠ .recoverable) :
    wp (recoverLocked env) (Post.refuses w) w := by
  unfold recoverLocked
  rw [wp_bind, wp_readState]
  refine ⟨fun s hs => ?_, fun _ _ => rfl⟩
  dsimp only
  split
  · next epochId hphase hactive =>
    rw [standing_submitting hs hphase hactive] at h
    rw [wp_bind, wp_raiseIfAmbiguousAttempt]
    refine ⟨fun u hattempt => ?_, fun _ _ => rfl⟩
    dsimp only
    rw [wp_bind, wp_isFile]
    dsimp only
    refine wp_ite (fun _ => ?_) fun hmarked => ?_
    · rw [wp_bind, wp_isFile]
      exact rfl
    · rw [wp_bind]
      exact wp_mono (wp_commitFromCompletion_blocked hattempt
        (Bool.eq_true_of_not_eq_false hmarked) h) (fun _ _ => False.elim) (fun _ _ h => h)
        fun _ => False.elim
  · exact rfl

/-- **No recovery succeeds unless the archive is recoverable.** -/
theorem wp_recoverReceipt_blocked (h : standing env w.files ≠ .recoverable) :
    wp (recoverReceipt env) (Post.onlyReads w) w := by
  unfold recoverReceipt
  rw [wp_bind]
  refine wp_mono (leavesArchive_acquireLock .recovery w) ?_ (fun _ _ hr => hr) (fun _ hr => hr)
  intro _ w₁ hr
  rw [← hr.files] at h
  dsimp only
  rw [wp_ensure]
  refine wp_mono (wp_recoverLocked_blocked h) (fun _ _ => False.elim) ?_ fun _ => False.elim
  intro e w₂ hw₂
  rw [hw₂]
  exact trans_of LeavesArchive hr (wp_always.mp (leavesArchive_releaseLock .recovery w₁))

end

/-! ## what succeeds when nothing fails -/

section
variable {env : Env} {epochId : Int} {s : ValidatorRuntimeState} {w : World} (hf : env.NoFaults)

theorem retriedState_valid (h : s.Valid) (hphase : s.phase ≠ none)
    (updatedAt : String) : (retriedState s updatedAt).Valid where
  version := h.version
  next := h.next
  attempt := by
    have hattempt := h.attempt
    show 0 ≤ s.attempt + 1
    omega
  together := by
    show s.activeEpochId.isNone = false
    rw [h.together]
    cases hp : s.phase with
    | none => exact (hphase hp).elim
    | some phase => rfl
  active := by
    intro id hid
    obtain ⟨hpos, hlt, hattempt⟩ := h.active id hid
    refine ⟨hpos, hlt, ?_⟩
    show 1 ≤ s.attempt + 1
    omega
  committed := fun hc => nomatch hc

include hf

theorem wp_beginIdle_returns (hs : s.Valid) :
    wp (beginIdle env s) (Post.returns fun _ _ => True) w := by
  unfold beginIdle
  split
  · next hphase _ =>
    rw [wp_bind, wp_now]
    dsimp only
    rw [wp_bind]
    refine wp_writeState_of_noFaults hf (retriedState_valid hs ?_ _) trivial
    simp [hphase]
  · next hphase _ =>
    rw [wp_bind, wp_now]
    dsimp only
    rw [wp_bind]
    refine wp_writeState_of_noFaults hf (retriedState_valid hs ?_ _) trivial
    simp [hphase]
  · rw [wp_bind, wp_now]
    dsimp only
    rw [wp_bind]
    refine wp_writeState_of_noFaults hf (allocatedState_valid ?_ _) trivial
    split
    · exact failedState_valid hs _ _
    · exact hs

theorem wp_beginSubmitting_ready (hs : s.Valid)
    (h : submittingStanding env w.files epochId = .ready) :
    wp (beginSubmitting env s epochId) (Post.returns fun failed _ => failed.Valid) w := by
  unfold submittingStanding at h
  split at h
  · cases h
  next hattempt =>
  split at h
  · split at h
    · cases h
    · cases h
  next hmarked =>
  split at h
  swap
  · cases h
  next hreleases =>
  unfold receiptReleases at hreleases
  split at hreleases
  · cases hreleases
  next receipt hreceipt =>
  obtain ⟨hepoch, hmode⟩ := Bool.and_eq_true_iff.mp hreleases
  obtain ⟨definite, hdefinite, rfl⟩ : ∃ definite, (receipt.get "mode").inNames
      ["dry_run", "skipped", "error"] = .ok definite ∧ definite = true := by
    cases hnames : (receipt.get "mode").inNames ["dry_run", "skipped", "error"] with
    | error e =>
      rw [hnames] at hmode
      cases hmode
    | ok definite =>
      rw [hnames] at hmode
      exact ⟨definite, rfl, by simpa [Except.toOption] using hmode⟩
  have hreceived : (w.files (.epoch epochId .chainReceipt)).isSome := by
    unfold loadStateObject at hreceipt
    cases hfile : w.files (.epoch epochId .chainReceipt) with
    | none =>
      rw [hfile, Option.map_none] at hreceipt
      cases hreceipt
    | some c => rfl
  unfold beginSubmitting
  rw [wp_bind, wp_raiseIfAmbiguousAttempt, hattempt]
  refine ⟨fun _ _ => ?_, fun e he => by cases he⟩
  dsimp only
  rw [wp_bind, wp_isFile]
  dsimp only
  rw [if_neg hmarked, wp_bind, wp_isFile, hreceived]
  dsimp only
  rw [if_neg (by decide), wp_bind, wp_get]
  dsimp only
  rw [wp_bind, hreceipt, wp_ofExcept_ok]
  dsimp only
  rw [hepoch, if_neg (by decide), wp_bind, hdefinite, wp_ofExcept_ok]
  dsimp only
  rw [if_neg (by decide), wp_bind, wp_now]
  dsimp only
  rw [wp_bind]
  exact wp_writeState_of_noFaults hf (failedState_valid hs _ _) (failedState_valid hs _ _)

theorem wp_beginLocked_ready (h : standing env w.files = .ready) :
    wp (beginLocked env) (Post.returns fun _ _ => True) w := by
  unfold beginLocked
  rw [wp_bind, wp_readState]
  refine ⟨fun s hs => ?_, fun e he => ?_⟩
  · have hvalid := stateOf_valid hs
    dsimp only
    split
    · next hphase hactive =>
      rw [standing_submitting hs hphase hactive] at h
      rw [wp_bind]
      exact wp_mono (wp_beginSubmitting_ready hf hvalid h) (fun _ _ h => wp_beginIdle_returns hf h)
        (fun _ _ => False.elim) fun _ => False.elim
    · next hphase hactive =>
      have htogether := hvalid.together
      rw [hphase, hactive] at htogether
      exact nomatch htogether
    · exact wp_beginIdle_returns hf hvalid
  · unfold standing at h
    rw [he] at h
    exact nomatch h

theorem wp_commitFromCompletion_recoverable (hs : s.Valid) (hactive : s.activeEpochId = some epochId)
    (h : submittingStanding env w.files epochId = .recoverable) :
    wp (commitFromCompletion env s epochId) (Post.returns fun t _ => t.Valid ∧
      t.phase = some .committed) w := by
  unfold submittingStanding at h
  split at h
  · exact nomatch h
  next hattempt =>
  split at h
  swap
  · split at h
    · exact nomatch h
    · exact nomatch h
  next hmarked =>
  split at h
  swap
  · exact nomatch h
  next v hv =>
  unfold commitFromCompletion
  rw [wp_bind, wp_raiseIfAmbiguousAttempt, hattempt]
  refine ⟨fun _ _ => ?_, fun _ he => nomatch he⟩
  dsimp only
  rw [wp_bind, wp_isFile, hmarked]
  dsimp only
  rw [if_neg (by decide), wp_bind, wp_get]
  dsimp only
  rw [wp_bind, hv, wp_ofExcept_ok]
  dsimp only
  rw [wp_bind, wp_logEvent]
  dsimp only
  rw [wp_bind, wp_atomicWriteJson_of_noFaults hf]
  dsimp only
  rw [wp_bind, wp_now]
  exact ⟨committedState_valid hs hactive _ _, rfl⟩

/-- a recovery commits the epoch, and leaves the archive ready -/
theorem wp_recoverLocked_recoverable (h : standing env w.files = .recoverable) :
    wp (recoverLocked env) (Post.returns fun _ w' => standing env w'.files = .ready) w := by
  unfold recoverLocked
  rw [wp_bind, wp_readState]
  refine ⟨fun s hs => ?_, fun e he => ?_⟩
  swap
  · unfold standing at h
    rw [he] at h
    exact nomatch h
  dsimp only
  by_cases hphase : s.phase = some .weightsSubmitting
  swap
  · rw [standing_idle hs hphase] at h
    exact nomatch h
  have hvalid := stateOf_valid hs
  obtain ⟨epochId, hactive⟩ := hvalid.isSome_active hphase
  rw [standing_submitting hs hphase hactive] at h
  rw [hphase, hactive]
  dsimp only
  obtain ⟨hattempt, hmarked⟩ : checkAttempt env w.files epochId = .ok () ∧
      (w.files (.epoch epochId .completion)).isSome = true := by
    unfold submittingStanding at h
    split at h
    · exact nomatch h
    next hattempt =>
    split at h
    · next hmarked => exact ⟨hattempt, hmarked⟩
    · split at h
      · exact nomatch h
      · exact nomatch h
  rw [wp_bind, wp_raiseIfAmbiguousAttempt, hattempt]
  refine ⟨fun _ _ => ?_, fun _ he => nomatch he⟩
  dsimp only
  rw [wp_bind, wp_isFile, hmarked]
  dsimp only
  rw [if_neg (by decide), wp_bind]
  refine wp_mono (wp_commitFromCompletion_recoverable hf hvalid hactive h) ?_
    (fun _ _ => False.elim) fun _ => False.elim
  intro t w₁ ht
  dsimp only
  rw [wp_bind]
  refine wp_writeState_of_noFaults hf ht.1 (standing_idle (s := t.canon) ?_ ?_)
  · show stateOf env (World.files _ .state) = .ok t.canon
    rw [World.put_self, stateOf_written env ht.1]
  · show t.phase ≠ some .weightsSubmitting
    rw [ht.2]
    decide

/-- the first tick of a process begins -/
theorem nextTick_ready (h : standing env w.files = .ready) :
    ∃ id w', nextTick env w.restart = (.ok id, w') := by
  have hnext : wp (nextTick env) (Post.returns fun _ _ => True) w.restart := by
    unfold nextTick newTick ValidatorTick.enter
    rw [wp_bind, wp_bind, wp_get]
    dsimp only
    rw [wp_bind, wp_modify]
    dsimp only
    rw [wp_pure]
    dsimp only
    generalize hw₁ : ({ w.restart with nextTick := w.restart.nextTick + 1 } : World) = w₁
    have hfiles : w₁.files = w.files := by rw [← hw₁]; rfl
    have howner : w₁.lockOwner = none := by rw [← hw₁]; rfl
    unfold acquireLock
    rw [wp_bind, wp_bind, wp_get]
    dsimp only
    rw [howner, if_neg (by simp), if_neg (by simp), wp_bind, wp_effectful_of_noFaults hf]
    dsimp only
    rw [wp_modify]
    dsimp only
    rw [wp_handle, wp_bind]
    generalize hw₂ : ({ id w₁.tickClock with lockOwner := some _ } : World) = w₂
    have hfiles₂ : w₂.files = w.files := by
      rw [← hw₂, ← hfiles]
      rfl
    refine wp_mono (wp_beginLocked_ready hf (by rw [hfiles₂, h])) (fun _ _ _ => trivial)
      (fun _ _ => False.elim) fun _ => False.elim
  obtain ⟨id, w', hrun, _⟩ := wp_returns_iff.mp hnext
  exact ⟨id, w', hrun⟩

/-- a recovery by a new process succeeds -/
theorem recoverReceipt_recoverable (h : standing env w.files = .recoverable) :
    ∃ t w', recoverReceipt env w.restart = (.ok t, w') ∧ standing env w'.files = .ready := by
  refine wp_returns_iff.mp ?_
  unfold recoverReceipt acquireLock
  have howner : w.restart.lockOwner = none := rfl
  rw [wp_bind, wp_bind, wp_get]
  dsimp only
  rw [howner, if_neg (by simp), if_neg (by simp), wp_bind, wp_effectful_of_noFaults hf]
  dsimp only
  rw [wp_modify]
  dsimp only
  rw [wp_ensure]
  generalize hw₁ : ({ id w.restart.tickClock with lockOwner := some _ } : World) = w₁
  have hfiles : w₁.files = w.files := by rw [← hw₁]; rfl
  refine wp_mono (wp_recoverLocked_recoverable hf (by rw [hfiles, h])) ?_ (fun _ _ => False.elim)
    fun _ => False.elim
  intro t w₂ h₂
  dsimp only
  refine wp_mono (wp_releaseLock .recovery w₂) (fun _ w₃ hr => ?_) (fun _ _ => False.elim)
    fun _ => False.elim
  show standing env w₃.files = .ready
  rw [hr.files, h₂]

end

/-! ## the three cases -/

/-- the same environment, with no fault any more -/
def Env.calm (env : Env) : Env := { env with fault := fun _ => .none }

theorem Env.calm_noFaults (env : Env) : env.calm.NoFaults := fun _ => rfl

/-- a process that starts, and meets no fault, begins a tick -/
def TickBegins (env : Env) (w : World) : Prop :=
  ∃ id w', nextTick env.calm w.restart = (.ok id, w')

/-- a process that starts, and meets no fault, recovers the pending epoch -/
def Recovers (env : Env) (w w' : World) : Prop :=
  ∃ s, recoverReceipt env.calm w.restart = (.ok s, w')

section
variable {env : Env} {w w' : World}

theorem standing_calm (files : Files) : standing env.calm files = standing env files := rfl

theorem tickBegins_iff : TickBegins env w ↔ standing env w.files = .ready := by
  constructor
  · rintro ⟨id, w', hrun⟩
    by_contra hready
    unfold nextTick newTick at hrun
    obtain ⟨id', w₁, hnew, hrun⟩ := run_bind hrun
    have hfiles : w₁.files = w.files := by
      have hw₁ : (w₁ : World) = { w.restart with nextTick := w.restart.nextTick + 1 } :=
        (Prod.mk.inj hnew).2.symm
      rw [hw₁]
      rfl
    have hblocked : standing env.calm w₁.files ≠ .ready := by
      rw [standing_calm, hfiles]
      exact hready
    exact wp_of_run (wp_enter_blocked hblocked id') hrun
  · intro h
    exact nextTick_ready env.calm_noFaults (by rw [standing_calm, h])

theorem recovers_iff : (∃ w', Recovers env w w') ↔ standing env w.files = .recoverable := by
  constructor
  · rintro ⟨w', s, hrun⟩
    by_contra hrecoverable
    have hblocked : standing env.calm w.restart.files ≠ .recoverable := hrecoverable
    exact wp_of_run (wp_recoverReceipt_blocked hblocked) hrun
  · intro h
    obtain ⟨s, w', hrun, _⟩ := recoverReceipt_recoverable env.calm_noFaults (w := w)
      (by rw [standing_calm, h])
    exact ⟨w', s, hrun⟩

/-- one command on a wedged archive only reads -/
theorem ArchiveStep.wedged (h : standing env w.files = .wedged) (hs : ArchiveStep env w w') :
    LeavesArchive w w' := by
  cases hs with
  | @tick _ o t hr =>
    have hblocked : standing (t.env env) w.files ≠ .ready := by
      show standing env w.files ≠ .ready
      rw [h]
      decide
    have hpost := wp_of_run (show wp (tickCommand (t.env env) t.substrate t.network t.args t.engine
      t.A t.input) _ w from wp_tickCommand_blocked hblocked t.input) hr
    cases o with
    | ok code => exact hpost.elim
    | raise e => exact hpost
    | killed => exact hpost
  | @recover _ o hr =>
    have hblocked : standing env w.files ≠ .recoverable := by
      rw [h]
      decide
    have hpost := wp_of_run (wp_recoverReceipt_blocked hblocked) hr
    cases o with
    | ok s => exact hpost.elim
    | raise e => exact hpost
    | killed => exact hpost
  | restart => exact ⟨⟨rfl, rfl⟩, rfl, rfl, rfl⟩
  | pass => exact ⟨⟨rfl, rfl⟩, rfl, rfl, rfl⟩

theorem Later.wedged (h : standing env w.files = .wedged) (hl : Later env w w') :
    LeavesArchive w w' := by
  induction hl with
  | refl => exact refl_of LeavesArchive w
  | tail _ hs ih =>
    refine trans_of LeavesArchive ih (hs.wedged ?_)
    rw [ih.files, h]

/-- **The standing is exact.** What the files say decides whether a new process, which meets no
fault, begins a tick, and whether it can recover the pending epoch. -/
theorem standing_exact (w : World) :
    (TickBegins env w ↔ standing env w.files = .ready) ∧
      ((∃ w', Recovers env w w') ↔ standing env w.files = .recoverable) :=
  ⟨tickBegins_iff, recovers_iff⟩

end

end Dolores
