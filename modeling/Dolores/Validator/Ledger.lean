import Dolores.Lib.Journal
import Dolores.Validator.Durable

/-!
# The epoch ledger

The states that `state.json` has held are read off the writes to it.  Each is written over the one
before by one of seven rules, and what the rules do to the epochs is said once (`Entry`).

* `archiveOf`        the archive that the events so far leave, from an empty one;
* `Follows`          the rules by which one state is written over another;
* `LedgerLaw`        the law of a journal whose states follow each other;
* `Ledger`           the histories of states under the rules;
* `ledger_settled`   an epoch that is over has been completed once or failed once, not both;
* `ledger_early`, `ledger_completed`, `ledger_success`   the other facts about a history.
-/

namespace Dolores
open Crash Except Journal

/-! ## the archive of a journal -/

def Event.apply (files : Files) : Event → Files
  | .wrote p c => Function.update files p (some c)
  | _ => files

/-- the archive that the events leave, from an empty one -/
def archiveOf (events : List Event) : Files := events.foldl Event.apply fun _ => none

@[simp] theorem archiveOf_nil : archiveOf [] = fun _ => none := rfl

theorem archiveOf_snoc (events : List Event) (e : Event) :
    archiveOf (events ++ [e]) = e.apply (archiveOf events) := by
  unfold archiveOf
  rw [List.foldl_append]
  rfl

theorem archiveOf_wrote (events : List Event) (p : Path) (c : Content) :
    archiveOf (events ++ [.wrote p c]) = Function.update (archiveOf events) p (some c) :=
  archiveOf_snoc events _

/-- the event writes no file -/
def Event.writesNothing : Event → Prop
  | .wrote _ _ => False
  | _ => True

theorem Event.apply_of_writesNothing {e : Event} (h : e.writesNothing) (files : Files) :
    e.apply files = files := by
  cases e with
  | wrote => exact h.elim
  | verified => rfl
  | setWeights => rfl
  | tickEntered => rfl
  | emaLoaded => rfl
  | pipelineRan => rfl

/-! ## the rules -/

/-- a state as `state.json` holds it -/
def stateContent (s : ValidatorRuntimeState) : Content := .doc (Json.canon (.obj s.toDict))

/-- the state that is read from the files -/
def Persisted (env : Env) (files : Files) (s : ValidatorRuntimeState) : Prop :=
  stateOf env (files .state) = .ok s

/-- nothing was submitted for the epoch, as far as its attempt and its receipt tell -/
def Released (env : Env) (files : Files) (epochId : Int) : Prop :=
  files (.epoch epochId .chainAttempt) = none ∨
    checkAttempt env files epochId = .ok () ∧
      ∃ receipt, loadStateObject env files (.epoch epochId .chainReceipt) "chain receipt" =
          .ok receipt ∧
        (receipt.get "mode").inNames ["dry_run", "skipped", "error"] = .ok true

/-- the state in which the active epoch is tried again -/
def retriedState (state : ValidatorRuntimeState) (updatedAt : String) : ValidatorRuntimeState :=
  { state with phase := some .allocated, attempt := state.attempt + 1, updatedAt }

/-- the states that are written over a state, and what the files hold then -/
inductive Follows (env : Env) (files : Files) (s : ValidatorRuntimeState) :
    ValidatorRuntimeState → Prop
  | retried (updatedAt : String) (hphase : s.phase = some .allocated ∨ s.phase = some .querying) :
      Follows env files s (retriedState s updatedAt)
  | allocated (updatedAt : String) (hphase : s.phase = none ∨ s.phase = some .committed) :
      Follows env files s (allocatedState s updatedAt)
  | abandoned (updatedAt : String) (hphase : s.phase = some .evaluating) :
      Follows env files s
        (allocatedState (failedState s "interrupted_during_evaluation" updatedAt) updatedAt)
  | moved {current phase : ValidatorPhase} (updatedAt : String) (hphase : s.phase = some current)
      (hallowed : phase ∈ current.allowed) (hne : phase ≠ .committed) :
      Follows env files s { s with phase := some phase, updatedAt }
  | evaluationFailed (error updatedAt : String) (hphase : s.phase = some .evaluating) :
      Follows env files s (failedState s error updatedAt)
  | weightsFailed {epochId : Int} (error updatedAt : String)
      (hphase : s.phase = some .weightsSubmitting) (hactive : s.activeEpochId = some epochId)
      (hreleased : Released env files epochId) : Follows env files s (failedState s error updatedAt)
  | committed {epochId : Int} {v : VerifiedCompletion} (updatedAt : String)
      (hphase : s.phase = some .weightsSubmitting) (hactive : s.activeEpochId = some epochId)
      (hattempt : checkAttempt env files epochId = .ok ())
      (hverified : verifyEpochCompletion env files epochId = .ok v)
      (hrolling : files .minerState = some (.doc (Json.canon (.obj v.minerState)))) :
      Follows env files s
        (committedState s epochId (canonicalReceipt env epochId v.receipt) updatedAt)

/-- Each state follows from the one it replaces, and the epoch that a tick is given has just been
allocated. -/
def LedgerLaw (env : Env) (past : List Event) : Event → Prop
  | .wrote .state c => ∃ s t, Persisted env (archiveOf past) s ∧ Follows env (archiveOf past) s t ∧
      t.Valid ∧ c = stateContent t
  | .tickEntered epochId => ∃ s, Persisted env (archiveOf past) s ∧
      s.activeEpochId = some epochId ∧ s.phase = some .allocated
  | _ => True

/-- the states that `state.json` has held after the first -/
def statesWritten (env : Env) (events : List Event) : List ValidatorRuntimeState :=
  events.filterMap fun e =>
    match e with
    | .wrote .state c => (stateOf env (some c)).toOption
    | _ => none

/-- the states that `state.json` has held, oldest first; without a file the state is the default -/
def persistedStates (env : Env) (events : List Event) : List ValidatorRuntimeState :=
  {} :: statesWritten env events

/-! ## what one write does to the epochs -/

/-- the phase has not passed `querying` -/
def Early (phase : Option ValidatorPhase) : Prop :=
  phase = some .allocated ∨ phase = some .querying

/-- The next number, the active epoch and the outcomes, before and after a write. -/
inductive Entry (s t : ValidatorRuntimeState) : Prop
  | proceeds {epochId : Int} (hactive : s.activeEpochId = some epochId)
      (hactive' : t.activeEpochId = some epochId) (hphase : s.phase ≠ some .committed)
      (hphase' : t.phase ≠ some .committed) (hearly : Early t.phase → Early s.phase)
      (hnext : t.nextEpochId = s.nextEpochId) (hfailed : t.lastFailedEpoch = s.lastFailedEpoch)
      (hcompleted : t.lastCompletedEpoch = s.lastCompletedEpoch)
      (hsuccess : t.lastSuccessfulWeightReceipt = s.lastSuccessfulWeightReceipt)
  | allocates (hphase : s.phase = none ∨ s.phase = some .committed)
      (hactive' : t.activeEpochId = some s.nextEpochId) (hphase' : t.phase = some .allocated)
      (hnext : t.nextEpochId = s.nextEpochId + 1)
      (hfailed : t.lastFailedEpoch = s.lastFailedEpoch)
      (hcompleted : t.lastCompletedEpoch = s.lastCompletedEpoch)
      (hsuccess : t.lastSuccessfulWeightReceipt = s.lastSuccessfulWeightReceipt)
  | abandons {epochId : Int} (hactive : s.activeEpochId = some epochId)
      (hphase : s.phase = some .evaluating) (hactive' : t.activeEpochId = some s.nextEpochId)
      (hphase' : t.phase = some .allocated) (hnext : t.nextEpochId = s.nextEpochId + 1)
      (hfailed : t.lastFailedEpoch = some epochId)
      (hcompleted : t.lastCompletedEpoch = s.lastCompletedEpoch)
      (hsuccess : t.lastSuccessfulWeightReceipt = s.lastSuccessfulWeightReceipt)
  | fails {epochId : Int} (hactive : s.activeEpochId = some epochId)
      (hphase : s.phase = some .evaluating ∨ s.phase = some .weightsSubmitting)
      (hactive' : t.activeEpochId = none) (hphase' : t.phase = none)
      (hnext : t.nextEpochId = s.nextEpochId) (hfailed : t.lastFailedEpoch = some epochId)
      (hcompleted : t.lastCompletedEpoch = s.lastCompletedEpoch)
      (hsuccess : t.lastSuccessfulWeightReceipt = s.lastSuccessfulWeightReceipt)
  | completes {epochId : Int} {receipt : Obj} (hactive : s.activeEpochId = some epochId)
      (hphase : s.phase = some .weightsSubmitting) (hactive' : t.activeEpochId = some epochId)
      (hphase' : t.phase = some .committed) (hnext : t.nextEpochId = s.nextEpochId)
      (hfailed : t.lastFailedEpoch = s.lastFailedEpoch)
      (hcompleted : t.lastCompletedEpoch = some epochId) (hreceipt : t.lastReceipt = some receipt)
      (hsuccess : t.lastSuccessfulWeightReceipt =
        if receiptSucceeded receipt then some receipt else s.lastSuccessfulWeightReceipt)

namespace ValidatorRuntimeState

theorem canon_canon (s : ValidatorRuntimeState) : s.canon.canon = s.canon := by
  unfold canon
  dsimp only
  rw [Option.map_map, Option.map_map]
  have hcanon : Obj.canon ∘ Obj.canon = Obj.canon := funext Obj.canon_canon
  rw [hcanon]

/-- the receipts of a state that is read have sorted keys -/
def Canonical (s : ValidatorRuntimeState) : Prop := s.canon = s

theorem Canonical.success {s : ValidatorRuntimeState} (h : s.Canonical) :
    s.lastSuccessfulWeightReceipt.map Obj.canon = s.lastSuccessfulWeightReceipt :=
  congrArg lastSuccessfulWeightReceipt h

theorem canonical_default : Canonical {} := rfl

end ValidatorRuntimeState

theorem receiptSucceeded_canon (receipt : Obj) :
    receiptSucceeded receipt.canon = receiptSucceeded receipt := by
  unfold receiptSucceeded
  rw [Obj.get_canon]
  congr 1
  funext mode
  exact Json.eqStr_canon _ mode

section
variable {env : Env} {files : Files} {s t : ValidatorRuntimeState}

theorem ValidatorRuntimeState.Valid.isSome_active (h : s.Valid) {phase : ValidatorPhase}
    (hphase : s.phase = some phase) : ∃ epochId, s.activeEpochId = some epochId := by
  have htogether := h.together
  rw [hphase] at htogether
  cases hactive : s.activeEpochId with
  | none =>
    rw [hactive] at htogether
    exact nomatch htogether
  | some epochId => exact ⟨epochId, rfl⟩

/-- a move goes to a phase that is not early, unless it leaves an early one -/
theorem early_of_allowed {current phase : ValidatorPhase} (h : phase ∈ current.allowed) :
    current ≠ .committed ∧ (Early (some phase) → Early (some current)) := by
  cases current with
  | allocated => exact ⟨by decide, fun _ => .inl rfl⟩
  | querying => exact ⟨by decide, fun _ => .inr rfl⟩
  | evaluating =>
    refine ⟨by decide, fun he => ?_⟩
    rw [List.mem_singleton.mp h] at he
    rcases he with he | he
    · exact nomatch he
    · exact nomatch he
  | weightsSubmitting =>
    refine ⟨by decide, fun he => ?_⟩
    rw [List.mem_singleton.mp h] at he
    rcases he with he | he
    · exact nomatch he
    · exact nomatch he
  | committed => exact (List.not_mem_nil h).elim

/-- **What one write does to the epochs.** -/
theorem entry_of_follows (hvalid : s.Valid) (hcanon : s.Canonical) (h : Follows env files s t) :
    Entry s t.canon := by
  have hsuccess := hcanon.success
  cases h with
  | retried updatedAt hphase =>
    have hearly : ∃ phase, s.phase = some phase ∧ phase ≠ .committed := by
      rcases hphase with h | h
      · exact ⟨_, h, by decide⟩
      · exact ⟨_, h, by decide⟩
    obtain ⟨phase, hs, hne⟩ := hearly
    obtain ⟨epochId, hactive⟩ := hvalid.isSome_active hs
    refine .proceeds hactive hactive ?_ (fun he => nomatch he) (fun _ => hphase) rfl
      rfl rfl hsuccess
    rw [hs]
    exact fun h => hne (Option.some.inj h)
  | allocated updatedAt hphase => exact .allocates hphase rfl rfl rfl rfl rfl hsuccess
  | abandoned updatedAt hphase =>
    obtain ⟨epochId, hactive⟩ := hvalid.isSome_active hphase
    exact .abandons hactive hphase rfl rfl rfl hactive rfl hsuccess
  | @moved current phase updatedAt hphase hallowed hne =>
    obtain ⟨epochId, hactive⟩ := hvalid.isSome_active hphase
    obtain ⟨hcurrent, hearly⟩ := early_of_allowed hallowed
    refine .proceeds hactive hactive ?_ (fun h => hne (Option.some.inj h)) ?_ rfl rfl rfl hsuccess
    · rw [hphase]
      exact fun h => hcurrent (Option.some.inj h)
    · rw [hphase]
      exact hearly
  | evaluationFailed error updatedAt hphase =>
    obtain ⟨epochId, hactive⟩ := hvalid.isSome_active hphase
    exact .fails hactive (.inl hphase) rfl rfl rfl hactive rfl hsuccess
  | weightsFailed error updatedAt hphase hactive _ =>
    exact .fails hactive (.inr hphase) rfl rfl rfl hactive rfl hsuccess
  | @committed epochId v updatedAt hphase hactive _ _ _ =>
    refine .completes hactive hphase hactive rfl rfl rfl rfl rfl ?_
    rw [receiptSucceeded_canon]
    show (if _ then _ else s.lastSuccessfulWeightReceipt).map Obj.canon = _
    by_cases hmode : receiptSucceeded (canonicalReceipt env epochId v.receipt) = true
    · rw [if_pos hmode, if_pos hmode]
      rfl
    · rw [if_neg hmode, if_neg hmode]
      exact hsuccess

end

/-! ## histories -/

/-- one state is written over another -/
def Advance (env : Env) (s t : ValidatorRuntimeState) : Prop :=
  ∃ files written, Follows env files s written ∧ written.Valid ∧ t = written.canon

/-- the histories that end in a state -/
inductive Ledger (env : Env) : List ValidatorRuntimeState → ValidatorRuntimeState → Prop
  | start : Ledger env [{}] {}
  | advance {history : List ValidatorRuntimeState} {s t : ValidatorRuntimeState}
      (h : Ledger env history s) (hst : Advance env s t) : Ledger env (history ++ [t]) t

section
variable {env : Env} {history : List ValidatorRuntimeState} {s t : ValidatorRuntimeState}

theorem Ledger.ends (h : Ledger env history s) : ∃ before, history = before ++ [s] := by
  cases h with
  | start => exact ⟨[], rfl⟩
  | advance => exact ⟨_, rfl⟩

theorem Ledger.valid (h : Ledger env history s) : s.Valid ∧ s.Canonical := by
  cases h with
  | start => exact ⟨ValidatorRuntimeState.valid_default, ValidatorRuntimeState.canonical_default⟩
  | advance _ hst =>
    obtain ⟨_, written, _, hvalid, rfl⟩ := hst
    exact ⟨hvalid.canon, written.canon_canon⟩

theorem Ledger.entry (h : Ledger env history s) (hst : Advance env s t) : Entry s t := by
  obtain ⟨files, written, hfollows, _, rfl⟩ := hst
  exact entry_of_follows h.valid.1 h.valid.2 hfollows

theorem Ledger.pairs (h : Ledger env history s) (t : ValidatorRuntimeState) :
    Journal.pairs (history ++ [t]) = Journal.pairs history ++ [(s, t)] := by
  obtain ⟨before, rfl⟩ := h.ends
  exact pairs_concat before s t

/-- what holds of the end of every history holds of all states of a history -/
theorem Ledger.forall_states {P : ValidatorRuntimeState → Prop}
    (hP : ∀ {history s}, Ledger env history s → P s) (h : Ledger env history s) :
    ∀ x ∈ history, P x := by
  induction h with
  | start =>
    intro x hx
    rw [List.mem_singleton.mp hx]
    exact hP .start
  | advance h hst ih =>
    intro x hx
    rcases List.mem_append.mp hx with hx | hx
    · exact ih x hx
    · rw [List.mem_singleton.mp hx]
      exact hP (.advance h hst)

/-- a relation between every state and the next -/
theorem Ledger.forall_pairs {R : ValidatorRuntimeState → ValidatorRuntimeState → Prop}
    (hR : ∀ {history s t}, Ledger env history s → Entry s t → R s t) (h : Ledger env history s) :
    ∀ p ∈ Journal.pairs history, R p.1 p.2 := by
  induction h with
  | start =>
    intro p hp
    exact (List.not_mem_nil hp).elim
  | advance h hst ih =>
    intro p hp
    rw [h.pairs] at hp
    rcases List.mem_append.mp hp with hp | hp
    · exact ih p hp
    · rw [List.mem_singleton.mp hp]
      exact hR h (h.entry hst)

/-- `next_epoch_id` never decreases -/
theorem ledger_next (h : Ledger env history s) :
    ∀ p ∈ Journal.pairs history, p.1.nextEpochId ≤ p.2.nextEpochId := by
  refine h.forall_pairs (R := fun s t => s.nextEpochId ≤ t.nextEpochId) fun _ hentry => ?_
  cases hentry with
  | proceeds _ _ _ _ _ hnext => omega
  | allocates _ _ _ hnext => omega
  | abandons _ _ _ _ hnext => omega
  | fails _ _ _ _ hnext => omega
  | completes _ _ _ _ hnext => omega

/-- the last failed epoch is below the next one and is not active -/
theorem ledger_lastFailed (h : Ledger env history s) : ∀ epochId, s.lastFailedEpoch = some epochId →
    epochId < s.nextEpochId ∧ s.activeEpochId ≠ some epochId := by
  induction h with
  | start => exact fun _ hf => nomatch hf
  | @advance history s t h hst ih =>
    intro epochId hf
    have hactive := h.valid.1.active
    cases h.entry hst with
    | proceeds ha ha' _ _ _ hnext hfailed =>
      rw [hfailed] at hf
      rw [hnext, ha', ← ha]
      exact ih epochId hf
    | allocates _ ha' _ hnext hfailed =>
      rw [hfailed] at hf
      have hlt := (ih epochId hf).1
      rw [ha', hnext]
      exact ⟨by omega, fun he => by have hid := Option.some.inj he; omega⟩
    | @abandons e ha _ ha' _ hnext hfailed =>
      have hid : e = epochId := Option.some.inj (hfailed.symm.trans hf)
      have hlt := (hactive e ha).2.1
      rw [ha', hnext]
      exact ⟨by omega, fun he => by have hid' := Option.some.inj he; omega⟩
    | @fails e ha _ ha' _ hnext hfailed =>
      have hid : e = epochId := Option.some.inj (hfailed.symm.trans hf)
      have hlt := (hactive e ha).2.1
      rw [ha', hnext]
      exact ⟨by omega, fun he => nomatch he⟩
    | completes ha _ ha' _ hnext hfailed =>
      rw [hfailed] at hf
      rw [hnext, ha', ← ha]
      exact ih epochId hf

/-- the last completed epoch is below the next one; one that is active and not committed is later -/
theorem ledger_lastCompleted (h : Ledger env history s) :
    ∀ done, s.lastCompletedEpoch = some done → done < s.nextEpochId ∧
      ∀ epochId, s.activeEpochId = some epochId → s.phase ≠ some .committed → done < epochId := by
  induction h with
  | start => exact fun _ hd => nomatch hd
  | @advance history s t h hst ih =>
    intro done hd
    have hactive := h.valid.1.active
    cases h.entry hst with
    | proceeds ha ha' hphase _ _ hnext _ hcompleted =>
      rw [hcompleted] at hd
      obtain ⟨hlt, hlater⟩ := ih done hd
      rw [hnext, ha', ← ha]
      exact ⟨hlt, fun epochId he _ => hlater epochId he hphase⟩
    | allocates _ ha' _ hnext _ hcompleted =>
      rw [hcompleted] at hd
      have hlt := (ih done hd).1
      rw [ha', hnext]
      exact ⟨by omega, fun epochId he _ => by have hid := Option.some.inj he; omega⟩
    | abandons _ _ ha' _ hnext _ hcompleted =>
      rw [hcompleted] at hd
      have hlt := (ih done hd).1
      rw [ha', hnext]
      exact ⟨by omega, fun epochId he _ => by have hid := Option.some.inj he; omega⟩
    | fails _ _ ha' _ hnext _ hcompleted =>
      rw [hcompleted] at hd
      rw [hnext, ha']
      exact ⟨(ih done hd).1, fun _ he => nomatch he⟩
    | @completes e _ ha _ _ hphase' hnext _ hcompleted =>
      have hid : e = done := Option.some.inj (hcompleted.symm.trans hd)
      have hlt := (hactive e ha).2.1
      rw [hnext]
      exact ⟨by omega, fun _ _ hp => (hp hphase').elim⟩

/-- the last completed epoch only increases -/
theorem ledger_completed (h : Ledger env history s) : ∀ p ∈ Journal.pairs history,
    p.2.lastCompletedEpoch = p.1.lastCompletedEpoch ∨
      ∃ epochId, p.2.lastCompletedEpoch = some epochId ∧
        ∀ done, p.1.lastCompletedEpoch = some done → done < epochId := by
  refine h.forall_pairs (R := fun s t => t.lastCompletedEpoch = s.lastCompletedEpoch ∨
    ∃ epochId, t.lastCompletedEpoch = some epochId ∧
      ∀ done, s.lastCompletedEpoch = some done → done < epochId) fun h hentry => ?_
  cases hentry with
  | proceeds _ _ _ _ _ _ _ hcompleted => exact .inl hcompleted
  | allocates _ _ _ _ _ hcompleted => exact .inl hcompleted
  | abandons _ _ _ _ _ _ hcompleted => exact .inl hcompleted
  | fails _ _ _ _ _ _ hcompleted => exact .inl hcompleted
  | @completes e _ ha hphase _ _ _ _ hcompleted =>
    refine .inr ⟨e, hcompleted, fun done hd => (ledger_lastCompleted h done hd).2 e ha ?_⟩
    rw [hphase]
    exact fun he => nomatch he

/-! ## every epoch is settled once -/

/-- how often a state was written in which the epoch is committed -/
def completions (history : List ValidatorRuntimeState) (epochId : Int) : Nat :=
  history.countP fun s => s.phase = some .committed ∧ s.activeEpochId = some epochId

/-- how often the epoch stopped being active and was recorded as failed -/
def failures (history : List ValidatorRuntimeState) (epochId : Int) : Nat :=
  (Journal.pairs history).countP fun p => p.1.activeEpochId = some epochId ∧
    p.2.activeEpochId ≠ some epochId ∧ p.2.lastFailedEpoch = some epochId

theorem completions_snoc (history : List ValidatorRuntimeState) (t : ValidatorRuntimeState)
    (epochId : Int) : completions (history ++ [t]) epochId = completions history epochId +
      if t.phase = some .committed ∧ t.activeEpochId = some epochId then 1 else 0 := by
  unfold completions
  rw [List.countP_append, List.countP_singleton]
  congr 1
  simp only [decide_eq_true_eq]

theorem failures_snoc (h : Ledger env history s) (t : ValidatorRuntimeState) (epochId : Int) :
    failures (history ++ [t]) epochId = failures history epochId +
      if s.activeEpochId = some epochId ∧ t.activeEpochId ≠ some epochId ∧
        t.lastFailedEpoch = some epochId then 1 else 0 := by
  unfold failures
  rw [h.pairs, List.countP_append, List.countP_singleton]
  congr 1
  simp only [decide_eq_true_eq]

theorem completions_eq_zero {epochId : Int} (h : ∀ x ∈ history, x.activeEpochId ≠ some epochId) :
    completions history epochId = 0 := by
  unfold completions
  rw [List.countP_eq_zero]
  intro x hx hcommitted
  exact h x hx (of_decide_eq_true hcommitted).2

theorem failures_eq_zero {epochId : Int} (h : ∀ x ∈ history, x.activeEpochId ≠ some epochId) :
    failures history epochId = 0 := by
  unfold failures
  rw [List.countP_eq_zero]
  intro p hp hfailed
  exact h p.1 (List.of_mem_zip hp).1 (of_decide_eq_true hfailed).1

/-- the outcomes of one epoch over a history that ends in `s` -/
structure Account (history : List ValidatorRuntimeState) (s : ValidatorRuntimeState)
    (epochId : Int) : Prop where
  unallocated : s.nextEpochId ≤ epochId → ∀ x ∈ history, x.activeEpochId ≠ some epochId
  active : s.activeEpochId = some epochId → failures history epochId = 0 ∧
    completions history epochId = if s.phase = some .committed then 1 else 0
  finished : 1 ≤ epochId → epochId < s.nextEpochId → s.activeEpochId ≠ some epochId →
    completions history epochId + failures history epochId = 1

/-- a number that is not given out was active in no state, nor is it now -/
theorem Account.unallocated_snoc {epochId : Int} (ha : Account history s epochId)
    (hle : s.nextEpochId ≤ epochId) (hnot : t.activeEpochId ≠ some epochId) :
    ∀ x ∈ history ++ [t], x.activeEpochId ≠ some epochId := by
  intro x hx
  rcases List.mem_append.mp hx with hx | hx
  · exact ha.unallocated hle x hx
  · rw [List.mem_singleton.mp hx]
    exact hnot

/-- a write that changes neither the next number nor the active epoch, nor completes it -/
theorem Account.proceed {epochId : Int} (ha : Account history s epochId)
    (hactive : t.activeEpochId = s.activeEpochId) (hnext : t.nextEpochId = s.nextEpochId)
    (hphase : s.phase ≠ some .committed) (hphase' : t.phase ≠ some .committed)
    (hc : completions (history ++ [t]) epochId = completions history epochId)
    (hf : failures (history ++ [t]) epochId = failures history epochId)
    (hbelow : ∀ id, s.activeEpochId = some id → id < s.nextEpochId) :
    Account (history ++ [t]) t epochId where
  unallocated := by
    intro hle
    rw [hnext] at hle
    refine ha.unallocated_snoc hle ?_
    rw [hactive]
    intro he
    have hlt := hbelow epochId he
    omega
  active := by
    intro he
    rw [hactive] at he
    have hold := ha.active he
    rw [if_neg hphase] at hold
    rw [hc, hf, if_neg hphase']
    exact hold
  finished := by
    intro hpos hlt hne
    rw [hnext] at hlt
    rw [hactive] at hne
    rw [hc, hf]
    exact ha.finished hpos hlt hne

/-- a write that allocates the next epoch, once the active one is over -/
theorem Account.allocate {epochId : Int} (ha : Account history s epochId)
    (hactive : t.activeEpochId = some s.nextEpochId) (hnext : t.nextEpochId = s.nextEpochId + 1)
    (hphase : t.phase = some .allocated)
    (hfresh : s.nextEpochId = epochId → failures (history ++ [t]) epochId = 0 ∧
      completions (history ++ [t]) epochId = 0)
    (hover : 1 ≤ epochId → epochId < s.nextEpochId →
      completions (history ++ [t]) epochId + failures (history ++ [t]) epochId = 1) :
    Account (history ++ [t]) t epochId where
  unallocated := by
    intro hle
    rw [hnext] at hle
    refine ha.unallocated_snoc (by omega) ?_
    rw [hactive]
    intro he
    have hid := Option.some.inj he
    omega
  active := by
    intro he
    rw [hactive] at he
    obtain ⟨hf, hc⟩ := hfresh (Option.some.inj he)
    refine ⟨hf, ?_⟩
    rw [hc, hphase]
    rfl
  finished := by
    intro hpos hlt hne
    rw [hnext] at hlt
    rw [hactive] at hne
    have hid : s.nextEpochId ≠ epochId := fun he => hne (by rw [he])
    exact hover hpos (by omega)

/-- a write that leaves the active epoch, and records it as failed: it has its outcome, as the
epochs before it -/
theorem Account.total_of_failed {epochId e : Int} (h : Ledger env history s)
    (ha : Account history s epochId) (hactive : s.activeEpochId = some e)
    (hphase : s.phase ≠ some .committed) (hnot : t.activeEpochId ≠ some e)
    (hphase' : t.phase ≠ some .committed) (hfailed : t.lastFailedEpoch = some e)
    (hpos : 1 ≤ epochId) (hlt : epochId < s.nextEpochId) :
    completions (history ++ [t]) epochId + failures (history ++ [t]) epochId = 1 := by
  have hc := completions_snoc history t epochId
  have hf := failures_snoc h t epochId
  rw [if_neg fun hx => hphase' hx.1] at hc
  by_cases hid : s.activeEpochId = some epochId
  · obtain rfl : e = epochId := Option.some.inj (hactive.symm.trans hid)
    obtain ⟨hf0, hc0⟩ := ha.active hid
    rw [if_neg hphase] at hc0
    rw [if_pos ⟨hid, hnot, hfailed⟩] at hf
    omega
  · rw [if_neg fun hx => hid hx.1] at hf
    have hsum := ha.finished hpos hlt hid
    omega

theorem Account.step {epochId : Int} (h : Ledger env history s) (ha : Account history s epochId)
    (hentry : Entry s t) : Account (history ++ [t]) t epochId := by
  have hc := completions_snoc history t epochId
  have hf := failures_snoc h t epochId
  have hbelow : ∀ id, s.activeEpochId = some id → id < s.nextEpochId :=
    fun id hid => (h.valid.1.active id hid).2.1
  -- the epoch that is allocated has no outcome
  have hnone : s.nextEpochId ≤ epochId → completions history epochId = 0 ∧
      failures history epochId = 0 := fun hle =>
    ⟨completions_eq_zero (ha.unallocated hle), failures_eq_zero (ha.unallocated hle)⟩
  cases hentry with
  | @proceeds e hactive hactive' hphase hphase' _ hnext hfailed _ =>
    rw [if_neg fun hx => hphase' hx.1] at hc
    rw [if_neg fun hx => hx.2.1 (hactive'.trans (hactive.symm.trans hx.1))] at hf
    exact ha.proceed (hactive'.trans hactive.symm) hnext hphase hphase' hc hf hbelow
  | allocates hphase hactive' hphase' hnext hfailed _ =>
    have hkept : ¬ (s.activeEpochId = some epochId ∧ t.activeEpochId ≠ some epochId ∧
        t.lastFailedEpoch = some epochId) := fun hx =>
      (ledger_lastFailed h epochId (hfailed.symm.trans hx.2.2)).2 hx.1
    have hcommitted : t.phase ≠ some .committed := by
      rw [hphase']
      exact fun he => nomatch he
    rw [if_neg fun hx => hcommitted hx.1] at hc
    rw [if_neg hkept] at hf
    refine ha.allocate hactive' hnext hphase' (fun hid => ?_) (fun hpos hlt => ?_)
    · obtain ⟨hc0, hf0⟩ := hnone (le_of_eq hid)
      omega
    · by_cases hactive : s.activeEpochId = some epochId
      · have hphaseC : s.phase = some .committed := by
          rcases hphase with hp | hp
          · have htogether := h.valid.1.together
            rw [hp, hactive] at htogether
            exact nomatch htogether
          · exact hp
        obtain ⟨hf0, hc1⟩ := ha.active hactive
        rw [if_pos hphaseC] at hc1
        omega
      · have hsum := ha.finished hpos hlt hactive
        omega
  | @abandons e hactive hphase hactive' hphase' hnext hfailed _ =>
    have hopen : s.phase ≠ some .committed := by
      rw [hphase]
      exact fun he => nomatch he
    have hcommitted : t.phase ≠ some .committed := by
      rw [hphase']
      exact fun he => nomatch he
    have he := hbelow e hactive
    have hnot : t.activeEpochId ≠ some e := by
      rw [hactive']
      intro hx
      have hx1 := Option.some.inj hx
      omega
    refine ha.allocate hactive' hnext hphase' (fun hid => ?_)
      (ha.total_of_failed h hactive hopen hnot hcommitted hfailed)
    obtain ⟨hc0, hf0⟩ := hnone (le_of_eq hid)
    rw [if_neg fun hx => hcommitted hx.1] at hc
    rw [if_neg fun hx => by
      have hx1 := Option.some.inj (hactive.symm.trans hx.1)
      omega] at hf
    omega
  | @fails e hactive hphase hactive' hphase' hnext hfailed _ =>
    have hopen : s.phase ≠ some .committed := by
      rcases hphase with hp | hp
      · rw [hp]
        exact fun he => nomatch he
      · rw [hp]
        exact fun he => nomatch he
    have hcommitted : t.phase ≠ some .committed := by
      rw [hphase']
      exact fun he => nomatch he
    have hnot : ∀ id, t.activeEpochId ≠ some id := by
      rw [hactive']
      exact fun id he => nomatch he
    refine ⟨fun hle => ?_, fun hid => absurd hid (hnot epochId), fun hpos hlt _ => ?_⟩
    · rw [hnext] at hle
      exact ha.unallocated_snoc hle (hnot epochId)
    · rw [hnext] at hlt
      exact ha.total_of_failed h hactive hopen (hnot e) hcommitted hfailed hpos hlt
  | @completes e receipt hactive hphase hactive' hphase' hnext hfailed _ =>
    rw [if_neg fun hx => hx.2.1 (hactive'.trans (hactive.symm.trans hx.1))] at hf
    refine ⟨fun hle => ?_, fun hid => ?_, fun hpos hlt hne => ?_⟩
    · rw [hnext] at hle
      refine ha.unallocated_snoc hle ?_
      rw [hactive']
      intro hid
      have he := hbelow e hactive
      have hid' := Option.some.inj hid
      omega
    · have hids : s.activeEpochId = some epochId := hactive.trans (hactive'.symm.trans hid)
      obtain ⟨hf0, hc0⟩ := ha.active hids
      rw [hphase, if_neg (by decide)] at hc0
      rw [if_pos ⟨hphase', hid⟩] at hc
      rw [if_pos hphase']
      omega
    · rw [hnext] at hlt
      have hids : s.activeEpochId ≠ some epochId := by
        rw [hactive, ← hactive']
        exact hne
      rw [if_neg fun hx => hne hx.2] at hc
      have hsum := ha.finished hpos hlt hids
      omega

theorem account_start (epochId : Int) : Account [{}] {} epochId where
  unallocated := by
    intro _ x hx
    rw [List.mem_singleton.mp hx]
    exact fun he => nomatch he
  active := fun he => nomatch he
  finished := by
    intro hpos hlt _
    have hone : epochId < 1 := hlt
    omega

theorem ledger_account (h : Ledger env history s) (epochId : Int) : Account history s epochId := by
  induction h with
  | start => exact account_start epochId
  | advance h hst ih => exact ih.step h (h.entry hst)

/-- **An epoch that is over has been completed once or failed once, never both.** -/
theorem ledger_settled (h : Ledger env history s) {epochId : Int} (hpos : 1 ≤ epochId)
    (hlt : epochId < s.nextEpochId) (hne : s.activeEpochId ≠ some epochId) :
    completions history epochId + failures history epochId = 1 :=
  (ledger_account h epochId).finished hpos hlt hne

/-! ## what is handed out again, and the successful receipt -/

/-- while an epoch has not passed `querying`, no earlier state had it in a later phase -/
theorem ledger_early (h : Ledger env history s) {epochId : Int}
    (hactive : s.activeEpochId = some epochId) (hearly : Early s.phase) :
    ∀ x ∈ history, x.activeEpochId = some epochId → Early x.phase := by
  induction h generalizing epochId with
  | start => exact nomatch hactive
  | @advance history s t h hst ih =>
    intro x hx hid
    rcases List.mem_append.mp hx with hx | hx
    swap
    · rw [List.mem_singleton.mp hx]
      exact hearly
    have hunallocated := (ledger_account h epochId).unallocated
    cases h.entry hst with
    | proceeds ha ha' _ _ hback =>
      rw [ha', ← ha] at hactive
      exact ih hactive (hback hearly) x hx hid
    | allocates _ ha' =>
      have hnext := Option.some.inj (ha'.symm.trans hactive)
      exact (hunallocated (le_of_eq hnext) x hx hid).elim
    | abandons _ _ ha' =>
      have hnext := Option.some.inj (ha'.symm.trans hactive)
      exact (hunallocated (le_of_eq hnext) x hx hid).elim
    | fails _ _ ha' =>
      rw [ha'] at hactive
      exact nomatch hactive
    | completes _ _ _ hphase' =>
      rw [hphase'] at hearly
      rcases hearly with he | he
      · exact nomatch he
      · exact nomatch he

/-- a committed state whose receipt is a success -/
def succeeds (s : ValidatorRuntimeState) : Bool :=
  decide (s.phase = some .committed) && receiptSucceeded (s.lastReceipt.getD [])

/-- the receipt of the latest completed epoch that succeeded -/
def latestSuccess (history : List ValidatorRuntimeState) : Option Obj :=
  (history.filter succeeds).getLast?.bind (·.lastReceipt)

theorem latestSuccess_snoc (history : List ValidatorRuntimeState) (t : ValidatorRuntimeState) :
    latestSuccess (history ++ [t]) =
      if succeeds t = true then t.lastReceipt else latestSuccess history := by
  unfold latestSuccess
  rw [List.filter_append]
  by_cases ht : succeeds t = true
  · rw [if_pos ht, List.filter_cons_of_pos ht, List.filter_nil, List.getLast?_concat]
    rfl
  · rw [if_neg ht, List.filter_cons_of_neg ht, List.filter_nil, List.append_nil]

theorem not_succeeds (h : t.phase ≠ some .committed) : succeeds t ≠ true := by
  unfold succeeds
  rw [decide_eq_false h, Bool.false_and]
  exact Bool.false_ne_true

/-- **The last successful receipt is that of the latest completed epoch that succeeded.** -/
theorem ledger_success (h : Ledger env history s) :
    s.lastSuccessfulWeightReceipt = latestSuccess history := by
  induction h with
  | start => rfl
  | @advance history s t h hst ih =>
    rw [latestSuccess_snoc]
    have hkept : t.phase ≠ some .committed →
        t.lastSuccessfulWeightReceipt = s.lastSuccessfulWeightReceipt →
        t.lastSuccessfulWeightReceipt = if succeeds t = true then t.lastReceipt
          else latestSuccess history := by
      intro hphase hsuccess
      rw [if_neg (not_succeeds hphase), hsuccess]
      exact ih
    cases h.entry hst with
    | proceeds _ _ _ hphase' _ _ _ _ hsuccess => exact hkept hphase' hsuccess
    | allocates _ _ hphase' _ _ _ hsuccess =>
      exact hkept (by rw [hphase']; exact fun he => nomatch he) hsuccess
    | abandons _ _ _ hphase' _ _ _ hsuccess =>
      exact hkept (by rw [hphase']; exact fun he => nomatch he) hsuccess
    | fails _ _ _ hphase' _ _ _ hsuccess =>
      exact hkept (by rw [hphase']; exact fun he => nomatch he) hsuccess
    | @completes e receipt _ _ _ hphase' _ _ _ hreceipt hsuccess =>
      have hiff : succeeds t = receiptSucceeded receipt := by
        unfold succeeds
        rw [hreceipt, decide_eq_true hphase', Bool.true_and]
        rfl
      rw [hsuccess, hiff, hreceipt, ih]

end

/-! ## lawful journals -/

section
variable {env : Env} {past events : List Event}

theorem stateOf_stateContent {t : ValidatorRuntimeState} (h : t.Valid) :
    stateOf env (some (stateContent t)) = .ok t.canon := stateOf_written env h

theorem persisted_wrote {t : ValidatorRuntimeState} (h : t.Valid) :
    Persisted env (archiveOf (past ++ [.wrote .state (stateContent t)])) t.canon := by
  unfold Persisted
  rw [archiveOf_wrote, Function.update_self]
  exact stateOf_stateContent h

theorem persistedStates_snoc (past : List Event) (e : Event) :
    persistedStates env (past ++ [e]) = persistedStates env past ++ statesWritten env [e] := by
  unfold persistedStates statesWritten
  rw [List.filterMap_append]
  rfl

theorem statesWritten_wrote {t : ValidatorRuntimeState} (h : t.Valid) :
    statesWritten env [.wrote .state (stateContent t)] = [t.canon] := by
  unfold statesWritten
  rw [List.filterMap_cons_some (b := t.canon)]
  · rfl
  · dsimp only
    rw [stateOf_stateContent h]
    rfl

/-- an event other than a write of the state -/
def Event.leavesState : Event → Prop
  | .wrote .state _ => False
  | _ => True

theorem stateWrite_of_not_leavesState {e : Event} (h : ¬ e.leavesState) : ∃ c, e = .wrote .state c := by
  cases e with
  | wrote p c =>
    cases p with
    | state => exact ⟨c, rfl⟩
    | minerState => exact (h trivial).elim
    | epoch => exact (h trivial).elim
  | verified => exact (h trivial).elim
  | setWeights => exact (h trivial).elim
  | tickEntered => exact (h trivial).elim
  | emaLoaded => exact (h trivial).elim
  | pipelineRan => exact (h trivial).elim

theorem Event.state_of_leavesState {e : Event} (h : e.leavesState) (files : Files) :
    e.apply files .state = files .state := by
  cases e with
  | wrote p c =>
    cases p with
    | state => exact h.elim
    | minerState =>
      show Function.update files .minerState (some c) .state = files .state
      exact Function.update_of_ne (by simp) _ _
    | epoch epochId file =>
      show Function.update files (.epoch epochId file) (some c) .state = files .state
      exact Function.update_of_ne (by simp) _ _
  | verified => rfl
  | setWeights => rfl
  | tickEntered => rfl
  | emaLoaded => rfl
  | pipelineRan => rfl

theorem statesWritten_of_leavesState {e : Event} (h : e.leavesState) :
    statesWritten env [e] = [] := by
  cases e with
  | wrote p c =>
    cases p with
    | state => exact h.elim
    | minerState => rfl
    | epoch => rfl
  | verified => rfl
  | setWeights => rfl
  | tickEntered => rfl
  | emaLoaded => rfl
  | pipelineRan => rfl

/-- **The states of a lawful journal are a history**, which ends in the persisted state. -/
theorem ledger_of_lawful (h : Lawful (LedgerLaw env) events) :
    ∃ s, Persisted env (archiveOf events) s ∧ Ledger env (persistedStates env events) s := by
  refine h.invariant (I := fun events => ∃ s, Persisted env (archiveOf events) s ∧
    Ledger env (persistedStates env events) s) ⟨{}, rfl, .start⟩ fun past e _ ih he => ?_
  obtain ⟨s, hs, hledger⟩ := ih
  rw [persistedStates_snoc]
  by_cases hstate : e.leavesState
  · refine ⟨s, ?_, ?_⟩
    · unfold Persisted
      rw [archiveOf_snoc, Event.state_of_leavesState hstate]
      exact hs
    · rw [statesWritten_of_leavesState hstate, List.append_nil]
      exact hledger
  · cases e with
    | wrote p c =>
      cases p with
      | state =>
        obtain ⟨s', t, hs', hfollows, hvalid, rfl⟩ := he
        obtain rfl : s = s' := Except.ok.inj (hs.symm.trans hs')
        refine ⟨t.canon, persisted_wrote hvalid, ?_⟩
        rw [statesWritten_wrote hvalid]
        exact .advance hledger ⟨_, t, hfollows, hvalid, rfl⟩
      | minerState => exact (hstate trivial).elim
      | epoch => exact (hstate trivial).elim
    | verified => exact (hstate trivial).elim
    | setWeights => exact (hstate trivial).elim
    | tickEntered => exact (hstate trivial).elim
    | emaLoaded => exact (hstate trivial).elim
    | pipelineRan => exact (hstate trivial).elim

end

end Dolores
