import Dolores.Epoch.History
import Dolores.Validator.Calls

/-!
# The law of whole ticks

Phase, attempt, receipt, marker and rolling state as one protocol: what a tick or a recovery may add
to the journal of an archive, and what every journal under that law has.

* `RunLaw`              the law, on top of the ledger's;
* `RunInv`              its invariant, kept by each event;
* `called_once`         `set_weights` is invoked at most once for an epoch;
* `committed_between`   an epoch whose weights were submitted is committed before the next call;
* `rolling_of_follows`  when the state is written, the rolling state is the snapshot it completes.
-/

namespace Dolores
open Crash Except Journal

/-! ## the law -/

/-- `set_weights` has been invoked for the epoch -/
def Called (past : List Event) (epochId : Int) : Prop :=
  ∃ uids weights versionKey, Event.setWeights epochId uids weights versionKey ∈ past

/-- the epoch is active, in this phase -/
def InPhase (env : Env) (files : Files) (epochId : Int) (phase : ValidatorPhase) : Prop :=
  ∃ s, Persisted env files s ∧ s.activeEpochId = some epochId ∧ s.phase = some phase

/-- the epoch is active and its weights are being submitted -/
abbrev Awaits (env : Env) (files : Files) (epochId : Int) : Prop :=
  InPhase env files epochId .weightsSubmitting

/-- an attempt that is not completed -/
def OpenAttempt (c : Content) : Prop :=
  ∃ record, c = .doc (.obj record) ∧
    ∃ status ∈ [AttemptStatus.started, .ambiguous], Obj.get record "status" = .str status.text

/-- one update of the moving averages -/
structure EmaUpdate where
  A : FloatOps
  epochScores : Dict String ℚ
  alpha : ℚ
  infraOnlyMiners : List String

def EmaUpdate.apply (u : EmaUpdate) (previous : Dict String ℚ) : Dict String ℚ :=
  updateEmaScores u.A previous u.epochScores u.alpha u.infraOnlyMiners

/-- the update that an epoch makes of its aggregated outcomes -/
def emaUpdate (A : FloatOps) (emaAlpha : ℚ) (quota : Int) (g : Aggregate) : EmaUpdate :=
  ⟨A, topKEpochScores A g.minerValues quota, emaAlpha, infraOnlyMiners g.minerStatuses⟩

/-- which update an epoch makes that loads the moving averages after these events -/
abbrev OwnUpdates := List Event → Int → EmaUpdate → Prop

/-- the epoch's own update of the moving averages that it has loaded -/
def EmaUpdated (env : Env) (Own : OwnUpdates) (past : List Event) (epochId : Int) (c : Content) :
    Prop :=
  ∃ loaded rolling since update previous,
    past = loaded ++ .emaLoaded epochId rolling :: since ∧ Own loaded epochId update ∧
    minerStateOf env rolling = .ok previous ∧
    c = .doc (.obj (scoresRecord (update.apply previous)))

/-- what is written to a file of an epoch whose weights are being submitted -/
def EpochWrite (env : Env) (Own : OwnUpdates) (past : List Event) (epochId : Int) :
    EpochFile → Content → Prop
  | .chainAttempt, c => Called past epochId → OpenAttempt c ∨
      ∃ receipt, archiveOf past (.epoch epochId .chainReceipt) = some receipt ∧
        SubmittedReceipt receipt
  | .chainReceipt, c => Called past epochId → SubmittedReceipt c
  | .minerState, c => EmaUpdated env Own past epochId c
  | _, _ => True

/-- what a tick or a recovery may do next -/
def RunLaw (env : Env) (Own : OwnUpdates) (past : List Event) : Event → Prop
  | .wrote .state c => ∃ s t, Persisted env (archiveOf past) s ∧ Follows env (archiveOf past) s t ∧
      MarkerGuard (archiveOf past) s t ∧ t.Valid ∧ c = stateContent t
  | .wrote .minerState _ => ∃ epochId, Awaits env (archiveOf past) epochId ∧
      (archiveOf past (.epoch epochId .completion)).isSome
  | .wrote (.epoch epochId file) c => Awaits env (archiveOf past) epochId ∧
      EpochWrite env Own past epochId file c
  | .setWeights epochId _ _ _ => Awaits env (archiveOf past) epochId ∧ ¬ Called past epochId ∧
      ∃ attempt, archiveOf past (.epoch epochId .chainAttempt) = some attempt ∧ OpenAttempt attempt
  | .emaLoaded epochId rolling => rolling = archiveOf past .minerState ∧
      InPhase env (archiveOf past) epochId .evaluating
  | .tickEntered epochId => InPhase env (archiveOf past) epochId .allocated
  | _ => True

theorem RunLaw.mono {env : Env} {Own Own' : OwnUpdates} {past : List Event} {e : Event}
    (hown : ∀ loaded epochId update, Own loaded epochId update → Own' loaded epochId update)
    (h : RunLaw env Own past e) : RunLaw env Own' past e := by
  cases e with
  | wrote p c =>
    cases p with
    | state => exact h
    | minerState => exact h
    | epoch id file =>
      refine ⟨h.1, ?_⟩
      cases file with
      | minerState =>
        obtain ⟨loaded, rolling, since, update, previous, hpast, howned, hrest⟩ := h.2
        exact ⟨loaded, rolling, since, update, previous, hpast, hown _ _ _ howned, hrest⟩
      | weights => trivial
      | panelSidecar => trivial
      | chainReceipt => exact h.2
      | chainAttempt => exact h.2
      | completion => trivial
  | verified => trivial
  | setWeights => exact h
  | tickEntered => exact h
  | emaLoaded => exact h
  | pipelineRan => trivial

theorem runLaw_store (env : Env) (Own : OwnUpdates) : StoreLaw env (RunLaw env Own) where
  ledger past e h := by
    cases e with
    | wrote p c =>
      cases p with
      | state =>
        obtain ⟨s, t, hs, hfollows, _, hvalid, hc⟩ := h
        exact ⟨s, t, hs, hfollows, hvalid, hc⟩
      | minerState => trivial
      | epoch => trivial
    | tickEntered => exact h
    | verified => trivial
    | setWeights => trivial
    | emaLoaded => trivial
    | pipelineRan => trivial
  advance hs hfollows hvalid hguard := ⟨_, _, hs, hfollows, hguard, hvalid, rfl⟩
  entered hs hactive hphase := ⟨_, hs, hactive, hphase⟩
  verified _ _ _ := trivial
  rolling hs hactive hphase hverified :=
    ⟨_, ⟨_, hs, hactive, hphase⟩, marker_of_verified hverified⟩

/-! ## the invariant -/

/-- nothing was written or submitted for the epoch -/
def Untouched (past : List Event) (epochId : Int) : Prop :=
  (∀ file, archiveOf past (.epoch epochId file) = none) ∧ ¬ Called past epochId

def BeforeWeights (phase : Option ValidatorPhase) : Prop :=
  Early phase ∨ phase = some .evaluating

/-- the epoch is not allocated yet, or it is the active one before its weights -/
def NotSubmitted (s : ValidatorRuntimeState) (epochId : Int) : Prop :=
  s.nextEpochId ≤ epochId ∨ s.activeEpochId = some epochId ∧ BeforeWeights s.phase

/-- the attempt is there, and neither it nor the receipt lets the epoch be given up -/
def Sealed (files : Files) (epochId : Int) : Prop :=
  ∃ attempt, files (.epoch epochId .chainAttempt) = some attempt ∧
    (OpenAttempt attempt ∨ ∃ receipt, files (.epoch epochId .chainReceipt) = some receipt ∧
      SubmittedReceipt receipt)

/-- the snapshot of the last completed epoch -/
def committedSnapshot (files : Files) (s : ValidatorRuntimeState) : Option Content :=
  s.lastCompletedEpoch.bind fun epochId => files (.epoch epochId .minerState)

/-- a marker is there that was not committed yet -/
def Pending (files : Files) (s : ValidatorRuntimeState) : Prop :=
  ∃ epochId, s.activeEpochId = some epochId ∧ s.phase = some .weightsSubmitting ∧
    (files (.epoch epochId .completion)).isSome

structure RunInv (past : List Event) (s : ValidatorRuntimeState) : Prop where
  untouched : ∀ epochId, NotSubmitted s epochId → Untouched past epochId
  sealed : ∀ epochId, s.activeEpochId = some epochId → s.phase = some .weightsSubmitting →
    Called past epochId → Sealed (archiveOf past) epochId
  rolling : Pending (archiveOf past) s ∨
    archiveOf past .minerState = committedSnapshot (archiveOf past) s
  snapshots : ∀ epochId c, archiveOf past (.epoch epochId .minerState) = some c →
    ∃ scores, c = .doc (.obj (scoresRecord scores))

section
variable {env : Env} {Own : OwnUpdates} {past : List Event} {epochId : Int} {e : Event}

theorem called_snoc_iff : Called (past ++ [e]) epochId ↔ Called past epochId ∨
    ∃ uids weights versionKey, e = .setWeights epochId uids weights versionKey := by
  constructor
  · intro h
    obtain ⟨uids, weights, versionKey, hmem⟩ := h
    rcases List.mem_append.mp hmem with hmem | hmem
    · exact .inl ⟨uids, weights, versionKey, hmem⟩
    · exact .inr ⟨uids, weights, versionKey, (List.mem_singleton.mp hmem).symm⟩
  · intro h
    rcases h with ⟨uids, weights, versionKey, hmem⟩ | ⟨uids, weights, versionKey, he⟩
    · exact ⟨uids, weights, versionKey, List.mem_append_left _ hmem⟩
    · exact ⟨uids, weights, versionKey, by
        rw [he]
        exact List.mem_append_right _ (List.mem_singleton_self _)⟩

theorem called_snoc_of_not_call (h : ¬ e.isCall) :
    Called (past ++ [e]) epochId ↔ Called past epochId := by
  rw [called_snoc_iff]
  refine or_iff_left ?_
  intro he
  obtain ⟨uids, weights, versionKey, he⟩ := he
  rw [he] at h
  exact h trivial

theorem Untouched.congr {past' : List Event} (h : Untouched past epochId)
    (hfiles : ∀ file, archiveOf past' (.epoch epochId file) = archiveOf past (.epoch epochId file))
    (hcalled : Called past' epochId → Called past epochId) : Untouched past' epochId :=
  ⟨fun file => (hfiles file).trans (h.1 file), fun hc => h.2 (hcalled hc)⟩

theorem Sealed.congr {files files' : Files} (h : Sealed files epochId)
    (hfiles : ∀ file, files' (.epoch epochId file) = files (.epoch epochId file)) :
    Sealed files' epochId := by
  unfold Sealed at h ⊢
  rw [hfiles, hfiles]
  exact h

/-- an epoch whose attempt is sealed cannot be given up -/
theorem Sealed.not_released {files : Files} (h : Sealed files epochId) :
    ¬ Released env files epochId := by
  obtain ⟨attempt, hattempt, hsealed⟩ := h
  intro hreleased
  rcases hreleased with hnone | ⟨hcheck, receipt, hreceipt, hdefinite⟩
  · rw [hattempt] at hnone
    exact nomatch hnone
  · rcases hsealed with ⟨record, rfl, status, hstatus, hrecorded⟩ | ⟨c, hc, record, rfl, hmode⟩
    · have hpresent : files (.epoch epochId .chainAttempt) ≠ none := by
        rw [hattempt]
        exact Option.some_ne_none _
      obtain ⟨record', hholds, _, _, hcompleted⟩ := attemptAgrees_of_checkAttempt hcheck hpresent
      unfold Holds at hholds
      rw [hattempt] at hholds
      obtain rfl := Json.obj.inj (Decoded.value.inj (Option.some.inj hholds))
      have htext : status.text = "completed" :=
        Json.str.inj (hrecorded.symm.trans hcompleted)
      rcases List.mem_cons.mp hstatus with rfl | hstatus
      · exact absurd htext (by decide)
      · rw [List.mem_singleton.mp hstatus] at htext
        exact absurd htext (by decide)
    · have hholds := holds_of_loadStateObject hreceipt
      unfold Holds at hholds
      rw [hc] at hholds
      obtain rfl := Json.obj.inj (Decoded.value.inj (Option.some.inj hholds))
      have hsubmitted : (Obj.get record "mode").inNames ["dry_run", "skipped", "error"] =
          .ok false := by
        rw [hmode]
        rfl
      exact nomatch hsubmitted.symm.trans hdefinite

/-! ## each event keeps the invariant -/

theorem archiveOf_wrote_ne {p q : Path} (h : q ≠ p) (c : Content) :
    archiveOf (past ++ [.wrote p c]) q = archiveOf past q := by
  rw [archiveOf_wrote, Function.update_of_ne h]

theorem archiveOf_wrote_self (p : Path) (c : Content) :
    archiveOf (past ++ [.wrote p c]) p = some c := by
  rw [archiveOf_wrote, Function.update_self]

/-- an event that changes neither the files nor what was called -/
theorem RunInv.of_writesNothing {s : ValidatorRuntimeState} (h : RunInv past s)
    (he : e.writesNothing) (hcall : ¬ e.isCall) : RunInv (past ++ [e]) s := by
  have hfiles : archiveOf (past ++ [e]) = archiveOf past := by
    rw [archiveOf_snoc, Event.apply_of_writesNothing he]
  refine ⟨fun id hid => ?_, fun id hactive hphase hcalled => ?_, ?_, ?_⟩
  · exact (h.untouched id hid).congr (fun _ => by rw [hfiles])
      (called_snoc_of_not_call hcall).mp
  · rw [hfiles]
    exact h.sealed id hactive hphase ((called_snoc_of_not_call hcall).mp hcalled)
  · rw [hfiles]
    exact h.rolling
  · rw [hfiles]
    exact h.snapshots

/-- while the weights of an epoch are submitted, what is untouched belongs to other epochs -/
theorem RunInv.other {s : ValidatorRuntimeState} (hvalid : s.Valid)
    (hactive : s.activeEpochId = some epochId) (hphase : s.phase = some .weightsSubmitting)
    {other : Int} (h : s.nextEpochId ≤ other ∨
      s.activeEpochId = some other ∧ BeforeWeights s.phase) : other ≠ epochId := by
  rcases h with h | ⟨_, h⟩
  · have hlt := (hvalid.active epochId hactive).2.1
    omega
  · rw [hphase] at h
    rcases h with (h | h) | h
    · exact nomatch h
    · exact nomatch h
    · exact nomatch h

theorem RunInv.setWeights {s : ValidatorRuntimeState} (hvalid : s.Valid) (h : RunInv past s)
    (hactive : s.activeEpochId = some epochId) (hphase : s.phase = some .weightsSubmitting)
    (hattempt : ∃ attempt, archiveOf past (.epoch epochId .chainAttempt) = some attempt ∧
      OpenAttempt attempt) (uids weights : List Int) (versionKey : Int) :
    RunInv (past ++ [.setWeights epochId uids weights versionKey]) s := by
  have hfiles : archiveOf (past ++ [.setWeights epochId uids weights versionKey]) =
      archiveOf past := archiveOf_snoc past _
  refine ⟨fun id hid => ?_, fun id hid _ _ => ?_, ?_, ?_⟩
  · have hne := RunInv.other hvalid hactive hphase hid
    refine (h.untouched id hid).congr (fun _ => by rw [hfiles]) fun hcalled => ?_
    rcases called_snoc_iff.mp hcalled with hold | ⟨_, _, _, hnew⟩
    · exact hold
    · exact (hne (Event.setWeights.inj hnew).1.symm).elim
  · obtain rfl := Option.some.inj (hactive.symm.trans hid)
    obtain ⟨attempt, hfile, hopen⟩ := hattempt
    rw [hfiles]
    exact ⟨attempt, hfile, .inl hopen⟩
  · rw [hfiles]
    exact h.rolling
  · rw [hfiles]
    exact h.snapshots

/-- the rolling state is only written while a marker is pending -/
theorem RunInv.wroteMinerState {s : ValidatorRuntimeState} (h : RunInv past s)
    (hpending : Pending (archiveOf past) s) (c : Content) :
    RunInv (past ++ [.wrote .minerState c]) s := by
  have hfiles : ∀ id file, archiveOf (past ++ [.wrote .minerState c]) (.epoch id file) =
      archiveOf past (.epoch id file) := fun id file => archiveOf_wrote_ne (by simp) c
  have hcalled : ∀ id, Called (past ++ [.wrote .minerState c]) id → Called past id :=
    fun _ => (called_snoc_of_not_call id).mp
  refine ⟨fun id hid => (h.untouched id hid).congr (hfiles id) (hcalled id),
    fun id hactive hphase hc => (h.sealed id hactive hphase (hcalled id hc)).congr (hfiles id),
    .inl ?_, fun id c' hc' => h.snapshots id c' ((hfiles id _).symm.trans hc')⟩
  obtain ⟨id, hactive, hphase, hmarker⟩ := hpending
  refine ⟨id, hactive, hphase, ?_⟩
  rw [hfiles]
  exact hmarker

theorem RunInv.wroteEpoch {s : ValidatorRuntimeState} (hvalid : s.Valid)
    (holder : ∀ done, s.lastCompletedEpoch = some done → done < epochId) (h : RunInv past s)
    (hactive : s.activeEpochId = some epochId) (hphase : s.phase = some .weightsSubmitting)
    {file : EpochFile} {c : Content} (hwrite : EpochWrite env Own past epochId file c) :
    RunInv (past ++ [.wrote (.epoch epochId file) c]) s := by
  have hother : ∀ {id : Int}, id ≠ epochId → ∀ file',
      archiveOf (past ++ [.wrote (.epoch epochId file) c]) (.epoch id file') =
        archiveOf past (.epoch id file') := by
    intro id hne file'
    exact archiveOf_wrote_ne (fun he => hne (Path.epoch.inj he).1) c
  have hfile : ∀ {file'}, file' ≠ file →
      archiveOf (past ++ [.wrote (.epoch epochId file) c]) (.epoch epochId file') =
        archiveOf past (.epoch epochId file') := by
    intro file' hne
    exact archiveOf_wrote_ne (fun he => hne (Path.epoch.inj he).2) c
  have hcalled : ∀ {id}, Called (past ++ [.wrote (.epoch epochId file) c]) id → Called past id :=
    (called_snoc_of_not_call id).mp
  refine ⟨fun id hid => ?_, fun id hid _ hc => ?_, ?_, fun id c' hc' => ?_⟩
  · exact (h.untouched id hid).congr (hother (RunInv.other hvalid hactive hphase hid)) hcalled
  · obtain rfl := Option.some.inj (hactive.symm.trans hid)
    have hpast := hcalled hc
    obtain ⟨attempt, hattempt, hsealed⟩ := h.sealed epochId hid hphase hpast
    by_cases hfa : file = .chainAttempt
    · -- a later attempt is still open, or the receipt says that it was submitted
      subst hfa
      refine ⟨c, archiveOf_wrote_self _ c, ?_⟩
      rcases hwrite hpast with hopen | ⟨receipt, hreceipt, hsubmitted⟩
      · exact .inl hopen
      · exact .inr ⟨receipt, (hfile (by decide)).trans hreceipt, hsubmitted⟩
    · refine ⟨attempt, (hfile (Ne.symm hfa)).trans hattempt, ?_⟩
      by_cases hfr : file = .chainReceipt
      · subst hfr
        exact .inr ⟨c, archiveOf_wrote_self _ c, hwrite hpast⟩
      · rw [hfile (Ne.symm hfr)]
        exact hsealed
  · rcases h.rolling with ⟨id, hid, hp, hmarker⟩ | hrolling
    · obtain rfl := Option.some.inj (hactive.symm.trans hid)
      refine .inl ⟨epochId, hid, hp, ?_⟩
      by_cases hfc : file = .completion
      · subst hfc
        rw [archiveOf_wrote_self]
        rfl
      · rw [hfile (Ne.symm hfc)]
        exact hmarker
    · refine .inr ?_
      have hminer : archiveOf (past ++ [.wrote (.epoch epochId file) c]) .minerState =
          archiveOf past .minerState := archiveOf_wrote_ne (by simp) c
      rw [hminer, hrolling]
      unfold committedSnapshot
      cases hdone : s.lastCompletedEpoch with
      | none => rfl
      | some done =>
        have hlt := holder done hdone
        exact (hother (by omega) .minerState).symm
  · by_cases hid : id = epochId
    · subst hid
      by_cases hfm : file = .minerState
      · subst hfm
        rw [archiveOf_wrote_self] at hc'
        obtain ⟨_, _, _, _, _, _, _, _, hupdated⟩ := hwrite
        exact ⟨_, (Option.some.inj hc').symm.trans hupdated⟩
      · rw [hfile (Ne.symm hfm)] at hc'
        exact h.snapshots id c' hc'
    · rw [hother hid] at hc'
      exact h.snapshots id c' hc'

/-- the snapshot of a verified epoch is what the commit makes the rolling state -/
theorem RunInv.snapshot {s : ValidatorRuntimeState} (h : RunInv past s) {v : VerifiedCompletion}
    (hverified : verifyEpochCompletion env (archiveOf past) epochId = .ok v)
    (hattempt : checkAttempt env (archiveOf past) epochId = .ok ()) :
    archiveOf past (.epoch epochId .minerState) =
      some (.doc (Json.canon (.obj v.minerState))) := by
  have hholds := (completedTogether_of_verified hverified hattempt).snapshot
  unfold Holds at hholds
  cases hfile : archiveOf past (.epoch epochId .minerState) with
  | none =>
    rw [hfile] at hholds
    exact nomatch hholds
  | some c =>
    obtain ⟨scores, rfl⟩ := h.snapshots epochId c hfile
    rw [hfile] at hholds
    have hscores : scoresRecord scores = v.minerState :=
      Json.obj.inj (Decoded.value.inj (Option.some.inj hholds))
    rw [← hscores, Json.canon_obj', canon_scoresRecord]

/-- a write of the state commits the active epoch, or leaves what was completed -/
theorem Follows.commits_or_keeps {files : Files} {s t : ValidatorRuntimeState}
    (h : Follows env files s t) :
    (∃ id v, s.activeEpochId = some id ∧ t.activeEpochId = some id ∧
      t.lastCompletedEpoch = some id ∧ t.phase = some .committed ∧
      t.nextEpochId = s.nextEpochId ∧ s.phase = some .weightsSubmitting ∧
      checkAttempt env files id = .ok () ∧ verifyEpochCompletion env files id = .ok v ∧
      files .minerState = some (.doc (Json.canon (.obj v.minerState)))) ∨
    t.lastCompletedEpoch = s.lastCompletedEpoch ∧ t.phase ≠ some .committed := by
  cases h with
  | @committed id v updatedAt hphase hactive hattempt hverified hrolling =>
    exact .inl ⟨id, v, hactive, hactive, rfl, rfl, rfl, hphase, hattempt, hverified, hrolling⟩
  | @moved current phase updatedAt hphase hallowed hne =>
    exact .inr ⟨rfl, fun he => hne (Option.some.inj he)⟩
  | retried => exact .inr ⟨rfl, fun he => nomatch he⟩
  | allocated => exact .inr ⟨rfl, fun he => nomatch he⟩
  | abandoned => exact .inr ⟨rfl, fun he => nomatch he⟩
  | evaluationFailed => exact .inr ⟨rfl, fun he => nomatch he⟩
  | weightsFailed => exact .inr ⟨rfl, fun he => nomatch he⟩

theorem beforeWeights_of_allowed {current phase : ValidatorPhase}
    (hallowed : phase ∈ current.allowed) (hne : phase ≠ .committed) :
    BeforeWeights (some current) := by
  cases current with
  | allocated => exact .inl (.inl rfl)
  | querying => exact .inl (.inr rfl)
  | evaluating => exact .inr rfl
  | weightsSubmitting => exact (hne (List.mem_singleton.mp hallowed)).elim
  | committed => exact (List.not_mem_nil hallowed).elim

/-- an epoch that is not submitted after a write of the state was not submitted before it -/
theorem Follows.notSubmitted {files : Files} {s t : ValidatorRuntimeState}
    (h : Follows env files s t) (ht : NotSubmitted t epochId) : NotSubmitted s epochId := by
  have hnext : s.nextEpochId + 1 ≤ epochId ∨ some s.nextEpochId = some epochId →
      NotSubmitted s epochId := by
    intro hid
    rcases hid with hid | hid
    · exact .inl (by omega)
    · exact .inl (le_of_eq (Option.some.inj hid))
  cases h with
  | retried updatedAt hphase => exact ht.imp_right fun ht => ⟨ht.1, .inl hphase⟩
  | allocated => exact hnext (ht.imp_right And.left)
  | abandoned => exact hnext (ht.imp_right And.left)
  | @moved current phase updatedAt hphase hallowed hne =>
    refine ht.imp_right fun ht => ⟨ht.1, ?_⟩
    rw [hphase]
    exact beforeWeights_of_allowed hallowed hne
  | evaluationFailed => exact ht.imp_right fun ht => nomatch ht.1
  | weightsFailed => exact ht.imp_right fun ht => nomatch ht.1
  | committed =>
    rcases ht with ht | ⟨_, (hp | hp) | hp⟩
    · exact .inl ht
    · exact nomatch hp
    · exact nomatch hp
    · exact nomatch hp

/-- an epoch that begins to submit was not submitted before -/
theorem Follows.begins {files : Files} {s t : ValidatorRuntimeState} (h : Follows env files s t)
    (hactive : t.activeEpochId = some epochId) (hphase : t.phase = some .weightsSubmitting) :
    NotSubmitted s epochId := by
  cases h with
  | @moved current phase updatedAt hcurrent hallowed hne =>
    refine .inr ⟨hactive, ?_⟩
    rw [hcurrent]
    exact beforeWeights_of_allowed hallowed hne
  | retried => exact nomatch hphase
  | allocated => exact nomatch hphase
  | abandoned => exact nomatch hphase
  | evaluationFailed => exact nomatch hphase
  | weightsFailed => exact nomatch hphase
  | committed => exact nomatch hphase

/-- when the state is written, the rolling state is the snapshot of the epoch completed last -/
theorem RunInv.rolling_of_follows {s t : ValidatorRuntimeState} (h : RunInv past s)
    (hfollows : Follows env (archiveOf past) s t) (hguard : MarkerGuard (archiveOf past) s t) :
    archiveOf past .minerState = committedSnapshot (archiveOf past) t := by
  unfold committedSnapshot
  rcases hfollows.commits_or_keeps with
    ⟨id, v, _, _, hdone, _, _, _, hattempt, hverified, hrolling⟩ | ⟨hdone, hphase⟩
  · rw [hdone, Option.bind_some, hrolling, h.snapshot hverified hattempt]
  · rw [hdone]
    refine h.rolling.resolve_left fun hpending => ?_
    obtain ⟨id, hactive, hsubmitting, hmarker⟩ := hpending
    rw [hguard id hactive hsubmitting hphase] at hmarker
    exact nomatch hmarker

theorem RunInv.wroteState {s t : ValidatorRuntimeState} (h : RunInv past s)
    (hfollows : Follows env (archiveOf past) s t) (hguard : MarkerGuard (archiveOf past) s t) :
    RunInv (past ++ [.wrote .state (stateContent t)]) t.canon := by
  have hfiles : ∀ {p : Path}, p ≠ .state →
      archiveOf (past ++ [.wrote .state (stateContent t)]) p = archiveOf past p :=
    fun hp => archiveOf_wrote_ne hp _
  have hepoch : ∀ id file, archiveOf (past ++ [.wrote .state (stateContent t)]) (.epoch id file) =
      archiveOf past (.epoch id file) := fun id file => hfiles (by simp)
  have hcalled : ∀ {id}, Called (past ++ [.wrote .state (stateContent t)]) id → Called past id :=
    (called_snoc_of_not_call id).mp
  refine ⟨fun id hid => ?_, fun id hactive hphase hc => ?_, .inr ?_, fun id c hc => ?_⟩
  · exact (h.untouched id (hfollows.notSubmitted hid)).congr (hepoch id) hcalled
  · exact ((h.untouched id (hfollows.begins hactive hphase)).2 (hcalled hc)).elim
  · rw [hfiles (by simp), h.rolling_of_follows hfollows hguard]
    unfold committedSnapshot
    exact congrArg _ (funext fun id => (hepoch id .minerState).symm)
  · exact h.snapshots id c ((hepoch id _).symm.trans hc)

/-- **Every lawful journal has the invariant.** -/
theorem runInv_of_lawful (h : Lawful (RunLaw env Own) past) :
    ∃ s, Persisted env (archiveOf past) s ∧ Ledger env (persistedStates env past) s ∧
      RunInv past s := by
  have hledger : ∀ {past}, Lawful (RunLaw env Own) past →
      ∃ s, Persisted env (archiveOf past) s ∧ Ledger env (persistedStates env past) s :=
    fun h => ledger_of_lawful (h.mono (runLaw_store env Own).ledger)
  suffices hinv : ∀ s, Persisted env (archiveOf past) s → RunInv past s by
    obtain ⟨s, hs, hl⟩ := hledger h
    exact ⟨s, hs, hl, hinv s hs⟩
  refine h.invariant (I := fun past => ∀ s, Persisted env (archiveOf past) s → RunInv past s)
    ?_ fun past e hpast ih he => ?_
  · intro s hs
    obtain rfl : {} = s := Except.ok.inj hs
    refine ⟨fun _ _ => ⟨fun _ => rfl, ?_⟩, ?_, .inr rfl, ?_⟩
    rotate_left
    · intro _ _ hphase
      exact nomatch hphase
    · intro _ _ hc
      exact nomatch hc
    intro hcalled
    obtain ⟨_, _, _, hmem⟩ := hcalled
    exact List.not_mem_nil hmem
  · obtain ⟨s, hs, hl⟩ := hledger hpast
    have hold := ih s hs
    intro t ht
    -- an event that is not a write of the state leaves the state
    have hsame : e.leavesState → t = s := by
      intro hleaves
      unfold Persisted at ht
      rw [archiveOf_snoc, Event.state_of_leavesState hleaves] at ht
      exact Except.ok.inj (ht.symm.trans hs)
    have hawaits : ∀ {id : Int}, Awaits env (archiveOf past) id →
        s.activeEpochId = some id ∧ s.phase = some .weightsSubmitting := by
      intro id hawaits
      obtain ⟨s', hs', hactive, hphase⟩ := hawaits
      obtain rfl : s' = s := Except.ok.inj (hs'.symm.trans hs)
      exact ⟨hactive, hphase⟩
    have holder : ∀ {id : Int}, s.activeEpochId = some id → s.phase = some .weightsSubmitting →
        ∀ done, s.lastCompletedEpoch = some done → done < id := by
      intro id hactive hphase done hdone
      refine (ledger_lastCompleted hl done hdone).2 id hactive ?_
      rw [hphase]
      exact fun he => nomatch he
    cases e with
    | wrote p c =>
      cases p with
      | state =>
        obtain ⟨s', written, hs', hfollows, hguard, hvalid, rfl⟩ := he
        obtain rfl : s' = s := Except.ok.inj (hs'.symm.trans hs)
        obtain rfl : written.canon = t := Except.ok.inj ((persisted_wrote hvalid).symm.trans ht)
        exact hold.wroteState hfollows hguard
      | minerState =>
        obtain ⟨id, hwaits, hmarker⟩ := he
        obtain ⟨hactive, hphase⟩ := hawaits hwaits
        rw [hsame trivial]
        exact hold.wroteMinerState ⟨id, hactive, hphase, hmarker⟩ c
      | epoch id file =>
        obtain ⟨hwaits, hwrite⟩ := he
        obtain ⟨hactive, hphase⟩ := hawaits hwaits
        rw [hsame trivial]
        exact hold.wroteEpoch hl.valid.1 (holder hactive hphase) hactive hphase hwrite
    | setWeights id uids weights versionKey =>
      obtain ⟨hwaits, _, hattempt⟩ := he
      obtain ⟨hactive, hphase⟩ := hawaits hwaits
      rw [hsame trivial]
      exact hold.setWeights hl.valid.1 hactive hphase hattempt uids weights versionKey
    | verified => exact hsame trivial ▸ hold.of_writesNothing trivial id
    | tickEntered => exact hsame trivial ▸ hold.of_writesNothing trivial id
    | emaLoaded => exact hsame trivial ▸ hold.of_writesNothing trivial id
    | pipelineRan => exact hsame trivial ▸ hold.of_writesNothing trivial id

/-! ## submissions -/

/-- the event is a call of `set_weights` for the epoch -/
def Event.callsFor (epochId : Int) : Event → Bool
  | .setWeights id _ _ _ => decide (id = epochId)
  | _ => false

theorem called_of_callsFor (h : e.callsFor epochId = true) (hmem : e ∈ past) :
    Called past epochId := by
  cases e with
  | setWeights id uids weights versionKey =>
    obtain rfl : id = epochId := of_decide_eq_true h
    exact ⟨uids, weights, versionKey, hmem⟩
  | wrote => exact nomatch h
  | verified => exact nomatch h
  | tickEntered => exact nomatch h
  | emaLoaded => exact nomatch h
  | pipelineRan => exact nomatch h

/-- **At most one call for each epoch.** -/
theorem called_once (h : Lawful (RunLaw env Own) past) (epochId : Int) :
    past.countP (Event.callsFor epochId) ≤ 1 := by
  refine h.invariant (I := fun past => past.countP (Event.callsFor epochId) ≤ 1)
    (Nat.zero_le 1) fun past e _ ih he => ?_
  rw [List.countP_append, List.countP_singleton]
  by_cases hcalls : e.callsFor epochId = true
  · have hnone : past.countP (Event.callsFor epochId) = 0 := by
      rw [List.countP_eq_zero]
      intro x hx hxcalls
      have hcalled := called_of_callsFor hxcalls hx
      cases e with
      | setWeights id uids weights versionKey =>
        obtain rfl : id = epochId := of_decide_eq_true hcalls
        exact he.2.1 hcalled
      | wrote => exact nomatch hcalls
      | verified => exact nomatch hcalls
      | tickEntered => exact nomatch hcalls
      | emaLoaded => exact nomatch hcalls
      | pipelineRan => exact nomatch hcalls
    rw [if_pos hcalls, hnone]
  · rw [if_neg hcalls]
    exact ih

/-- the event writes the state of the epoch as committed -/
def Event.commits (env : Env) (epochId : Int) : Event → Prop
  | .wrote .state c => ∃ s, stateOf env (some c) = .ok s ∧ s.activeEpochId = some epochId ∧
      s.phase = some .committed
  | _ => False

/-- among the events after `past`, the epoch is committed, with an accepted marker -/
def CommittedIn (env : Env) (past : List Event) (epochId : Int) (after : List Event) : Prop :=
  ∃ before e rest v, after = before ++ e :: rest ∧ e.commits env epochId ∧
    verifyEpochCompletion env (archiveOf (past ++ before)) epochId = .ok v

theorem CommittedIn.snoc {after : List Event} (h : CommittedIn env past epochId after) (e : Event) :
    CommittedIn env past epochId (after ++ [e]) := by
  obtain ⟨before, e', rest, v, rfl, hcommits, hv⟩ := h
  exact ⟨before, e', rest ++ [e], v, by rw [List.append_assoc]; rfl, hcommits, hv⟩

/-- until it is committed, an epoch that was called stays the active one -/
theorem call_pending {after : List Event} (hcall : Called past epochId)
    (hwaits : Awaits env (archiveOf past) epochId) (h : Lawful (RunLaw env Own) (past ++ after)) :
    CommittedIn env past epochId after ∨ Awaits env (archiveOf (past ++ after)) epochId := by
  induction after using List.reverseRecOn with
  | nil =>
    rw [List.append_nil]
    exact .inr hwaits
  | append_singleton after e ih =>
    rw [← List.append_assoc] at h ⊢
    obtain ⟨hlawful, he⟩ := h.last
    rcases ih hlawful with hdone | hstill
    · exact .inl (hdone.snoc e)
    obtain ⟨s, hs, hactive, hphase⟩ := hstill
    by_cases hleaves : e.leavesState
    · refine .inr ⟨s, ?_, hactive, hphase⟩
      unfold Persisted
      rw [archiveOf_snoc, Event.state_of_leavesState hleaves]
      exact hs
    obtain ⟨s', hs', _, hinv⟩ := runInv_of_lawful hlawful
    obtain rfl : s' = s := Except.ok.inj (hs'.symm.trans hs)
    have hcalled : Called (past ++ after) epochId := by
      obtain ⟨uids, weights, versionKey, hmem⟩ := hcall
      exact ⟨uids, weights, versionKey, List.mem_append_left _ hmem⟩
    have hsealed := hinv.sealed epochId hactive hphase hcalled
    -- the rules that leave a submission need a marker, or an epoch that is not sealed
    have hstep : ∀ c, RunLaw env Own (past ++ after) (.wrote .state c) →
        CommittedIn env past epochId (after ++ [.wrote .state c]) := by
      intro c hc
      obtain ⟨s'', t, hs'', hfollows, _, hvalid, rfl⟩ := hc
      obtain rfl : s'' = s' := Except.ok.inj (hs''.symm.trans hs)
      cases hfollows with
      | @committed id v updatedAt _ hactive' hattempt hverified hrolling =>
        obtain rfl := Option.some.inj (hactive.symm.trans hactive')
        exact ⟨after, _, [], v, rfl, ⟨_, stateOf_stateContent hvalid, hactive, rfl⟩, hverified⟩
      | @weightsFailed id detail updatedAt _ hactive' hreleased =>
        obtain rfl := Option.some.inj (hactive.symm.trans hactive')
        exact (hsealed.not_released hreleased).elim
      | retried updatedAt hearly =>
        rw [hphase] at hearly
        rcases hearly with hp | hp
        · exact nomatch hp
        · exact nomatch hp
      | allocated updatedAt hp =>
        rw [hphase] at hp
        rcases hp with hp | hp
        · exact nomatch hp
        · exact nomatch hp
      | abandoned updatedAt hp => exact nomatch hphase.symm.trans hp
      | @moved current phase updatedAt hp hallowed hne =>
        rw [← Option.some.inj (hphase.symm.trans hp)] at hallowed
        exact (hne (List.mem_singleton.mp hallowed)).elim
      | evaluationFailed detail updatedAt hp => exact nomatch hphase.symm.trans hp
    cases e with
    | wrote p c =>
      cases p with
      | state => exact .inl (hstep c he)
      | minerState => exact (hleaves trivial).elim
      | epoch => exact (hleaves trivial).elim
    | verified => exact (hleaves trivial).elim
    | setWeights => exact (hleaves trivial).elim
    | tickEntered => exact (hleaves trivial).elim
    | emaLoaded => exact (hleaves trivial).elim
    | pipelineRan => exact (hleaves trivial).elim

/-- at a call its epoch is submitting, and it stays so until it is committed -/
theorem awaits_of_call {before after : List Event} {uids weights : List Int} {versionKey : Int}
    (h : Lawful (RunLaw env Own) (before ++ .setWeights epochId uids weights versionKey :: after)) :
    CommittedIn env (before ++ [.setWeights epochId uids weights versionKey]) epochId after ∨
      Awaits env (archiveOf (before ++ .setWeights epochId uids weights versionKey :: after))
        epochId := by
  have hcall := h.at.1
  rw [List.append_cons before _ after] at h ⊢
  refine call_pending ⟨uids, weights, versionKey, ?_⟩ ?_ h
  · exact List.mem_append_right _ (List.mem_singleton_self _)
  · rw [archiveOf_snoc]
    exact hcall

/-- **Between two calls the first epoch is committed.** -/
theorem committed_between {before between after : List Event} {epochId' : Int}
    {uids weights uids' weights' : List Int} {versionKey versionKey' : Int}
    (h : Lawful (RunLaw env Own) (before ++ .setWeights epochId uids weights versionKey ::
      (between ++ .setWeights epochId' uids' weights' versionKey' :: after))) :
    CommittedIn env (before ++ [.setWeights epochId uids weights versionKey]) epochId between := by
  have hsecond : Lawful (RunLaw env Own) ((before ++ .setWeights epochId uids weights versionKey ::
      between) ++ .setWeights epochId' uids' weights' versionKey' :: after) := by
    rw [List.append_assoc]
    exact h
  rcases awaits_of_call hsecond.of_append with hcommitted | hwaits
  · exact hcommitted
  · obtain ⟨⟨s', hs', hactive', _⟩, hnew, _⟩ := hsecond.at
    obtain ⟨s, hs, hactive, _⟩ := hwaits
    obtain rfl : s' = s := Except.ok.inj (hs'.symm.trans hs)
    obtain rfl := Option.some.inj (hactive.symm.trans hactive')
    refine (hnew ⟨uids, weights, versionKey, ?_⟩).elim
    exact List.mem_append_right _ List.mem_cons_self

end

end Dolores
