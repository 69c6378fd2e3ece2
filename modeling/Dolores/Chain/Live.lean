import Dolores.Chain.Sound

/-!
# The live seam contract (`chain.py`)

What holds of every run of `apply_weights`, whatever the substrate answers, when a file write
either takes effect or raises without one.

* `SeamOpen`          what the client has checked when it invokes `set_weights`;
* `CalledOnce`        the attempt is started, `set_weights` is invoked once with its payload, and
                      no receipt but one of mode `submitted` follows;
* `wp_submitLive_contract`     the outcome after the seam;
* `applyWeights_seam_contract` the contract of the whole call.
-/

namespace Dolores
open Crash

/-- a write takes effect completely or raises without effect -/
def Env.WritesAtomically (env : Env) : Prop := ∀ n i, env.fault n ≠ .raiseAfter i

/-! ## new events -/

/-- every new event has the property -/
def Adds (P : Event → Prop) (w w' : World) : Prop :=
  ∃ es, w'.trace = w.trace ++ es ∧ ∀ e ∈ es, P e

instance (P : Event → Prop) : IsPreorder World (Adds P) where
  refl w := ⟨[], (List.append_nil _).symm, fun _ h => (List.not_mem_nil h).elim⟩
  trans := by
    intro w w' w'' h h'
    obtain ⟨es, he, hP⟩ := h
    obtain ⟨es', he', hP'⟩ := h'
    refine ⟨es ++ es', by rw [he', he, List.append_assoc], fun e hmem => ?_⟩
    rcases List.mem_append.mp hmem with hmem | hmem
    · exact hP e hmem
    · exact hP' e hmem

section
variable {P : Event → Prop} {w w' : World}

theorem Adds.of_reads (h : OnlyReads w w') : Adds P w w' :=
  ⟨[], by rw [h.trace, List.append_nil], fun _ h => (List.not_mem_nil h).elim⟩

theorem Adds.put {p : Path} {c : Content} (h : P (.wrote p c)) (w : World) :
    Adds P w (w.put p c) :=
  ⟨[.wrote p c], rfl, fun e he => by
    rw [List.mem_singleton.mp he]
    exact h⟩

theorem Adds.mono {P' : Event → Prop} (h : Adds P w w') (hP : ∀ e, P e → P' e) :
    Adds P' w w' := by
  obtain ⟨es, he, hes⟩ := h
  exact ⟨es, he, fun e hmem => hP e (hes e hmem)⟩

theorem addsFrame (P : Event → Prop) : ReadFrame (Adds P) where
  clock _ := Adds.of_reads ⟨rfl, rfl⟩
  connected _ := Adds.of_reads ⟨rfl, rfl⟩

end

theorem onlyReadsFrame : ReadFrame OnlyReads where
  clock _ := ⟨rfl, rfl⟩
  connected _ := ⟨rfl, rfl⟩

def Event.isCall : Event → Prop
  | .setWeights _ _ _ _ => True
  | _ => False

/-- a receipt of mode `submitted` -/
def SubmittedReceipt (c : Content) : Prop :=
  ∃ record, c = .doc (.obj record) ∧ Obj.get record "mode" = .str ChainMode.submitted.text

/-- no other call, and no receipt of another mode -/
def Event.afterCall (epochId : Int) : Event → Prop
  | .setWeights _ _ _ _ => False
  | .wrote p c => p = .epoch epochId .chainReceipt → SubmittedReceipt c
  | _ => True

theorem not_isCall_of_afterCall {epochId : Int} {e : Event} (h : e.afterCall epochId) :
    ¬ e.isCall := by
  cases e with
  | setWeights => exact h.elim
  | wrote => exact id
  | verified => exact id
  | tickEntered => exact id
  | emaLoaded => exact id
  | pipelineRan => exact id

/-- the attempt file has one of these statuses -/
def AttemptStands (epochId : Int) (statuses : List AttemptStatus) (w : World) : Prop :=
  ∃ record, w.files (.epoch epochId .chainAttempt) = some (.doc (.obj record)) ∧
    ∃ status ∈ statuses, Obj.get record "status" = .str status.text

/-! ## the contract -/

section
variable (env : Env) (substrate : Substrate) (chain : SubtensorChain) (s : ReceiptSubject)

/-- what holds when `set_weights` is invoked in a run from `w` -/
structure SeamOpen (fallbackReason : String) (w : World) : Prop where
  publish : chain.publish = .live
  gates : missingExtrinsicGates env chain = []
  reason : fallbackReason ∉ degenerateReasons
  weight : ∃ v ∈ s.weights.values, v ≠ 0
  readiness : ∃ state w₁, readinessState env substrate chain w = (.ok (.ok state), w₁) ∧
    ReadyState chain state

/-- the content of the attempt file before the call -/
def startedAttempt (payload : ChainPayload) : Content :=
  .doc (Json.canon (.obj (attemptRecord chain s .started payload none none none)))

/-- the new events are the write of the started attempt, the call with its payload, and events
that may follow a call -/
def CalledOnce (w w' : World) : Prop :=
  ∃ payload after, w'.trace = w.trace ++
      .wrote (.epoch s.epochId .chainAttempt) (startedAttempt chain s payload) ::
      .setWeights s.epochId payload.uidsEmitted payload.weightsU16 s.specVersion :: after ∧
    ∀ e ∈ after, e.afterCall s.epochId

/-- mode `submitted`, with a durable receipt of that mode and a completed attempt -/
def Confirmed (r : ChainWeightResult) (w : World) : Prop :=
  r.mode = .submitted ∧
    (∃ c, w.files (.epoch s.epochId .chainReceipt) = some c ∧ SubmittedReceipt c) ∧
    AttemptStands s.epochId [.completed] w

/-- the seam's own exception, with the attempt still open -/
def LeftAmbiguous (e : Exn) (w : World) : Prop :=
  (∃ msg path, e = .chainAmbiguousSubmissionError msg path) ∧
    AttemptStands s.epochId [.started, .ambiguous] w

/-- the contract: no call at all, or one call behind the checks with a definite ending; a killed
process leaves the events of one or the other -/
def SeamContract (fallbackReason : String) (w : World) : Post World Exn ChainWeightResult where
  ok r w' := Adds (fun e => ¬ e.isCall) w w' ∨
    SeamOpen env substrate chain s fallbackReason w ∧ CalledOnce chain s w w' ∧ Confirmed s r w'
  raise e w' := Adds (fun e => ¬ e.isCall) w w' ∨
    SeamOpen env substrate chain s fallbackReason w ∧ CalledOnce chain s w w' ∧
      LeftAmbiguous s e w'
  killed w' := Adds (fun e => ¬ e.isCall) w w' ∨
    SeamOpen env substrate chain s fallbackReason w ∧ CalledOnce chain s w w'

end

/-! ## after the call -/

section
variable {env : Env} {substrate : Substrate} {chain : SubtensorChain} {s : ReceiptSubject}
  {A : FloatOps} {payload : ChainPayload} (hf : env.WritesAtomically)
include hf

theorem wp_atomicWriteJson_atomic {p : Path} {j : Json} {Q : Post World Exn Unit} {w : World}
    (hok : Q.ok () (World.put p (.doc j.canon) w.tickClock)) (hraise : ∀ e, Q.raise e w.tickClock)
    (hkcut : Q.killed w.tickClock) (hkwhole : Q.killed (World.put p (.doc j.canon) w.tickClock)) :
    wp (atomicWriteJson env p j) Q w := by
  show Q.holds (effectful env (World.put p (.doc j.canon)) id w)
  unfold effectful
  cases h : env.fault w.clock with
  | none => exact hok
  | raiseBefore i => exact hraise i.exn
  | raiseAfter i => exact (hf w.clock i h).elim
  | killBefore => exact hkcut
  | killAfter => exact hkwhole

omit hf in
theorem attemptStands_put (status : AttemptStatus) (submission : Option Obj)
    (receiptFile errorType : Option String) {statuses : List AttemptStatus}
    (hmem : status ∈ statuses) (w : World) :
    AttemptStands s.epochId statuses (World.put (.epoch s.epochId .chainAttempt)
      (.doc (Json.canon (.obj (attemptRecord chain s status payload submission receiptFile
        errorType)))) w) := by
  refine ⟨_, by rw [World.put_self, Json.canon_obj'], status, hmem, ?_⟩
  rw [Obj.get_canon]
  exact Json.canon_str _

omit hf in
theorem attemptStands_started {statuses : List AttemptStatus} (hmem : .started ∈ statuses)
    {w : World}
    (h : w.files (.epoch s.epochId .chainAttempt) = some (startedAttempt chain s payload)) :
    AttemptStands s.epochId statuses w := by
  refine ⟨_, by rw [h, startedAttempt, Json.canon_obj'], .started, hmem, ?_⟩
  rw [Obj.get_canon]
  exact Json.canon_str _

omit hf in
theorem submittedReceipt_record (reason : String) (detail : ReceiptDetail) :
    SubmittedReceipt (.doc (Json.canon (.obj (receiptRecord chain s .submitted reason detail)))) := by
  refine ⟨_, by rw [Json.canon_obj'], ?_⟩
  rw [Obj.get_canon, receiptRecord_get_mode]
  exact Json.canon_str _

omit hf in
theorem attempt_ne_receipt :
    (Path.epoch s.epochId .chainAttempt) ≠ .epoch s.epochId .chainReceipt := by
  intro h
  exact nomatch (Path.epoch.inj h).2

omit hf in
/-- a write of the attempt file may follow a call -/
theorem afterCall_attempt (c : Content) :
    Event.afterCall s.epochId (.wrote (.epoch s.epochId .chainAttempt) c) :=
  fun h => (attempt_ne_receipt h).elim

/-- the handler leaves the attempt open and raises the seam's own exception -/
theorem wp_ambiguousSubmission_contract {α : Type} (submission : Option Obj) (exc : Exn) {w : World}
    (h : w.files (.epoch s.epochId .chainAttempt) = some (startedAttempt chain s payload)) :
    wp (ambiguousSubmission env chain s payload submission exc : M α)
      ⟨fun _ _ => False,
        fun e w' => Adds (Event.afterCall s.epochId) w w' ∧ LeftAmbiguous s e w',
        fun w' => Adds (Event.afterCall s.epochId) w w'⟩ w := by
  have hclock : Adds (Event.afterCall s.epochId) w w.tickClock := (addsFrame _).clock w
  unfold ambiguousSubmission
  dsimp only
  rw [wp_bind, wp_handle]
  unfold writeAttempt
  have hput : ∀ c, Adds (Event.afterCall s.epochId) w
      (w.tickClock.put (.epoch s.epochId .chainAttempt) c) := fun c =>
    trans_of _ hclock (Adds.put (afterCall_attempt c) _)
  refine wp_atomicWriteJson_atomic hf ?_ (fun e => ?_) hclock (hput _)
  · exact ⟨hput _, ⟨_, _, rfl⟩,
      attemptStands_put .ambiguous _ _ _ (by decide) w.tickClock⟩
  · exact ⟨hclock, ⟨_, _, rfl⟩, attemptStands_started (by decide) h⟩

theorem wp_confirmSubmission_contract (state : ChainState) (mapping : HotkeyUidMapping)
    (submission : Obj) {w : World}
    (h : w.files (.epoch s.epochId .chainAttempt) = some (startedAttempt chain s payload)) :
    wp (confirmSubmission env substrate chain s state mapping payload submission)
      ⟨fun r w' => Adds (Event.afterCall s.epochId) w w' ∧ Confirmed s r w',
        fun _ w' => Adds (Event.afterCall s.epochId) w w' ∧
          w'.files (.epoch s.epochId .chainAttempt) = some (startedAttempt chain s payload),
        fun w' => Adds (Event.afterCall s.epochId) w w'⟩ w := by
  -- a read that raises or is killed
  have hread : ∀ w', OnlyReads w w' → Adds (Event.afterCall s.epochId) w w' ∧
      w'.files (.epoch s.epochId .chainAttempt) = some (startedAttempt chain s payload) :=
    fun w' hr => ⟨Adds.of_reads hr, by rw [hr.files, h]⟩
  unfold confirmSubmission
  refine wp_ite (fun _ => hread w (refl_of OnlyReads w)) (fun _ => ?_)
  dsimp only
  rw [wp_bind]
  refine wp_mono (onlyReadsFrame.connect w) ?_ (fun _ w₁ h₁ => hread w₁ h₁)
    (fun w₁ h₁ => (hread w₁ h₁).1)
  intro _ w₁ h₁
  dsimp only
  rw [wp_bind]
  refine wp_mono (onlyReadsFrame.external _ w₁) ?_
    (fun _ w₂ h₂ => hread w₂ (trans_of OnlyReads h₁ h₂))
    (fun w₂ h₂ => (hread w₂ (trans_of OnlyReads h₁ h₂)).1)
  intro readBack w₂ h₂
  have h₂ : OnlyReads w w₂ := trans_of OnlyReads h₁ h₂
  refine wp_ite (fun _ => hread w₂ h₂) (fun _ => wp_ite (fun _ => hread w₂ h₂) (fun _ => ?_))
  -- the receipt, and then the completed attempt
  unfold writeReceipt writeAttempt
  rw [wp_bind, wp_bind]
  have h₃ : OnlyReads w w₂.tickClock := trans_of OnlyReads h₂ (onlyReadsFrame.clock w₂)
  have hreceipt : ∀ reason detail, Adds (Event.afterCall s.epochId) w
      (w₂.tickClock.put (.epoch s.epochId .chainReceipt)
        (.doc (Json.canon (.obj (receiptRecord chain s .submitted reason detail))))) :=
    fun reason detail => trans_of _ (hread _ h₃).1
      (Adds.put (fun _ => submittedReceipt_record reason detail) _)
  refine wp_atomicWriteJson_atomic hf ?_ (fun _ => hread _ h₃) (hread _ h₃).1 (hreceipt _ _)
  dsimp only
  rw [wp_pure]
  dsimp only
  rw [wp_bind]
  generalize hw₃ : World.put (.epoch s.epochId .chainReceipt) _ w₂.tickClock = w₃
  have hadds : Adds (Event.afterCall s.epochId) w w₃.tickClock := by
    rw [← hw₃]
    exact trans_of _ (hreceipt _ _) ((addsFrame _).clock _)
  have hattempt : w₃.files (.epoch s.epochId .chainAttempt) =
      some (startedAttempt chain s payload) := by
    rw [← hw₃, World.put_of_ne attempt_ne_receipt]
    exact (hread _ h₃).2
  have hput : ∀ c, Adds (Event.afterCall s.epochId) w
      (w₃.tickClock.put (.epoch s.epochId .chainAttempt) c) := fun c =>
    trans_of _ hadds (Adds.put (afterCall_attempt c) _)
  refine wp_atomicWriteJson_atomic hf ?_ (fun _ => ⟨hadds, hattempt⟩) hadds (hput _)
  refine ⟨hput _, rfl, ?_, attemptStands_put .completed _ _ _ (by decide) _⟩
  have hkept : (World.put (.epoch s.epochId .chainAttempt) (.doc (Json.canon (.obj
      (attemptRecord chain s .completed payload (some submission)
        (some (EpochFile.chainReceipt.name s.epochId)) none)))) w₃.tickClock).files
      (.epoch s.epochId .chainReceipt) = w₃.files (.epoch s.epochId .chainReceipt) :=
    World.put_of_ne attempt_ne_receipt.symm _ _
  rw [hkept, ← hw₃, World.put_self]
  exact ⟨_, rfl, submittedReceipt_record _ _⟩

/-- the seam, from a started attempt on -/
theorem wp_submitLive_contract (state : ChainState) (mapping : HotkeyUidMapping) {w : World}
    (h : w.files (.epoch s.epochId .chainAttempt) = some (startedAttempt chain s payload)) :
    let call : Event := .setWeights s.epochId payload.uidsEmitted payload.weightsU16 s.specVersion
    wp (submitLive env substrate chain s state mapping payload)
      ⟨fun r w' => Adds (Event.afterCall s.epochId) (w.log call) w' ∧ Confirmed s r w',
        fun e w' => Adds (fun e => ¬ e.isCall) w w' ∨
          Adds (Event.afterCall s.epochId) (w.log call) w' ∧ LeftAmbiguous s e w',
        fun w' => Adds (fun e => ¬ e.isCall) w w' ∨
          Adds (Event.afterCall s.epochId) (w.log call) w'⟩ w := by
  intro call
  -- the handler of an exception after the call
  have hhandled : ∀ {α : Type} (submission : Option Obj) (e : Exn) (w' : World),
      Adds (Event.afterCall s.epochId) (w.log call) w' →
      w'.files (.epoch s.epochId .chainAttempt) = some (startedAttempt chain s payload) →
      wp (ambiguousSubmission env chain s payload submission e : M α)
        ⟨fun _ _ => False,
          fun e w'' => Adds (Event.afterCall s.epochId) (w.log call) w'' ∧ LeftAmbiguous s e w'',
          fun w'' => Adds (Event.afterCall s.epochId) (w.log call) w''⟩ w' :=
    fun submission e w' hw' hattempt =>
      wp_mono (wp_ambiguousSubmission_contract hf submission e hattempt) (fun _ _ => id)
        (fun _ _ h' => ⟨trans_of _ hw' h'.1, h'.2⟩) (fun _ h' => trans_of _ hw' h')
  have hconfirmed : ∀ (submission : Obj) (w' : World),
      Adds (Event.afterCall s.epochId) (w.log call) w' →
      w'.files (.epoch s.epochId .chainAttempt) = some (startedAttempt chain s payload) →
      wp (Proc.handle (confirmSubmission env substrate chain s state mapping payload submission)
        (ambiguousSubmission env chain s payload (some submission)))
        ⟨fun r w' => Adds (Event.afterCall s.epochId) (w.log call) w' ∧ Confirmed s r w',
          fun e w'' => Adds (Event.afterCall s.epochId) (w.log call) w'' ∧ LeftAmbiguous s e w'',
          fun w'' => Adds (Event.afterCall s.epochId) (w.log call) w''⟩ w' := by
    intro submission w' hw' hattempt
    rw [wp_handle]
    refine wp_mono (wp_confirmSubmission_contract hf state mapping submission hattempt) ?_ ?_ ?_
    · exact fun r w'' h' => ⟨trans_of _ hw' h'.1, h'.2⟩
    · intro e w'' h'
      exact wp_mono (hhandled (some submission) e w'' (trans_of _ hw' h'.1) h'.2)
        (fun _ _ => False.elim) (fun _ _ => id) (fun _ => id)
    · exact fun w'' h' => trans_of _ hw' h'
  have hweaken : ∀ {α : Type} {p : M α} {w' : World} {Q : α → World → Prop},
      wp p ⟨Q, fun e w'' => Adds (Event.afterCall s.epochId) (w.log call) w'' ∧
          LeftAmbiguous s e w'',
        fun w'' => Adds (Event.afterCall s.epochId) (w.log call) w''⟩ w' →
      wp p ⟨Q, fun e w'' => Adds (fun e => ¬ e.isCall) w w'' ∨
          Adds (Event.afterCall s.epochId) (w.log call) w'' ∧ LeftAmbiguous s e w'',
        fun w'' => Adds (fun e => ¬ e.isCall) w w'' ∨
          Adds (Event.afterCall s.epochId) (w.log call) w''⟩ w' :=
    fun h' => wp_mono h' (fun _ _ => id) (fun _ _ => .inr) (fun _ => .inr)
  unfold submitLive invokeSetWeights
  rw [wp_bind, wp_handle, wp_bind]
  refine wp_mono (onlyReadsFrame.connect w) ?_ ?_ ?_
  · intro _ w₁ h₁
    have hlogged : ∀ w', OnlyReads (w₁.log call) w' →
        Adds (Event.afterCall s.epochId) (w.log call) w' ∧
        w'.files (.epoch s.epochId .chainAttempt) = some (startedAttempt chain s payload) := by
      intro w' hr
      refine ⟨Adds.of_reads ⟨?_, ?_⟩, ?_⟩
      · rw [hr.files]
        exact h₁.files
      · rw [hr.trace, World.log_trace, World.log_trace, h₁.trace]
      · rw [hr.files, World.log_files, h₁.files, h]
    dsimp only
    rw [wp_bind, wp_logEvent]
    dsimp only
    rw [wp_bind]
    refine wp_mono (onlyReadsFrame.external _ _) ?_ ?_ (fun w₂ h₂ => .inr (hlogged w₂ h₂).1)
    · intro response w₂ h₂
      obtain ⟨hadds, hattempt⟩ := hlogged w₂ h₂
      exact hweaken (hconfirmed (submissionFromResponse env.text response) w₂ hadds hattempt)
    · intro e w₂ h₂
      obtain ⟨hadds, hattempt⟩ := hlogged w₂ h₂
      exact wp_mono (hweaken (hhandled none e w₂ hadds hattempt)) (fun _ _ => False.elim)
        (fun _ _ => id) (fun _ => id)
  · -- the substrate could not be reached: `set_weights` is not invoked
    intro e w₁ h₁
    have hattempt : w₁.files (.epoch s.epochId .chainAttempt) =
        some (startedAttempt chain s payload) := by rw [h₁.files, h]
    have hno : ∀ w', Adds (Event.afterCall s.epochId) w₁ w' → Adds (fun e => ¬ e.isCall) w w' :=
      fun w' hw' => trans_of _ (Adds.of_reads h₁) (hw'.mono fun _ => not_isCall_of_afterCall)
    exact wp_mono (wp_ambiguousSubmission_contract hf none e hattempt) (fun _ _ => False.elim)
      (fun _ w' h' => .inl (hno w' h'.1)) (fun w' h' => .inl (hno w' h'))
  · intro w₁ h₁
    exact .inl (Adds.of_reads h₁)

/-! ## the whole call -/

omit hf in
/-- a receipt before the seam -/
theorem writeReceipt_noCall (mode : ChainMode) (reason : String) (detail : ReceiptDetail)
    {fallbackReason : String} {w w₁ : World} (h₁ : OnlyReads w w₁) :
    wp (writeReceipt env chain s mode reason detail)
      (SeamContract env substrate chain s fallbackReason w) w₁ := by
  have hmoves : Moves (Adds fun e => ¬ e.isCall) (writeReceipt env chain s mode reason detail) :=
    Moves.bind ((addsFrame _).atomicWriteJson (fun w _ => Adds.put id w) _) fun _ => Moves.pure _
  have hno : ∀ w', Adds (fun e => ¬ e.isCall) w₁ w' → Adds (fun e => ¬ e.isCall) w w' :=
    fun w' h => trans_of _ (Adds.of_reads h₁) h
  exact wp_mono (hmoves w₁) (fun _ w' h => .inl (hno w' h)) (fun _ w' h => .inl (hno w' h))
    (fun w' h => .inl (hno w' h))

theorem wp_publishPayload_contract {fallbackReason : String}
    (hreason : fallbackReason ∉ degenerateReasons) (hweight : ∃ v ∈ s.weights.values, v ≠ 0)
    {state : ChainState} {w w₁ : World}
    (hstate : ∃ w₁, readinessState env substrate chain w = (.ok (.ok state), w₁) ∧
      ReadyState chain state) (mapping : HotkeyUidMapping) (h₁ : OnlyReads w w₁) :
    wp (publishPayload env substrate chain s state mapping payload)
      (SeamContract env substrate chain s fallbackReason w) w₁ := by
  unfold publishPayload
  dsimp only
  refine wp_ite (fun _ => writeReceipt_noCall _ _ _ h₁) (fun hpublish =>
    wp_ite (fun _ => writeReceipt_noCall _ _ _ h₁) (fun hgates => ?_))
  have hopen : SeamOpen env substrate chain s fallbackReason w := by
    refine ⟨?_, not_not.mp hgates, hreason, hweight, state, hstate⟩
    cases h : chain.publish with
    | dryRun => exact (hpublish h).elim
    | live => rfl
  unfold writeAttempt
  rw [wp_bind]
  have hread : Adds (fun e => ¬ e.isCall) w w₁.tickClock :=
    Adds.of_reads (trans_of OnlyReads h₁ (onlyReadsFrame.clock w₁))
  have hstarted : Adds (fun e => ¬ e.isCall) w
      (w₁.tickClock.put (.epoch s.epochId .chainAttempt) (startedAttempt chain s payload)) :=
    trans_of _ hread (Adds.put id _)
  refine wp_atomicWriteJson_atomic hf ?_ (fun _ => .inl hread) (.inl hread) (.inl hstarted)
  have hcalled : ∀ w', Adds (Event.afterCall s.epochId)
      ((w₁.tickClock.put (.epoch s.epochId .chainAttempt) (startedAttempt chain s payload)).log
        (.setWeights s.epochId payload.uidsEmitted payload.weightsU16 s.specVersion)) w' →
      CalledOnce chain s w w' := by
    intro w' h
    obtain ⟨after, htrace, hafter⟩ := h
    refine ⟨payload, after, ?_, hafter⟩
    rw [htrace, World.log_trace, World.put_trace, World.tickClock_trace, h₁.trace,
      List.append_assoc, List.append_assoc]
    rfl
  have hno : ∀ w', Adds (fun e => ¬ e.isCall)
      (w₁.tickClock.put (.epoch s.epochId .chainAttempt) (startedAttempt chain s payload)) w' →
      Adds (fun e => ¬ e.isCall) w w' := fun w' h => trans_of _ hstarted h
  refine wp_mono (wp_submitLive_contract hf state mapping (World.put_self _ _ _)) ?_ ?_ ?_
  · exact fun r w' h => .inr ⟨hopen, hcalled w' h.1, h.2⟩
  · exact fun e w' h => h.imp (hno w') fun h => ⟨hopen, hcalled w' h.1, h.2⟩
  · exact fun w' h => h.imp (hno w') fun h => ⟨hopen, hcalled w' h⟩

theorem wp_publishReady_contract {fallbackReason : String}
    (hreason : fallbackReason ∉ degenerateReasons) (hweight : ∃ v ∈ s.weights.values, v ≠ 0)
    {state : ChainState} {w w₁ : World}
    (hstate : readinessState env substrate chain w = (.ok (.ok state), w₁))
    (h₁ : OnlyReads w w₁) :
    wp (publishReady env substrate A chain s state)
      (SeamContract env substrate chain s fallbackReason w) w₁ := by
  have hno : ∀ {w'}, OnlyReads w w' → Adds (fun e => ¬ e.isCall) w w' := Adds.of_reads
  unfold publishReady
  cases hskip : readinessSkipReason chain state with
  | some reason => exact writeReceipt_noCall _ _ _ h₁
  | none =>
    have hready := (skipReason_eq_none_iff state).mp hskip
    dsimp only
    rw [wp_bind]
    refine wp_mono (onlyReadsFrame.mapHotkeys s.activeHotkeys w₁) ?_
      (fun _ w₂ h₂ => .inl (hno (trans_of OnlyReads h₁ h₂)))
      (fun w₂ h₂ => .inl (hno (trans_of OnlyReads h₁ h₂)))
    intro mapping w₂ h₂
    have h₂ : OnlyReads w w₂ := trans_of OnlyReads h₁ h₂
    refine wp_ite (fun _ => writeReceipt_noCall _ _ _ h₂) (fun _ => ?_)
    rw [wp_bind]
    refine wp_mono (onlyReadsFrame.buildPayload s.weights mapping s.specVersion w₂) ?_
      (fun _ w₃ h₃ => .inl (hno (trans_of OnlyReads h₂ h₃)))
      (fun w₃ h₃ => .inl (hno (trans_of OnlyReads h₂ h₃)))
    intro payload w₃ h₃
    exact wp_publishPayload_contract hf hreason hweight ⟨w₁, hstate, hready⟩ mapping
      (trans_of OnlyReads h₂ h₃)

/-- **The live seam contract.** `set_weights` is called at most once, behind every check and a
started attempt with its payload; after the call the outcome is a confirmed submission or the
exception for an ambiguous one. -/
theorem applyWeights_seam_contract (fallbackReason : String) (w : World) :
    wp (chain.applyWeights env substrate A s fallbackReason)
      (SeamContract env substrate chain s fallbackReason w) w := by
  have hrefl : OnlyReads w w := refl_of OnlyReads w
  unfold SubtensorChain.applyWeights
  refine wp_ite (fun _ => writeReceipt_noCall _ _ _ hrefl) (fun hdegenerate =>
    wp_ite (fun _ => writeReceipt_noCall _ _ _ hrefl) (fun _ => ?_))
  have hreason : fallbackReason ∉ degenerateReasons := fun h => hdegenerate (.inl h)
  have hweight : ∃ v ∈ s.weights.values, v ≠ 0 := by
    by_contra hzero
    refine hdegenerate (.inr (List.all_eq_true.mpr fun v hv => ?_))
    rw [decide_eq_true_eq]
    by_contra hne
    exact hzero ⟨v, hv, hne⟩
  rw [wp_bind]
  have hrun := wp_and (onlyReadsFrame.readinessState w)
    (wp_self_ok (readinessState env substrate chain) w)
  refine wp_mono hrun ?_ (fun _ w₁ h => .inl (Adds.of_reads h.1)) (fun w₁ h =>
    .inl (Adds.of_reads h.1))
  intro readiness w₁ h
  obtain ⟨h₁, hstate⟩ := h
  cases readiness with
  | error exc => exact writeReceipt_noCall _ _ _ h₁
  | ok state => exact wp_publishReady_contract hf hreason hweight hstate h₁

end

section

def liveEnv : Env :=
  { Env.plain with environ := fun name => if name = "DOLORES_ALLOW_EXTRINSICS" then some "1" else none }

def liveChain : SubtensorChain where
  network := "test"
  netuid := some 7
  publish := .live
  allowExtrinsics := true
  allowCommitReveal := false
  confirmation := liveConfirmation

/-- a chain that is ready and takes the weights of the two registered miners -/
def readySubstrate : Substrate where
  connect _ := .ok ()
  block _ := .ok 1
  subnetExists _ := .ok true
  validatorHotkey _ := .ok "v"
  hotkeyUid _ hotkey := .ok (if hotkey = "v" then some 0 else if hotkey = "a" then some 1 else some 2)
  validatorPermit _ _ := .ok true
  weightsRateLimit _ := .ok 100
  blocksSinceLastUpdate _ _ := .ok (some 100)
  commitRevealEnabled _ := .ok (some false)
  processAndConvert _ uids _ := .ok (uids, uids.map fun _ => 65535)
  setWeights _ _ _ _ := .ok ⟨true, [("success", .bool true)]⟩
  readBackWeights _ _ := .ok (some [("matches_submitted", .bool true)])
  minerEndpoints _ _ := .ok []

def liveSubject : ReceiptSubject where
  epochId := 3
  weights := [("a", 1 / 2), ("b", 1 / 2)]
  activeHotkeys := ["a", "b"]
  specVersion := 1

theorem applyWeights_seam_contract_sample :
    wp (liveChain.applyWeights liveEnv readySubstrate exactOps liveSubject "")
      (SeamContract liveEnv readySubstrate liveChain liveSubject "" {}) {} :=
  applyWeights_seam_contract (fun _ i h => nomatch (show Fault.none = .raiseAfter i from h)) "" {}

/-- this run crosses the seam -/
example : (match (liveChain.applyWeights liveEnv readySubstrate exactOps liveSubject "" {}).1 with
    | .ok r => decide (r.mode = .submitted)
    | _ => false) = true := by
  decide +kernel

end

end Dolores
