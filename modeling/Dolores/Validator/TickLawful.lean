import Dolores.Bridge.Frame
import Dolores.Validator.EmaLaw
import Dolores.Validator.Raises
import Dolores.Validator.TickCommand

/-!
# A tick keeps the law of whole ticks

However a tick ends, its events were allowed by the law of whole ticks.

* `AtSeam`                    the epoch is submitting, without a marker;
* `wp_applyWeights_atSeam`    and it stays so while the chain is asked;
* `wp_recordEpoch_lawful`     the record of the epoch, its marker and its commit;
* `wp_runEpoch_lawful`        the epoch;
* `wp_tickCommand_lawful`     the tick.
-/

set_option linter.unusedSectionVars false

namespace Dolores
open Crash Except Journal

/-! ## the epoch at the seam -/

/-- the epoch is submitting, without a marker -/
structure AtSeam (env : Env) (Own : OwnUpdates) (epochId : Int) (w : World) : Prop where
  journaled : Journaled (RunLaw env Own) w
  awaits : Awaits env w.files epochId
  unmarked : w.files (.epoch epochId .completion) = none

section
variable {env : Env} {Own : OwnUpdates} {epochId : Int} {w : World}

theorem AtSeam.of_reads {w' : World} (h : AtSeam env Own epochId w) (hr : OnlyReads w w') :
    AtSeam env Own epochId w' := by
  refine ⟨h.journaled.of_reads hr, ?_, ?_⟩
  · rw [hr.files]
    exact h.awaits
  · rw [hr.files]
    exact h.unmarked

/-- a file of the epoch, other than its marker, is written -/
theorem AtSeam.put (h : AtSeam env Own epochId w) {file : EpochFile} {c : Content}
    (hfile : file ≠ .completion) (hwrite : EpochWrite env Own w.trace epochId file c) :
    AtSeam env Own epochId (w.put (.epoch epochId file) c) := by
  refine ⟨h.journaled.put ⟨?_, hwrite⟩, ?_, ?_⟩
  · rw [← h.journaled.files]
    exact h.awaits
  · obtain ⟨s, hs, hactive, hphase⟩ := h.awaits
    refine ⟨s, ?_, hactive, hphase⟩
    unfold Persisted
    rw [World.put_of_ne (by simp)]
    exact hs
  · rw [World.put_of_ne (fun he => hfile (Path.epoch.inj he).2.symm)]
    exact h.unmarked

/-- an atomic write at the seam -/
theorem AtSeam.wp_write (h : AtSeam env Own epochId w) {file : EpochFile} {payload : Json}
    (hfile : file ≠ .completion)
    (hwrite : EpochWrite env Own w.trace epochId file (.doc payload.canon))
    {Q : Post World Exn Unit}
    (hok : ∀ w', AtSeam env Own epochId w' →
      w'.files = Function.update w.files (.epoch epochId file) (some (.doc payload.canon)) →
      w'.trace = w.trace ++ [.wrote (.epoch epochId file) (.doc payload.canon)] → Q.ok () w')
    (hraise : ∀ e w', AtSeam env Own epochId w' → Q.raise e w')
    (hkilled : ∀ w', AtSeam env Own epochId w' → Q.killed w') :
    wp (atomicWriteJson env (.epoch epochId file) payload) Q w := by
  have hcut : AtSeam env Own epochId w.tickClock := h.of_reads ⟨rfl, rfl⟩
  have hput := hcut.put (c := .doc payload.canon) hfile hwrite
  exact wp_effectful (hok _ hput rfl rfl) (fun i => hraise _ _ hcut) (fun i => hraise _ _ hput)
    (hkilled _ hcut) (hkilled _ hput)

/-- the same for every end -/
theorem AtSeam.wp_write_always (h : AtSeam env Own epochId w) {file : EpochFile} {payload : Json}
    (hfile : file ≠ .completion)
    (hwrite : EpochWrite env Own w.trace epochId file (.doc payload.canon)) :
    wp (atomicWriteJson env (.epoch epochId file) payload)
      (Post.always (AtSeam env Own epochId)) w :=
  h.wp_write hfile hwrite (fun _ h' _ _ => h') (fun _ _ h' => h') (fun _ h' => h')

end

/-! ## the chain -/

section
variable {env : Env} {Own : OwnUpdates} {substrate : Substrate} {A : FloatOps}
  {chain : SubtensorChain} {s : ReceiptSubject} {w : World}

theorem attempt_open (chain : SubtensorChain) (s : ReceiptSubject) {status : AttemptStatus}
    (hstatus : status ∈ [AttemptStatus.started, .ambiguous]) (payload : ChainPayload)
    (submission : Option Obj) (receiptFile errorType : Option String) :
    OpenAttempt (.doc (Json.canon (.obj
      (attemptRecord chain s status payload submission receiptFile errorType)))) := by
  rw [Json.canon_obj']
  refine ⟨_, rfl, status, hstatus, ?_⟩
  rw [Obj.get_canon]
  exact Json.canon_str _

theorem receipt_submitted (chain : SubtensorChain) (s : ReceiptSubject) (reason : String)
    (detail : ReceiptDetail) :
    SubmittedReceipt
      (.doc (Json.canon (.obj (receiptRecord chain s .submitted reason detail)))) := by
  rw [Json.canon_obj']
  refine ⟨_, rfl, ?_⟩
  rw [Obj.get_canon, receiptRecord_get_mode]
  exact Json.canon_str _

/-- a receipt of an epoch that was not submitted -/
theorem wp_writeReceipt_atSeam (h : AtSeam env Own s.epochId w) (hnew : ¬ Called w.trace s.epochId)
    (mode : ChainMode) (reason : String) (detail : ReceiptDetail) :
    wp (writeReceipt env chain s mode reason detail)
      (Post.always (AtSeam env Own s.epochId)) w := by
  unfold writeReceipt
  rw [wp_bind]
  refine h.wp_write_always ?_ fun hcalled => (hnew hcalled).elim
  decide

/-- the handler of the seam, before or after the call; it does not return -/
theorem wp_ambiguousSubmission_atSeam {α : Type} {Q : Post World Exn α}
    (h : AtSeam env Own s.epochId w) (payload : ChainPayload) (submission : Option Obj) (exc : Exn)
    (hraise : ∀ e w', AtSeam env Own s.epochId w' → Q.raise e w')
    (hkilled : ∀ w', AtSeam env Own s.epochId w' → Q.killed w') :
    wp (ambiguousSubmission env chain s payload submission exc : M α) Q w := by
  unfold ambiguousSubmission
  rw [wp_bind, wp_handle]
  refine h.wp_write ?_ ?_ ?_ ?_ hkilled
  · decide
  · exact fun _ => .inl (attempt_open chain s (by decide) _ _ _ _)
  · exact fun w' h' _ _ => hraise _ w' h'
  · exact fun _ w' h' => hraise _ w' h'

/-- the call -/
theorem wp_invokeSetWeights_atSeam (h : AtSeam env Own s.epochId w)
    (hnew : ¬ Called w.trace s.epochId)
    (hattempt : ∃ attempt, w.files (.epoch s.epochId .chainAttempt) = some attempt ∧
      OpenAttempt attempt) (payload : ChainPayload) :
    wp (invokeSetWeights env substrate chain s payload)
      (Post.always (AtSeam env Own s.epochId)) w := by
  unfold invokeSetWeights
  rw [wp_bind]
  refine wp_mono (onlyReadsFrame.connect w) ?_ (fun _ _ hr => h.of_reads hr)
    (fun _ hr => h.of_reads hr)
  intro _ w₁ hr
  have h₁ := h.of_reads hr
  rw [← hr.files] at hattempt
  rw [← hr.trace] at hnew
  dsimp only
  rw [wp_bind, wp_logEvent]
  have hlogged : AtSeam env Own s.epochId
      (w₁.log (.setWeights s.epochId payload.uidsEmitted payload.weightsU16 s.specVersion)) := by
    refine ⟨h₁.journaled.log trivial ⟨?_, hnew, ?_⟩, h₁.awaits, h₁.unmarked⟩
    · rw [← h₁.journaled.files]
      exact h₁.awaits
    · rw [← h₁.journaled.files]
      exact hattempt
  dsimp only
  rw [wp_bind]
  have hanswered : AtSeam env Own s.epochId (w₁.log (.setWeights s.epochId payload.uidsEmitted
      payload.weightsU16 s.specVersion)).tickClock := hlogged.of_reads ⟨rfl, rfl⟩
  exact wp_external (fun _ _ => hanswered) (fun _ _ => hanswered) hanswered

/-- the confirmation of a submission -/
theorem wp_confirmSubmission_atSeam (h : AtSeam env Own s.epochId w) (state : ChainState)
    (mapping : HotkeyUidMapping) (payload : ChainPayload) (submission : Obj) :
    wp (confirmSubmission env substrate chain s state mapping payload submission)
      (Post.always (AtSeam env Own s.epochId)) w := by
  unfold confirmSubmission
  refine wp_ite (fun _ => h) fun _ => ?_
  dsimp only
  rw [wp_bind]
  refine wp_mono (onlyReadsFrame.connect w) ?_ (fun _ _ hr => h.of_reads hr)
    (fun _ hr => h.of_reads hr)
  intro _ w₁ hr₁
  have h₁ := h.of_reads hr₁
  dsimp only
  rw [wp_bind]
  refine wp_mono (onlyReadsFrame.external _ w₁) ?_ (fun _ _ hr => h₁.of_reads hr)
    (fun _ hr => h₁.of_reads hr)
  intro readBack w₂ hr₂
  have h₂ := h₁.of_reads hr₂
  dsimp only
  refine wp_ite (fun _ => h₂) fun _ => wp_ite (fun _ => h₂) fun _ => ?_
  rw [wp_bind]
  unfold writeReceipt
  rw [wp_bind]
  refine h₂.wp_write ?_ ?_ ?_ (fun _ _ h' => h') (fun _ h' => h')
  · decide
  · exact fun _ => receipt_submitted chain s _ _
  intro w₃ h₃ hfiles htrace
  dsimp only
  rw [wp_pure]
  dsimp only
  unfold writeAttempt
  rw [wp_bind]
  -- the attempt is completed once the receipt is there
  refine h₃.wp_write_always ?_ ?_
  · decide
  · have hreceipt := congrFun hfiles (.epoch s.epochId .chainReceipt)
    rw [Function.update_self, h₃.journaled.files] at hreceipt
    exact fun _ => .inr ⟨_, hreceipt, receipt_submitted chain s _ _⟩

theorem wp_submitLive_atSeam (h : AtSeam env Own s.epochId w) (hnew : ¬ Called w.trace s.epochId)
    (hattempt : ∃ attempt, w.files (.epoch s.epochId .chainAttempt) = some attempt ∧
      OpenAttempt attempt) (state : ChainState) (mapping : HotkeyUidMapping)
    (payload : ChainPayload) :
    wp (submitLive env substrate chain s state mapping payload)
      (Post.always (AtSeam env Own s.epochId)) w := by
  unfold submitLive
  rw [wp_bind, wp_handle]
  refine wp_mono (wp_invokeSetWeights_atSeam h hnew hattempt payload) ?_ ?_ (fun _ h₁ => h₁)
  · intro submission w₁ h₁
    dsimp only
    rw [wp_handle]
    exact wp_mono (wp_confirmSubmission_atSeam h₁ state mapping payload submission)
      (fun _ _ h₂ => h₂) (fun exc _ h₂ => wp_ambiguousSubmission_atSeam h₂ payload _ exc
        (fun _ _ h₃ => h₃) (fun _ h₃ => h₃)) (fun _ h₂ => h₂)
  · intro exc w₁ h₁
    exact wp_ambiguousSubmission_atSeam h₁ payload none exc (fun _ _ h₂ => h₂) (fun _ h₂ => h₂)

theorem wp_publishPayload_atSeam (h : AtSeam env Own s.epochId w)
    (hnew : ¬ Called w.trace s.epochId) (state : ChainState) (mapping : HotkeyUidMapping)
    (payload : ChainPayload) :
    wp (publishPayload env substrate chain s state mapping payload)
      (Post.always (AtSeam env Own s.epochId)) w := by
  unfold publishPayload
  dsimp only
  refine wp_ite (fun _ => wp_writeReceipt_atSeam h hnew _ _ _) fun _ =>
    wp_ite (fun _ => wp_writeReceipt_atSeam h hnew _ _ _) fun _ => ?_
  rw [wp_bind]
  unfold writeAttempt
  refine h.wp_write ?_ ?_ ?_ (fun _ _ h₁ => h₁) (fun _ h₁ => h₁)
  · decide
  · exact fun hcalled => (hnew hcalled).elim
  intro w₁ h₁ hfiles htrace
  have hattempt := congrFun hfiles (.epoch s.epochId .chainAttempt)
  rw [Function.update_self] at hattempt
  have hstarted : AttemptStatus.started ∈ [AttemptStatus.started, .ambiguous] := by decide
  refine wp_submitLive_atSeam h₁ ?_ ⟨_, hattempt, attempt_open chain s hstarted _ _ _ _⟩ _ _ _
  rw [htrace]
  exact fun hcalled => hnew ((called_snoc_of_not_call id).mp hcalled)

/-- **The epoch stays at the seam** while the chain is asked, however that ends. -/
theorem wp_applyWeights_atSeam (h : AtSeam env Own s.epochId w) (hnew : ¬ Called w.trace s.epochId)
    (client : ChainClient) (fallbackReason : String) :
    wp (client.applyWeights env substrate A s fallbackReason)
      (Post.always (AtSeam env Own s.epochId)) w := by
  have hread : ∀ {w' : World}, OnlyReads w w' → AtSeam env Own s.epochId w' ∧
      ¬ Called w'.trace s.epochId := by
    intro w' hr
    refine ⟨h.of_reads hr, ?_⟩
    rw [hr.trace]
    exact hnew
  cases client with
  | null => exact h
  | subtensor chain =>
    refine wp_ite (fun _ => wp_writeReceipt_atSeam h hnew _ _ _) fun _ =>
      wp_ite (fun _ => wp_writeReceipt_atSeam h hnew _ _ _) fun _ => ?_
    rw [wp_bind]
    refine wp_mono (onlyReadsFrame.readinessState w) ?_ (fun _ _ hr => h.of_reads hr)
      (fun _ hr => h.of_reads hr)
    intro readiness w₁ hr₁
    obtain ⟨h₁, hnew₁⟩ := hread hr₁
    cases readiness with
    | error exc => exact wp_writeReceipt_atSeam h₁ hnew₁ _ _ _
    | ok state =>
      dsimp only
      unfold publishReady
      split
      · exact wp_writeReceipt_atSeam h₁ hnew₁ _ _ _
      · rw [wp_bind]
        refine wp_mono (onlyReadsFrame.mapHotkeys _ w₁) ?_ (fun _ _ hr => h₁.of_reads hr)
          (fun _ hr => h₁.of_reads hr)
        intro mapping w₂ hr₂
        obtain ⟨h₂, hnew₂⟩ := hread (trans_of OnlyReads hr₁ hr₂)
        dsimp only
        refine wp_ite (fun _ => wp_writeReceipt_atSeam h₂ hnew₂ _ _ _) fun _ => ?_
        rw [wp_bind]
        refine wp_mono (onlyReadsFrame.buildPayload _ _ _ w₂) ?_ (fun _ _ hr => h₂.of_reads hr)
          (fun _ hr => h₂.of_reads hr)
        intro payload w₃ hr₃
        obtain ⟨h₃, hnew₃⟩ := hread (trans_of OnlyReads (trans_of OnlyReads hr₁ hr₂) hr₃)
        exact wp_publishPayload_atSeam h₃ hnew₃ _ _ _

theorem wp_applyWeights_extends (h : AtSeam env Own s.epochId w) (hnew : ¬ Called w.trace s.epochId)
    (client : ChainClient) (fallbackReason : String) :
    wp (client.applyWeights env substrate A s fallbackReason)
      (Post.always fun w' => AtSeam env Own s.epochId w' ∧ Extends w w') w :=
  wp_and (wp_applyWeights_atSeam h hnew client fallbackReason)
    ((extendsFrame s.epochId).applyWeights client fallbackReason w)

end

/-! ## the record of the epoch -/

/-- no submitting epoch has a marker -/
def Unmarked (env : Env) (files : Files) : Prop := ∀ s, Persisted env files s → ¬ Pending files s

/-- what holds when a part of the tick raises: an epoch with a marker is not given up -/
def LawfulRaise (env : Env) (Own : OwnUpdates) (e : Exn) (w : World) : Prop :=
  Journaled (RunLaw env Own) w ∧ (e.Other ∨ Unmarked env w.files)

/-- how a part of the tick ends -/
def LawfulPost (env : Env) (Own : OwnUpdates) {α : Type} (R : α → World → Prop) :
    Post World Exn α where
  ok a w' := Journaled (RunLaw env Own) w' ∧ R a w'
  raise := LawfulRaise env Own
  killed w' := Journaled (RunLaw env Own) w'

/-- the epoch is submitting, with a marker -/
structure WithMarker (env : Env) (Own : OwnUpdates) (epochId : Int) (w : World) : Prop where
  journaled : Journaled (RunLaw env Own) w
  awaits : Awaits env w.files epochId
  marked : (w.files (.epoch epochId .completion)).isSome

section
variable {env : Env} {Own : OwnUpdates} {cfg : SubnetConfig} {A : FloatOps}
  {epochId quota : Int} {w : World}

theorem AtSeam.raise (h : AtSeam env Own epochId w) (e : Exn) : LawfulRaise env Own e w := by
  refine ⟨h.journaled, .inr fun s hs hpending => ?_⟩
  obtain ⟨s', hs', hactive, _⟩ := h.awaits
  obtain rfl : s' = s := Except.ok.inj (hs'.symm.trans hs)
  obtain ⟨id, hid, _, hmarker⟩ := hpending
  obtain rfl := Option.some.inj (hactive.symm.trans hid)
  rw [h.unmarked] at hmarker
  exact nomatch hmarker

/-- the panel sidecar is the one file of an epoch that is not written atomically -/
theorem wp_persistPanelSidecar_atSeam (h : AtSeam env Own epochId w) (session : PanelSession) :
    wp (persistPanelSidecar env cfg session epochId) (Post.always (AtSeam env Own epochId)) w := by
  have hne : EpochFile.panelSidecar ≠ .completion := by decide
  unfold persistPanelSidecar
  rw [wp_bind, wp_ofExcept]
  refine ⟨fun sidecar _ => ?_, fun _ _ => h⟩
  dsimp only
  cases sidecar with
  | none => exact h.wp_write_always hne trivial
  | some sidecar =>
    dsimp only
    rw [wp_bind, wp_bind]
    have hclock : AtSeam env Own epochId w.tickClock := h.of_reads ⟨rfl, rfl⟩
    have hwhole := hclock.put (c := .doc (Json.canon (.obj sidecar))) hne trivial
    have hcut := hclock.put (c := .raw (env.tornBytes w.clock)) hne trivial
    refine wp_effectful ?_ (fun _ => hcut) (fun _ => hwhole) hcut hwhole
    dsimp only
    rw [wp_bind, wp_get]
    dsimp only
    rw [wp_ofExcept]
    exact ⟨fun payload _ => hwhole.wp_write_always hne trivial, fun _ _ => hwhole⟩

/-- the marker is written, and accepted -/
theorem wp_writeEpochCompletionMarker_lawful (h : AtSeam env Own epochId w)
    (r : ChainWeightResult) :
    wp (writeEpochCompletionMarker env epochId r)
      ⟨fun _ w' => WithMarker env Own epochId w', LawfulRaise env Own,
        fun w' => Journaled (RunLaw env Own) w'⟩ w := by
  unfold writeEpochCompletionMarker
  refine wp_ite (fun _ => h.raise _) fun _ => ?_
  rw [wp_bind, wp_ofExcept]
  refine ⟨fun _ _ => ?_, fun e _ => h.raise e⟩
  dsimp only
  rw [wp_bind, wp_get]
  dsimp only
  rw [wp_bind, wp_ofExcept]
  refine ⟨fun marker _ => ?_, fun e _ => h.raise e⟩
  dsimp only
  rw [wp_bind]
  have hcut : AtSeam env Own epochId w.tickClock := h.of_reads ⟨rfl, rfl⟩
  generalize hmarker : Content.doc (Json.canon (.obj marker)) = c
  have hput : Journaled (RunLaw env Own) (w.tickClock.put (.epoch epochId .completion) c) := by
    refine hcut.journaled.put ⟨?_, trivial⟩
    rw [← hcut.journaled.files]
    exact hcut.awaits
  have hmarked : WithMarker env Own epochId (w.tickClock.put (.epoch epochId .completion) c) := by
    obtain ⟨s, hs, hactive, hphase⟩ := h.awaits
    refine ⟨hput, ⟨s, ?_, hactive, hphase⟩, ?_⟩
    · unfold Persisted
      rw [World.put_of_ne (by simp)]
      exact hs
    · rw [World.put_self]
      rfl
  unfold atomicWriteJson
  rw [hmarker]
  refine wp_effectful ?_ (fun _ => hcut.raise _) (fun i => ⟨hput, .inl i.other⟩) hcut.journaled hput
  dsimp only
  rw [wp_bind, wp_get]
  dsimp only
  rw [wp_bind, wp_ofExcept]
  exact ⟨fun _ _ => hmarked, fun e he => ⟨hput, .inl (other_verifyEpochCompletion e he)⟩⟩

/-- the rolling state is published, and the epoch is committed -/
theorem wp_publish_lawful (h : WithMarker env Own epochId w) (id : Nat) (rolling : Obj)
    {α : Type} (a : α) :
    wp (do
        atomicWriteJson env .minerState (.obj rolling)
        emitPhase (some (ValidatorTick.phaseHook env id)) "committed"
        pure a) (LawfulPost env Own fun _ _ => True) w := by
  have hcut : Journaled (RunLaw env Own) w.tickClock := h.journaled.of_reads ⟨rfl, rfl⟩
  have hput : Journaled (RunLaw env Own)
      (w.tickClock.put .minerState (.doc (Json.canon (.obj rolling)))) := by
    refine hcut.put ⟨epochId, ?_, ?_⟩
    · rw [← hcut.files]
      exact h.awaits
    · rw [← hcut.files]
      exact h.marked
  rw [wp_bind]
  refine wp_effectful ?_ (fun i => ⟨hcut, .inl i.other⟩) (fun i => ⟨hput, .inl i.other⟩) hcut hput
  dsimp only
  show wp (((ValidatorTick.transition env id .committed) >>= fun _ => pure ()) >>= fun _ => pure a)
    _ _
  rw [wp_bind, wp_bind]
  refine wp_mono
    ((other_transition id .committed).and (wp_transition (runLaw_store env Own) hput id _))
    ?_ ?_ (fun _ h' => h')
  · intro _ w' h'
    exact ⟨h'.1, trivial⟩
  · intro e w' h'
    exact ⟨h'.1.1, .inl h'.2⟩

/-- the averages are the epoch's own update of what it has loaded -/
def UpdatesLoaded (env : Env) (Own : OwnUpdates) (past : List Event) (epochId : Int)
    (emaState : Dict String ℚ) : Prop :=
  ∃ loaded rolling since update previous,
    past = loaded ++ .emaLoaded epochId rolling :: since ∧ Own loaded epochId update ∧
    minerStateOf env rolling = .ok previous ∧ emaState = update.apply previous

theorem UpdatesLoaded.extends {past : List Event} {emaState : Dict String ℚ}
    (h : UpdatesLoaded env Own past epochId emaState) (events : List Event) :
    UpdatesLoaded env Own (past ++ events) epochId emaState := by
  obtain ⟨loaded, rolling, since, update, previous, hpast, h⟩ := h
  refine ⟨loaded, rolling, since ++ events, update, previous, ?_, h⟩
  rw [hpast, List.append_assoc, List.cons_append]

theorem wp_recordEpoch_lawful (h : AtSeam env Own epochId w) {scores : EpochScores}
    (hema : UpdatesLoaded env Own w.trace epochId scores.emaState) (session : PanelSession)
    (g : Aggregate) (r : ChainWeightResult) (id : Nat) :
    wp (recordEpoch env cfg epochId quota session g scores r
      (some (ValidatorTick.phaseHook env id))) (LawfulPost env Own fun _ _ => True) w := by
  unfold recordEpoch
  rw [wp_bind, wp_now]
  dsimp only
  rw [wp_bind, wp_get]
  dsimp only
  rw [wp_bind, wp_ofExcept]
  refine ⟨fun artifact _ => ?_, fun e _ => h.raise e⟩
  dsimp only
  rw [wp_bind]
  unfold saveMinerState
  refine h.wp_write ?_ ?_ ?_ (fun e _ h₁ => h₁.raise e) (fun _ h₁ => h₁.journaled)
  · decide
  · obtain ⟨loaded, rolling, since, update, previous, hpast, hown, hprevious, hstate⟩ := hema
    refine ⟨loaded, rolling, since, update, previous, hpast, hown, hprevious, ?_⟩
    rw [← hstate, Json.canon_obj', canon_scoresRecord]
  intro w₁ h₁ _ _
  dsimp only
  rw [wp_bind]
  refine wp_mono (wp_persistPanelSidecar_atSeam h₁ session) ?_ (fun e _ h₂ => h₂.raise e)
    (fun _ h₂ => h₂.journaled)
  intro _ w₂ h₂
  dsimp only
  rw [wp_bind]
  refine h₂.wp_write ?_ ?_ ?_ (fun e _ h₃ => h₃.raise e) (fun _ h₃ => h₃.journaled)
  · decide
  · exact trivial
  intro w₃ h₃ _ _
  dsimp only
  refine wp_ite (fun _ => h₃.raise _) fun _ => ?_
  rw [wp_bind]
  refine wp_mono (wp_writeEpochCompletionMarker_lawful h₃ r) ?_ (fun _ _ h₄ => h₄)
    (fun _ h₄ => h₄)
  intro _ w₄ h₄
  exact wp_publish_lawful h₄ id _ _

end

/-! ## the evaluation -/

section
variable {env : Env} {Own : OwnUpdates} {engine : Engine} {A : FloatOps} {cfg : SubnetConfig}
  {epochId quota : Int}

theorem quiet_terminalOutcomes (miners : List Miner) :
    Moves Quiet (terminalOutcomes env epochId miners) := by
  induction miners with
  | nil => exact Moves.pure _
  | cons miner miners ih =>
    unfold terminalOutcomes
    cases terminalOutcome miner with
    | none => exact ih
    | some terminal =>
      exact Moves.bind (quiet_appendSubmission _) fun _ => Moves.bind ih fun _ => Moves.pure _

theorem quiet_recordPanel (plan : PanelPlan) (session : PanelSession)
    (outcome : SubmissionOutcome) : Moves Quiet (recordPanel env A plan session outcome) := by
  refine Moves.ite ?_ (Moves.ite ?_ (Moves.pure _))
  · refine Moves.bind (Moves.ofExcept _) fun _ => Moves.bind (Moves.ofExcept _) fun _ => ?_
    exact Moves.bind (quietFrame.toEngineFrame.record _ _ _ _ _ _) fun _ => Moves.pure _
  · exact Moves.bind (quietFrame.toEngineFrame.record _ _ _ _ _ _) fun _ => Moves.pure _

theorem quiet_evaluateSubmission (e : Evaluation) (miner : Miner) (payload : Obj) :
    Moves Quiet (evaluateSubmission env engine A cfg epochId e miner payload) := by
  refine Moves.bind (Moves.ofExcept _) fun planned => ?_
  refine Moves.bind (quietFrame.validateSubmission _ _ _ _) fun validated => ?_
  refine Moves.bind (quiet_recordPanel _ _ _) fun recorded => ?_
  exact Moves.bind (quiet_appendSubmission _) fun _ => Moves.pure _

theorem quiet_evaluateAll (collected : List (Miner × Obj)) (e : Evaluation) :
    Moves Quiet (evaluateAll env engine A cfg epochId collected e) := by
  induction collected generalizing e with
  | nil => exact Moves.pure _
  | cons p collected ih => exact Moves.bind (quiet_evaluateSubmission e _ _) fun e' => ih e'

/-- the evaluation leaves the files, the ticks and the journal's facts about them -/
theorem quiet_evaluateEpoch (miners : List Miner) :
    Moves Quiet (evaluateEpoch env engine A cfg epochId quota miners) := by
  refine Moves.bind quietFrame.toEngineFrame.initArchive fun _ => ?_
  refine Moves.bind quiet_repairJsonlTail fun _ => Moves.bind Moves.get fun w => ?_
  refine Moves.bind (Moves.ofExcept _) fun session => ?_
  exact Moves.bind (quiet_terminalOutcomes _) fun _ => quiet_evaluateAll _ _

theorem Journaled.of_quiet {w w' : World} (h : Journaled (RunLaw env Own) w) (hq : Quiet w w') :
    Journaled (RunLaw env Own) w' := by
  obtain ⟨events, htrace, hquiet⟩ := hq.trace
  have hadded : ∀ (events : List Event) (past : List Event), (∀ e ∈ events, e.quiet) →
      archiveOf (past ++ events) = archiveOf past := by
    intro events past hevents
    induction events using List.reverseRecOn with
    | nil => rw [List.append_nil]
    | append_singleton events e ih =>
      have he : e.quiet := hevents e (List.mem_append_right _ (List.mem_singleton_self e))
      rw [← List.append_assoc, archiveOf_snoc]
      cases e with
      | pipelineRan => exact ih fun e' he' => hevents e' (List.mem_append_left _ he')
      | wrote => exact he.elim
      | verified => exact he.elim
      | setWeights => exact he.elim
      | tickEntered => exact he.elim
      | emaLoaded => exact he.elim
  refine ⟨?_, ?_⟩
  · rw [hq.files, h.files, htrace, hadded events _ hquiet]
  · rw [htrace]
    refine h.lawful.append_all fun e he past => ?_
    have hquiet := hquiet e he
    cases e with
    | pipelineRan => trivial
    | wrote => exact hquiet.elim
    | verified => exact hquiet.elim
    | setWeights => exact hquiet.elim
    | tickEntered => exact hquiet.elim
    | emaLoaded => exact hquiet.elim

end

/-! ## the epoch -/

/-- the epoch is active, before its weights -/
structure Working (env : Env) (Own : OwnUpdates) (epochId : Int) (phase : ValidatorPhase)
    (w : World) : Prop where
  journaled : Journaled (RunLaw env Own) w
  inPhase : InPhase env w.files epochId phase
  before : BeforeWeights (some phase)

section
variable {env : Env} {Own : OwnUpdates} {epochId : Int} {phase : ValidatorPhase} {w : World}

/-- nothing was written or submitted for such an epoch -/
theorem Working.untouched (h : Working env Own epochId phase w) :
    (∀ file, w.files (.epoch epochId file) = none) ∧ ¬ Called w.trace epochId := by
  obtain ⟨s, hs, hactive, hphase⟩ := h.inPhase
  obtain ⟨s', hs', _, hrun⟩ := runInv_of_lawful h.journaled.lawful
  rw [← h.journaled.files] at hs'
  obtain rfl : s' = s := Except.ok.inj (hs'.symm.trans hs)
  have hnew := hrun.untouched epochId (.inr ⟨hactive, hphase ▸ h.before⟩)
  refine ⟨fun file => ?_, hnew.2⟩
  rw [h.journaled.files]
  exact hnew.1 file

theorem Working.raise (h : Working env Own epochId phase w) (e : Exn) :
    LawfulRaise env Own e w := by
  refine ⟨h.journaled, .inr fun s hs hpending => ?_⟩
  obtain ⟨s', hs', hactive, hphase⟩ := h.inPhase
  obtain rfl : s' = s := Except.ok.inj (hs'.symm.trans hs)
  obtain ⟨_, _, hsubmitting, _⟩ := hpending
  rw [Option.some.inj (hphase.symm.trans hsubmitting)] at h
  rcases h.before with (hp | hp) | hp
  · exact nomatch hp
  · exact nomatch hp
  · exact nomatch hp

theorem Working.of_quiet {w' : World} (h : Working env Own epochId phase w) (hq : Quiet w w') :
    Working env Own epochId phase w' := by
  refine ⟨h.journaled.of_quiet hq, ?_, h.before⟩
  rw [hq.files]
  exact h.inPhase

theorem Working.of_reads {w' : World} (h : Working env Own epochId phase w) (hr : OnlyReads w w') :
    Working env Own epochId phase w' := by
  refine ⟨h.journaled.of_reads hr, ?_, h.before⟩
  rw [hr.files]
  exact h.inPhase

/-- a transition to a phase other than `committed` is one of the active epoch -/
theorem wp_transition_working {α : Type} {k : ValidatorRuntimeState → M α} {Q : Post World Exn α}
    (h : Working env Own epochId phase w) {next : ValidatorPhase} (hne : next ≠ .committed)
    (id : Nat)
    (hraise : ∀ e w', LawfulRaise env Own e w' → Q.raise e w')
    (hkilled : ∀ w', Journaled (RunLaw env Own) w' → Q.killed w')
    (hk : ∀ t w', ValidatorTick.transition env id next w = (.ok t, w') →
      Journaled (RunLaw env Own) w' → InPhase env w'.files epochId next → OnlyState w w' →
      wp (k t) Q w') :
    wp (ValidatorTick.transition env id next >>= k) Q w := by
  rw [wp_bind]
  have hpost := (other_transition id next).and
    (wp_transition (runLaw_store env Own) h.journaled id next)
  refine wp_mono (wp_and hpost (wp_self_ok _ _)) ?_
    (fun e w' h' => hraise e w' ⟨h'.1.1.1, .inl h'.1.2⟩) (fun w' h' => hkilled w' h'.1)
  intro t w' h'
  obtain ⟨h', hrun⟩ := h'
  obtain ⟨hJ', id', ⟨s', hs', hactive'⟩, u, hu, huactive, huphase, honly⟩ := h'
  obtain ⟨s, hs, hactive, _⟩ := h.inPhase
  obtain rfl : s' = s := Except.ok.inj (hs'.symm.trans hs)
  obtain rfl := Option.some.inj (hactive.symm.trans hactive')
  exact hk t w' hrun hJ' ⟨u, hu, huactive, huphase⟩ (honly hne)

/-- at the seam the epoch is still untouched -/
theorem Working.atSeam {w' : World} (h : Working env Own epochId phase w)
    (hJ : Journaled (RunLaw env Own) w') (hawaits : Awaits env w'.files epochId)
    (honly : OnlyState w w') : AtSeam env Own epochId w' ∧ ¬ Called w'.trace epochId := by
  obtain ⟨hfiles, hcalled⟩ := h.untouched
  refine ⟨⟨hJ, hawaits, ?_⟩, ?_⟩
  · rw [honly.files _ (by simp)]
    exact hfiles _
  · obtain ⟨events, htrace, hevents⟩ := honly.trace
    intro hcalled'
    obtain ⟨uids, weights, versionKey, hmem⟩ := hcalled'
    rw [htrace] at hmem
    rcases List.mem_append.mp hmem with hmem | hmem
    · exact hcalled ⟨uids, weights, versionKey, hmem⟩
    · obtain ⟨c, hc⟩ := hevents _ hmem
      exact nomatch hc

end

section
variable {env : Env} {Own : OwnUpdates} {engine : Engine} {substrate : Substrate} {A : FloatOps}
  {cfg : SubnetConfig}
  {epochId quota : Int} {w : World}

theorem wp_concludeEpoch_lawful (h : Working env Own epochId .evaluating w) {miners : List Miner}
    (client : ChainClient) (id : Nat) {outcomes : List (Miner × SubmissionOutcome)}
    (session : PanelSession)
    (hown : ∀ g, aggregateOutcomes (miners.map (·.hotkey)) outcomes = .ok g →
      Own w.trace epochId (emaUpdate A cfg.emaAlpha quota g)) :
    wp (concludeEpoch env substrate A cfg epochId quota miners (some client)
      (some (ValidatorTick.phaseHook env id)) outcomes session)
      (LawfulPost env Own fun _ _ => True) w := by
  unfold concludeEpoch
  dsimp only
  rw [wp_bind, wp_ofExcept]
  refine ⟨fun g hg => ?_, fun e _ => h.raise e⟩
  dsimp only
  unfold loadMinerState
  rw [wp_bind, wp_bind, wp_get]
  dsimp only
  rw [wp_bind, wp_logEvent]
  dsimp only
  have hlogged : Working env Own epochId .evaluating
      (w.log (.emaLoaded epochId (w.files .minerState))) := by
    refine ⟨h.journaled.log trivial ⟨?_, ?_⟩, h.inPhase, h.before⟩
    · rw [h.journaled.files]
    · rw [← h.journaled.files]
      exact h.inPhase
  have hloaded : (w.log (.emaLoaded epochId (w.files .minerState))).trace =
      w.trace ++ [.emaLoaded epochId (w.files .minerState)] := rfl
  generalize w.log (.emaLoaded epochId (w.files .minerState)) = w₁ at hlogged hloaded
  rw [wp_ofExcept]
  refine ⟨fun previous hprevious => ?_, fun e _ => hlogged.raise e⟩
  dsimp only
  generalize hscores : scoreEpoch A cfg.emaAlpha quota _ previous g _ = scores
  have hupdates : UpdatesLoaded env Own w₁.trace epochId scores.emaState := by
    rw [← hscores]
    exact ⟨_, _, [], _, previous, hloaded, hown g hg, hprevious, rfl⟩
  show wp ((ValidatorTick.transition env id .weightsSubmitting >>= fun _ => pure ()) >>= _) _ _
  rw [bind_assoc]
  refine wp_transition_working hlogged (by decide) id (fun _ _ h' => h') (fun _ h' => h')
    fun _ w₂ _ hJ₂ hawaits honly => ?_
  obtain ⟨h₂, hnew⟩ := hlogged.atSeam hJ₂ hawaits honly
  rw [pure_bind, wp_bind]
  refine wp_mono (wp_applyWeights_extends h₂ hnew client _) ?_ (fun e _ h₃ => h₃.1.raise e)
    (fun _ h₃ => h₃.1.journaled)
  intro r w₃ h₃
  obtain ⟨h₃, hextends⟩ := h₃
  refine wp_recordEpoch_lawful h₃ ?_ session g r id
  obtain ⟨events, htrace, _⟩ := honly.trace
  obtain ⟨events', htrace'⟩ := hextends
  rw [← htrace', htrace]
  exact (hupdates.extends events).extends events'

theorem wp_runEpoch_lawful {phase : ValidatorPhase} (h : Working env Own epochId phase w)
    {miners : List Miner} (client : ChainClient) {id : Nat}
    (hown : ∀ w₁ e w₂ g, ValidatorTick.phaseHook env id "evaluating" w = (.ok (), w₁) →
      evaluateEpoch env engine A cfg epochId quota miners w₁ = (.ok e, w₂) →
      aggregateOutcomes (miners.map (·.hotkey)) e.outcomes = .ok g →
      Own w₂.trace epochId (emaUpdate A cfg.emaAlpha quota g)) :
    wp (runEpoch env engine substrate A cfg epochId quota miners (some client)
      (some (ValidatorTick.phaseHook env id))) (LawfulPost env Own fun _ _ => True) w := by
  unfold runEpoch
  show wp ((ValidatorTick.transition env id .evaluating >>= fun _ => pure ()) >>= _) _ _
  rw [bind_assoc]
  refine wp_transition_working h (by decide) id (fun _ _ h' => h') (fun _ h' => h')
    fun t w₁ hhook hJ₁ hphase _ => ?_
  have h₁ : Working env Own epochId .evaluating w₁ := ⟨hJ₁, hphase, .inr rfl⟩
  have hrun : ValidatorTick.phaseHook env id "evaluating" w = (.ok (), w₁) := by
    show (ValidatorTick.transition env id .evaluating >>= fun _ => pure ()) w = _
    rw [Proc.bind_of_ok hhook]
    rfl
  rw [pure_bind, wp_bind]
  refine wp_mono (wp_and (quiet_evaluateEpoch miners w₁) (wp_self_ok _ _)) ?_
    (fun e _ hq => (h₁.of_quiet hq.1).raise e) (fun _ hq => (h₁.of_quiet hq.1).journaled)
  intro e w₂ hq
  exact wp_concludeEpoch_lawful (h₁.of_quiet hq.1) client id _ fun g hg =>
    hown w₁ e w₂ g hrun hq.2 hg

end

/-! ## the tick -/

section
variable {env : Env} {Own : OwnUpdates} {engine : Engine} {substrate : Substrate} {A : FloatOps}
  {cfg : SubnetConfig}
  {network : MinerNetwork} {args : TickArgs} {epochId : Int} {w : World}

theorem onlyReads_tickEndpoints (client : ChainClient) :
    Moves OnlyReads (tickEndpoints env substrate network args client) := by
  refine Moves.ite (onlyReadsFrame.external _) ?_
  cases client with
  | null => exact Moves.raise _
  | subtensor chain =>
    refine Moves.bind onlyReadsFrame.connect fun _ => ?_
    refine Moves.bind (onlyReadsFrame.external _) fun hotkey => ?_
    exact Moves.bind (onlyReadsFrame.external _) fun rows => onlyReadsFrame.external _

theorem onlyReads_queryMinersForTick (client : ChainClient) (epochId : Int) :
    Moves OnlyReads (queryMinersForTick env substrate network args client epochId) :=
  Moves.bind (onlyReads_tickEndpoints client) fun _ =>
    Moves.ite (Moves.raise _) (onlyReadsFrame.external _)

/-- without a marker the weights of an epoch may be given up -/
theorem runLaw_failWeights (hJ : Journaled (RunLaw env Own) w) (hunmarked : Unmarked env w.files)
    (epochId : Int) (error : String) (s : ValidatorRuntimeState) (updatedAt : String)
    (hs : Persisted env w.files s) (hphase : s.phase = some .weightsSubmitting)
    (hactive : s.activeEpochId = some epochId)
    (hattempt : w.files (.epoch epochId .chainAttempt) = none)
    (hvalid : (failedState s error updatedAt).Valid) :
    RunLaw env Own w.trace (.wrote .state (stateContent (failedState s error updatedAt))) := by
  have hfollows : Follows env w.files s (failedState s error updatedAt) :=
    .weightsFailed _ _ hphase hactive (.inl hattempt)
  have hguard : MarkerGuard w.files s (failedState s error updatedAt) := by
    intro id hid hsubmitting _
    by_contra hmarker
    refine hunmarked s hs ⟨id, hid, hsubmitting, ?_⟩
    exact Option.isSome_iff_ne_none.mpr hmarker
  exact hJ.advance (runLaw_store env Own) hs hfollows hguard hvalid

/-- the handler of `EpochCompletionError` -/
theorem wp_failIncomplete_lawful {α : Type} {e : Exn} (h : LawfulRaise env Own e w) (id : Nat) :
    wp (failIncomplete env id e : M α) (Post.always (Journaled (RunLaw env Own))) w := by
  obtain ⟨hJ, hmarker⟩ := h
  unfold failIncomplete
  split
  · next mode reason =>
    have hunmarked := hmarker.resolve_left fun hother => hother mode reason rfl
    rw [wp_bind]
    unfold ValidatorTick.failWeights
    rw [wp_bind]
    refine ValidatorTick.wp_activeEpoch (fun epochId _ _ _ => ?_) hJ
    exact wp_mono (wp_failWeightsLocked_call (runLaw_store env Own) hJ epochId _
      (runLaw_failWeights hJ hunmarked epochId _)) (fun _ _ h' => h'.1) (fun _ _ h' => h'.1)
      (fun _ h' => h')
  · exact hJ

/-- the body of a tick as far as its epoch is evaluated -/
def evaluatedBody (env : Env) (substrate : Substrate) (network : MinerNetwork) (args : TickArgs)
    (engine : Engine) (A : FloatOps) (cfg : SubnetConfig) (client : ChainClient) (id : Nat)
    (epochId : Int) : M (List Miner × Evaluation) := do
  let _ ← ValidatorTick.markQuerying env id
  let miners ← queryMinersForTick env substrate network args client epochId
  ValidatorTick.phaseHook env id "evaluating"
  let e ← evaluateEpoch env engine A cfg epochId args.quota miners
  pure (miners, e)

/-- a tick as far as its epoch is evaluated: the epoch, its miners and their outcomes -/
def evaluatedTick (env : Env) (substrate : Substrate) (network : MinerNetwork) (args : TickArgs)
    (engine : Engine) (A : FloatOps) (cfg : SubnetConfig) (client : ChainClient) :
    M (Int × List Miner × Evaluation) := do
  Proc.modify fun w => { w with connected := false }
  let id ← newTick
  let epochId ← ValidatorTick.enter env id
  let (miners, e) ← evaluatedBody env substrate network args engine A cfg client id epochId
  pure (epochId, miners, e)

theorem wp_tickBody_lawful (h : Working env Own epochId .allocated w) {client : ChainClient}
    {id : Nat}
    (hown : ∀ miners e w' g, evaluatedBody env substrate network args engine A cfg client id epochId
        w = (.ok (miners, e), w') →
      aggregateOutcomes (miners.map (·.hotkey)) e.outcomes = .ok g →
      Own w'.trace epochId (emaUpdate A cfg.emaAlpha args.quota g)) :
    wp (tickBody env substrate network args engine A cfg client id epochId)
      (Post.always (Journaled (RunLaw env Own))) w := by
  refine wp_transition_working h (by decide) id (fun _ _ h' => h'.1) (fun _ h' => h')
    fun _ w₁ hquerying hJ₁ hphase _ => ?_
  have h₁ : Working env Own epochId .querying w₁ := ⟨hJ₁, hphase, .inl (.inr rfl)⟩
  rw [wp_bind]
  refine wp_mono (wp_and (onlyReads_queryMinersForTick client epochId w₁) (wp_self_ok _ _)) ?_
    (fun _ _ hr => (h₁.of_reads hr.1).journaled) (fun _ hr => (h₁.of_reads hr.1).journaled)
  intro miners w₂ hr
  obtain ⟨hr, hquery⟩ := hr
  have hown' : ∀ w₃ e w₄ g, ValidatorTick.phaseHook env id "evaluating" w₂ = (.ok (), w₃) →
      evaluateEpoch env engine A cfg epochId args.quota miners w₃ = (.ok e, w₄) →
      aggregateOutcomes (miners.map (·.hotkey)) e.outcomes = .ok g →
      Own w₄.trace epochId (emaUpdate A cfg.emaAlpha args.quota g) := by
    intro w₃ e w₄ g hhook he hg
    refine hown miners e w₄ g ?_ hg
    have hmark : ValidatorTick.markQuerying env id w = _ := hquerying
    unfold evaluatedBody
    rw [Proc.bind_of_ok hmark, Proc.bind_of_ok hquery, Proc.bind_of_ok hhook, Proc.bind_of_ok he]
    rfl
  dsimp only
  rw [wp_bind, wp_handle]
  refine wp_mono (wp_runEpoch_lawful (h₁.of_reads hr) client hown') ?_ ?_ (fun _ h' => h')
  · intro result w₃ h₃
    exact h₃.1
  · intro e w₃ h₃
    dsimp only
    exact wp_mono (wp_failIncomplete_lawful h₃ id) (fun _ _ h' => h') (fun _ _ h' => h')
      (fun _ h' => h')

/-- `with store.tick() as tick`, around a body that keeps the law -/
theorem wp_withTick_lawful {α : Type} {body : Nat → Int → M α} (hJ : Journaled (RunLaw env Own) w)
    (hbody : ∀ id w₁ epochId w', newTick w = (.ok id, w₁) →
      ValidatorTick.enter env id w₁ = (.ok epochId, w') → Working env Own epochId .allocated w' →
      wp (body id epochId) (Post.always (Journaled (RunLaw env Own))) w') :
    wp (withTick env body) (Post.always (Journaled (RunLaw env Own))) w := by
  have hlaw := runLaw_store env Own
  unfold withTick
  rw [wp_bind]
  unfold newTick
  rw [wp_bind, wp_get]
  dsimp only
  rw [wp_bind, wp_modify]
  dsimp only
  rw [wp_pure]
  dsimp only
  have hticked : Journaled (RunLaw env Own) { w with nextTick := w.nextTick + 1 } :=
    hJ.of_reads ⟨rfl, rfl⟩
  rw [wp_bind]
  refine wp_mono (wp_and (wp_enter hlaw hticked w.nextTick) (wp_self_ok _ _)) ?_
    (fun _ _ h' => h'.1.1) (fun _ h' => h'.1)
  intro epochId w₁ h₁
  obtain ⟨h₁, henter⟩ := h₁
  dsimp only
  rw [wp_bind, wp_handle]
  refine wp_mono (hbody w.nextTick _ epochId w₁ rfl henter ⟨h₁.1, h₁.2, .inl (.inl rfl)⟩) ?_ ?_
    (fun _ h' => h')
  · intro a w₂ hJ₂
    dsimp only
    rw [wp_bind]
    exact wp_mono (wp_exit hlaw hJ₂ w.nextTick none) (fun _ _ h' => h'.1) (fun _ _ h' => h'.1)
      (fun _ h' => h')
  · intro e w₂ hJ₂
    dsimp only
    rw [wp_bind]
    exact wp_mono (wp_exit hlaw hJ₂ w.nextTick (some e)) (fun _ _ h' => h'.1) (fun _ _ h' => h'.1)
      (fun _ h' => h')

/-- **A tick keeps the law**, however it ends, when the update that it makes of its own outcomes is
the one that is asked for. -/
theorem wp_tickCommand_lawful (hJ : Journaled (RunLaw env Own) w) {input : TickInput}
    (hown : ∀ cfg client epochId miners e w' g, prepareTick args input = .ok (cfg, client) →
      evaluatedTick env substrate network args engine A cfg client w =
        (.ok (epochId, miners, e), w') →
      aggregateOutcomes (miners.map (·.hotkey)) e.outcomes = .ok g →
      Own w'.trace epochId (emaUpdate A cfg.emaAlpha args.quota g)) :
    wp (tickCommand env substrate network args engine A input)
      (Post.always (Journaled (RunLaw env Own))) w := by
  unfold tickCommand
  rw [wp_bind, wp_ofExcept]
  refine ⟨fun prepared hprepared => ?_, fun _ _ => hJ⟩
  obtain ⟨cfg, client⟩ := prepared
  dsimp only
  rw [wp_bind, wp_modify]
  dsimp only
  have hconnected : Journaled (RunLaw env Own) { w with connected := false } :=
    hJ.of_reads ⟨rfl, rfl⟩
  rw [wp_bind]
  refine wp_mono (wp_withTick_lawful hconnected fun id w₁ epochId w' hnew henter h => ?_)
    (fun _ _ h' => h') (fun _ _ h' => h') (fun _ h' => h')
  refine wp_tickBody_lawful h fun miners e w₂ g hbody hg => ?_
  refine hown cfg client epochId miners e w₂ g hprepared ?_ hg
  have hstart : (Proc.modify fun w : World => { w with connected := false } : M Unit) w =
      (.ok (), { w with connected := false }) := rfl
  unfold evaluatedTick
  rw [Proc.bind_of_ok hstart, Proc.bind_of_ok hnew, Proc.bind_of_ok henter, Proc.bind_of_ok hbody]
  rfl

end

end Dolores
