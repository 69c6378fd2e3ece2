import Dolores.Epoch.Replay
import Dolores.Validator.TickFrame

/-!
# The submission log over the ticks

What is read of the log before a tick is read of it afterwards, followed by rows of the tick's own
epoch: a tick repairs the log before it appends, and an append that is cut off ends the tick.

* `RowsGrow`                 the rows stay, and the new ones belong to other epochs;
* `Env.SparesEpoch`          what is left of a later torn append is no whole row of the epoch;
* `LogKept`                  the log stays as it is, while time goes on;
* `wp_appendOutcome_grows`   one append;
* `wp_evaluateEpoch_grows`   the evaluation of an epoch;
* `wp_tickCommand_grows`     a tick that is not given the epoch.
-/

set_option linter.unusedSectionVars false

namespace Dolores
open Crash Except

/-- the row names another epoch -/
def RowElsewhere (epochId : Int) (row : Obj) : Prop :=
  ∃ id, Dict.get? row "epoch_id" = some (.int id) ∧ id ≠ epochId

/-- time goes on, the rows that are read stay in place, and those that follow them belong to other
epochs -/
structure RowsGrow (epochId : Int) (w w' : World) : Prop where
  clock : w.clock ≤ w'.clock
  rows : ∀ log rows, w.submissions = some log → readJsonl log = .ok rows →
    ∃ log' new, w'.submissions = some log' ∧ readJsonl log' = .ok (rows ++ new) ∧
      ∀ row ∈ new, RowElsewhere epochId row

instance (epochId : Int) : IsPreorder World (RowsGrow epochId) where
  refl w := ⟨le_rfl, fun log rows hlog hrows =>
    ⟨log, [], hlog, by rw [List.append_nil, hrows], fun _ h => (List.not_mem_nil h).elim⟩⟩
  trans := by
    intro w w' w'' h h'
    refine ⟨h.clock.trans h'.clock, fun log rows hlog hrows => ?_⟩
    obtain ⟨log', new, hlog', hrows', hnew⟩ := h.rows log rows hlog hrows
    obtain ⟨log'', new', hlog'', hrows'', hnew'⟩ := h'.rows log' _ hlog' hrows'
    refine ⟨log'', new ++ new', hlog'', by rw [hrows'', List.append_assoc], fun row hrow => ?_⟩
    rcases List.mem_append.mp hrow with hrow | hrow
    · exact hnew row hrow
    · exact hnew' row hrow

/-- the log is there and ends in a newline -/
def Terminated (w : World) : Prop := ∃ log, w.submissions = some log ∧ log.tail = none

/-- what is left of an append that is cut off from the time `c` on is no whole row of the epoch -/
def Env.SparesEpoch (env : Env) (epochId : Int) (c : Nat) : Prop :=
  ∀ n j, c ≤ n → env.torn n = some (.value j) → ∃ row, j = .obj row ∧ RowElsewhere epochId row

theorem Env.SparesEpoch.mono {env : Env} {epochId : Int} {c c' : Nat}
    (h : env.SparesEpoch epochId c) (hc : c ≤ c') : env.SparesEpoch epochId c' :=
  fun n j hn => h n j (hc.trans hn)

/-- the log stays as it is, while time goes on -/
structure LogKept (w w' : World) : Prop where
  clock : w.clock ≤ w'.clock
  log : SameLog w w'

instance : IsPreorder World LogKept where
  refl w := ⟨le_rfl, refl_of SameLog w⟩
  trans _ _ _ h h' := ⟨h.clock.trans h'.clock, trans_of SameLog h.log h'.log⟩

theorem LogKept.of_eq {w w' : World} (hclock : w.clock ≤ w'.clock)
    (h : w'.submissions = w.submissions) : LogKept w w' := ⟨hclock, .of_eq h⟩

section
variable {epochId : Int} {w w' : World}

theorem LogKept.rowsGrow (h : LogKept w w') : RowsGrow epochId w w' := by
  refine ⟨h.clock, fun log rows hlog hrows => ?_⟩
  refine ⟨log, [], h.log log hlog, ?_, fun _ h => (List.not_mem_nil h).elim⟩
  rw [List.append_nil, hrows]

theorem LogKept.terminated (h : LogKept w w') (ht : Terminated w) : Terminated w' := by
  obtain ⟨log, hlog, htail⟩ := ht
  exact ⟨log, h.log log hlog, htail⟩

/-- the submission log is not touched outside of the evaluation -/
theorem logKept_commandFrame : CommandFrame LogKept where
  clock w := .of_eq (Nat.le_succ w.clock) rfl
  put _ _ _ := .of_eq le_rfl rfl
  event _ _ _ := .of_eq le_rfl rfl
  owner _ _ := .of_eq le_rfl rfl
  ticks _ _ := .of_eq le_rfl rfl
  nextTick _ _ := .of_eq le_rfl rfl
  connected _ _ := .of_eq le_rfl rfl

theorem logKept_log (w : World) (e : Event) : LogKept w (w.log e) := .of_eq le_rfl rfl

/-- nor by what the evaluation does besides its appends -/
theorem logKept_evaluationFrame : EvaluationFrame LogKept where
  clock := logKept_commandFrame.clock
  db _ _ := .of_eq le_rfl rfl
  panelCache _ _ := .of_eq le_rfl rfl
  createLog w := ⟨le_rfl, sameLogFrame.createLog w⟩
  pipelineRan _ _ _ := .of_eq le_rfl rfl

theorem logKept_recordPanel {env : Env} {A : FloatOps} (plan : PanelPlan) (session : PanelSession)
    (outcome : SubmissionOutcome) : Moves LogKept (recordPanel env A plan session outcome) := by
  refine Moves.ite ?_ (Moves.ite ?_ (Moves.pure _))
  · refine Moves.bind (Moves.ofExcept _) fun _ => Moves.bind (Moves.ofExcept _) fun _ => ?_
    exact Moves.bind (logKept_evaluationFrame.record _ _ _ _ _ _) fun _ => Moves.pure _
  · exact Moves.bind (logKept_evaluationFrame.record _ _ _ _ _ _) fun _ => Moves.pure _

/-! ## one append -/

theorem rowsGrow_of_read {log log' : Log} (hclock : w.clock ≤ w'.clock)
    (hlog : w.submissions = some log)
    (hlog' : w'.submissions = some log')
    (h : ∀ rows, readJsonl log = .ok rows →
      ∃ new, readJsonl log' = .ok (rows ++ new) ∧ ∀ row ∈ new, RowElsewhere epochId row) :
    RowsGrow epochId w w' := by
  refine ⟨hclock, fun log₀ rows hlog₀ hrows => ?_⟩
  obtain rfl : log = log₀ := Option.some.inj (hlog.symm.trans hlog₀)
  obtain ⟨new, hread, hnew⟩ := h rows hrows
  exact ⟨log', new, hlog', hread, hnew⟩

/-- a terminated log is read line by line -/
theorem readJsonl_of_terminated {log : Log} (htail : log.tail = none) :
    readJsonl log = log.lines.foldlM readLine [] := by
  unfold readJsonl
  rw [htail]
  cases List.foldlM readLine [] log.lines <;> rfl

theorem readJsonl_append {log : Log} {rows : List Obj} (htail : log.tail = none)
    (h : readJsonl log = .ok rows) (row : Obj) :
    readJsonl (log.append (.obj row)) = .ok (rows ++ [row]) := by
  rw [readJsonl_of_terminated htail] at h
  unfold Log.append
  rw [htail]
  show readJsonl { lines := log.lines ++ [.value (.obj row)] } = _
  rw [readJsonl_of_terminated rfl]
  show List.foldlM readLine [] (log.lines ++ [.value (.obj row)]) = _
  rw [List.foldlM_append, h]
  rfl

/-- what is torn is not read, unless it is a whole row -/
theorem readJsonl_tear {log : Log} {rows : List Obj} (htail : log.tail = none)
    (h : readJsonl log = .ok rows) {torn : Option Line}
    (htorn : ∀ j, torn = some (.value j) → ∃ row, j = .obj row ∧ RowElsewhere epochId row) :
    ∃ new, readJsonl (log.tear torn) = .ok (rows ++ new) ∧
      ∀ row ∈ new, RowElsewhere epochId row := by
  have hlines : log.lines.foldlM readLine [] = .ok rows := by
    rw [← readJsonl_of_terminated htail]
    exact h
  have hnone : ∀ row ∈ ([] : List Obj), RowElsewhere epochId row :=
    fun _ h => (List.not_mem_nil h).elim
  have hunread : ∀ log' : Log, readJsonl log' = .ok rows → ∃ new,
      readJsonl log' = .ok (rows ++ new) ∧ ∀ row ∈ new, RowElsewhere epochId row := by
    intro log' h'
    exact ⟨[], by rw [List.append_nil, h'], hnone⟩
  unfold Log.tear
  rw [htail]
  cases torn with
  | none => exact hunread _ (by rw [← h]; unfold readJsonl; rw [htail])
  | some line =>
    dsimp only
    have hread : line ≠ .bad → readJsonl { log with tail := some line } = readLine rows line := by
      intro hwhole
      unfold readJsonl
      rw [hlines, Except.ok_bind]
      cases line with
      | bad => exact (hwhole rfl).elim
      | blank => rfl
      | value j => rfl
    cases line with
    | blank => exact hunread _ (hread nofun)
    | bad =>
      refine hunread _ ?_
      unfold readJsonl
      rw [hlines]
      rfl
    | value j =>
      obtain ⟨row, rfl, hrow⟩ := htorn j rfl
      refine ⟨[row], hread nofun, fun r hr => ?_⟩
      rw [List.mem_singleton.mp hr]
      exact hrow

/-- how a part of the evaluation ends: the rows grow, and a part that returns has ended its line -/
def GrowPost (epochId : Int) (w : World) {α : Type} : Post World Exn α where
  ok _ w' := RowsGrow epochId w w' ∧ Terminated w'
  raise _ w' := RowsGrow epochId w w'
  killed w' := RowsGrow epochId w w'

theorem Moves.grows {α : Type} {p : M α} {w₀ : World} (hp : Moves LogKept p)
    (hg : RowsGrow epochId w₀ w) (ht : Terminated w) : wp p (GrowPost epochId w₀) w := by
  have hrows : ∀ {w'}, LogKept w w' → RowsGrow epochId w₀ w' := fun h =>
    trans_of (RowsGrow epochId) hg h.rowsGrow
  exact wp_mono (hp w) (fun _ _ h => ⟨hrows h, h.terminated ht⟩) (fun _ _ h => hrows h)
    fun _ h => hrows h

theorem wp_bind_grows {α β : Type} {p : M α} {f : α → M β} {w₀ : World}
    (hp : wp p (GrowPost epochId w₀) w)
    (hf : ∀ a w', RowsGrow epochId w₀ w' → Terminated w' → wp (f a) (GrowPost epochId w₀) w') :
    wp (p >>= f) (GrowPost epochId w₀) w := by
  rw [wp_bind]
  exact wp_mono hp (fun a w' h => hf a w' h.1 h.2) (fun _ _ h => h) fun _ h => h

variable {env : Env} {own : Int}

theorem wp_appendOutcome_grows {w₀ : World} (hspares : env.SparesEpoch epochId w₀.clock)
    (hown : own ≠ epochId) (hg : RowsGrow epochId w₀ w) (ht : Terminated w) (miner : Miner)
    (outcome : SubmissionOutcome) :
    wp (appendOutcome env own miner outcome) (GrowPost epochId w₀) w := by
  obtain ⟨log, hlog, htail⟩ := ht
  unfold appendOutcome appendSubmission
  rw [wp_bind, wp_now]
  dsimp only
  have hpayload : (if Dict.contains (outcome.toRecord own miner.hotkey miner.uid) "created_at" then
      outcome.toRecord own miner.hotkey miner.uid
      else Dict.set (outcome.toRecord own miner.hotkey miner.uid) "created_at"
        (.str (env.now w.clock))) = Dict.set (outcome.toRecord own miner.hotkey miner.uid)
          "created_at" (.str (env.now w.clock)) := rfl
  rw [hpayload]
  have hrow : RowElsewhere epochId (loggedRow own (miner, outcome) (env.now w.clock)) :=
    ⟨own, (rowOf_loggedRow (miner, outcome) _).epochId, hown⟩
  have hwhole : ∀ w' : World, w'.submissions = some (log.append
      (.obj (loggedRow own (miner, outcome) (env.now w.clock)))) → w.clock ≤ w'.clock →
      RowsGrow epochId w₀ w' ∧ Terminated w' := by
    intro w' hw' hclock
    refine ⟨trans_of (RowsGrow epochId) hg (rowsGrow_of_read hclock hlog hw' fun rows hrows => ?_),
      _, hw', rfl⟩
    refine ⟨_, readJsonl_append htail hrows _, fun row hr => ?_⟩
    rw [List.mem_singleton.mp hr]
    exact hrow
  have hcut : ∀ w' : World, w'.submissions = some (log.tear (env.torn w.clock)) →
      w.clock ≤ w'.clock → RowsGrow epochId w₀ w' := by
    intro w' hw' hclock
    refine trans_of (RowsGrow epochId) hg (rowsGrow_of_read hclock hlog hw' fun rows hrows => ?_)
    exact readJsonl_tear htail hrows fun j => hspares w.clock j hg.clock
  have hline : ∀ w' : World, w'.submissions = some log →
      some ((w'.submissions.getD {}).append (Json.canon (.obj (Dict.set
        (outcome.toRecord own miner.hotkey miner.uid) "created_at" (.str (env.now w.clock)))))) =
        some (log.append (.obj (loggedRow own (miner, outcome) (env.now w.clock)))) := by
    intro w' hw'
    rw [hw', Json.canon_obj']
    rfl
  have htorn : ∀ w' : World, w'.submissions = some log →
      some ((w'.submissions.getD {}).tear (env.torn w.clock)) =
        some (log.tear (env.torn w.clock)) := by
    intro w' hw'
    rw [hw']
    rfl
  have hlater : w.clock ≤ w.tickClock.clock := Nat.le_succ w.clock
  unfold appendSubmissionLine
  refine wp_effectful (hwhole _ (hline _ hlog) ?_) (fun _ => hcut _ (htorn _ hlog) ?_)
    (fun _ => (hwhole _ (hline _ hlog) ?_).1) (hcut _ (htorn _ hlog) ?_)
    (hwhole _ (hline _ hlog) ?_).1
  all_goals exact hlater

/-! ## the evaluation -/

variable {engine : Engine} {A : FloatOps} {cfg : SubnetConfig} {quota : Int}

theorem wp_terminalOutcomes_grows {w₀ : World} (hspares : env.SparesEpoch epochId w₀.clock)
    (hown : own ≠ epochId) (hg : RowsGrow epochId w₀ w) (ht : Terminated w) (miners : List Miner) :
    wp (terminalOutcomes env own miners) (GrowPost epochId w₀) w := by
  induction miners generalizing w with
  | nil => exact Moves.grows (Moves.pure _) hg ht
  | cons miner miners ih =>
    unfold terminalOutcomes
    split
    · exact ih hg ht
    · refine wp_bind_grows (wp_appendOutcome_grows hspares hown hg ht _ _) fun _ w₁ hg₁ ht₁ => ?_
      refine wp_bind_grows (ih hg₁ ht₁) fun rest w₂ hg₂ ht₂ => ?_
      exact Moves.grows (Moves.pure _) hg₂ ht₂

theorem wp_evaluateSubmission_grows {w₀ : World} (hspares : env.SparesEpoch epochId w₀.clock)
    (hown : own ≠ epochId) (hg : RowsGrow epochId w₀ w) (ht : Terminated w) (e : Evaluation) (miner : Miner)
    (payload : Obj) :
    wp (evaluateSubmission env engine A cfg own e miner payload) (GrowPost epochId w₀) w := by
  refine wp_bind_grows (Moves.grows (Moves.ofExcept _) hg ht) fun planned w₁ hg₁ ht₁ => ?_
  refine wp_bind_grows (Moves.grows (logKept_evaluationFrame.validateSubmission _ _ _ _) hg₁ ht₁)
    fun validated w₂ hg₂ ht₂ => ?_
  refine wp_bind_grows (Moves.grows (logKept_recordPanel _ _ _) hg₂ ht₂)
    fun recorded w₃ hg₃ ht₃ => ?_
  refine wp_bind_grows (wp_appendOutcome_grows hspares hown hg₃ ht₃ _ _) fun _ w₄ hg₄ ht₄ => ?_
  exact Moves.grows (Moves.pure _) hg₄ ht₄

theorem wp_evaluateAll_grows {w₀ : World} (hspares : env.SparesEpoch epochId w₀.clock)
    (hown : own ≠ epochId) (hg : RowsGrow epochId w₀ w) (ht : Terminated w) (collected : List (Miner × Obj))
    (e : Evaluation) :
    wp (evaluateAll env engine A cfg own collected e) (GrowPost epochId w₀) w := by
  induction collected generalizing w e with
  | nil => exact Moves.grows (Moves.pure _) hg ht
  | cons p collected ih =>
    refine wp_bind_grows (wp_evaluateSubmission_grows hspares hown hg ht e _ _) ?_
    exact fun e₁ w₁ hg₁ ht₁ => ih hg₁ ht₁ e₁

/-- a repair leaves the rows that were read, and a terminated log -/
theorem wp_repairJsonlTail_grows {log : Log} (hlog : w.submissions = some log) :
    wp (repairJsonlTail env) (GrowPost epochId w) w := by
  unfold repairJsonlTail
  rw [wp_bind, wp_get]
  dsimp only
  rw [hlog]
  dsimp only
  rw [wp_bind, wp_ofExcept]
  refine ⟨fun repaired hrepaired => ?_, fun _ _ => refl_of (RowsGrow epochId) w⟩
  obtain ⟨htail, rows, hread, hlines⟩ := repairedLog_rows hrepaired
  have hwhole : ∀ w' : World, w'.submissions = some repaired → w.clock ≤ w'.clock →
      RowsGrow epochId w w' ∧ Terminated w' := by
    intro w' hw' hclock
    refine ⟨rowsGrow_of_read hclock hlog hw' fun rows' hrows => ?_, repaired, hw', htail⟩
    obtain rfl : rows = rows' := Except.ok.inj (hread.symm.trans hrows)
    refine ⟨[], ?_, fun _ h => (List.not_mem_nil h).elim⟩
    rw [List.append_nil, readJsonl_of_terminated htail, hlines]
  have hlater : w.clock ≤ w.tickClock.clock := Nat.le_succ w.clock
  have hcut : RowsGrow epochId w w.tickClock := LogKept.rowsGrow (.of_eq hlater rfl)
  dsimp only
  split
  · next hnone =>
    exact ⟨refl_of (RowsGrow epochId) w, log, hlog, Option.isNone_iff_eq_none.mp hnone⟩
  · refine wp_effectful (hwhole _ rfl ?_) (fun _ => hcut) (fun _ => (hwhole _ rfl ?_).1) hcut
      (hwhole _ rfl ?_).1
    all_goals exact hlater

/-- the evaluation of another epoch -/
theorem wp_evaluateEpoch_grows (hspares : env.SparesEpoch epochId w.clock) (hown : own ≠ epochId)
    (miners : List Miner) :
    wp (evaluateEpoch env engine A cfg own quota miners) (Post.always (RowsGrow epochId w)) w := by
  unfold evaluateEpoch
  rw [wp_bind]
  refine wp_mono (wp_and (logKept_evaluationFrame.initArchive w) (wp_self_ok (initArchive env engine) w))
    ?_ (fun _ _ h => h.1.rowsGrow) (fun _ h => h.1.rowsGrow)
  intro _ w₁ h₁
  have hg₁ : RowsGrow epochId w w₁ := h₁.1.rowsGrow
  replace hspares := hspares.mono hg₁.clock
  have hthen : wp (do
      repairJsonlTail env
      let w ← Proc.get
      let session ← Proc.ofExcept (newPanelSession env cfg w.panelCache)
      let terminals ← terminalOutcomes env own miners
      evaluateAll env engine A cfg own (sortedCollected env.text (collect miners own quota))
        { outcomes := terminals, session, context := { quota } }) (GrowPost epochId w₁) w₁ := by
    refine wp_bind_grows (wp_repairJsonlTail_grows (run_initArchive h₁.2)) fun _ w₂ hg₂ ht₂ => ?_
    refine wp_bind_grows (Moves.grows Moves.get hg₂ ht₂) fun _ w₃ hg₃ ht₃ => ?_
    refine wp_bind_grows (Moves.grows (Moves.ofExcept _) hg₃ ht₃) fun session w₄ hg₄ ht₄ => ?_
    refine wp_bind_grows (wp_terminalOutcomes_grows hspares hown hg₄ ht₄ miners)
      fun terminals w₅ hg₅ ht₅ => ?_
    exact wp_evaluateAll_grows hspares hown hg₅ ht₅ _ _
  exact wp_mono hthen (fun _ _ h => trans_of (RowsGrow epochId) hg₁ h.1)
    (fun _ _ h => trans_of (RowsGrow epochId) hg₁ h)
    fun _ h => trans_of (RowsGrow epochId) hg₁ h

end

end Dolores
