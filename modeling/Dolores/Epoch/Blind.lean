import Dolores.Lib.TwoRuns
import Dolores.Epoch.Impl

/-!
# The evaluation does not read the submission log

Two runs of the evaluation from worlds that differ in the submission log alone end in the same way,
whatever each of them appends to its log.

* `SameButLog`                the worlds differ in the log alone;
* `ClockAgree`                relations that calls and effects preserve;
* `agree_validateSubmission`  one submission;
* `agree_evaluateAll`         the loop, with other outcomes before it.
-/

set_option linter.unusedSectionVars false

namespace Dolores
open Crash

/-! ## calls and effects -/

/-- related worlds have seen the same number of calls -/
structure ClockAgree (S : World → World → Prop) : Prop where
  clock : ∀ w v, S w v → w.clock = v.clock
  tick : ∀ w v, S w v → S w.tickClock v.tickClock

namespace ClockAgree

section
variable {S : World → World → Prop} (F : ClockAgree S) {env : Env} {α β : Type}
include F

/-- two calls whose answers are related -/
theorem external_both {R : α → β → Prop} {answer : Nat → Except Exn α}
    {answer' : Nat → Except Exn β} (hanswers : ∀ n, Except.Both R (answer n) (answer' n)) :
    Agree S R (external env answer) (external env answer') := by
  intro w v h
  have htick := F.tick w v h
  have hboth := hanswers w.clock
  unfold Dolores.external
  rw [← F.clock w v h]
  generalize answer w.clock = x at hboth
  generalize answer' w.clock = y at hboth
  cases hboth with
  | ok hr =>
    cases env.fault w.clock with
    | killBefore | killAfter => exact .killed htick
    | none | raiseBefore | raiseAfter => exact .ok hr htick
  | error e =>
    cases env.fault w.clock with
    | killBefore | killAfter => exact .killed htick
    | none | raiseBefore | raiseAfter => exact .raise htick

theorem external (answer : Nat → Except Exn α) :
    Agree S Eq (external env answer) (external env answer) :=
  F.external_both fun n => Except.Both.refl (answer n)

theorem effectful {whole cut whole' cut' : World → World}
    (hwhole : ∀ w v, S w v → S (whole w) (whole' v)) (hcut : ∀ w v, S w v → S (cut w) (cut' v)) :
    Agree S (fun _ _ => True) (effectful env whole cut) (effectful env whole' cut') := by
  intro w v h
  have hw := hwhole _ _ (F.tick w v h)
  have hc := hcut _ _ (F.tick w v h)
  unfold Dolores.effectful
  rw [← F.clock w v h]
  cases env.fault w.clock with
  | none => exact .ok trivial hw
  | raiseBefore i => exact .raise hc
  | raiseAfter i => exact .raise hw
  | killBefore => exact .killed hc
  | killAfter => exact .killed hw

end

end ClockAgree

/-! ## worlds that differ in the log alone -/

/-- the world without its submission log -/
def World.withoutLog (w : World) : World := { w with submissions := none }

def SameButLog (w v : World) : Prop := w.withoutLog = v.withoutLog

namespace SameButLog

theorem refl (w : World) : SameButLog w w := rfl

section
variable {w v : World} (h : SameButLog w v)
include h

theorem withoutLog_eq : w.withoutLog = v.withoutLog := h

theorem files : w.files = v.files :=
  show w.withoutLog.files = v.withoutLog.files by rw [h.withoutLog_eq]

theorem panelCache : w.panelCache = v.panelCache :=
  show w.withoutLog.panelCache = v.withoutLog.panelCache by rw [h.withoutLog_eq]

theorem clock : w.clock = v.clock :=
  show w.withoutLog.clock = v.withoutLog.clock by rw [h.withoutLog_eq]

theorem setLog (log log' : Option Log) :
    SameButLog { w with submissions := log } { v with submissions := log' } := h

/-- a change of the other components keeps the relation -/
theorem map (f : World → World) (hw : (f w).withoutLog = f w.withoutLog)
    (hv : (f v).withoutLog = f v.withoutLog) : SameButLog (f w) (f v) := by
  show (f w).withoutLog = (f v).withoutLog
  rw [hw, hv, h.withoutLog_eq]

theorem log (e : Event) : SameButLog (w.log e) (v.log e) := h.map (World.log e) rfl rfl

theorem put (p : Path) (c : Content) : SameButLog (w.put p c) (v.put p c) :=
  h.map (World.put p c) rfl rfl

end

end SameButLog

theorem clockAgree_sameButLog : ClockAgree SameButLog where
  clock _ _ h := h.clock
  tick _ _ h := h.map World.tickClock rfl rfl

/-- two programs that end in the same way from worlds that differ in the log -/
abbrev Blind {α : Type} (p q : M α) : Prop := Agree SameButLog Eq p q

section
variable {env : Env} {engine : Engine} {A : FloatOps} {cfg : SubnetConfig}

theorem blind_modify (f : World → World) (hf : ∀ w, (f w).withoutLog = f w.withoutLog) :
    Blind (Proc.modify f) (Proc.modify f) :=
  (Agree.modify fun w v h => h.map f (hf w) (hf v)).mono fun _ _ _ => rfl

theorem blind_external {α : Type} (answer : Nat → Except Exn α) :
    Blind (external env answer) (external env answer) := clockAgree_sameButLog.external answer

theorem blind_logEvent (e : Event) : Blind (logEvent e) (logEvent e) := blind_modify _ fun _ => rfl

theorem blind_pure {α : Type} (a : α) : Blind (pure a) (pure a) := Agree.pure rfl

theorem blind_initArchive : Blind (initArchive env engine) (initArchive env engine) :=
  (blind_external _).bind_eq fun _ =>
    (Agree.modify fun _ _ h => h.setLog _ _).mono fun _ _ _ => rfl

theorem blind_purgeTask (taskHash : String) :
    Blind (purgeTask env engine taskHash) (purgeTask env engine taskHash) :=
  (blind_external _).bind_eq fun _ => blind_modify _ fun _ => rfl

/-- whatever is appended to either log -/
theorem blind_appendSubmission (record record' : Obj) :
    Blind (appendSubmission env record) (appendSubmission env record') := by
  intro w v h
  have hline : ∀ payload payload',
      Blind (appendSubmissionLine env payload) (appendSubmissionLine env payload') := by
    intro payload payload' w v h
    unfold appendSubmissionLine
    refine Ends.mono (clockAgree_sameButLog.effectful ?_ ?_ w v h) (fun _ _ => id)
      fun _ _ _ => rfl
    · exact fun _ _ h => h.setLog _ _
    · exact fun _ _ h => h.setLog _ _
  exact hline _ _ w v h

theorem blind_appendPanelCacheLine (payload : Json) :
    Blind (appendPanelCacheLine env payload) (appendPanelCacheLine env payload) := by
  intro w v h
  unfold appendPanelCacheLine
  rw [← h.clock]
  refine Ends.mono (clockAgree_sameButLog.effectful ?_ ?_ w v h) (fun _ _ => id)
    fun _ _ _ => rfl
  · exact fun _ _ h => h.map (fun w => { w with
      panelCache := some ((w.panelCache.getD {}).append payload.canon) }) rfl rfl
  · exact fun _ _ h => h.map (fun w' => { w' with
      panelCache := some ((w'.panelCache.getD {}).tear (env.torn w.clock)) }) rfl rfl

/-! ## one submission -/

theorem blind_runProbes (task : TaskPackage) (requireContainerized : Bool)
    (probes : List (String × Dict String String)) :
    Blind (runProbes env engine task requireContainerized probes)
      (runProbes env engine task requireContainerized probes) := by
  induction probes with
  | nil => exact blind_pure _
  | cons probe probes ih =>
    exact (blind_external _).bind_eq fun _ => ih.bind_eq fun _ => blind_pure _

theorem blind_evaluateHoldout (task : TaskPackage) (packageHash secret : String)
    (requireContainerized : Bool) :
    Blind (evaluateHoldout env engine task packageHash secret requireContainerized)
      (evaluateHoldout env engine task packageHash secret requireContainerized) := by
  unfold evaluateHoldout
  split
  · split
    · exact Agree.raise _
    · exact blind_pure _
  · exact Agree.raise _
  · refine (blind_external _).bind_eq fun reference => Agree.bind_eq ?_ fun _ => blind_pure _
    exact Agree.ite Iff.rfl (blind_runProbes _ _ _) (blind_pure _)

theorem blind_purgeIfHash (taskHash : String) :
    Blind (purgeIfHash env engine taskHash) (purgeIfHash env engine taskHash) :=
  Agree.ite Iff.rfl (blind_pure _) (blind_purgeTask taskHash)

theorem blind_outcomeFromPipeline (result : PipelineResult) (taskId taskHash : String)
    (gates : Dict String Bool) (holdoutSummary : Obj) :
    Blind (outcomeFromPipeline env engine A result cfg taskId taskHash gates holdoutSummary)
      (outcomeFromPipeline env engine A result cfg taskId taskHash gates holdoutSummary) := by
  unfold outcomeFromPipeline
  dsimp only
  split
  · exact blind_pure _
  · refine Agree.ite Iff.rfl (blind_pure _) (Agree.ite Iff.rfl ?_ ?_)
    · exact (blind_purgeIfHash _).bind_eq fun _ => blind_pure _
    · split
      · exact blind_pure _
      · exact Agree.ite Iff.rfl ((blind_purgeIfHash _).bind_eq fun _ => blind_pure _) (blind_pure _)

theorem blind_runPipeline (task : TaskPackage) (panelPath : String) :
    Blind (runPipeline env engine task panelPath) (runPipeline env engine task panelPath) := by
  refine (blind_external _).bind_eq fun r => ?_
  obtain ⟨result, rows⟩ := r
  refine Agree.bind_eq ?_ fun _ => (blind_logEvent _).bind_eq fun _ => blind_pure _
  exact blind_modify _ fun _ => rfl

theorem blind_evaluateTask (task : TaskPackage) (taskHash : String) (gates : Dict String Bool)
    (panelPath : String) :
    Blind (evaluateTask env engine A cfg task taskHash gates panelPath)
      (evaluateTask env engine A cfg task taskHash gates panelPath) := by
  refine (blind_runPipeline task panelPath).bind_eq fun result => ?_
  split
  · refine Agree.ite Iff.rfl ((blind_evaluateHoldout _ _ _ _).bind_eq fun evidence => ?_)
      (blind_outcomeFromPipeline _ _ _ _ _)
    exact Agree.ite Iff.rfl ((blind_purgeIfHash _).bind_eq fun _ => blind_pure _)
      (blind_outcomeFromPipeline _ _ _ _ _)
  · exact blind_outcomeFromPipeline _ _ _ _ _

theorem blind_settleGates (wire : Obj) (panelPath : Option String) (decision : GateDecision) :
    Blind (settleGates env engine A wire cfg panelPath decision)
      (settleGates env engine A wire cfg panelPath decision) := by
  refine (Agree.ofExcept _).bind_eq fun taskId => ?_
  split
  · refine Agree.ite Iff.rfl ?_ (blind_evaluateTask _ _ _ _)
    split
    · exact blind_pure _
    · exact Agree.raise _
    · exact blind_evaluateTask _ _ _ _
  · exact Agree.raise _
  · exact blind_pure _

/-- the outcome of a submission does not depend on the log -/
theorem agree_validateSubmission (wire : Obj) (context : Option GateContext)
    (minerHotkey : String) (panelPath : Option String) :
    Blind (validateSubmission env engine A wire cfg context minerHotkey panelPath)
      (validateSubmission env engine A wire cfg context minerHotkey panelPath) := by
  refine blind_initArchive.bind_eq fun _ => Agree.ite Iff.rfl (blind_pure _) ?_
  refine (Agree.ofExcept _).bind_eq fun p => ?_
  exact (blind_settleGates _ _ _).bind_eq fun _ => blind_pure _

/-! ## the panel -/

theorem blind_record (s : PanelSession) (plan : PanelPlan) (taskId : String) (taskHash : Json)
    (rows : List Obj) (cachedRate : Json) :
    Blind (s.record env A plan taskId taskHash rows cachedRate)
      (s.record env A plan taskId taskHash rows cachedRate) := by
  have hstore : ∀ rate, Blind (cacheStore env s taskHash rate rows)
      (cacheStore env s taskHash rate rows) := fun rate =>
    Agree.ite Iff.rfl (Agree.raise _)
      ((blind_appendPanelCacheLine _).bind_eq fun _ => blind_pure _)
  unfold PanelSession.record
  refine Agree.ite Iff.rfl (blind_pure _) (Agree.ite Iff.rfl ?_ (Agree.ite Iff.rfl (blind_pure _)
    (Agree.ite Iff.rfl ?_ (blind_pure _))))
  · refine Agree.bind_eq ?_ fun _ => blind_pure _
    cases cleanSolveRateFromRows A env.text rows with
    | none => exact blind_pure _
    | some rate => exact Agree.ite Iff.rfl (hstore rate) (blind_pure _)
  · exact (Agree.ofExcept _).bind_eq fun _ => blind_pure _

theorem blind_recordPanel (plan : PanelPlan) (session : PanelSession)
    (outcome : SubmissionOutcome) :
    Blind (recordPanel env A plan session outcome) (recordPanel env A plan session outcome) := by
  unfold recordPanel
  refine Agree.ite Iff.rfl ?_ (Agree.ite Iff.rfl ?_ (blind_pure _))
  · refine (Agree.ofExcept _).bind_eq fun cachedRate => (Agree.ofExcept _).bind_eq fun value => ?_
    exact (blind_record _ _ _ _ _ _).bind_eq fun _ => blind_pure _
  · exact (blind_record _ _ _ _ _ _).bind_eq fun _ => blind_pure _

end

/-! ## the loop -/

/-- the same evaluation, after other outcomes -/
structure SameAfter (before before' : List (Miner × SubmissionOutcome)) (e e' : Evaluation) :
    Prop where
  session : e.session = e'.session
  context : e.context = e'.context
  outcomes : ∃ new, e.outcomes = before ++ new ∧ e'.outcomes = before' ++ new

section
variable {env : Env} {engine : Engine} {A : FloatOps} {cfg : SubnetConfig} {epochId : Int}
  {before before' : List (Miner × SubmissionOutcome)} {e e' : Evaluation}

theorem agree_evaluateSubmission (h : SameAfter before before' e e') (miner : Miner)
    (payload : Obj) :
    Agree SameButLog (SameAfter before before') (evaluateSubmission env engine A cfg epochId e
      miner payload) (evaluateSubmission env engine A cfg epochId e' miner payload) := by
  obtain ⟨hsession, hcontext, new, hnew, hnew'⟩ := h
  unfold evaluateSubmission
  rw [← hsession, ← hcontext]
  refine (Agree.ofExcept _).bind_eq fun p => (agree_validateSubmission _ _ _ _).bind_eq fun r => ?_
  refine (blind_recordPanel _ _ _).bind_eq fun settled => ?_
  refine (blind_appendSubmission _ _).bind_eq fun _ => Agree.pure ⟨rfl, rfl, ?_⟩
  exact ⟨new ++ [(miner, settled.1)], by rw [hnew, List.append_assoc], by
    rw [hnew', List.append_assoc]⟩

theorem agree_evaluateAll (collected : List (Miner × Obj)) (h : SameAfter before before' e e') :
    Agree SameButLog (SameAfter before before') (evaluateAll env engine A cfg epochId collected e)
      (evaluateAll env engine A cfg epochId collected e') := by
  induction collected generalizing e e' with
  | nil => exact Agree.pure h
  | cons p collected ih =>
    exact (agree_evaluateSubmission h p.1 p.2).bind fun _ _ h' => ih h'

end

end Dolores
