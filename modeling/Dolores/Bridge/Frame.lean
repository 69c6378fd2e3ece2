import Dolores.Bridge.Impl

/-!
# What the evaluation of a submission leaves alone

Every relation that is closed under the primitive effects of an evaluation is kept by the whole of
`validateSubmission`, however it ends.

* `ClockFrame.evaluateHoldout`           the private holdout;
* `EngineFrame.outcomeFromPipeline`      the result of the pipeline;
* `EvaluationFrame.validateSubmission`   one submission;
* `SameTrace`                            what the engine's calls do to the events.
-/

namespace Dolores
open Crash

namespace ClockFrame

section
variable {R : World → World → Prop} [IsPreorder World R] (F : ClockFrame R)
  {env : Env} {engine : Engine}
include F

theorem runProbes (task : TaskPackage) (requireContainerized : Bool)
    (probes : List (String × Dict String String)) :
    Moves R (runProbes env engine task requireContainerized probes) := by
  induction probes with
  | nil => exact Moves.pure _
  | cons probe probes ih =>
    exact Moves.bind (F.external _) fun _ => Moves.bind ih fun _ => Moves.pure _

theorem evaluateHoldout (task : TaskPackage) (packageHash secret : String)
    (requireContainerized : Bool) :
    Moves R (evaluateHoldout env engine task packageHash secret requireContainerized) := by
  unfold Dolores.evaluateHoldout
  split
  · split
    · exact Moves.raise _
    · exact Moves.pure _
  · exact Moves.raise _
  · refine Moves.bind (F.external _) fun reference => Moves.bind ?_ fun _ => Moves.pure _
    exact Moves.ite (F.runProbes _ _ _) (Moves.pure _)

end

end ClockFrame

namespace EngineFrame

section
variable {R : World → World → Prop} [IsPreorder World R] (F : EngineFrame R)
  {env : Env} {engine : Engine} {A : FloatOps} {cfg : SubnetConfig}
include F

theorem purgeIfHash (taskHash : String) : Moves R (purgeIfHash env engine taskHash) :=
  Moves.ite (Moves.pure _) (F.purgeTask taskHash)

theorem outcomeFromPipeline (result : PipelineResult) (taskId taskHash : String)
    (gates : Dict String Bool) (holdoutSummary : Obj) :
    Moves R (outcomeFromPipeline env engine A result cfg taskId taskHash gates holdoutSummary) := by
  unfold Dolores.outcomeFromPipeline
  dsimp only
  split
  · exact Moves.pure _
  · refine Moves.ite (Moves.pure _) (Moves.ite ?_ ?_)
    · exact Moves.bind (F.purgeIfHash _) fun _ => Moves.pure _
    · split
      · exact Moves.pure _
      · exact Moves.ite (Moves.bind (F.purgeIfHash _) fun _ => Moves.pure _) (Moves.pure _)

end

end EngineFrame

namespace EvaluationFrame

section
variable {R : World → World → Prop} [IsPreorder World R] (F : EvaluationFrame R)
  {env : Env} {engine : Engine} {A : FloatOps} {cfg : SubnetConfig}
include F

theorem runPipeline (task : TaskPackage) (panelPath : String) :
    Moves R (runPipeline env engine task panelPath) :=
  Moves.bind (F.external _) fun _ => Moves.bind (Moves.modify fun w => F.db w _) fun _ =>
    Moves.bind (Moves.modify fun w => F.pipelineRan w _ _) fun _ => Moves.pure _

theorem evaluateTask (task : TaskPackage) (taskHash : String) (gates : Dict String Bool)
    (panelPath : String) :
    Moves R (evaluateTask env engine A cfg task taskHash gates panelPath) := by
  refine Moves.bind (F.runPipeline task panelPath) fun result => ?_
  split
  · refine Moves.ite (Moves.bind (F.evaluateHoldout _ _ _ _) fun evidence => ?_)
      (F.outcomeFromPipeline _ _ _ _ _)
    exact Moves.ite (Moves.bind (F.purgeIfHash _) fun _ => Moves.pure _)
      (F.outcomeFromPipeline _ _ _ _ _)
  · exact F.outcomeFromPipeline _ _ _ _ _

theorem evaluateSupported (task : TaskPackage) (taskHash : String) (gates : Dict String Bool)
    (panelPath : String) :
    Moves R (evaluateSupported env engine A cfg task taskHash gates panelPath) := by
  refine Moves.ite ?_ (F.evaluateTask _ _ _ _)
  split
  · exact Moves.pure _
  · exact Moves.raise _
  · exact F.evaluateTask _ _ _ _

theorem settleGates (wire : Obj) (panelPath : Option String) (decision : GateDecision) :
    Moves R (settleGates env engine A wire cfg panelPath decision) := by
  refine Moves.bind (Moves.ofExcept _) fun taskId => ?_
  split
  · exact F.evaluateSupported _ _ _ _
  · exact Moves.raise _
  · exact Moves.pure _

theorem validateSubmission (wire : Obj) (context : Option GateContext) (minerHotkey : String)
    (panelPath : Option String) :
    Moves R (validateSubmission env engine A wire cfg context minerHotkey panelPath) := by
  refine Moves.bind F.initArchive fun _ => Moves.ite (Moves.pure _) ?_
  refine Moves.bind (Moves.ofExcept _) fun p => ?_
  exact Moves.bind (F.settleGates _ _ _) fun _ => Moves.pure _

end

end EvaluationFrame

/-- the trace is as it was -/
def SameTrace (w w' : World) : Prop := w'.trace = w.trace

instance : IsPreorder World SameTrace where
  refl _ := rfl
  trans _ _ _ h h' := Eq.trans h' h

theorem sameTraceFrame : EngineFrame SameTrace where
  clock _ := rfl
  db _ _ := rfl
  panelCache _ _ := rfl
  createLog _ := rfl

end Dolores
