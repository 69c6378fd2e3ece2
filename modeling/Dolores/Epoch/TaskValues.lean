import Dolores.Bridge.Isolation
import Dolores.Epoch.Replay
import Dolores.Epoch.Permute
import Dolores.Gate.Stream

/-!
# What the artifact records as the value of a task

`task_values` is written once for each outcome, under the hash that the submission claims.

* `Gated`                          what the evaluation of an epoch leaves: at most one outcome has
                                   passed the gates with a hash, and the others are worth nothing;
* `run_evaluateEpoch_gated`        the step and the run;
* `taskValueOf_aggregate`          the value under a hash is that of the last outcome with it;
* `task_values_record_paid_iff`    so the paid value stays unless a later outcome claims the hash.
-/

set_option linter.unusedSectionVars false

namespace Dolores
open Crash Except

/-- every gate is true -/
def SubmissionOutcome.allGates (o : SubmissionOutcome) : Bool := decide (o.gates = gatesUpTo 6)

/-- the submission passed the pre-gates with this hash -/
def SubmissionOutcome.PassedGates (o : SubmissionOutcome) (hash : String) : Prop :=
  o.allGates = true ∧ o.packageHash = .str hash

/-! ## one submission -/

section
variable {env : Env} {engine : Engine} {A : FloatOps} {cfg : SubnetConfig}

/-- what a run that returns gives -/
def Gives {α : Type} (p : M α) (P : α → Prop) : Prop :=
  ∀ w a w', p w = (.ok a, w') → P a

section
variable {α β : Type} {P : α → Prop}

theorem Gives.pure {a : α} (h : P a) : Gives (Pure.pure a) P := by
  intro w b w' hrun
  rw [← (run_pure hrun).1]
  exact h

theorem Gives.bind {p : M β} {f : β → M α} (h : ∀ b, Gives (f b) P) : Gives (p >>= f) P := by
  intro w a w' hrun
  obtain ⟨b, w₁, _, hrest⟩ := run_bind hrun
  exact h b w₁ a w' hrest

theorem Gives.ite {c : Prop} [Decidable c] {p q : M α} (hp : Gives p P) (hq : Gives q P) :
    Gives (if c then p else q) P := by
  split
  · exact hp
  · exact hq

theorem Gives.raise (e : Exn) : Gives (Proc.raise e) P := fun _ _ _ h => (run_raise h).elim

end

/-- the hash and the gates that the outcome was made with -/
def SubmissionOutcome.Keyed (taskHash : String) (gates : Dict String Bool)
    (o : SubmissionOutcome) : Prop :=
  o.packageHash = .str taskHash ∧ o.gates = gates

theorem keyed_outcomeFromPipeline (result : PipelineResult) (taskId taskHash : String)
    (gates : Dict String Bool) (holdoutSummary : Obj) :
    Gives (outcomeFromPipeline env engine A result cfg taskId taskHash gates holdoutSummary)
      (SubmissionOutcome.Keyed taskHash gates) := by
  unfold outcomeFromPipeline
  dsimp only
  split
  · exact Gives.pure ⟨rfl, rfl⟩
  · refine Gives.ite (Gives.pure ⟨rfl, rfl⟩)
      (Gives.ite (Gives.bind fun _ => Gives.pure ⟨rfl, rfl⟩) ?_)
    split
    · exact Gives.pure ⟨rfl, rfl⟩
    · exact Gives.ite (Gives.bind fun _ => Gives.pure ⟨rfl, rfl⟩) (Gives.pure ⟨rfl, rfl⟩)

theorem keyed_evaluateTask (task : TaskPackage) (taskHash : String) (gates : Dict String Bool)
    (panelPath : String) :
    Gives (evaluateTask env engine A cfg task taskHash gates panelPath)
      (SubmissionOutcome.Keyed taskHash gates) := by
  refine Gives.bind fun result => ?_
  split
  · refine Gives.ite (Gives.bind fun evidence => Gives.ite (Gives.bind fun _ =>
      Gives.pure ⟨rfl, rfl⟩) ?_) ?_
    · exact keyed_outcomeFromPipeline _ _ _ _ _
    · exact keyed_outcomeFromPipeline _ _ _ _ _
  · exact keyed_outcomeFromPipeline _ _ _ _ _

theorem keyed_evaluateSupported (task : TaskPackage) (taskHash : String)
    (gates : Dict String Bool) (panelPath : String) :
    Gives (evaluateSupported env engine A cfg task taskHash gates panelPath)
      (SubmissionOutcome.Keyed taskHash gates) := by
  refine Gives.ite ?_ (keyed_evaluateTask _ _ _ _)
  split
  · exact Gives.pure ⟨rfl, rfl⟩
  · exact Gives.raise _
  · exact keyed_evaluateTask _ _ _ _

/-- what the gates of one submission leave: its hash is new, or it is worth nothing -/
def GatedStep (engine : Engine) (seen : List String) (outcome : SubmissionOutcome)
    (seen' : List String) : Prop :=
  (∃ task, outcome.PassedGates (engine.stableHash task) ∧ engine.stableHash task ∉ seen ∧
      seen' = engine.stableHash task :: seen) ∨
    outcome.allGates = false ∧ outcome.taskValue = 0 ∧ seen' = seen

theorem allGates_of_fails {d : GateDecision} (h : FailsInOrder d) :
    decide (d.gates = gatesUpTo 6) = false := by
  obtain ⟨_, n, gate, hgate, _, hgates⟩ := h
  have hn : n < 6 := (List.getElem?_eq_some_iff.mp hgate).1
  have hsmall : ∀ m < 6, decide (gatesUpTo m = gatesUpTo 6) = false := by decide
  rw [hgates]
  exact hsmall n hn

theorem gated_validateSubmission {wire : Obj} {context context' : GateContext}
    {minerHotkey : String} {panelPath : Option String} {outcome : SubmissionOutcome}
    {w w' : World}
    (h : validateSubmission env engine A wire cfg (some context) minerHotkey panelPath w =
      (.ok (outcome, context'), w')) :
    GatedStep engine context.seenHashes outcome context'.seenHashes := by
  obtain ⟨_, w₁, _, h⟩ := run_bind h
  dsimp only at h
  by_cases hreserved : (reservedWireKeys.filter fun key => Dict.contains wire key) ≠ []
  · rw [if_pos hreserved] at h
    have hpair := Prod.mk.inj (run_pure h).1
    rw [← hpair.1, ← hpair.2]
    exact .inr ⟨rfl, rfl, rfl⟩
  rw [if_neg hreserved] at h
  obtain ⟨⟨decision, gateContext⟩, w₂, hgates, h⟩ := run_bind h
  obtain ⟨hgates, hw₂⟩ := run_ofExcept hgates
  obtain ⟨outcome', w₃, hsettle, h⟩ := run_bind h
  have hpair := Prod.mk.inj (run_pure h).1
  rw [hpair.1] at hsettle
  rw [← hpair.2]
  obtain ⟨taskId, w₄, _, hsettle⟩ := run_bind hsettle
  have hstep : gateStep env.text engine cfg context (wire, minerHotkey) =
      (.ok decision, gateContext) := by
    unfold gateStep
    rw [show runPreGates env.text engine wire cfg context minerHotkey = _ from hgates]
  rcases @gateStep_cases env.text engine cfg context (wire, minerHotkey) with hcase | hcase
  · obtain ⟨hash, d, hadmits, hpassed, hhash, hd⟩ := hcase
    have hsame := Prod.mk.inj (hstep.symm.trans hd)
    have hdecision : decision = d := Except.ok.inj hsame.1
    have hpassed' : decision.passed = true := by
      rw [hdecision]
      exact hpassed
    obtain ⟨task, _, htask, htaskHash, hsix⟩ := runPreGates_task hgates hpassed'
    have hkey : hash = engine.stableHash task := by
      rw [hdecision, hhash] at htaskHash
      exact Option.some.inj htaskHash
    rw [hpassed', htask, htaskHash] at hsettle
    have hkeyed := keyed_evaluateSupported task _ _ _ _ _ _ hsettle
    refine .inl ⟨task, ⟨decide_eq_true (hkeyed.2.trans hsix), hkeyed.1⟩, hkey ▸ hadmits.2.2, ?_⟩
    rw [hsame.2, hkey]
    rfl
  · obtain ⟨_, ⟨d, hfails, hd⟩ | ⟨e, hd⟩⟩ := hcase
    · have hsame := Prod.mk.inj (hstep.symm.trans hd)
      have hdecision : decision = d := Except.ok.inj hsame.1
      have hfailed : decision.passed = false := by
        rw [hdecision]
        exact hfails.1
      rw [hfailed] at hsettle
      have houtcome := (run_pure hsettle).1
      right
      refine ⟨?_, ?_, by rw [hsame.2]⟩
      · rw [← houtcome]
        exact allGates_of_fails (hdecision ▸ hfails)
      · rw [← houtcome]
        rfl
    · exact nomatch (Prod.mk.inj (hstep.symm.trans hd)).1

/-- a cached measurement changes the value alone, and leaves a value of zero -/
theorem run_recordPanel {plan : PanelPlan} {session session' : PanelSession}
    {outcome outcome' : SubmissionOutcome} {w w' : World}
    (h : recordPanel env A plan session outcome w = (.ok (outcome', session'), w')) :
    outcome'.gates = outcome.gates ∧ outcome'.packageHash = outcome.packageHash ∧
      (outcome.taskValue = 0 → outcome'.taskValue = 0) := by
  unfold recordPanel at h
  split at h
  · obtain ⟨rate, w₁, _, h⟩ := run_bind h
    obtain ⟨value, w₂, hvalue, h⟩ := run_bind h
    obtain ⟨session'', w₃, _, h⟩ := run_bind h
    have he := (Prod.mk.inj (run_pure h).1).1
    rw [← he]
    refine ⟨rfl, rfl, fun hzero => ?_⟩
    have hrecalibrated := (run_ofExcept hvalue).1
    rw [hzero] at hrecalibrated
    unfold recalibratedTaskValue at hrecalibrated
    split at hrecalibrated
    · exact (Except.ok.inj hrecalibrated).symm
    · rw [if_pos le_rfl] at hrecalibrated
      exact (Except.ok.inj hrecalibrated).symm
  · split at h
    · obtain ⟨session'', w₁, _, h⟩ := run_bind h
      have he := (Prod.mk.inj (run_pure h).1).1
      rw [← he]
      exact ⟨rfl, rfl, id⟩
    · have he := (Prod.mk.inj (run_pure h).1).1
      rw [← he]
      exact ⟨rfl, rfl, id⟩

theorem gated_evaluateSubmission {epochId : Int} {e e' : Evaluation} {miner : Miner}
    {payload : Obj} {w w' : World}
    (h : evaluateSubmission env engine A cfg epochId e miner payload w = (.ok e', w')) :
    ∃ outcome, e'.outcomes = e.outcomes ++ [(miner, outcome)] ∧
      GatedStep engine e.context.seenHashes outcome e'.context.seenHashes := by
  obtain ⟨⟨plan, session⟩, w₁, _, h⟩ := run_bind h
  obtain ⟨⟨outcome, context⟩, w₂, hvalidate, h⟩ := run_bind h
  obtain ⟨⟨outcome', session'⟩, w₃, hrecord, h⟩ := run_bind h
  obtain ⟨_, w₄, _, h⟩ := run_bind h
  rw [← (run_pure h).1]
  refine ⟨outcome', rfl, ?_⟩
  obtain ⟨hgates, hhash, hzero⟩ := run_recordPanel hrecord
  have hall : outcome'.allGates = outcome.allGates := by
    unfold SubmissionOutcome.allGates
    rw [hgates]
  rcases gated_validateSubmission hvalidate with hpassed | hfailed
  · obtain ⟨task, hpassed, hnew, hseen⟩ := hpassed
    exact .inl ⟨task, ⟨hall.trans hpassed.1, hhash.trans hpassed.2⟩, hnew, hseen⟩
  · exact .inr ⟨hall.trans hfailed.1, hzero hfailed.2.1, hfailed.2.2⟩

/-! ## all submissions -/

/-- at most one outcome has passed the gates with a hash, and the others are worth nothing -/
structure Gated (engine : Engine) (outcomes : List (Miner × SubmissionOutcome))
    (seen : List String) : Prop where
  worthless : ∀ p ∈ outcomes, p.2.allGates = false → p.2.taskValue = 0
  hashed : ∀ p ∈ outcomes, p.2.allGates = true →
    ∃ task, p.2.packageHash = .str (engine.stableHash task) ∧ engine.stableHash task ∈ seen
  once : outcomes.Pairwise fun p q => p.2.allGates = true → q.2.allGates = true →
    p.2.packageHash ≠ q.2.packageHash

theorem Gated.step {outcomes : List (Miner × SubmissionOutcome)} {seen seen' : List String}
    (h : Gated engine outcomes seen) {miner : Miner} {outcome : SubmissionOutcome}
    (hstep : GatedStep engine seen outcome seen') :
    Gated engine (outcomes ++ [(miner, outcome)]) seen' := by
  rcases hstep with hpassed | hfailed
  · obtain ⟨task, hpassed, hnew, hseen⟩ := hpassed
    refine ⟨fun p hp hfalse => ?_, fun p hp htrue => ?_, ?_⟩
    · rcases List.mem_append.mp hp with hp | hp
      · exact h.worthless p hp hfalse
      · rw [List.mem_singleton.mp hp, hpassed.1] at hfalse
        exact nomatch hfalse
    · rw [hseen]
      rcases List.mem_append.mp hp with hp | hp
      · obtain ⟨task', hhash, hmem⟩ := h.hashed p hp htrue
        exact ⟨task', hhash, List.mem_cons_of_mem _ hmem⟩
      · rw [List.mem_singleton.mp hp]
        exact ⟨task, hpassed.2, List.mem_cons_self⟩
    · refine List.pairwise_append.mpr ⟨h.once, List.pairwise_singleton _ _, ?_⟩
      intro p hp q hq hptrue _ heq
      rw [List.mem_singleton.mp hq] at heq
      obtain ⟨task', hhash, hmem⟩ := h.hashed p hp hptrue
      rw [hhash, hpassed.2] at heq
      exact hnew (Json.str.inj heq ▸ hmem)
  · obtain ⟨hfalse, hzero, hseen⟩ := hfailed
    refine ⟨fun p hp hp' => ?_, fun p hp htrue => ?_, ?_⟩
    · rcases List.mem_append.mp hp with hp | hp
      · exact h.worthless p hp hp'
      · rw [List.mem_singleton.mp hp]
        exact hzero
    · rw [hseen]
      rcases List.mem_append.mp hp with hp | hp
      · exact h.hashed p hp htrue
      · rw [List.mem_singleton.mp hp, hfalse] at htrue
        exact nomatch htrue
    · refine List.pairwise_append.mpr ⟨h.once, List.pairwise_singleton _ _, ?_⟩
      intro p _ q hq _ hqtrue
      rw [List.mem_singleton.mp hq, hfalse] at hqtrue
      exact nomatch hqtrue

theorem Gated.evaluateAll {epochId : Int} {collected : List (Miner × Obj)} {e e' : Evaluation}
    {w w' : World} (h : Gated engine e.outcomes e.context.seenHashes)
    (hrun : evaluateAll env engine A cfg epochId collected e w = (.ok e', w')) :
    Gated engine e'.outcomes e'.context.seenHashes := by
  induction collected generalizing e w with
  | nil =>
    rw [← (run_pure hrun).1]
    exact h
  | cons p collected ih =>
    obtain ⟨miner, payload⟩ := p
    obtain ⟨e₁, w₁, hfirst, hrun⟩ := run_bind hrun
    obtain ⟨outcome, houtcomes, hstep⟩ := gated_evaluateSubmission hfirst
    refine ih ?_ hrun
    rw [houtcomes]
    exact h.step hstep

theorem terminalOutcomes_mem {epochId : Int} {miners : List Miner}
    {outcomes : List (Miner × SubmissionOutcome)} {w w' : World}
    (h : terminalOutcomes env epochId miners w = (.ok outcomes, w')) :
    ∀ p ∈ outcomes, terminalOutcome p.1 = some p.2 := by
  induction miners generalizing outcomes w w' with
  | nil =>
    rw [← (run_pure h).1]
    exact fun p hp => (List.not_mem_nil hp).elim
  | cons miner miners ih =>
    unfold terminalOutcomes at h
    cases ho : terminalOutcome miner with
    | none =>
      rw [ho] at h
      exact ih h
    | some terminal =>
      rw [ho] at h
      obtain ⟨_, w₁, _, h⟩ := run_bind h
      obtain ⟨rest, w₂, hrest, h⟩ := run_bind h
      rw [← (run_pure h).1]
      intro p hp
      rcases List.mem_cons.mp hp with hp | hp
      · rw [hp]
        exact ho
      · exact ih hrest p hp

theorem terminal_allGates {miner : Miner} {outcome : SubmissionOutcome}
    (h : terminalOutcome miner = some outcome) :
    outcome.allGates = false ∧ outcome.taskValue = 0 := by
  unfold terminalOutcome at h
  split at h
  · cases h
  · rw [← Option.some.inj h]
    refine ⟨?_, rfl⟩
    unfold SubmissionOutcome.allGates
    dsimp only
    split
    · decide
    · decide

/-- the outcomes of an epoch -/
theorem run_evaluateEpoch_gated {epochId quota : Int} {miners : List Miner} {e : Evaluation}
    {w w' : World} (h : evaluateEpoch env engine A cfg epochId quota miners w = (.ok e, w')) :
    Gated engine e.outcomes e.context.seenHashes := by
  obtain ⟨_, w₁, _, h⟩ := run_bind h
  obtain ⟨_, w₂, _, h⟩ := run_bind h
  obtain ⟨_, w₃, _, h⟩ := run_bind h
  obtain ⟨session, w₄, _, h⟩ := run_bind h
  obtain ⟨terminals, w₅, hterminals, h⟩ := run_bind h
  refine Gated.evaluateAll ?_ h
  have hmem := terminalOutcomes_mem hterminals
  have hfalse : ∀ p ∈ terminals, p.2.allGates = false :=
    fun p hp => (terminal_allGates (hmem p hp)).1
  refine ⟨fun p hp _ => (terminal_allGates (hmem p hp)).2, fun p hp htrue => ?_, ?_⟩
  · exact nomatch (hfalse p hp).symm.trans htrue
  · refine List.Pairwise.imp_of_mem (fun hp _ _ htrue => ?_)
      (List.pairwise_of_forall (fun _ _ => trivial) : terminals.Pairwise fun _ _ => True)
    exact nomatch (hfalse _ hp).symm.trans htrue

end

/-! ## the values under a hash -/

/-- the value that is stored under the hash -/
def taskValueOf (items : List (Json × ℚ)) (hash : String) : Option ℚ :=
  (items.find? fun p => p.1.eqStr hash).map (·.2)

/-- an outcome overwrites what is under the hash it claims -/
def overwrite (hash : String) (value : Option ℚ) (p : Miner × SubmissionOutcome) : Option ℚ :=
  if p.2.packageHash.eqStr hash then some p.2.taskValue else value

theorem eqStr_of_sameKey {a b : Json} (h : a.sameKey b = true) (hash : String) :
    a.eqStr hash = b.eqStr hash := by
  have htext := Json.isText_of_sameKey h
  cases a with
  | str s =>
    cases b with
    | str t =>
      have hst : s = t := beq_iff_eq.mp h
      rw [hst]
    | _ => exact nomatch htext
  | _ =>
    cases b with
    | str t => exact nomatch htext
    | _ => rfl

theorem taskValueOf_set (d : List (Json × ℚ)) (key : Json) (value : ℚ) (hash : String) :
    taskValueOf (setTaskValue d key value) hash =
      if key.eqStr hash then some value else taskValueOf d hash := by
  induction d with
  | nil =>
    unfold setTaskValue taskValueOf
    rw [List.find?_cons]
    cases key.eqStr hash with
    | true => rfl
    | false => rfl
  | cons q d ih =>
    obtain ⟨key', value'⟩ := q
    unfold taskValueOf at ih ⊢
    unfold setTaskValue
    split
    · next hsame =>
      rw [List.find?_cons, List.find?_cons]
      dsimp only
      rw [eqStr_of_sameKey hsame hash]
      cases key.eqStr hash with
      | true => rfl
      | false => rfl
    · next hdiff =>
      rw [List.find?_cons, List.find?_cons]
      dsimp only
      cases hkey' : key'.eqStr hash with
      | false => exact ih
      | true =>
        cases hkey : key.eqStr hash with
        | false => rfl
        | true =>
          -- both keys are the hash
          refine absurd ?_ hdiff
          rw [Json.eqStr_iff.mp hkey, Json.eqStr_iff.mp hkey']
          exact beq_self_eq_true hash

/-- what one outcome does to the values -/
theorem aggregateOutcome_taskValues {g g' : Aggregate} {p : Miner × SubmissionOutcome}
    (h : aggregateOutcome g p = .ok g') :
    p.2.packageHash.truthy = false ∧ g'.taskValues = g.taskValues ∨
      p.2.packageHash.sortable = true ∧
        g'.taskValues = setTaskValue g.taskValues p.2.packageHash p.2.taskValue := by
  rw [aggregateOutcome_eq] at h
  split at h
  · exact nomatch h
  split at h
  · next hfalsy =>
    rw [← Except.ok.inj h]
    exact .inl ⟨hfalsy, rfl⟩
  · next htruthy =>
    split at h
    · exact nomatch h
    · next hhashable =>
      rw [← Except.ok.inj h]
      exact .inr ⟨Json.sortable_of_key (Bool.eq_true_of_not_eq_false htruthy)
        (Bool.eq_true_of_not_eq_false hhashable), rfl⟩

/-- texts and numbers, each once -/
structure TaskKeys (d : List (Json × ℚ)) : Prop where
  sortable : ∀ p ∈ d, p.1.sortable = true
  distinct : d.Pairwise fun p q => p.1.sameKey q.1 = false

theorem TaskKeys.set {d : List (Json × ℚ)} (h : TaskKeys d) {key : Json} (value : ℚ)
    (hkey : key.sortable = true) : TaskKeys (setTaskValue d key value) where
  sortable p hp := by
    rcases mem_setTaskValue hp with he | ⟨q, hq, he⟩
    · rw [he]
      exact hkey
    · rw [he]
      exact h.sortable q hq
  distinct := by
    have hdistinct := h.distinct
    clear h
    induction d with
    | nil => exact List.pairwise_singleton _ _
    | cons q d ih =>
      obtain ⟨key', value'⟩ := q
      obtain ⟨hfirst, hrest⟩ := List.pairwise_cons.mp hdistinct
      unfold setTaskValue
      split
      · exact List.pairwise_cons.mpr ⟨hfirst, hrest⟩
      · next hdiff =>
        refine List.pairwise_cons.mpr ⟨fun p hp => ?_, ih hrest⟩
        rcases mem_setTaskValue hp with he | ⟨q, hq, he⟩
        · rw [he]
          exact Bool.eq_false_of_not_eq_true hdiff
        · rw [he]
          exact hfirst q hq

theorem taskValueOf_aggregate {hash : String} (hne : hash ≠ "")
    {outcomes : List (Miner × SubmissionOutcome)} {g g' : Aggregate}
    (h : outcomes.foldlM aggregateOutcome g = .ok g') (hkeys : TaskKeys g.taskValues) :
    TaskKeys g'.taskValues ∧
      taskValueOf g'.taskValues hash =
        outcomes.foldl (overwrite hash) (taskValueOf g.taskValues hash) := by
  induction outcomes generalizing g with
  | nil =>
    rw [← Except.ok.inj h]
    exact ⟨hkeys, rfl⟩
  | cons p outcomes ih =>
    obtain ⟨g₁, hfirst, hrest⟩ := bind_ok h
    have hstep : TaskKeys g₁.taskValues ∧
        taskValueOf g₁.taskValues hash = overwrite hash (taskValueOf g.taskValues hash) p := by
      rcases aggregateOutcome_taskValues hfirst with ⟨hfalsy, he⟩ | ⟨hsortable, he⟩
      · rw [he]
        refine ⟨hkeys, ?_⟩
        unfold overwrite
        rw [if_neg]
        intro hclaims
        cases hhash : p.2.packageHash with
        | str s =>
          rw [hhash] at hclaims hfalsy
          have hs : s = hash := beq_iff_eq.mp hclaims
          have hempty : (s != "") = false := hfalsy
          rw [hs, bne_eq_false_iff_eq] at hempty
          exact hne hempty
        | _ =>
          rw [hhash] at hclaims
          exact nomatch hclaims
      · rw [he]
        exact ⟨hkeys.set _ hsortable, taskValueOf_set _ _ _ _⟩
    obtain ⟨hkeys', hvalue⟩ := ih hrest hstep.1
    refine ⟨hkeys', ?_⟩
    rw [hvalue, hstep.2]
    rfl

/-- later outcomes with the hash that are worth nothing leave zero -/
theorem foldl_overwrite {hash : String} {after : List (Miner × SubmissionOutcome)}
    (h : ∀ q ∈ after, q.2.packageHash.eqStr hash = true → q.2.taskValue = 0) (value : ℚ) :
    after.foldl (overwrite hash) (some value) =
      some (if ∃ q ∈ after, q.2.packageHash.eqStr hash = true then 0 else value) := by
  induction after generalizing value with
  | nil =>
    rw [if_neg (fun hex => by
      obtain ⟨q, hq, _⟩ := hex
      exact List.not_mem_nil hq)]
    rfl
  | cons p after ih =>
    have ih := ih fun q hq => h q (List.mem_cons_of_mem p hq)
    rw [List.foldl_cons]
    by_cases hclaims : p.2.packageHash.eqStr hash = true
    · have hp : overwrite hash (some value) p = some 0 := by
        unfold overwrite
        rw [if_pos hclaims, h p List.mem_cons_self hclaims]
      rw [hp, ih, ite_self, if_pos ⟨p, List.mem_cons_self, hclaims⟩]
    · have hp : overwrite hash (some value) p = some value := if_neg hclaims
      have hiff : (∃ q ∈ p :: after, q.2.packageHash.eqStr hash = true) ↔
          ∃ q ∈ after, q.2.packageHash.eqStr hash = true := by
        rw [List.exists_mem_cons_iff]
        exact or_iff_right hclaims
      rw [hp, ih]
      simp only [hiff]

/-! ## the record -/

/-- the number the artifact has under the hash -/
def recordedTaskValue (artifact : Obj) (hash : String) : Json :=
  match artifact.get "task_values" with
  | .obj fields => Obj.get fields hash
  | _ => .null

theorem get?_taskValuesRecord (T : PyText) {items : List (Json × ℚ)}
    (h : ∀ p ∈ items, p.1.isText = true) (hash : String) :
    Dict.get? (taskValuesRecord T items) hash = (taskValueOf items hash).map .num := by
  induction items with
  | nil => rfl
  | cons p items ih =>
    obtain ⟨key, value⟩ := p
    have ih := ih fun q hq => h q (List.mem_cons_of_mem _ hq)
    unfold taskValuesRecord taskValueOf at ih ⊢
    rw [List.map_cons, Dict.get?_cons, List.find?_cons]
    cases key with
    | str s =>
      show (if hash = s then some (Json.num value) else _) = _
      by_cases he : hash = s
      · have hs : (s == hash) = true := beq_iff_eq.mpr he.symm
        rw [if_pos he]
        show _ = Option.map _ (Option.map _ (match s == hash with | true => _ | false => _))
        rw [hs]
        rfl
      · have hs : (s == hash) = false := beq_eq_false_iff_ne.mpr (Ne.symm he)
        rw [if_neg he]
        show _ = Option.map _ (Option.map _ (match s == hash with | true => _ | false => _))
        rw [hs]
        exact ih
    | _ => exact nomatch h _ List.mem_cons_self

theorem keys_taskValuesRecord (T : PyText) {items : List (Json × ℚ)} (h : TaskKeys items)
    (htext : ∀ p ∈ items, p.1.isText = true) : (Dict.keys (taskValuesRecord T items)).Nodup := by
  unfold Dict.keys taskValuesRecord
  rw [List.map_map]
  apply List.pairwise_map.mpr
  refine h.distinct.imp_of_mem ?_
  intro p q hp hq hdiff heq
  have hpt := htext p hp
  have hqt := htext q hq
  cases hpk : p.1 with
  | str s =>
    cases hqk : q.1 with
    | str t =>
      have hst : s = t := by
        have hkeys : keyText T p.1 = keyText T q.1 := heq
        rw [hpk, hqk] at hkeys
        exact hkeys
      rw [hpk, hqk, hst] at hdiff
      exact (beq_eq_false_iff_ne.mp hdiff) rfl
    | _ =>
      rw [hqk] at hqt
      exact nomatch hqt
  | _ =>
    rw [hpk] at hpt
    exact nomatch hpt

section
variable {env : Env} {A : FloatOps} {cfg : SubnetConfig} {epochId quota : Int}

/-- the artifact records the value that the aggregation has left under a text -/
theorem recordedTaskValue_artifact {g : Aggregate} {scores : EpochScores}
    {chainResult : ChainWeightResult} {createdAt : String} {durationMs : Int} {artifact : Obj}
    (h : epochArtifact env cfg epochId quota g scores chainResult createdAt durationMs =
      .ok artifact) (hkeys : TaskKeys g.taskValues) {hash : String} {value : ℚ}
    (hvalue : taskValueOf g.taskValues hash = some value) :
    recordedTaskValue artifact.canon hash = .num value := by
  unfold epochArtifact at h
  obtain ⟨items, hitems, h⟩ := bind_ok h
  have hfield : artifact.get "task_values" = .obj (taskValuesRecord env.text items) := by
    rw [← Except.ok.inj h]
    rfl
  -- the hash is a text, so every key is
  obtain ⟨p, hfind, _⟩ := Option.map_eq_some_iff.mp hvalue
  have hp := List.mem_of_find?_eq_some hfind
  have hptext : p.1.isText = true := by
    have hclaims := List.find?_some hfind
    cases hpk : p.1 with
    | str s => rfl
    | _ =>
      rw [hpk] at hclaims
      exact nomatch hclaims
  have hsame := (sortItems_ok_iff hkeys.sortable).mp ⟨items, hitems⟩
  have htext : ∀ q ∈ g.taskValues, q.1.isText = true := fun q hq =>
    (hsame q hq p hp).trans hptext
  have hperm : items.Perm g.taskValues := sortBy_perm hitems
  have hrecords : (taskValuesRecord env.text g.taskValues).Perm
      (taskValuesRecord env.text items) := (hperm.map _).symm
  have hget := Dict.get?_perm hrecords (keys_taskValuesRecord env.text hkeys htext) hash
  rw [get?_taskValuesRecord env.text htext, hvalue] at hget
  have hobj : Obj.get (taskValuesRecord env.text items) hash = .num value := by
    unfold Obj.get
    rw [← hget]
    rfl
  unfold recordedTaskValue
  rw [Obj.get_canon, hfield, Json.canon_obj']
  dsimp only
  rw [Obj.get_canon, hobj, Json.canon_num]

end

/-- the outcomes after one that passed, with its hash, are worth nothing -/
theorem Gated.later_worthless {engine : Engine} {before after : List (Miner × SubmissionOutcome)}
    {p : Miner × SubmissionOutcome} {seen : List String}
    (h : Gated engine (before ++ p :: after) seen) {hash : String} (hp : p.2.PassedGates hash) :
    ∀ q ∈ after, q.2.packageHash.eqStr hash = true → q.2.taskValue = 0 := by
  intro q hq hclaims
  have hmem : q ∈ before ++ p :: after :=
    List.mem_append_right _ (List.mem_cons_of_mem _ hq)
  apply h.worthless q hmem
  by_contra hpassed
  have honce := (List.pairwise_cons.mp (List.pairwise_append.mp h.once).2.1).1 q hq
  refine honce hp.1 (Bool.eq_true_of_not_eq_false hpassed) ?_
  rw [hp.2, Json.eqStr_iff.mp hclaims]

/-- **The artifact records what was paid** for a hash exactly when nothing was paid for it or no
later submission claims it: a copy or a forged claim that fails a gate writes its zero over the
value.  `run_epoch` is the evaluation and the conclusion, after the first phase. -/
theorem task_values_record_paid_iff {env : Env} {engine : Engine} {substrate : Substrate}
    {A : FloatOps} {cfg : SubnetConfig} {epochId quota : Int} {miners : List Miner}
    {client : Option ChainClient} {phaseHook : Option (String → M Unit)}
    (hdigest : ∀ task, engine.stableHash task ≠ "") (hhook : KeepsRecords epochId phaseHook)
    {e : Evaluation} {r : EpochResult} {w w₁ w' : World}
    (hevaluate : evaluateEpoch env engine A cfg epochId quota miners w = (.ok e, w₁))
    (hconclude : concludeEpoch env substrate A cfg epochId quota miners client phaseHook e.outcomes
      e.session w₁ = (.ok r, w')) :
    ∃ artifact, w'.files (.epoch epochId .weights) = some (.doc (.obj artifact)) ∧
      ∀ before p after, e.outcomes = before ++ p :: after → ∀ hash, p.2.PassedGates hash →
        (recordedTaskValue artifact hash = .num p.2.taskValue ↔
          p.2.taskValue = 0 ∨ ∀ q ∈ after, q.2.packageHash ≠ .str hash) := by
  have hgated := run_evaluateEpoch_gated hevaluate
  obtain ⟨_, g, scores, artifact, hrecorded⟩ := concludeEpoch_recorded hhook hconclude
  obtain ⟨chainResult, createdAt, durationMs, hartifact⟩ := hrecorded.built
  refine ⟨artifact.canon, by rw [hrecorded.stored, Json.canon_obj'], ?_⟩
  intro before p after houtcomes hash hp
  rw [houtcomes] at hgated
  obtain ⟨task, hhash, _⟩ := hgated.hashed p (List.mem_append_right _ List.mem_cons_self) hp.1
  have hne : hash ≠ "" := by
    rw [hp.2] at hhash
    rw [Json.str.inj hhash]
    exact hdigest task
  have hnew : TaskKeys (newAggregate (miners.map (·.hotkey))).taskValues :=
    ⟨fun q hq => (List.not_mem_nil hq).elim, List.Pairwise.nil⟩
  obtain ⟨hkeys, hvalue⟩ := taskValueOf_aggregate hne hrecorded.aggregated hnew
  have hwritten : ∀ value, overwrite hash value p = some p.2.taskValue :=
    fun value => if_pos (Json.eqStr_iff.mpr hp.2)
  rw [houtcomes, List.foldl_append, List.foldl_cons, hwritten,
    foldl_overwrite (hgated.later_worthless hp)] at hvalue
  rw [recordedTaskValue_artifact hartifact hkeys hvalue]
  have hnum : ∀ a b : ℚ, Json.num a = Json.num b ↔ a = b := by
    intro a b
    constructor
    · intro h
      exact PyFloat.fin.inj (Json.float.inj h)
    · intro h
      rw [h]
  rw [hnum]
  by_cases hclaims : ∃ q ∈ after, q.2.packageHash.eqStr hash = true
  · rw [if_pos hclaims]
    constructor
    · exact fun h => .inl h.symm
    · intro h
      obtain ⟨q, hq, hclaim⟩ := hclaims
      exact (h.resolve_right fun hnone => hnone q hq (Json.eqStr_iff.mp hclaim)).symm
  · rw [if_neg hclaims]
    refine iff_of_true rfl (.inr fun q hq he => hclaims ⟨q, hq, ?_⟩)
    exact Json.eqStr_iff.mpr he

/-- an engine whose hashes are never empty -/
def digestEngine : Engine :=
  { isolatedEngine with stableHash := fun task => "0x" ++ task.taskId }

theorem digestEngine_hashes (task : TaskPackage) : digestEngine.stableHash task ≠ "" := by
  intro h
  have hlength : ("0x" ++ task.taskId).length = 0 := by
    rw [show "0x" ++ task.taskId = "" from h]
    rfl
  rw [String.length_append] at hlength
  exact absurd (Nat.add_eq_zero_iff.mp hlength).1 (by decide)

def digestPayload : Obj := [
  ("schema_version", .str schemaVersion),
  ("package", .obj [("task_id", .str "t"), ("author_tests", .obj [])]),
  ("package_hash", .str "0xt")]

def author : Miner := { hotkey := "a", uid := 1, submissions := fun _ _ => [digestPayload] }

/-- a miner that sends the same package again -/
def copier : Miner := { hotkey := "b", uid := 2, submissions := fun _ _ => [digestPayload] }

def copiedEvaluation (miners : List Miner) : Outcome Exn Evaluation × World :=
  evaluateEpoch Env.plain digestEngine exactOps {} 1 4 miners {}

def copiedConclusion (miners : List Miner) (e : Evaluation) (w : World) :
    Outcome Exn EpochResult × World :=
  concludeEpoch Env.plain offlineSubstrate exactOps {} 1 4 miners none none e.outcomes e.session w

/-- the epoch completes, and its outcomes and files are as the check says -/
def copiedEpoch (miners : List Miner) (check : Evaluation → World → Bool) : Bool :=
  match copiedEvaluation miners with
  | (.ok e, w₁) =>
    match copiedConclusion miners e w₁ with
    | (.ok _, w') => check e w'
    | _ => false
  | _ => false

theorem exists_copiedEpoch {miners : List Miner} {check : Evaluation → World → Bool}
    (h : copiedEpoch miners check = true) :
    ∃ e w₁ r w', copiedEvaluation miners = (.ok e, w₁) ∧
      copiedConclusion miners e w₁ = (.ok r, w') ∧ check e w' = true := by
  unfold copiedEpoch at h
  split at h
  · next e w₁ he =>
    split at h
    · next r w' hr => exact ⟨e, w₁, r, w', he, hr, h⟩
    · exact nomatch h
  · exact nomatch h

theorem task_values_record_paid_iff_sample : ∃ (e : Evaluation) (w₁ w' : World),
    copiedEvaluation [author, copier] = (.ok e, w₁) ∧ ∃ artifact,
      w'.files (.epoch 1 .weights) = some (.doc (.obj artifact)) ∧
      ∀ before p after, e.outcomes = before ++ p :: after → ∀ hash, p.2.PassedGates hash →
        (recordedTaskValue artifact hash = .num p.2.taskValue ↔
          p.2.taskValue = 0 ∨ ∀ q ∈ after, q.2.packageHash ≠ .str hash) := by
  have hrun : copiedEpoch [author, copier] (fun _ _ => true) = true := by decide +kernel
  obtain ⟨e, w₁, r, w', hevaluate, hconclude, _⟩ := exists_copiedEpoch hrun
  exact ⟨e, w₁, w', hevaluate, task_values_record_paid_iff digestEngine_hashes
    (keepsRecords_none 1) hevaluate hconclude⟩

/-- the first outcome is paid, and the artifact records zero for its hash -/
def forgetsPaid (e : Evaluation) (w' : World) : Bool :=
  match e.outcomes, w'.files (.epoch 1 .weights) with
  | p :: _, some (.doc (.obj artifact)) =>
    p.2.allGates && p.2.packageHash.eqStr "0xt" && decide (p.2.taskValue ≠ 0) &&
      (recordedTaskValue artifact "0xt").eqInt 0
  | _, _ => false

/-- a copy that fails as a duplicate erases the value that was paid -/
theorem duplicate_erases_paid_value :
    ¬ ∀ (env : Env) (engine : Engine) (substrate : Substrate) (A : FloatOps) (cfg : SubnetConfig)
        (epochId quota : Int) (miners : List Miner) (client : Option ChainClient)
        (phaseHook : Option (String → M Unit)) (e : Evaluation) (r : EpochResult)
        (w w₁ w' : World) (artifact : Obj), (∀ task, engine.stableHash task ≠ "") →
      KeepsRecords epochId phaseHook →
      evaluateEpoch env engine A cfg epochId quota miners w = (.ok e, w₁) →
      concludeEpoch env substrate A cfg epochId quota miners client phaseHook e.outcomes e.session
        w₁ = (.ok r, w') →
      w'.files (.epoch epochId .weights) = some (.doc (.obj artifact)) →
      ∀ before p after, e.outcomes = before ++ p :: after → ∀ hash, p.2.PassedGates hash →
        recordedTaskValue artifact hash = .num p.2.taskValue := by
  intro h
  have hrun : copiedEpoch [author, copier] forgetsPaid = true := by decide +kernel
  obtain ⟨e, w₁, r, w', hevaluate, hconclude, hforgets⟩ := exists_copiedEpoch hrun
  unfold forgetsPaid at hforgets
  split at hforgets
  · next p after artifact houtcomes hfile =>
    rw [Bool.and_eq_true, Bool.and_eq_true, Bool.and_eq_true] at hforgets
    obtain ⟨⟨⟨hgates, hhash⟩, hpaid⟩, hzero⟩ := hforgets
    have hrecorded := h _ _ _ _ _ _ _ _ _ _ e r {} w₁ w' artifact digestEngine_hashes
      (keepsRecords_none 1) hevaluate hconclude hfile [] p after houtcomes "0xt"
      ⟨hgates, Json.eqStr_iff.mp hhash⟩
    rw [hrecorded] at hzero
    have hvalue : (some p.2.taskValue == some ((0 : Int) : ℚ)) = true := hzero
    have hsame : p.2.taskValue = ((0 : Int) : ℚ) := Option.some.inj (beq_iff_eq.mp hvalue)
    rw [Int.cast_zero] at hsame
    exact (of_decide_eq_true hpaid) hsame
  · exact nomatch hforgets

end Dolores
