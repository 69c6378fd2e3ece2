import Dolores.Lib.Except
import Dolores.Bridge.Impl

/-!
# When `validate_submission` returns

Every read of the payload is guarded except one: the default of `task_id` reads the package's own
`task_id`, and is evaluated for every payload without a reserved key.  `validateSubmission`
returns exactly when that read is of an object (`PackageReadable`), provided the engine and the
archive do not raise (`Engine.Settled`).

* `policy_*`               the holdout policy raises nothing but `HoldoutPolicyError`;
* `returns_*`              one lemma per function of the evaluation;
* `runPreGates_returns`    what the gates yield;
* `validateSubmission_returns_iff`   when the whole validation returns.
-/

set_option linter.unusedSectionVars false

namespace Dolores
open Crash Except

/-- The engine and the archive answer: a package that does not validate is rejected by an
`Exception`, and no other call raises. -/
structure Engine.Settled (engine : Engine) : Prop where
  validates : ∀ package, OnlyRaises (fun e : Exn => e.isException = true)
    (engine.modelValidate package)
  pipeline : ∀ n task panelPath, ∃ r, engine.runTaskPipeline n task panelPath = .ok r
  verify : ∀ n task candidate, ∃ v, engine.verify n task candidate = .ok v
  initDb : ∀ n, ∃ u, engine.initDb n = .ok u
  purgeDb : ∀ n taskHash, ∃ u, engine.purgeDb n taskHash = .ok u

/-- the payload has a reserved key, or its `package` is absent or an object -/
def PackageReadable (wire : Obj) : Prop :=
  Dict.contains wire "wire_error" = true ∨ Dict.get? wire "package" = none ∨
    ∃ package, Dict.get? wire "package" = some (.obj package)

/-! ## the holdout policy -/

def IsPolicyError (e : Exn) : Prop := ∃ msg, e = .holdoutPolicyError msg

section
variable (env : Env) (engine : Engine)

theorem policy_conceptMap (values : List String) : OnlyRaises IsPolicyError (conceptMap values) :=
  OnlyRaises.foldlM (fun concepts value => by
    cases splitColon value.toList with
    | none => exact OnlyRaises.ok _
    | some p =>
      obtain ⟨k, v⟩ := p
      dsimp only
      cases Dict.get? concepts (String.ofList k) with
      | none => exact OnlyRaises.ok _
      | some old =>
        dsimp only
        split
        · exact OnlyRaises.error ⟨_, rfl⟩
        · exact OnlyRaises.ok _) values []

theorem policy_referenceModule (files : Dict String String) :
    OnlyRaises IsPolicyError (referenceModule engine files) := by
  unfold referenceModule
  split
  · split
    · exact OnlyRaises.ok _
    · exact OnlyRaises.error ⟨_, rfl⟩
  · exact OnlyRaises.error ⟨_, rfl⟩

theorem policy_symbolFor (kind slug : String) :
    OnlyRaises IsPolicyError (symbolFor engine kind slug) := by
  unfold symbolFor
  split
  · exact OnlyRaises.ok _
  · exact OnlyRaises.error ⟨_, rfl⟩

theorem policy_validateHoldoutSupport (task : TaskPackage) :
    OnlyRaises IsPolicyError (validateHoldoutSupport engine task) := by
  unfold validateHoldoutSupport
  refine OnlyRaises.bind (policy_conceptMap _) fun concepts _ => ?_
  dsimp only
  split
  · exact OnlyRaises.error ⟨_, rfl⟩
  split
  · exact OnlyRaises.error ⟨_, rfl⟩
  refine OnlyRaises.bind (policy_referenceModule engine _) fun _ _ => ?_
  refine OnlyRaises.bind (policy_symbolFor engine _ _) fun _ _ => ?_
  exact OnlyRaises.bind (policy_symbolFor engine _ _) fun _ _ => OnlyRaises.ok _

theorem policy_buildHoldoutPlan (task : TaskPackage) (packageHash secret : String) :
    OnlyRaises IsPolicyError (buildHoldoutPlan env engine task packageHash secret) := by
  unfold buildHoldoutPlan
  split
  · exact OnlyRaises.error ⟨_, rfl⟩
  split
  · exact OnlyRaises.error ⟨_, rfl⟩
  refine OnlyRaises.bind (policy_validateHoldoutSupport engine task) fun _ _ => ?_
  refine OnlyRaises.bind (policy_symbolFor engine _ _) fun _ _ => ?_
  exact OnlyRaises.bind (policy_symbolFor engine _ _) fun _ _ => OnlyRaises.ok _

/-- a supported task has unambiguous concepts -/
theorem conceptMap_of_supported {task : TaskPackage} {r}
    (h : validateHoldoutSupport engine task = .ok r) :
    ∃ concepts, conceptMap task.descriptors.concepts = .ok concepts := by
  unfold validateHoldoutSupport at h
  obtain ⟨concepts, hc, _⟩ := bind_ok h
  exact ⟨concepts, hc⟩

/-! ## the evaluation returns -/

variable {env engine} (hf : env.NoFaults) (he : engine.Settled) (A : FloatOps)
include hf he

theorem returns_initArchive : Returns (initArchive env engine) fun _ => True :=
  Returns.bind (returns_external hf fun n => (he.initDb n).imp fun _ h => ⟨h, trivial⟩)
    fun _ _ => Returns.modify _

theorem returns_purgeTask (taskHash : String) :
    Returns (purgeTask env engine taskHash) fun _ => True :=
  Returns.bind (returns_external hf fun n => (he.purgeDb n taskHash).imp fun _ h => ⟨h, trivial⟩)
    fun _ _ => Returns.modify _

theorem returns_purgeIfHash (taskHash : String) :
    Returns (purgeIfHash env engine taskHash) fun _ => True :=
  Returns.ite (fun _ => Returns.pure trivial) fun _ => returns_purgeTask hf he taskHash

theorem returns_verify (task : TaskPackage) (candidate : Option (Dict String String)) :
    Returns (external env fun n => engine.verify n task candidate) fun _ => True :=
  returns_external hf fun n => (he.verify n task candidate).imp fun _ h => ⟨h, trivial⟩

theorem returns_runProbes (task : TaskPackage) (requireContainerized : Bool)
    (probes : List (String × Dict String String)) :
    Returns (runProbes env engine task requireContainerized probes) fun _ => True := by
  induction probes with
  | nil => exact Returns.pure trivial
  | cons p probes ih =>
    obtain ⟨probeId, candidate⟩ := p
    refine Returns.bind (returns_verify hf he task _) fun result _ => ?_
    exact Returns.bind ih fun rest _ => Returns.pure trivial

theorem returns_evaluateHoldout {task : TaskPackage} (packageHash secret : String)
    (requireContainerized : Bool)
    (hc : ∃ concepts, conceptMap task.descriptors.concepts = .ok concepts) :
    Returns (evaluateHoldout env engine task packageHash secret requireContainerized)
      fun _ => True := by
  obtain ⟨concepts, hc⟩ := hc
  have hpolicy := policy_buildHoldoutPlan env engine task packageHash secret
  unfold evaluateHoldout
  generalize buildHoldoutPlan env engine task packageHash secret = plan at hpolicy
  cases plan with
  | error e =>
    obtain ⟨msg, rfl⟩ := hpolicy e rfl
    dsimp only
    rw [hc]
    exact Returns.pure trivial
  | ok plan =>
    refine Returns.bind (returns_verify hf he plan.task none) fun reference _ => ?_
    refine Returns.bind (P := fun _ => True) ?_ fun probesCaught _ => ?_
    swap
    · generalize holdoutStatus requireContainerized reference probesCaught = verdict
      obtain ⟨status, reason⟩ := verdict
      exact Returns.pure trivial
    exact Returns.ite (fun _ => returns_runProbes hf he plan.task requireContainerized _)
      fun _ => Returns.pure trivial

theorem returns_outcomeFromPipeline (result : PipelineResult) (cfg : SubnetConfig)
    (taskId taskHash : String) (gates : Dict String Bool) (holdoutSummary : Obj) :
    Returns (outcomeFromPipeline env engine A result cfg taskId taskHash gates holdoutSummary)
      fun _ => True := by
  unfold outcomeFromPipeline
  cases result.verification with
  | none => exact Returns.pure trivial
  | some verification =>
    refine Returns.ite (fun _ => Returns.pure trivial) fun _ => ?_
    refine Returns.ite (fun _ => Returns.bind (returns_purgeIfHash hf he taskHash)
      fun _ _ => Returns.pure trivial) fun _ => ?_
    cases verification.safetyFindings with
    | cons finding _ => exact Returns.pure trivial
    | nil =>
      exact Returns.ite (fun _ => Returns.bind (returns_purgeIfHash hf he taskHash)
        fun _ _ => Returns.pure trivial) fun _ => Returns.pure trivial

theorem returns_runPipeline (task : TaskPackage) (panelPath : String) :
    Returns (runPipeline env engine task panelPath) fun _ => True := by
  refine Returns.bind (returns_external hf fun n =>
    (he.pipeline n task panelPath).imp fun _ h => ⟨h, trivial⟩) fun r _ => ?_
  exact Returns.bind (Returns.modify _) fun _ _ =>
    Returns.bind (Returns.modify _) fun _ _ => Returns.pure trivial

theorem returns_evaluateTask (cfg : SubnetConfig) (task : TaskPackage) (taskHash : String)
    (gates : Dict String Bool) (panelPath : String)
    (hc : cfg.holdoutRequired = true →
      ∃ concepts, conceptMap task.descriptors.concepts = .ok concepts) :
    Returns (evaluateTask env engine A cfg task taskHash gates panelPath) fun _ => True := by
  refine Returns.bind (returns_runPipeline hf he task panelPath) fun result _ => ?_
  cases result.verification with
  | none => exact returns_outcomeFromPipeline hf he A _ _ _ _ _ _
  | some verification =>
    refine Returns.ite (fun hreq => ?_) fun _ => returns_outcomeFromPipeline hf he A _ _ _ _ _ _
    refine Returns.bind (returns_evaluateHoldout hf he _ _ true (hc hreq.1)) fun evidence _ => ?_
    refine Returns.ite (fun _ => ?_) fun _ => returns_outcomeFromPipeline hf he A _ _ _ _ _ _
    exact Returns.bind (returns_purgeIfHash hf he taskHash) fun _ _ => Returns.pure trivial

theorem returns_evaluateSupported (cfg : SubnetConfig) (task : TaskPackage) (taskHash : String)
    (gates : Dict String Bool) (panelPath : String) :
    Returns (evaluateSupported env engine A cfg task taskHash gates panelPath) fun _ => True := by
  unfold evaluateSupported
  refine Returns.ite (fun hreq => ?_) fun hreq => ?_
  · have hpolicy := policy_validateHoldoutSupport engine task
    cases hs : validateHoldoutSupport engine task with
    | error e =>
      obtain ⟨msg, rfl⟩ := hpolicy e hs
      exact Returns.pure trivial
    | ok r =>
      exact returns_evaluateTask hf he A cfg task taskHash gates panelPath
        fun _ => conceptMap_of_supported engine hs
  · exact returns_evaluateTask hf he A cfg task taskHash gates panelPath
      fun h => (hreq h).elim

end

/-! ## the gates return -/

section
variable {T : PyText} {engine : Engine}

theorem runPreGates_returns (he : engine.Settled) (wire : Obj) (cfg : SubnetConfig)
    (context : GateContext) (hotkey : String) :
    ∃ r, runPreGates T engine wire cfg context hotkey = .ok r := by
  have hparse : OnlyRaises (fun e : Exn => e.isException = true) (parsePackage engine wire) := by
    unfold parsePackage
    split
    · refine OnlyRaises.bind ?_ fun package _ => he.validates package
      unfold enginePackageFromWire
      split
      · exact OnlyRaises.error rfl
      · split
        · exact OnlyRaises.error rfl
        · exact OnlyRaises.ok _
        · exact OnlyRaises.error rfl
    · exact OnlyRaises.error rfl
  unfold runPreGates
  split
  · exact ⟨_, rfl⟩
  split
  · exact ⟨_, rfl⟩
  split
  · exact ⟨_, rfl⟩
  · exact ⟨_, rfl⟩
  · next e _ _ hp =>
    rw [if_pos (hparse e hp)]
    exact ⟨_, rfl⟩
  · exact ⟨_, rfl⟩

/-- a decision that passes carries the task, and every gate is true -/
theorem runPreGates_task {wire : Obj} {cfg : SubnetConfig} {context context' : GateContext}
    {hotkey : String} {d : GateDecision}
    (h : runPreGates T engine wire cfg context hotkey = .ok (d, context')) (hd : d.passed = true) :
    ∃ task, parsePackage engine wire = .ok task ∧ d.task = some task ∧
      d.taskHash = some (engine.stableHash task) ∧ d.gates = gatesUpTo 6 := by
  have hfail : ∀ {n : Nat} {gate reason detail : String} {c : GateContext},
      (Except.ok (gateFail n gate reason detail, c) : Except Exn _) = .ok (d, context') → False := by
    intro n gate reason detail c h
    have e : gateFail n gate reason detail = d := (Prod.mk.inj (Except.ok.inj h)).1
    rw [← e] at hd
    exact Bool.false_ne_true hd
  unfold runPreGates at h
  split at h
  · exact (hfail h).elim
  split at h
  · exact (hfail h).elim
  split at h
  · exact (hfail h).elim
  · exact (hfail h).elim
  · split at h
    · exact (hfail h).elim
    · exact nomatch h
  · next task htask =>
    unfold gateParsed at h
    dsimp only at h
    split at h
    · exact (hfail h).elim
    split at h
    · exact (hfail h).elim
    split at h
    · exact (hfail h).elim
    · have e := (Prod.mk.inj (Except.ok.inj h)).1
      exact ⟨task, htask, by rw [← e], by rw [← e], by rw [← e]⟩

end

/-! ## the exact condition -/

section
variable {env : Env} {engine : Engine} (A : FloatOps) (wire : Obj) (cfg : SubnetConfig)
  (context : Option GateContext) (hotkey : String) (panelPath : Option String)

/-- the payload fails a gate, or has a reserved key -/
def Rejected (env : Env) (engine : Engine) : Prop :=
  Dict.contains wire "wire_error" = true ∨
    ∃ d c, runPreGates env.text engine wire cfg (context.getD { quota := cfg.quota }) hotkey
      = .ok (d, c) ∧ d.passed = false

/-- the call returns an outcome, and a rejected payload is `invalid` and worth nothing -/
def ReturnsOutcome (env : Env) (engine : Engine) (w : World) : Prop :=
  ∃ r w', validateSubmission env engine A wire cfg context hotkey panelPath w = (.ok r, w') ∧
    (Rejected wire cfg context hotkey env engine → r.1.status = "invalid" ∧ r.1.taskValue = 0)

variable (env) in
theorem wireTaskId_of_readable (hr : Dict.contains wire "wire_error" = false)
    (h : PackageReadable wire) : ∃ taskId, wireTaskId env wire = .ok taskId := by
  unfold wireTaskId
  rcases h with h | h | ⟨package, h⟩
  · rw [hr] at h
    exact (Bool.false_ne_true h).elim
  · rw [h]
    exact ⟨_, rfl⟩
  · rw [h]
    exact ⟨_, rfl⟩

variable (env) in
theorem wireTaskId_of_not_readable (h : ¬ PackageReadable wire) :
    ∃ e, wireTaskId env wire = .error e := by
  unfold wireTaskId
  cases hp : Dict.get? wire "package" with
  | none => exact (h (.inr (.inl hp))).elim
  | some j =>
    cases j with
    | obj package => exact (h (.inr (.inr ⟨package, hp⟩))).elim
    | _ => exact ⟨_, rfl⟩

theorem reserved_eq_nil (hr : Dict.contains wire "wire_error" = false) :
    reservedWireKeys.filter (fun key => Dict.contains wire key) = [] := by
  unfold reservedWireKeys
  rw [List.filter_cons_of_neg (by rw [hr]; exact Bool.false_ne_true)]
  rfl

theorem reserved_ne_nil (hr : Dict.contains wire "wire_error" = true) :
    reservedWireKeys.filter (fun key => Dict.contains wire key) ≠ [] := by
  unfold reservedWireKeys
  rw [List.filter_cons_of_pos hr]
  exact List.cons_ne_nil _ _

theorem settleGates_raises (hn : ¬ PackageReadable wire) (d : GateDecision)
    (Q : SubmissionOutcome → World → Prop) (w : World) :
    ¬ wp (settleGates env engine A wire cfg panelPath d) (Post.returns Q) w := by
  intro h
  obtain ⟨e, hid⟩ := wireTaskId_of_not_readable env wire hn
  unfold settleGates at h
  rw [wp_bind, hid, wp_ofExcept_error] at h
  exact h

theorem settleGates_returns (hf : env.NoFaults) (he : engine.Settled)
    (hr : Dict.contains wire "wire_error" = false) (hp : PackageReadable wire)
    {d : GateDecision} {c : GateContext}
    (hg : runPreGates env.text engine wire cfg (context.getD { quota := cfg.quota }) hotkey
      = .ok (d, c)) (w : World) :
    wp (settleGates env engine A wire cfg panelPath d) (Post.returns fun o _ =>
      d.passed = false → o.status = "invalid" ∧ o.taskValue = 0) w := by
  obtain ⟨taskId, hid⟩ := wireTaskId_of_readable env wire hr hp
  unfold settleGates
  rw [wp_bind, hid, wp_ofExcept_ok]
  dsimp only
  cases hd : d.passed with
  | false => exact fun _ => ⟨rfl, rfl⟩
  | true =>
    obtain ⟨task, _, htask, _⟩ := runPreGates_task hg hd
    rw [htask]
    refine wp_mono (returns_evaluateSupported hf he A cfg task _ _ _ w) (fun o w' _ => ?_)
      (fun _ _ => id) (fun _ => id)
    intro h
    exact (Bool.false_ne_true h.symm).elim

/-- what the gates make of a payload without a reserved key -/
theorem returnsOutcome_gated (hf : env.NoFaults) (he : engine.Settled) (w : World)
    (hr : Dict.contains wire "wire_error" = false) :
    ∃ d c w', runPreGates env.text engine wire cfg (context.getD { quota := cfg.quota }) hotkey
        = .ok (d, c) ∧
      (ReturnsOutcome A wire cfg context hotkey panelPath env engine w ↔
        wp (settleGates env engine A wire cfg panelPath d) (Post.returns fun o _ =>
          d.passed = false → o.status = "invalid" ∧ o.taskValue = 0) w') := by
  obtain ⟨u, w', hrun, _⟩ := wp_returns_iff.mp (returns_initArchive hf he w)
  obtain ⟨⟨d, c⟩, hg⟩ := runPreGates_returns (T := env.text) he wire cfg
    (context.getD { quota := cfg.quota }) hotkey
  have hrej : Rejected wire cfg context hotkey env engine ↔ d.passed = false := by
    constructor
    · intro h
      rcases h with h | ⟨d', c', h, hd⟩
      · rw [hr] at h
        exact (Bool.false_ne_true h).elim
      · rw [hg] at h
        rw [(Prod.mk.inj (Except.ok.inj h)).1]
        exact hd
    · exact fun h => .inr ⟨d, c, hg, h⟩
  refine ⟨d, c, w', hg, ?_⟩
  unfold ReturnsOutcome
  rw [← wp_returns_iff]
  unfold validateSubmission
  rw [wp_bind, wp_of_ok hrun]
  dsimp only
  rw [reserved_eq_nil wire hr, if_neg (not_not.mpr rfl), hg, wp_bind, wp_ofExcept_ok]
  dsimp only
  rw [wp_bind, ← hrej]
  exact Iff.rfl

theorem not_returnsOutcome (hf : env.NoFaults) (he : engine.Settled) (w : World)
    (hn : ¬ PackageReadable wire) :
    ¬ ReturnsOutcome A wire cfg context hotkey panelPath env engine w := by
  intro h
  have hr : Dict.contains wire "wire_error" = false :=
    Bool.eq_false_iff.mpr fun hr => hn (.inl hr)
  obtain ⟨d, c, w', _, hiff⟩ :=
    returnsOutcome_gated A wire cfg context hotkey panelPath hf he w hr
  exact settleGates_raises A wire cfg panelPath hn d _ w' (hiff.mp h)

/-- **No wire payload aborts an epoch**, except through the unguarded read: the call returns (and
rejects what fails a gate) exactly when the payload's package can be read. -/
theorem validateSubmission_returns_iff (hf : env.NoFaults) (he : engine.Settled) (w : World) :
    ReturnsOutcome A wire cfg context hotkey panelPath env engine w ↔ PackageReadable wire := by
  constructor
  · intro h
    by_contra hn
    exact not_returnsOutcome A wire cfg context hotkey panelPath hf he w hn h
  · intro hp
    cases hr : Dict.contains wire "wire_error" with
    | true =>
      obtain ⟨u, w', hrun, _⟩ := wp_returns_iff.mp (returns_initArchive hf he w)
      unfold ReturnsOutcome
      rw [← wp_returns_iff]
      unfold validateSubmission
      rw [wp_bind, wp_of_ok hrun]
      dsimp only
      rw [if_pos (reserved_ne_nil wire hr)]
      exact fun _ => ⟨rfl, rfl⟩
    | false =>
      obtain ⟨d, c, w', hg, hiff⟩ :=
        returnsOutcome_gated A wire cfg context hotkey panelPath hf he w hr
      exact hiff.mpr (settleGates_returns A wire cfg context hotkey panelPath hf he hr hp hg w')

end

section

theorem Engine.plain_settled : Engine.plain.Settled where
  validates _ := OnlyRaises.error rfl
  pipeline _ _ _ := ⟨_, rfl⟩
  verify _ _ _ := ⟨_, rfl⟩
  initDb _ := ⟨_, rfl⟩
  purgeDb _ _ := ⟨_, rfl⟩

theorem validateSubmission_returns_sample :
    ReturnsOutcome exactOps [("package", .obj []), ("package_hash", .int 7)] {} none "miner" none
      Env.plain Engine.plain {} :=
  (validateSubmission_returns_iff exactOps [("package", .obj []), ("package_hash", .int 7)] {} none
    "miner" none (fun _ => rfl) Engine.plain_settled {}).mpr (.inr (.inr ⟨[], rfl⟩))

/-- a payload whose package is a string makes the call raise -/
theorem string_package_raises :
    ¬ ∀ (env : Env) (engine : Engine) (A : FloatOps) (wire : Obj) (cfg : SubnetConfig)
        (context : Option GateContext) (hotkey : String) (panelPath : Option String) (w : World),
      env.NoFaults → engine.Settled →
        ReturnsOutcome A wire cfg context hotkey panelPath env engine w := by
  intro h
  have hread : ¬ PackageReadable [("package", .str "x")] := by
    intro hp
    rcases hp with hp | hp | ⟨package, hp⟩
    · exact Bool.false_ne_true hp
    · exact nomatch hp
    · exact nomatch hp
  exact not_returnsOutcome exactOps [("package", .str "x")] {} none "miner" none (fun _ => rfl)
    Engine.plain_settled {} hread (h Env.plain Engine.plain exactOps _ {} none "miner" none {}
      (fun _ => rfl) Engine.plain_settled)

end

end Dolores
