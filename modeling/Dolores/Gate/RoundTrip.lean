import Dolores.Gate.Packaging

/-!
# The wire format from the miner to the validator (`packaging.py`, `gates.py`)

The engine is a parameter: `ParsesBack` and `HashCollisionFree` are what is relied on.  Two dicts
are compared as Python compares them, without the order of their keys (`SameDict`).

* `enginePackage_wirePackage`   the decoder's renaming undoes the encoder's;
* `acceptable_of_toWire`        the four checks on an encoded task;
* `wire_round_trip`             the decoder, the six gates, and a package put in another's place.
-/

namespace Dolores
open Except

/-- `d == d'` -/
def SameDict (d d' : Obj) : Prop := d.canon = d'.canon

theorem sameDict_of_perm {d d' : Obj} (h : d.Perm d') (hn : d.keys.Nodup) : SameDict d d' :=
  (Dict.SameItems.mapValues ⟨h, hn⟩ Json.canon).sorted

/-! ## renaming the tests -/

section
variable {d : Obj} {k k' : String} {v : Json}

theorem get?_erase_self (d : Obj) (k : String) : Dict.get? (Dict.erase d k) k = none := by
  cases hget : Dict.get? (Dict.erase d k) k with
  | none => rfl
  | some v =>
    have hmem := Dict.mem_of_get? hget
    unfold Dict.erase at hmem
    have hne := (List.mem_filter.mp hmem).2
    simp at hne

theorem erase_of_absent (h : k ∉ Dict.keys d) : Dict.erase d k = d := by
  unfold Dict.erase
  rw [List.filter_eq_self]
  intro p hp
  have hne : p.1 ≠ k := by
    intro heq
    exact h (heq ▸ List.mem_map_of_mem hp)
  exact decide_eq_true hne

theorem keys_erase_sublist (d : Obj) (k : String) :
    (Dict.keys (Dict.erase d k)).Sublist (Dict.keys d) :=
  List.filter_sublist.map _

/-- a key taken out and put at the end -/
theorem erase_append_perm (hn : (Dict.keys d).Nodup) (h : Dict.get? d k = some v) :
    (Dict.erase d k ++ [(k, v)]).Perm d := by
  induction d with
  | nil => exact nomatch h
  | cons p d ih =>
    obtain ⟨a, b⟩ := p
    obtain ⟨hnot, hn'⟩ := List.nodup_cons.mp hn
    by_cases hk : k = a
    · subst hk
      rw [Dict.get?_cons, if_pos rfl] at h
      obtain rfl := Option.some.inj h
      have herase : Dict.erase ((k, b) :: d) k = d := by
        unfold Dict.erase
        rw [List.filter_cons_of_neg (by simp)]
        exact erase_of_absent hnot
      rw [herase]
      exact List.perm_append_singleton _ _
    · rw [Dict.get?_cons, if_neg hk] at h
      have herase : Dict.erase ((a, b) :: d) k = (a, b) :: Dict.erase d k := by
        unfold Dict.erase
        rw [List.filter_cons_of_pos (by simpa using Ne.symm hk)]
      rw [herase]
      exact (ih hn' h).cons _

/-- the tests of a package are a mapping, and it has none under the public name -/
structure HasTests (canonical : Obj) : Prop where
  nodup : (Dict.keys canonical).Nodup
  tests : ∃ tests, Dict.get? canonical legacyHiddenTestsKey = some (.obj tests)
  noAuthorTests : Dict.get? canonical authorTestsKey = none

variable {canonical : Obj}

theorem wirePackage_eq (h : HasTests canonical) {tests : Obj}
    (htests : Dict.get? canonical legacyHiddenTestsKey = some (.obj tests)) :
    wirePackage canonical =
      Dict.erase canonical legacyHiddenTestsKey ++ [(authorTestsKey, .obj tests)] := by
  have habsent : authorTestsKey ∉ Dict.keys (Dict.erase canonical legacyHiddenTestsKey) :=
    fun hmem => Dict.not_mem_keys_of_get? h.noAuthorTests ((keys_erase_sublist _ _).subset hmem)
  unfold wirePackage
  rw [htests, Dict.set_of_not_mem habsent]
  rfl

theorem not_contains_wirePackage (h : HasTests canonical) :
    Dict.contains (wirePackage canonical) legacyHiddenTestsKey = false := by
  obtain ⟨tests, htests⟩ := h.tests
  have hget : Dict.get? (wirePackage canonical) legacyHiddenTestsKey = none := by
    unfold wirePackage
    rw [Dict.get?_set, if_neg (by decide)]
    exact get?_erase_self _ _
  unfold Dict.contains
  rw [hget]
  rfl

theorem enginePackage_wirePackage (h : HasTests canonical) :
    ∃ package, enginePackageFromWire (wirePackage canonical) = .ok package ∧
      SameDict package canonical := by
  obtain ⟨tests, htests⟩ := h.tests
  have habsent : authorTestsKey ∉ Dict.keys (Dict.erase canonical legacyHiddenTestsKey) :=
    fun hmem => Dict.not_mem_keys_of_get? h.noAuthorTests ((keys_erase_sublist _ _).subset hmem)
  have hget : Dict.get? (wirePackage canonical) authorTestsKey = some (.obj tests) := by
    unfold wirePackage
    rw [htests]
    exact Dict.get?_set_self _ _ _
  have herased : Dict.erase (wirePackage canonical) authorTestsKey =
      Dict.erase canonical legacyHiddenTestsKey := by
    rw [wirePackage_eq h htests]
    unfold Dict.erase
    rw [List.filter_append, List.filter_cons_of_neg (by simp), List.filter_nil, List.append_nil]
    exact erase_of_absent habsent
  have hback : Dict.set (Dict.erase (wirePackage canonical) authorTestsKey) legacyHiddenTestsKey
      (.obj tests) = Dict.erase canonical legacyHiddenTestsKey ++
        [(legacyHiddenTestsKey, .obj tests)] := by
    rw [herased]
    exact Dict.set_of_not_mem (Dict.not_mem_keys_of_get? (get?_erase_self _ _)) _
  have hperm := erase_append_perm h.nodup htests
  refine ⟨_, ?_, sameDict_of_perm (hback ▸ hperm) ?_⟩
  · unfold enginePackageFromWire
    rw [if_neg (by rw [not_contains_wirePackage h]; decide), hget]
  · rw [hback]
    exact (Dict.keys_perm hperm).nodup_iff.mpr h.nodup

end

/-! ## the engine -/

section
variable (engine : Engine)

/-- the engine parses the canonical dict of the task to a task with the same dict, id and hash -/
def ParsesBack (task : TaskPackage) : Prop :=
  ∀ d, SameDict d task.canonicalDict → ∃ parsed, engine.modelValidate d = .ok parsed ∧
    SameDict parsed.canonicalDict task.canonicalDict ∧ parsed.taskId = task.taskId ∧
    engine.stableHash parsed = engine.stableHash task

/-- parsed tasks with one stable hash have one canonical dict -/
def HashCollisionFree : Prop :=
  ∀ d d' parsed parsed', engine.modelValidate d = .ok parsed →
    engine.modelValidate d' = .ok parsed' → engine.stableHash parsed = engine.stableHash parsed' →
    SameDict parsed.canonicalDict parsed'.canonicalDict

end

section
variable {T : PyText} {engine : Engine} {declaredDifficulty : TaskPackage → String}
  {firstError : String → List String × String} {task : TaskPackage} {maxBytes cap : Int}
  {wire : Obj}

theorem toWire_ok (h : toWire T engine declaredDifficulty task maxBytes = .ok wire) :
    wireSizeOk T wire maxBytes = true ∧
      wire.get "schema_version" = .str schemaVersion ∧ wire.get "task_id" = .str task.taskId ∧
      wire.get "package_hash" = .str (engine.stableHash task) ∧
      wire.get "package" = .obj (wirePackage task.canonicalDict) := by
  unfold toWire at h
  dsimp only at h
  split at h
  · exact nomatch h
  next hsize =>
    obtain rfl := Except.ok.inj h
    exact ⟨by simpa using hsize, rfl, rfl, rfl, rfl⟩

theorem wireSizeOk_mono (h : wireSizeOk T wire maxBytes = true) (hle : maxBytes ≤ cap) :
    wireSizeOk T wire cap = true :=
  decide_eq_true (le_trans (of_decide_eq_true h) hle)

/-- the task that the engine reads back from the wire -/
theorem acceptable_of_toWire (htests : HasTests task.canonicalDict)
    (hback : ParsesBack engine task)
    (h : toWire T engine declaredDifficulty task maxBytes = .ok wire) (hle : maxBytes ≤ cap) :
    ∃ parsed, Acceptable T engine wire cap parsed ∧
      SameDict parsed.canonicalDict task.canonicalDict ∧ parsed.taskId = task.taskId ∧
      engine.stableHash parsed = engine.stableHash task := by
  obtain ⟨hsize, hschema, _, hhash, hpackage⟩ := toWire_ok h
  obtain ⟨package, hrenamed, hsame⟩ := enginePackage_wirePackage htests
  obtain ⟨parsed, hparsed, hdict, hid, hstable⟩ := hback package hsame
  refine ⟨parsed, ⟨Json.eqStr_iff.mpr hschema, wireSizeOk_mono hsize hle, ?_, ?_⟩, hdict, hid, hstable⟩
  · refine parsePackage_ok_iff.mpr ⟨_, hpackage, ?_⟩
    rw [hrenamed, Except.ok_bind]
    exact hparsed
  · rw [hstable]
    exact Json.eqStr_iff.mpr hhash

theorem fromWire_of_toWire (htests : HasTests task.canonicalDict)
    (hback : ParsesBack engine task)
    (h : toWire T engine declaredDifficulty task maxBytes = .ok wire) (hle : maxBytes ≤ cap) :
    ∃ parsed, fromWire T engine firstError wire cap = .ok parsed ∧
      SameDict parsed.canonicalDict task.canonicalDict := by
  obtain ⟨parsed, haccept, hdict, hid, _⟩ := acceptable_of_toWire htests hback h hle
  refine ⟨parsed, fromWire_ok_iff.mpr ⟨haccept, ?_⟩, hdict⟩
  rw [hid]
  exact Json.eqStr_iff.mpr (toWire_ok h).2.2.1

variable {cfg : SubnetConfig} {context : GateContext} {hotkey : String}

theorem sixGates_of_toWire (htests : HasTests task.canonicalDict)
    (hback : ParsesBack engine task)
    (h : toWire T engine declaredDifficulty task maxBytes = .ok wire)
    (hle : maxBytes ≤ cfg.maxPackageBytes)
    (hquota : context.minerCounts.getD hotkey 0 < context.quota)
    (hunseen : engine.stableHash task ∉ context.seenHashes) :
    ∃ d c, runPreGates T engine wire cfg context hotkey = .ok (d, c) ∧ d.passed = true ∧
      d.gates = gatesUpTo 6 := by
  obtain ⟨parsed, haccept, _, _, hstable⟩ := acceptable_of_toWire htests hback h hle
  rw [← hstable] at hunseen
  have hrun := @runPreGates_of_acceptable _ _ _ _ _ context hotkey haccept
  unfold gateParsed at hrun
  dsimp only at hrun
  rw [if_neg (by rw [haccept.hash]; decide), if_neg (not_le.mpr hquota), if_neg hunseen] at hrun
  exact ⟨_, _, hrun, rfl, rfl⟩

/-! ## another package in its place -/

/-- a decision to pass comes from an acceptable payload -/
theorem acceptable_of_passed {payload : Obj} {d : GateDecision} {c : GateContext}
    (h : runPreGates T engine payload cfg context hotkey = .ok (d, c)) (hpassed : d.passed = true) :
    ∃ parsed, Acceptable T engine payload cfg.maxPackageBytes parsed := by
  have hstep : gateStep T engine cfg context (payload, hotkey) = (.ok d, c) := by
    unfold gateStep
    rw [h]
  have hpasses : passes (gateStep T engine cfg context (payload, hotkey)).1 = true := by
    rw [hstep]
    exact hpassed
  obtain ⟨hash, hadmits, _⟩ := (passes_gateStep_iff context (payload, hotkey)).mp hpasses
  unfold acceptableHash at hadmits
  split at hadmits
  · exact nomatch hadmits
  next hschema =>
    split at hadmits
    · exact nomatch hadmits
    next hsize =>
      split at hadmits
      · exact nomatch hadmits
      next parsed hparse =>
        split at hadmits
        · exact nomatch hadmits
        next hhash =>
          exact ⟨parsed, by simpa using hschema, by simpa using hsize, hparse, by simpa using hhash⟩

/-- the hash on the payload is the task's, and no other dict has it -/
theorem not_acceptable_replaced (hback : ParsesBack engine task)
    (hcollision : HashCollisionFree engine)
    (h : toWire T engine declaredDifficulty task maxBytes = .ok wire) {package : Obj}
    {other parsed : TaskPackage}
    (hother : (enginePackageFromWire package >>= engine.modelValidate) = .ok other)
    (hdiffers : ¬ SameDict other.canonicalDict task.canonicalDict) :
    ¬ Acceptable T engine (Dict.set wire "package" (.obj package)) cap parsed := by
  intro haccept
  have hget : Obj.get (Dict.set wire "package" (.obj package)) "package" = .obj package := by
    unfold Obj.get
    rw [Dict.get?_set_self]
    rfl
  have hhash : Obj.get (Dict.set wire "package" (.obj package)) "package_hash" =
      .str (engine.stableHash task) := by
    unfold Obj.get
    rw [Dict.get?_set, if_neg (by decide)]
    exact (toWire_ok h).2.2.2.1
  obtain ⟨package', hpackage', hparse⟩ := parsePackage_ok_iff.mp haccept.parses
  obtain rfl := Json.obj.inj (hget.symm.trans hpackage')
  obtain rfl := Except.ok.inj (hother.symm.trans hparse)
  have hstable : engine.stableHash task = engine.stableHash other := by
    have heq := haccept.hash
    rw [hhash] at heq
    exact eq_of_beq heq
  obtain ⟨d, hd, hparsed⟩ := bind_ok hother
  obtain ⟨back, hback, hsame, _, hbackHash⟩ := hback task.canonicalDict rfl
  have hcollide := hcollision _ _ _ _ hparsed hback (hstable.symm.trans hbackHash.symm)
  exact hdiffers (hcollide.trans hsame)

end

/-- for every task that the encoder takes: decoder and gates accept the encoding, the package hides
no tests under the engine's name, and another package in its place is rejected by both -/
theorem wire_round_trip (T : PyText) (engine : Engine)
    (declaredDifficulty : TaskPackage → String) (firstError : String → List String × String)
    (task : TaskPackage) (maxBytes : Int) (wire : Obj) (hback : ParsesBack engine task)
    (htests : HasTests task.canonicalDict) (hcollision : HashCollisionFree engine)
    (h : toWire T engine declaredDifficulty task maxBytes = .ok wire) :
    (∀ cap, maxBytes ≤ cap → ∃ parsed, fromWire T engine firstError wire cap = .ok parsed ∧
      SameDict parsed.canonicalDict task.canonicalDict) ∧
    (∀ (cfg : SubnetConfig) (context : GateContext) (hotkey : String),
      maxBytes ≤ cfg.maxPackageBytes → context.minerCounts.getD hotkey 0 < context.quota →
      engine.stableHash task ∉ context.seenHashes →
      ∃ d c, runPreGates T engine wire cfg context hotkey = .ok (d, c) ∧ d.passed = true ∧
        d.gates = gatesUpTo 6) ∧
    (∃ package, wire.get "package" = .obj package ∧
      Dict.contains package legacyHiddenTestsKey = false) ∧
    ∀ package other, (enginePackageFromWire package >>= engine.modelValidate) = .ok other →
      ¬ SameDict other.canonicalDict task.canonicalDict →
      (∀ cap parsed, fromWire T engine firstError (Dict.set wire "package" (.obj package)) cap ≠
        .ok parsed) ∧
      ∀ cfg context hotkey d c, runPreGates T engine (Dict.set wire "package" (.obj package)) cfg
        context hotkey = .ok (d, c) → d.passed = false := by
  refine ⟨fun cap hle => fromWire_of_toWire htests hback h hle,
    fun cfg context hotkey hle hquota hunseen =>
      sixGates_of_toWire htests hback h hle hquota hunseen,
    ⟨_, (toWire_ok h).2.2.2.2, not_contains_wirePackage htests⟩, ?_⟩
  intro package other hother hdiffers
  refine ⟨fun cap parsed hdecoded => ?_, fun cfg context hotkey d c hrun => ?_⟩
  · exact not_acceptable_replaced hback hcollision h hother hdiffers
      (fromWire_ok_iff.mp hdecoded).1
  · cases hpassed : d.passed with
    | false => rfl
    | true =>
      obtain ⟨parsed, haccept⟩ := acceptable_of_passed hrun hpassed
      exact (not_acceptable_replaced hback hcollision h hother hdiffers haccept).elim

/-! ## an engine of small packages -/

/-- the packages that hold an id and one file of tests -/
def idOfPackage (package : Obj) : Option String :=
  match package.canon with
  | [(k, .obj [(file, .str text)]), (k', .str taskId)] =>
    if k = legacyHiddenTestsKey ∧ k' = "task_id" ∧ (file, text) = plainTest then some taskId
    else none
  | _ => none

def validateSmall (d : Obj) : Except Exn TaskPackage :=
  match idOfPackage d with
  | some taskId => .ok { plainTask with taskId, canonicalDict := d }
  | none => .error (.validationError "package: Extra inputs are not permitted")

def smallEngine : Engine :=
  { Engine.plain with
    modelValidate := validateSmall
    stableHash task := "hash-" ++ task.taskId }

theorem idOfPackage_eq {d : Obj} {taskId : String} (h : idOfPackage d = some taskId) :
    d.canon = [(legacyHiddenTestsKey, .obj [(plainTest.1, .str plainTest.2)]),
      ("task_id", .str taskId)] := by
  unfold idOfPackage at h
  split at h
  next hcanon =>
    split at h
    next hkeys =>
      rw [hcanon, hkeys.1, hkeys.2.1, ← hkeys.2.2, Option.some.inj h]
    · exact nomatch h
  · exact nomatch h

theorem idOfPackage_of_parsed {d : Obj} {parsed : TaskPackage}
    (h : smallEngine.modelValidate d = .ok parsed) :
    idOfPackage d = some parsed.taskId ∧ parsed.canonicalDict = d := by
  replace h : validateSmall d = .ok parsed := h
  unfold validateSmall at h
  cases hid : idOfPackage d with
  | none =>
    rw [hid] at h
    exact nomatch h
  | some taskId =>
    rw [hid] at h
    obtain rfl := Except.ok.inj h
    exact ⟨rfl, rfl⟩

theorem hashCollisionFree_smallEngine : HashCollisionFree smallEngine := by
  intro d d' parsed parsed' h h' hhash
  obtain ⟨hid, hdict⟩ := idOfPackage_of_parsed h
  obtain ⟨hid', hdict'⟩ := idOfPackage_of_parsed h'
  have hsame : parsed.taskId = parsed'.taskId := (String.append_right_inj _).mp hhash
  unfold SameDict
  rw [hdict, hdict', idOfPackage_eq hid, idOfPackage_eq hid', hsame]

theorem parsesBack_smallEngine : ParsesBack smallEngine plainTask := by
  intro d hsame
  have hid : idOfPackage d = some "task-1" := by
    unfold idOfPackage
    rw [hsame]
    decide +kernel
  refine ⟨{ plainTask with canonicalDict := d }, ?_, hsame, rfl, rfl⟩
  show validateSmall d = _
  unfold validateSmall
  rw [hid]
  rfl

theorem hasTests_plainTask : HasTests plainTask.canonicalDict where
  nodup := by decide
  tests := ⟨[(plainTest.1, .str plainTest.2)], rfl⟩
  noAuthorTests := rfl

theorem wire_round_trip_sample : ∃ wire,
    toWire Env.plain.text smallEngine (fun _ => "0.5") plainTask maxPackageBytes = .ok wire ∧
      ∃ parsed, fromWire Env.plain.text smallEngine (fun _ => ([], "")) wire maxPackageBytes =
        .ok parsed ∧ SameDict parsed.canonicalDict plainTask.canonicalDict := by
  have hwire : ∃ wire, toWire Env.plain.text smallEngine (fun _ => "0.5") plainTask
      maxPackageBytes = .ok wire := by
    unfold toWire
    dsimp only
    rw [if_neg (by decide +kernel)]
    exact ⟨_, rfl⟩
  obtain ⟨wire, hwire⟩ := hwire
  have hall := wire_round_trip Env.plain.text smallEngine (fun _ => "0.5") (fun _ => ([], ""))
    plainTask maxPackageBytes wire parsesBack_smallEngine hasTests_plainTask
    hashCollisionFree_smallEngine hwire
  exact ⟨wire, hwire, hall.1 maxPackageBytes le_rfl⟩

end Dolores
