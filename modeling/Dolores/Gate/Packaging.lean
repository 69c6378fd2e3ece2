import Dolores.Gate.Stream
import Dolores.Holdout.Impl
import Dolores.Validator.State

/-!
# Task packages on the wire (`packaging.py`, `protocol.py`)

`toWire` is the miner's encoder, `fromWire` the decoder.  The gates of the validator repeat the
decoder's checks one by one, but not all of them.

* `fromWire_ok_iff`      what the decoder accepts;
* `payloadGates`         the gates of `run_pre_gates` that look at the payload alone;
* `passesFour_iff`       what they accept;
* `decoder_agrees_iff`   the two agree exactly when an acceptable payload names its own task.
-/

namespace Dolores
open Except

/-! ## encoding -/

structure WireSubmission where
  schemaVersion : String
  taskId : String
  packageHash : String
  package : Obj
  family : String
  declaredDifficulty : String

def WireSubmission.toDict (s : WireSubmission) : Obj := [
  ("schema_version", .str s.schemaVersion),
  ("task_id", .str s.taskId),
  ("package_hash", .str s.packageHash),
  ("package", .obj s.package),
  ("family", .str s.family),
  ("declared_difficulty", .str s.declaredDifficulty)]

/-- `_family` -/
def familyOf (task : TaskPackage) : String :=
  let named := task.descriptors.concepts.findSome? fun concept =>
    if "family:".toList.isPrefixOf concept.toList then some (String.ofList (concept.toList.drop 7))
    else none
  named.getD task.descriptors.taskType

/-- the package of a task, with the engine's key renamed -/
def wirePackage (canonical : Obj) : Obj :=
  Dict.set (Dict.erase canonical legacyHiddenTestsKey) authorTestsKey
    ((Dict.get? canonical legacyHiddenTestsKey).getD (.obj []))

section
variable (T : PyText) (engine : Engine)

/-- `declaredDifficulty` is `str(getattr(task.descriptors, "estimated_difficulty", ""))` -/
def toWire (declaredDifficulty : TaskPackage → String) (task : TaskPackage) (maxBytes : Int) :
    Except Exn Obj :=
  let submission := WireSubmission.toDict {
    schemaVersion
    taskId := task.taskId
    packageHash := engine.stableHash task
    package := wirePackage task.canonicalDict
    family := familyOf task
    declaredDifficulty := declaredDifficulty task }
  if wireSizeOk T submission maxBytes = false then
    .error (.wireError "size" s!"wire payload is {canonicalSize T submission} bytes")
  else .ok submission

/-! ## decoding -/

/-- `_require` -/
def requireKey (payload : Obj) (key : String) : Except Exn Unit :=
  if Dict.contains payload key then .ok ()
  else .error (.wireError ("missing_" ++ key) ("wire payload missing " ++ T.reprStr key))

/-- `_validation_reason`, of the place and the message of the first error -/
def validationReason (loc : List String) (message : String) : String :=
  let lower := message.toLower
  let contains (text : String) : Bool := hasInfix text.toList lower.toList
  let files := ["starter_files", "reference_files", "public_tests", "hidden_tests"]
  if loc.head?.any files.contains then "parse_path"
  else if contains "reference file" || contains "public or hidden tests" then
    "parse_execution_material"
  else "parse"

/-- `firstError detail` are the place and the message of the validation error with this detail -/
def parseWirePackage (firstError : String → List String × String) (package : Obj) :
    Except Exn TaskPackage :=
  match enginePackageFromWire package >>= engine.modelValidate with
  | .ok task => .ok task
  | .error (.wireError reason detail) => .error (.wireError reason detail)
  | .error (.validationError detail) =>
    .error (.wireError (validationReason (firstError detail).1 (firstError detail).2) detail)
  | .error e => if e.isException then .error (.wireError "parse" e.str) else .error e

/-- the comparisons with the parsed task -/
def checkParsed (payload : Obj) (task : TaskPackage) : Except Exn TaskPackage :=
  let taskId := payload.get "task_id"
  let packageHash := payload.get "package_hash"
  if taskId.eqStr task.taskId = false then
    .error (.wireError "task_id" ("payload task_id " ++ taskId.pyRepr T ++ " != package " ++
      T.reprStr task.taskId))
  else if packageHash.eqStr (engine.stableHash task) = false then
    .error (.wireError "hash_match" ("claimed " ++ packageHash.pyStr T ++ " != recomputed " ++
      engine.stableHash task))
  else .ok task

def fromWire (firstError : String → List String × String) (payload : Obj) (maxBytes : Int) :
    Except Exn TaskPackage :=
  if wireSizeOk T payload maxBytes = false then
    .error (.wireError "size" s!"wire payload is {canonicalSize T payload} bytes")
  else do
    requireKey T payload "schema_version"
    requireKey T payload "task_id"
    requireKey T payload "package_hash"
    requireKey T payload "package"
    if (payload.get "schema_version").eqStr schemaVersion = false then
      .error (.wireError "schema_version" ("expected " ++ schemaVersion))
    else
      match payload.get "package" with
      | .obj package => do
        let task ← parseWirePackage engine firstError package
        checkParsed T engine payload task
      | _ => .error (.wireError "package_type" "package must be a dict")

end

/-! ## what the decoder accepts -/

section
variable {T : PyText} {engine : Engine} {firstError : String → List String × String}
  {payload : Obj} {maxBytes : Int} {task : TaskPackage}

theorem parseWirePackage_ok_iff {package : Obj} :
    parseWirePackage engine firstError package = .ok task ↔
      (enginePackageFromWire package >>= engine.modelValidate) = .ok task := by
  unfold parseWirePackage
  cases hparse : enginePackageFromWire package >>= engine.modelValidate with
  | ok t => exact Iff.rfl
  | error e =>
    refine iff_of_false ?_ nofun
    split
    next h => exact nomatch h
    next => exact nofun
    next => exact nofun
    next =>
      split
      · exact nofun
      · exact nofun

/-- the payload, with the four checks that gates and decoder share -/
structure Acceptable (T : PyText) (engine : Engine) (payload : Obj) (maxBytes : Int)
    (task : TaskPackage) : Prop where
  schema : (payload.get "schema_version").eqStr schemaVersion = true
  size : wireSizeOk T payload maxBytes = true
  parses : parsePackage engine payload = .ok task
  hash : (payload.get "package_hash").eqStr (engine.stableHash task) = true

theorem contains_of_get {key : String} (h : payload.get key ≠ .null) :
    Dict.contains payload key = true := by
  unfold Dict.contains
  cases hget : Dict.get? payload key with
  | none => exact absurd (congrArg (·.getD .null) hget) h
  | some j => rfl

theorem get_ne_null_of_eqStr {j : Json} {s : String} (h : j.eqStr s = true) : j ≠ .null := by
  intro hnull
  rw [hnull] at h
  exact absurd h Bool.false_ne_true

theorem parsePackage_ok_iff : parsePackage engine payload = .ok task ↔
    ∃ package, payload.get "package" = .obj package ∧
      (enginePackageFromWire package >>= engine.modelValidate) = .ok task := by
  unfold parsePackage
  cases hpackage : payload.get "package" with
  | obj package =>
    constructor
    · intro h
      exact ⟨package, rfl, h⟩
    · intro h
      obtain ⟨_, heq, hparse⟩ := h
      obtain rfl := Json.obj.inj heq
      exact hparse
  | null => exact iff_of_false nofun fun h => nomatch h.choose_spec.1
  | bool => exact iff_of_false nofun fun h => nomatch h.choose_spec.1
  | int => exact iff_of_false nofun fun h => nomatch h.choose_spec.1
  | float => exact iff_of_false nofun fun h => nomatch h.choose_spec.1
  | str => exact iff_of_false nofun fun h => nomatch h.choose_spec.1
  | arr => exact iff_of_false nofun fun h => nomatch h.choose_spec.1

theorem checkParsed_ok_iff {t : TaskPackage} : checkParsed T engine payload t = .ok task ↔
    t = task ∧ (payload.get "task_id").eqStr task.taskId = true ∧
      (payload.get "package_hash").eqStr (engine.stableHash task) = true := by
  unfold checkParsed
  dsimp only
  split
  next hid =>
    refine iff_of_false nofun fun h => ?_
    obtain ⟨rfl, hid', _⟩ := h
    exact absurd (hid.symm.trans hid') (by decide)
  next hid =>
    split
    next hhash =>
      refine iff_of_false nofun fun h => ?_
      obtain ⟨rfl, _, hhash'⟩ := h
      exact absurd (hhash.symm.trans hhash') (by decide)
    next hhash =>
      constructor
      · intro h
        obtain rfl := Except.ok.inj h
        exact ⟨rfl, by simpa using hid, by simpa using hhash⟩
      · intro h
        rw [h.1]

theorem requireKey_bind_ok_iff {key : String} {rest : Except Exn TaskPackage} :
    (requireKey T payload key >>= fun _ => rest) = .ok task ↔
      Dict.contains payload key = true ∧ rest = .ok task := by
  unfold requireKey
  by_cases h : Dict.contains payload key = true
  · rw [if_pos h, Except.ok_bind]
    exact ⟨fun hrest => ⟨h, hrest⟩, fun hrest => hrest.2⟩
  · rw [if_neg h]
    exact iff_of_false nofun fun hrest => h hrest.1

/-- the decoder's checks are the shared ones and the task's id -/
theorem fromWire_ok_iff : fromWire T engine firstError payload maxBytes = .ok task ↔
    Acceptable T engine payload maxBytes task ∧
      (payload.get "task_id").eqStr task.taskId = true := by
  unfold fromWire
  by_cases hsize : wireSizeOk T payload maxBytes = false
  · rw [if_pos hsize]
    refine iff_of_false nofun fun h => ?_
    exact absurd (hsize.symm.trans h.1.size) (by decide)
  rw [if_neg hsize, requireKey_bind_ok_iff, requireKey_bind_ok_iff, requireKey_bind_ok_iff,
    requireKey_bind_ok_iff]
  by_cases hschema : (payload.get "schema_version").eqStr schemaVersion = false
  · rw [if_pos hschema]
    refine iff_of_false (fun h => nomatch h.2.2.2.2) fun h => ?_
    exact absurd (hschema.symm.trans h.1.schema) (by decide)
  rw [if_neg hschema]
  constructor
  · intro h
    obtain ⟨_, _, _, _, hparsed⟩ := h
    split at hparsed
    next package hpackage =>
      obtain ⟨t, hparse, hchecked⟩ := bind_ok hparsed
      obtain ⟨rfl, hid, hhash⟩ := checkParsed_ok_iff.mp hchecked
      refine ⟨⟨by simpa using hschema, by simpa using hsize, ?_, hhash⟩, hid⟩
      exact parsePackage_ok_iff.mpr ⟨package, hpackage, parseWirePackage_ok_iff.mp hparse⟩
    next => exact nomatch hparsed
  · intro h
    obtain ⟨haccept, hid⟩ := h
    obtain ⟨package, hpackage, hparse⟩ := parsePackage_ok_iff.mp haccept.parses
    have hget : payload.get "package" ≠ .null := by
      rw [hpackage]
      exact nofun
    refine ⟨contains_of_get (get_ne_null_of_eqStr haccept.schema),
      contains_of_get (get_ne_null_of_eqStr hid),
      contains_of_get (get_ne_null_of_eqStr haccept.hash), contains_of_get hget, ?_⟩
    rw [hpackage]
    show (parseWirePackage engine firstError package >>= _) = _
    rw [parseWirePackage_ok_iff.mpr hparse, Except.ok_bind]
    exact checkParsed_ok_iff.mpr ⟨rfl, hid, haccept.hash⟩

/-! ## what the gates accept -/

variable {cfg : SubnetConfig} {context : GateContext} {minerHotkey : String}

/-- the four gates that look at the payload alone -/
def payloadGates : List String := ["schema_version", "size", "parse", "hash_match"]

/-- the four gates are true in the decision -/
def GateDecision.FourPass (d : GateDecision) : Prop :=
  ∀ gate ∈ payloadGates, Dict.get? d.gates gate = some true

/-- `run_pre_gates` decides, and the four gates are true -/
def PassesFour (T : PyText) (engine : Engine) (cfg : SubnetConfig) (payload : Obj)
    (context : GateContext) (minerHotkey : String) : Prop :=
  ∃ d c, runPreGates T engine payload cfg context minerHotkey = .ok (d, c) ∧ d.FourPass

theorem fourPass_iff {d : GateDecision} {n : Nat} (h : d.gates = gatesUpTo n) :
    d.FourPass ↔ 4 ≤ n := by
  unfold GateDecision.FourPass
  rw [h]
  have hschema : Dict.get? (gatesUpTo n) "schema_version" = some (decide (0 < n)) := rfl
  have hsize : Dict.get? (gatesUpTo n) "size" = some (decide (1 < n)) := rfl
  have hparse : Dict.get? (gatesUpTo n) "parse" = some (decide (2 < n)) := rfl
  have hhash : Dict.get? (gatesUpTo n) "hash_match" = some (decide (3 < n)) := rfl
  constructor
  · intro hall
    have hlast := hall "hash_match" (by decide)
    rw [hhash] at hlast
    exact of_decide_eq_true (Option.some.inj hlast)
  · intro hn gate hgate
    simp only [payloadGates, List.mem_cons, List.not_mem_nil, or_false] at hgate
    rcases hgate with rfl | rfl | rfl | rfl
    · rw [hschema, decide_eq_true (by omega)]
    · rw [hsize, decide_eq_true (by omega)]
    · rw [hparse, decide_eq_true (by omega)]
    · rw [hhash, decide_eq_true (by omega)]

theorem not_passesFour_of_fail {n : Nat} {gate reason detail : String} (hn : n < 4)
    (h : runPreGates T engine payload cfg context minerHotkey =
      .ok (gateFail n gate reason detail, context)) :
    ¬ PassesFour T engine cfg payload context minerHotkey := by
  intro hpass
  obtain ⟨d, c, hrun, hfour⟩ := hpass
  obtain ⟨rfl, -⟩ := Prod.mk.inj (Except.ok.inj (h.symm.trans hrun))
  exact absurd ((fourPass_iff rfl).mp hfour) (by omega)

/-- the gates after the parse gate never clear it again -/
theorem gates_gateParsed (task : TaskPackage) :
    ∃ n, (gateParsed T engine payload task context minerHotkey).1.gates = gatesUpTo n ∧
      (4 ≤ n ↔ (payload.get "package_hash").eqStr (engine.stableHash task) = true) := by
  unfold gateParsed
  dsimp only
  by_cases hhash : (payload.get "package_hash").eqStr (engine.stableHash task) = false
  · rw [if_pos hhash]
    exact ⟨3, rfl, iff_of_false (by decide) fun h => absurd (hhash.symm.trans h) (by decide)⟩
  rw [if_neg hhash]
  have hmatch : (payload.get "package_hash").eqStr (engine.stableHash task) = true := by
    simpa using hhash
  split
  · exact ⟨4, rfl, iff_of_true le_rfl hmatch⟩
  split
  · exact ⟨5, rfl, iff_of_true (by decide) hmatch⟩
  · exact ⟨6, rfl, iff_of_true (by decide) hmatch⟩

theorem passesFour_iff : PassesFour T engine cfg payload context minerHotkey ↔
    ∃ task, Acceptable T engine payload cfg.maxPackageBytes task := by
  by_cases hschema : (payload.get "schema_version").eqStr schemaVersion = false
  · have hfail : runPreGates T engine payload cfg context minerHotkey = _ := if_pos hschema
    refine iff_of_false (not_passesFour_of_fail (by decide) hfail) fun h => ?_
    obtain ⟨task, haccept⟩ := h
    exact absurd (hschema.symm.trans haccept.schema) (by decide)
  by_cases hsize : wireSizeOk T payload cfg.maxPackageBytes = false
  · have hfail : runPreGates T engine payload cfg context minerHotkey = _ :=
      (if_neg hschema).trans (if_pos hsize)
    refine iff_of_false (not_passesFour_of_fail (by decide) hfail) fun h => ?_
    obtain ⟨task, haccept⟩ := h
    exact absurd (hsize.symm.trans haccept.size) (by decide)
  have hrun : runPreGates T engine payload cfg context minerHotkey = _ :=
    (if_neg hschema).trans (if_neg hsize)
  cases hparse : parsePackage engine payload with
  | error e =>
    rw [hparse] at hrun
    refine iff_of_false ?_ fun h => ?_
    · split at hrun
      next => exact not_passesFour_of_fail (by decide) hrun
      next => exact not_passesFour_of_fail (by decide) hrun
      next =>
        split at hrun
        · exact not_passesFour_of_fail (by decide) hrun
        · intro hpass
          obtain ⟨d, c, hdecided, _⟩ := hpass
          exact nomatch hrun.symm.trans hdecided
      next heq => exact nomatch heq
    · obtain ⟨task, haccept⟩ := h
      exact nomatch hparse.symm.trans haccept.parses
  | ok task =>
    rw [hparse] at hrun
    replace hrun : runPreGates T engine payload cfg context minerHotkey =
      .ok (gateParsed T engine payload task context minerHotkey) := hrun
    obtain ⟨n, hgates, hn⟩ := @gates_gateParsed T engine payload context minerHotkey task
    constructor
    · intro h
      obtain ⟨d, c, hdecided, hfour⟩ := h
      have hd := congrArg Prod.fst (Except.ok.inj (hrun.symm.trans hdecided))
      replace hd : (gateParsed T engine payload task context minerHotkey).1 = d := hd
      rw [← hd] at hfour
      exact ⟨task, by simpa using hschema, by simpa using hsize, hparse,
        hn.mp ((fourPass_iff hgates).mp hfour)⟩
    · intro h
      obtain ⟨task', haccept⟩ := h
      obtain rfl := Except.ok.inj (hparse.symm.trans haccept.parses)
      exact ⟨_, _, hrun, (fourPass_iff hgates).mpr (hn.mpr haccept.hash)⟩

/-! ## gates and decoder -/

theorem runPreGates_of_acceptable
    (h : Acceptable T engine payload cfg.maxPackageBytes task) :
    runPreGates T engine payload cfg context minerHotkey =
      .ok (gateParsed T engine payload task context minerHotkey) := by
  unfold runPreGates
  rw [if_neg (by rw [h.schema]; decide), if_neg (by rw [h.size]; decide), h.parses]

theorem task_of_gateParsed
    (h : (gateParsed T engine payload task context minerHotkey).1.passed = true) :
    (gateParsed T engine payload task context minerHotkey).1.task = some task := by
  unfold gateParsed at h ⊢
  dsimp only at h ⊢
  split at h
  · exact absurd h Bool.false_ne_true
  next hhash =>
    rw [if_neg hhash]
    split at h
    · exact absurd h Bool.false_ne_true
    next hquota =>
      rw [if_neg hquota]
      split at h
      · exact absurd h Bool.false_ne_true
      next hseen => rw [if_neg hseen]

/-- the four gates pass exactly when the decoder returns a task, and then it is the same task -/
def DecoderAgrees (T : PyText) (engine : Engine) (firstError : String → List String × String)
    (cfg : SubnetConfig) (payload : Obj) (context : GateContext) (minerHotkey : String) : Prop :=
  (PassesFour T engine cfg payload context minerHotkey ↔
    ∃ task, fromWire T engine firstError payload cfg.maxPackageBytes = .ok task) ∧
  ∀ task, fromWire T engine firstError payload cfg.maxPackageBytes = .ok task →
    parsePackage engine payload = .ok task ∧
    ∀ d c, runPreGates T engine payload cfg context minerHotkey = .ok (d, c) →
      d.passed = true → d.task = some task

/-- a payload that the four gates accept carries the id of the task that its package parses to -/
def NamesItsTask (T : PyText) (engine : Engine) (payload : Obj) (maxBytes : Int) : Prop :=
  ∀ task, Acceptable T engine payload maxBytes task →
    (payload.get "task_id").eqStr task.taskId = true

theorem decoder_agrees_iff (T : PyText) (engine : Engine)
    (firstError : String → List String × String) (cfg : SubnetConfig) (payload : Obj)
    (context : GateContext) (minerHotkey : String) :
    DecoderAgrees T engine firstError cfg payload context minerHotkey ↔
      NamesItsTask T engine payload cfg.maxPackageBytes := by
  constructor
  · intro h task haccept
    obtain ⟨task', hdecoded⟩ := h.1.mp (passesFour_iff.mpr ⟨task, haccept⟩)
    obtain ⟨haccept', hid⟩ := fromWire_ok_iff.mp hdecoded
    obtain rfl := Except.ok.inj (haccept.parses.symm.trans haccept'.parses)
    exact hid
  · intro h
    refine ⟨?_, fun task hdecoded => ?_⟩
    · rw [passesFour_iff]
      constructor
      · intro hpass
        obtain ⟨task, haccept⟩ := hpass
        exact ⟨task, fromWire_ok_iff.mpr ⟨haccept, h task haccept⟩⟩
      · intro hdecoded
        obtain ⟨task, hdecoded⟩ := hdecoded
        exact ⟨task, (fromWire_ok_iff.mp hdecoded).1⟩
    · have haccept := (fromWire_ok_iff.mp hdecoded).1
      refine ⟨haccept.parses, fun d c hrun hpassed => ?_⟩
      have hgates := @runPreGates_of_acceptable _ _ _ _ _ context minerHotkey haccept
      have hd := congrArg Prod.fst (Except.ok.inj (hgates.symm.trans hrun))
      replace hd : (gateParsed T engine payload task context minerHotkey).1 = d := hd
      rw [← hd] at hpassed ⊢
      exact task_of_gateParsed hpassed

end

/-! ## a payload under a foreign id -/

/-- an engine that parses every package to one task -/
def oneTaskEngine (task : TaskPackage) : Engine :=
  { Engine.plain with
    modelValidate _ := .ok task
    stableHash _ := "hash" }

def plainTest : String × String := ("test_codec.py", "assert decode(encode([])) == []")

def plainTask : TaskPackage where
  taskId := "task-1"
  descriptors := ⟨[], "parser_roundtrip"⟩
  starterFiles := []
  referenceFiles := []
  publicTests := []
  hiddenTests := [plainTest]
  canonicalDict := [("task_id", .str "task-1"),
    ("hidden_tests", .obj [(plainTest.1, .str plainTest.2)])]

/-- the id on the payload is not the id of the task in its package -/
def foreignIdPayload : Obj := [
  ("schema_version", .str schemaVersion),
  ("task_id", .str "task-2"),
  ("package_hash", .str "hash"),
  ("package", .obj [("task_id", .str "task-1"),
    ("author_tests", .obj [(plainTest.1, .str plainTest.2)])])]

theorem acceptable_foreignId :
    Acceptable Env.plain.text (oneTaskEngine plainTask) foreignIdPayload maxPackageBytes
      plainTask where
  schema := rfl
  size := by decide +kernel
  parses := rfl
  hash := rfl

/-- the gates accept it and the decoder does not -/
theorem gates_accept_foreign_id :
    PassesFour Env.plain.text (oneTaskEngine plainTask) {} foreignIdPayload {} "hotkey" ∧
      fromWire Env.plain.text (oneTaskEngine plainTask) (fun _ => ([], "")) foreignIdPayload
        maxPackageBytes = .error (.wireError "task_id"
          "payload task_id 'task-2' != package 'task-1'") ∧
      ¬ DecoderAgrees Env.plain.text (oneTaskEngine plainTask) (fun _ => ([], "")) {}
        foreignIdPayload {} "hotkey" := by
  have hpass : PassesFour Env.plain.text (oneTaskEngine plainTask) {} foreignIdPayload {}
      "hotkey" := passesFour_iff.mpr ⟨plainTask, acceptable_foreignId⟩
  have hdecode : fromWire Env.plain.text (oneTaskEngine plainTask) (fun _ => ([], ""))
      foreignIdPayload maxPackageBytes = .error (.wireError "task_id"
        "payload task_id 'task-2' != package 'task-1'") := by
    unfold fromWire
    rw [if_neg (by rw [acceptable_foreignId.size]; decide)]
    rfl
  refine ⟨hpass, hdecode, fun h => ?_⟩
  obtain ⟨task, htask⟩ := h.1.mp hpass
  exact nomatch hdecode.symm.trans htask

end Dolores
