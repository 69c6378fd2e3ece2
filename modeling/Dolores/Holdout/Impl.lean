import Dolores.Archive.World

/-!
# The private holdout (`holdout.py`)

`evaluateHoldout` builds the private test source of a supported task, runs the reference and
then every known-wrong probe against it, and reports the evidence.
-/

namespace Dolores
open Crash

def policyVersion : String := "parser-core-v1"
def supportedFamily : String := "parser_roundtrip"
def supportedArchetypes : List String := ["escape_delim", "error_contract", "quoted_fields"]
def probeDropMarker : String := "# PROBE-DROP"

structure HoldoutPlan where
  task : TaskPackage
  policyVersion : String
  family : String
  archetype : String
  caseCount : Nat
  caseDigest : String

structure HoldoutEvidence where
  passed : Bool
  status : String
  reason : String
  policyVersion : String
  family : String
  archetype : String
  basePackageHash : String
  caseCount : Nat
  caseDigest : String
  referencePassed : Bool
  containerized : Bool
  executed : Bool
  logsHash : Option String
  probesCaught : Dict String Bool

def HoldoutEvidence.toRecord (e : HoldoutEvidence) : Obj := [
  ("passed", .bool e.passed),
  ("status", .str e.status),
  ("reason", .str e.reason),
  ("policy_version", .str e.policyVersion),
  ("family", .str e.family),
  ("archetype", .str e.archetype),
  ("base_package_hash", .str e.basePackageHash),
  ("case_count", .int e.caseCount),
  ("case_digest", .str e.caseDigest),
  ("reference_passed", .bool e.referencePassed),
  ("containerized", .bool e.containerized),
  ("executed", .bool e.executed),
  ("logs_hash", .ofOption .str e.logsHash),
  ("probes_caught", .obj (Dict.mapValues .bool (Dict.sorted e.probesCaught)))]

/-! ## the public part of the policy -/

/-- `text.split(":", 1)`, when there is a colon -/
def splitColon : List Char → Option (List Char × List Char)
  | [] => none
  | c :: cs =>
    if c.toNat = 58 then some ([], cs) else (splitColon cs).map fun p => (c :: p.1, p.2)

def conceptMap (values : List String) : Except Exn (Dict String String) :=
  values.foldlM (fun concepts value =>
    match splitColon value.toList with
    | none => .ok concepts
    | some (k, v) =>
      let key := String.ofList k
      let item := String.ofList v
      match Dict.get? concepts key with
      | some old =>
        if old ≠ item then .error (.holdoutPolicyError ("ambiguous concept: " ++ key))
        else .ok (Dict.set concepts key item)
      | none => .ok (Dict.set concepts key item)) []

/-- `PurePosixPath(path).parts`; only the number of roots is read, so any root is "/" -/
def pathParts (path : List Char) : List (List Char) :=
  let parts := (path.splitOn '/').filter fun part => !part.isEmpty && part != ['.']
  if path.head? = some '/' then ['/'] :: parts else parts

/-- the stem of a file name whose suffix is ".py"; a leading dot begins no suffix -/
def pythonStem (name : List Char) : Option String :=
  let stem := name.take (name.length - 3)
  if ['.', 'p', 'y'].isSuffixOf name ∧ stem ≠ [] then some (String.ofList stem) else none

/-- `text or "missing"` -/
def orMissing (text : String) : String := if text = "" then "missing" else text

section
variable (env : Env) (engine : Engine)

/-- the stem of a path that is one root Python module -/
def moduleStem (path : String) : Option String :=
  match pathParts path.toList with
  | [name] => (pythonStem name).filter engine.isIdentifier
  | _ => none

def referenceModule (referenceFiles : Dict String String) : Except Exn String :=
  match referenceFiles with
  | [(path, _)] =>
    match moduleStem engine path with
    | some stem => .ok stem
    | none =>
      .error (.holdoutPolicyError "supported parser reference must be one root Python module")
  | _ =>
    .error (.holdoutPolicyError "supported parser task must have exactly one reference file")

def symbolFor (kind slug : String) : Except Exn String :=
  match engine.symbolTable kind slug with
  | some symbol => .ok symbol
  | none => .error (.holdoutPolicyError ("unknown parser " ++ kind ++ ": " ++ orMissing slug))

def specialKind (archetype : String) : String :=
  if archetype = "quoted_fields" then "quote" else "escape"

def validateHoldoutSupport (task : TaskPackage) :
    Except Exn (String × String × Dict String String × String) := do
  let concepts ← conceptMap task.descriptors.concepts
  let family := task.descriptors.taskType
  let archetype := concepts.getD "archetype" ""
  let band := concepts.getD "target_band" ""
  if family ≠ supportedFamily then
    .error (.holdoutPolicyError ("unsupported family for cohort: " ++ orMissing family))
  else if archetype ∉ supportedArchetypes ∨ band ≠ "core" then
    .error (.holdoutPolicyError ("unsupported parser policy: archetype=" ++ orMissing archetype
      ++ " band=" ++ orMissing band))
  else
    let moduleName ← referenceModule engine task.referenceFiles
    let _ ← symbolFor engine "delimiter" (concepts.getD "delim" "")
    let _ ← symbolFor engine (specialKind archetype) (concepts.getD "special" "")
    .ok (family, archetype, concepts, moduleName)

/-! ## the private plan -/

def expectedFormatLines (archetype : String) : List String :=
  if archetype = "quoted_fields" then [
    "def _expected_format(fields):",
    "    parts = []",
    "    for field in fields:",
    "        if DELIMITER in field or SPECIAL in field:",
    "            body = field.replace(SPECIAL, SPECIAL + SPECIAL)",
    "            parts.append(SPECIAL + body + SPECIAL)",
    "        else:",
    "            parts.append(field)",
    "    return DELIMITER.join(parts)"]
  else [
    "def _expected_format(fields):",
    "    parts = []",
    "    for field in fields:",
    "        encoded = []",
    "        for character in field:",
    "            if character == SPECIAL or character == DELIMITER:",
    "                encoded.append(SPECIAL)",
    "            encoded.append(character)",
    "        parts.append(''.join(encoded))",
    "    return DELIMITER.join(parts)"]

def renderTestSource (moduleName archetype delimiter special : String)
    (cases : List (List String)) : String :=
  let casesJson := dumpsCompact env.text (.arr (cases.map fun fields => .arr (fields.map .str)))
  let lines := [
      "from " ++ moduleName ++ " import format_record, parse_record",
      "",
      "DELIMITER = " ++ env.text.reprStr delimiter,
      "SPECIAL = " ++ env.text.reprStr special,
      "CASES = " ++ casesJson,
      ""] ++ expectedFormatLines archetype ++ [
      "",
      "def test_validator_private_round_trips():",
      "    for fields in CASES:",
      "        expected = _expected_format(fields)",
      "        assert format_record(fields) == expected",
      "        assert parse_record(expected) == fields"] ++
    if archetype = "error_contract" then [
      "",
      "def test_validator_private_dangling_escape_contract():",
      "    marker = " ++ env.text.reprStr special,
      "    try:",
      "        parse_record('private' + marker)",
      "    except ValueError:",
      "        return",
      "    raise AssertionError('dangling escape must raise ValueError')"]
    else []
  "\n".intercalate lines ++ "\n"

def buildHoldoutPlan (task : TaskPackage) (packageHash secret : String) :
    Except Exn HoldoutPlan := do
  if secret = "" then .error (.holdoutPolicyError "validator holdout secret is required")
  else if engine.stableHash task ≠ packageHash then
    .error (.holdoutPolicyError "base package hash does not match task content")
  else
    let (family, archetype, concepts, moduleName) ← validateHoldoutSupport engine task
    let delimiter ← symbolFor engine "delimiter" (concepts.getD "delim" "")
    let special ← symbolFor engine (specialKind archetype) (concepts.getD "special" "")
    let cases := engine.privateCases secret packageHash delimiter special
    let testSource := renderTestSource env moduleName archetype delimiter special cases
    let caseDigest := (env.sha256Text testSource).text
    let testName := "test_validator_holdout_" ++ String.ofList (caseDigest.toList.take 12) ++ ".py"
    .ok { task := { task with publicTests := [], hiddenTests := [(testName, testSource)] },
          policyVersion, family, archetype, caseCount := cases.length, caseDigest }

/-! ## known-wrong probes -/

/-- the separators of `str.splitlines()` -/
def isLineBreak (c : Char) : Bool :=
  [10, 11, 12, 13, 28, 29, 30, 133, 8232, 8233].contains c.toNat

/-- `str.splitlines()`; `line` is the current line, reversed -/
def splitLines : List Char → List Char → List (List Char)
  | [], [] => []
  | [], line => [line.reverse]
  | c :: cs, line =>
    if isLineBreak c then
      match cs with
      | c' :: cs' =>
        if c.toNat = 13 ∧ c'.toNat = 10 then line.reverse :: splitLines cs' []
        else line.reverse :: splitLines (c' :: cs') []
      | [] => [line.reverse]
    else splitLines cs (c :: line)

/-- `pattern in text` -/
def hasInfix (pattern : List Char) : List Char → Bool
  | [] => pattern.isEmpty
  | c :: cs => pattern.isPrefixOf (c :: cs) || hasInfix pattern cs

def endsInNewline (text : List Char) : Bool := [Char.ofNat 10].isSuffixOf text

def stripProbeDropLines (content : String) : String :=
  let lines := (splitLines content.toList []).filter fun line =>
    !hasInfix probeDropMarker.toList line
  let stripped := [Char.ofNat 10].intercalate lines
  if endsInNewline content.toList && !endsInNewline stripped then
    String.ofList (stripped ++ [Char.ofNat 10])
  else String.ofList stripped

def probeCandidates (task : TaskPackage) : Dict String (Dict String String) :=
  let stripped := Dict.mapValues stripProbeDropLines task.referenceFiles
  (if task.starterFiles.isEmpty then [] else [("starter_files", task.starterFiles)]) ++
    (if stripped = task.referenceFiles then [] else [("family_edge_removed", stripped)])

/-- `containerized and executed` when containers are required, else `executed` -/
def isolated (requireContainerized : Bool) (v : Verification) : Bool :=
  if requireContainerized then v.containerized && v.executed else v.executed

def runProbes (task : TaskPackage) (requireContainerized : Bool) :
    List (String × Dict String String) → M (Dict String Bool)
  | [] => pure []
  | (probeId, candidate) :: probes => do
    let result ← external env fun n => engine.verify n task (some candidate)
    let rest ← runProbes task requireContainerized probes
    pure ((probeId, result.status != "passed" && isolated requireContainerized result) :: rest)

/-! ## evidence -/

def holdoutStatus (requireContainerized : Bool) (reference : Verification)
    (probesCaught : Dict String Bool) : String × String :=
  if reference.executed = false then
    ("infra_error", if (reference.fallbackReason.getD "") = ""
      then "validator holdout did not execute" else reference.fallbackReason.getD "")
  else if requireContainerized = true ∧ reference.containerized = false then
    ("infra_error", "validator holdout was not containerized")
  else if reference.status ≠ "passed" then
    ("failed", "reference failed validator-owned holdout")
  else if probesCaught.isEmpty then ("failed", "no validator holdout probe was available")
  else if probesCaught.values.all id = false then
    ("failed", "validator-owned holdout missed a known-wrong probe")
  else ("passed", "")

def evaluateHoldout (task : TaskPackage) (packageHash secret : String)
    (requireContainerized : Bool) : M HoldoutEvidence :=
  match buildHoldoutPlan env engine task packageHash secret with
  | .error (.holdoutPolicyError msg) =>
    match conceptMap task.descriptors.concepts with
    | .error e => Proc.raise e
    | .ok concepts =>
      pure { passed := false, status := if secret = "" then "infra_error" else "unsupported",
             reason := msg, policyVersion, family := task.descriptors.taskType,
             archetype := concepts.getD "archetype" "", basePackageHash := packageHash,
             caseCount := 0, caseDigest := "", referencePassed := false, containerized := false,
             executed := false, logsHash := none, probesCaught := [] }
  | .error e => Proc.raise e
  | .ok plan => do
    let reference ← external env fun n => engine.verify n plan.task none
    let referenceOk := reference.status == "passed"
    let isolationOk := isolated requireContainerized reference
    let probesCaught ← (if referenceOk && isolationOk then
      runProbes env engine plan.task requireContainerized (probeCandidates task)
      else pure [] : M (Dict String Bool))
    let (status, reason) := holdoutStatus requireContainerized reference probesCaught
    pure { passed := referenceOk && isolationOk && !probesCaught.isEmpty
             && probesCaught.values.all id,
           status, reason, policyVersion := plan.policyVersion, family := plan.family,
           archetype := plan.archetype, basePackageHash := packageHash,
           caseCount := plan.caseCount, caseDigest := plan.caseDigest,
           referencePassed := referenceOk, containerized := reference.containerized,
           executed := reference.executed, logsHash := reference.logsHash, probesCaught }

end

end Dolores
