import Dolores.Archive.World

/-!
# Pre-gates (`gates.py`, `packaging.py`)

`runPreGates` runs the six gates in their fixed order on one payload.  `gatesUpTo n` is the
ordered map of gates in which the first `n` are true.
-/

namespace Dolores

def authorTestsKey : String := "author_tests"
def legacyHiddenTestsKey : String := "hidden_tests"

/-- `dict.pop(key)` -/
def Dict.erase {V : Type} (d : Dict String V) (k : String) : Dict String V :=
  d.filter fun p => p.1 ≠ k

def canonicalSize (T : PyText) (payload : Obj) : Int :=
  (canonicalJson T (.obj payload)).utf8ByteSize

def wireSizeOk (T : PyText) (payload : Obj) (maxBytes : Int) : Bool :=
  decide (canonicalSize T payload ≤ maxBytes)

def enginePackageFromWire (package : Obj) : Except Exn Obj :=
  if Dict.contains package legacyHiddenTestsKey then
    .error (.wireError "parse_execution_material"
      "wire package must use 'author_tests'; validator holdout is private")
  else
    match Dict.get? package authorTestsKey with
    | none => .error (.wireError "parse_execution_material" "wire package missing 'author_tests'")
    | some (.obj authorTests) =>
      .ok (Dict.set (Dict.erase package authorTestsKey) legacyHiddenTestsKey (.obj authorTests))
    | some _ => .error (.wireError "parse_execution_material" "author_tests must be a mapping")

structure GateFailure where
  gate : String
  reason : String
  detail : String

structure GateContext where
  quota : Int := defaultQuota
  seenHashes : List String := []
  minerCounts : Dict String Int := []

structure GateDecision where
  passed : Bool
  gates : Dict String Bool
  task : Option TaskPackage := none
  taskHash : Option String := none
  failure : Option GateFailure := none

def gateNames : List String :=
  ["schema_version", "size", "parse", "hash_match", "quota", "epoch_duplicate"]

def gatesUpTo (n : Nat) : Dict String Bool := gateNames.mapIdx fun i gate => (gate, decide (i < n))

/-- `_fail` when the first `n` gates are true -/
def gateFail (n : Nat) (gate reason detail : String) : GateDecision :=
  { passed := false, gates := gatesUpTo n, failure := some { gate, reason, detail } }

section
variable (T : PyText) (engine : Engine)

/-- the body of the parse gate -/
def parsePackage (payload : Obj) : Except Exn TaskPackage :=
  match payload.get "package" with
  | .obj package => enginePackageFromWire package >>= engine.modelValidate
  | _ => .error (.typeError "package must be a dict")

/-- the gates after the parse gate -/
def gateParsed (payload : Obj) (task : TaskPackage) (context : GateContext)
    (minerHotkey : String) : GateDecision × GateContext :=
  let claimedHash := payload.get "package_hash"
  let taskHash := engine.stableHash task
  let count := context.minerCounts.getD minerHotkey 0
  if claimedHash.eqStr taskHash = false then
    (gateFail 3 "hash_match" "invalid:hash_match" (claimedHash.pyStr T ++ " != " ++ taskHash),
      context)
  else if context.quota ≤ count then
    (gateFail 4 "quota" "invalid:quota" s!"{minerHotkey} quota {context.quota}", context)
  else if taskHash ∈ context.seenHashes then
    (gateFail 5 "epoch_duplicate" "invalid:epoch_duplicate" taskHash, context)
  else
    ({ passed := true, gates := gatesUpTo 6, task := some task, taskHash := some taskHash },
      { context with minerCounts := Dict.set context.minerCounts minerHotkey (count + 1),
                     seenHashes := taskHash :: context.seenHashes })

def runPreGates (payload : Obj) (cfg : SubnetConfig) (context : GateContext)
    (minerHotkey : String) : Except Exn (GateDecision × GateContext) :=
  if (payload.get "schema_version").eqStr schemaVersion = false then
    .ok (gateFail 0 "schema_version" "invalid:schema_version" ("expected " ++ schemaVersion),
      context)
  else if wireSizeOk T payload cfg.maxPackageBytes = false then
    .ok (gateFail 1 "size" "invalid:size" s!"{canonicalSize T payload} bytes", context)
  else
    match parsePackage engine payload with
    | .error (.wireError reason detail) =>
      .ok (gateFail 2 "parse" ("invalid:" ++ reason) detail, context)
    | .error (.validationError detail) =>
      .ok (gateFail 2 "parse" "invalid:parse" detail, context)
    | .error e =>
      if e.isException then .ok (gateFail 2 "parse" "invalid:parse" e.str, context) else .error e
    | .ok task => .ok (gateParsed T engine payload task context minerHotkey)

end

end Dolores
