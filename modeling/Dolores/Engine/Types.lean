import Dolores.Score.Impl

/-!
# The validation engine

What the subnet reads of the engine's objects: a task package, a verification, a pipeline
result.  The engine itself is not part of the repository: its calls are the fields of `Engine`,
and a call that is made twice may answer differently (the first argument counts the calls made
so far in the run).
-/

namespace Dolores

structure Descriptors where
  concepts : List String
  taskType : String

structure TaskPackage where
  taskId : String
  descriptors : Descriptors
  starterFiles : Dict String String
  referenceFiles : Dict String String
  publicTests : Dict String String
  hiddenTests : Dict String String
  /-- `canonical_dict()` -/
  canonicalDict : Obj

structure Finding where
  message : String
  /-- `finding.model_dump(mode="json")` -/
  record : Json

structure Verification where
  status : String
  backend : String
  requestedBackend : String
  executionMode : String
  executed : Bool
  containerized : Bool
  image : Option String
  fallbackReason : Option String
  errorSummary : Option String
  safetyFindings : List Finding
  logsHash : Option String

/-- an entry of `eval_result.solver_results`: a model or a `dict`, or something else -/
inductive SolverRun where
  | row (fields : Obj)
  | other

structure PipelineResult where
  status : String
  error : Option String
  verification : Option Verification
  score : Option Score
  /-- empty also when `eval_result` is absent -/
  solverResults : List SolverRun

structure Engine where
  /-- `TaskPackage.model_validate` -/
  modelValidate : Obj → Except Exn TaskPackage
  stableHash : TaskPackage → String
  /-- `write_task_package` followed by `run_task_pipeline`, with the rows it adds to the archive -/
  runTaskPipeline : Nat → TaskPackage → String → Except Exn (PipelineResult × List Json)
  /-- `runner.verify` -/
  verify : Nat → TaskPackage → Option (Dict String String) → Except Exn Verification
  /-- `ArchiveDB.init` -/
  initDb : Nat → Except Exn Unit
  /-- the deletions of `purge_task` -/
  purgeDb : Nat → String → Except Exn Unit
  /-- the `char` of a slug in `DELIM_BY_SLUG`, `ESC_BY_SLUG` and `QUOTE_BY_SLUG` -/
  symbolTable : String → String → Option String
  /-- the cases drawn by the seeded generator, for a secret, a package hash and two symbols -/
  privateCases : String → String → String → String → List (List String)
  /-- `str.isidentifier()`, which reads the interpreter's Unicode tables -/
  isIdentifier : String → Bool

/-- `str.isidentifier()` of a text of ASCII characters -/
def asciiIdentifier (name : String) : Bool :=
  match name.toList with
  | [] => false
  | c :: cs => (c.isAlpha || c == '_') && cs.all fun c => c.isAlphanum || c == '_'

/-- an engine that rejects every package and whose calls return -/
def Engine.plain : Engine where
  modelValidate _ := .error (.validationError "task_id: Field required")
  stableHash _ := ""
  runTaskPipeline _ _ _ :=
    .ok (⟨"invalid", none, none, none, []⟩, [])
  verify _ _ _ :=
    .ok { status := "error", backend := "docker", requestedBackend := "docker",
          executionMode := "docker", executed := false, containerized := false, image := none,
          fallbackReason := none, errorSummary := none, safetyFindings := [], logsHash := none }
  initDb _ := .ok ()
  purgeDb _ _ := .ok ()
  symbolTable _ _ := none
  privateCases _ _ _ _ := []
  isIdentifier := asciiIdentifier

end Dolores
