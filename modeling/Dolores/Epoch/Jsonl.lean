import Dolores.Lib.Except
import Dolores.Archive.World

/-!
# The submission log (`epoch.py`)

The log is read line by line: white space is skipped, and only an unterminated last line may be
malformed.  `repairJsonlTail` drops or terminates such a line before the next append.
-/

namespace Dolores
open Crash

/-! ## reading -/

/-- one terminated line -/
def readLine (rows : List Obj) : Line → Except Exn (List Obj)
  | .blank => .ok rows
  | .bad => .error (.valueError "corrupt JSONL record")
  | .value (.obj row) => .ok (rows ++ [row])
  | .value _ => .error (.valueError "JSONL record must be an object")

/-- `read_jsonl_tolerating_torn_final` -/
def readJsonl (log : Log) : Except Exn (List Obj) := do
  let rows ← log.lines.foldlM readLine []
  match log.tail with
  | none | some .bad => .ok rows
  | some tail => readLine rows tail

/-! ## repair -/

/-- the log after `repair_jsonl_tail` -/
def repairedLog (log : Log) : Except Exn Log := do
  let _ ← log.lines.foldlM readLine []
  match log.tail with
  | none => .ok log
  | some .blank | some .bad => .ok { lines := log.lines }
  | some (.value (.obj row)) => .ok { lines := log.lines ++ [.value (.obj row)] }
  | some (.value _) => .error (.valueError "unterminated JSONL final record must be an object")

section
variable (env : Env)

def repairJsonlTail : M Unit := do
  let w ← Proc.get
  match w.submissions with
  | none => pure ()
  | some log =>
    let repaired ← Proc.ofExcept (repairedLog log)
    if log.tail.isNone then pure ()
    else effectful env (fun w => { w with submissions := some repaired }) id

end

/-- a repaired log is terminated and has the rows that were read before -/
theorem repairedLog_rows {log repaired : Log} (h : repairedLog log = .ok repaired) :
    repaired.tail = none ∧
      ∃ rows, readJsonl log = .ok rows ∧ repaired.lines.foldlM readLine [] = .ok rows := by
  obtain ⟨rows, hrows, h⟩ := Except.bind_ok h
  unfold readJsonl
  rw [hrows, Except.ok_bind]
  cases htail : log.tail with
  | none =>
    rw [htail] at h
    rw [← Except.ok.inj h]
    exact ⟨htail, rows, rfl, hrows⟩
  | some line =>
    rw [htail] at h
    cases line with
    | blank =>
      rw [← Except.ok.inj h]
      exact ⟨rfl, rows, rfl, hrows⟩
    | bad =>
      rw [← Except.ok.inj h]
      exact ⟨rfl, rows, rfl, hrows⟩
    | value j =>
      cases j with
      | obj row =>
        rw [← Except.ok.inj h]
        refine ⟨rfl, rows ++ [row], rfl, ?_⟩
        rw [List.foldlM_append, hrows]
        rfl
      | null => exact nomatch h
      | bool b => exact nomatch h
      | int i => exact nomatch h
      | float x => exact nomatch h
      | str s => exact nomatch h
      | arr xs => exact nomatch h

/-- appended rows are read after the others -/
theorem foldlM_readLine_rows (rows new : List Obj) :
    (new.map fun row => Line.value (.obj row)).foldlM readLine rows = .ok (rows ++ new) := by
  induction new generalizing rows with
  | nil => rw [List.append_nil]; rfl
  | cons row new ih =>
    rw [List.map_cons, List.foldlM_cons]
    show List.foldlM readLine (rows ++ [row]) _ = _
    rw [ih, List.append_assoc]
    rfl

section
variable {env : Env}

theorem run_repairJsonlTail {w w' : World} {u : Unit} {log : Log} (hlog : w.submissions = some log)
    (h : repairJsonlTail env w = (.ok u, w')) :
    ∃ repaired, repairedLog log = .ok repaired ∧ w'.submissions = some repaired := by
  obtain ⟨w₁, w₂, hget, h⟩ := run_bind h
  obtain ⟨hw₁, hw₂⟩ := run_get hget
  rw [hw₁, hlog, hw₂] at h
  obtain ⟨repaired, w₃, hrepaired, h⟩ := run_bind h
  obtain ⟨hok, hw₃⟩ := run_ofExcept hrepaired
  refine ⟨repaired, hok, ?_⟩
  rw [hw₃] at h
  cases htail : log.tail with
  | none =>
    have hsame : repaired = log := by
      unfold repairedLog at hok
      obtain ⟨_, _, hok⟩ := Except.bind_ok hok
      rw [htail] at hok
      exact (Except.ok.inj hok).symm
    rw [htail] at h
    rw [← (run_pure h).2, hlog, hsame]
  | some line =>
    rw [htail, if_neg (show ¬ (some line).isNone = true from Bool.false_ne_true)] at h
    rw [run_effectful h]

theorem quiet_repairJsonlTail : Moves Quiet (repairJsonlTail env) := by
  refine Moves.bind Moves.get fun w => ?_
  cases w.submissions with
  | none => exact Moves.pure _
  | some log =>
    refine Moves.bind (Moves.ofExcept _) fun repaired => Moves.ite (Moves.pure _) ?_
    exact quietFrame.effectful (fun _ => Quiet.of_eq rfl rfl rfl rfl rfl)
      (fun _ => refl_of Quiet _)

end

end Dolores
