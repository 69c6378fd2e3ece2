import Mathlib.Logic.Function.Basic
import Dolores.Lib.Crash
import Dolores.Engine.Types

/-!
# The archive on disk (`atomic.py`, `archive.py`)

A program of the validator is a `Crash.Proc` over `World`: the files of the work directory, the
lock, the tick objects of the running process, and the events so far in order.  `clock` counts
the calls that leave the program; the answers of everything outside (`Env`) are functions of it,
so that a statement for every `Env` is a statement for every behaviour of the outside.

* `effectful`     one durable effect; it may raise or be killed before it, or after it;
* `external`      one call that leaves the program;
* `Quiet`         what a program does that touches neither files, lock nor tick objects.
-/

set_option linter.unusedSectionVars false

namespace Dolores
open Crash

abbrev Bytes : Type := List UInt8

/-! ## paths and contents -/

/-- the files of one epoch directory -/
inductive EpochFile where
  | minerState
  | weights
  | panelSidecar
  | chainReceipt
  | chainAttempt
  | completion
deriving DecidableEq, Repr

def EpochFile.name (epochId : Int) : EpochFile → String
  | .minerState => s!"miner_state_epoch_{epochId}.json"
  | .weights => s!"weights_epoch_{epochId}.json"
  | .panelSidecar => s!"solver_panel_epoch_{epochId}.json"
  | .chainReceipt => s!"chain_receipt_epoch_{epochId}.json"
  | .chainAttempt => s!"chain_attempt_epoch_{epochId}.json"
  | .completion => s!"completion_epoch_{epochId}.json"

inductive Path where
  | state
  | minerState
  | epoch (epochId : Int) (file : EpochFile)
deriving DecidableEq, Repr

/-- the posix path relative to the archive directory -/
def Path.relative : Path → String
  | .state => "validator_runtime/state.json"
  | .minerState => "miner_state.json"
  | .epoch epochId file => s!"epochs/epoch_{epochId}/" ++ file.name epochId

/-- `path.name` -/
def Path.name : Path → String
  | .state => "state.json"
  | .minerState => "miner_state.json"
  | .epoch epochId file => file.name epochId

/-- a file written by `atomic_write_json`, or any other bytes -/
inductive Content where
  | doc (j : Json)
  | raw (bytes : Bytes)

/-- `json.loads(bytes.decode("utf-8"))` -/
inductive Decoded where
  | badUtf8
  | badJson
  | value (j : Json)

def isHexDigit (c : Char) : Bool := "0123456789abcdef".toList.contains c

/-- `hexdigest()` of a SHA-256 -/
structure HexDigest where
  text : String
  length_eq : text.length = 64
  hex : text.toList.all isHexDigit = true

theorem HexDigest.ascii (d : HexDigest) : ∀ c ∈ d.text.toList, c.toNat < 128 := by
  intro c hc
  have hex : isHexDigit c = true := List.all_eq_true.mp d.hex c hc
  have hmem : c ∈ "0123456789abcdef".toList := List.contains_iff_mem.mp hex
  have hall : ("0123456789abcdef".toList.all fun x => decide (x.toNat < 128)) = true := by decide
  exact of_decide_eq_true (List.all_eq_true.mp hall c hmem)

def HexDigest.zero : HexDigest := ⟨String.ofList (List.replicate 64 '0'), by decide, by decide⟩

/-! ## the submission log and the panel cache -/

/-- one line of a JSONL file: white space, text that is not JSON, or a JSON value -/
inductive Line where
  | blank
  | bad
  | value (j : Json)

/-- the lines that end in a newline, and an unterminated last one -/
structure Log where
  lines : List Line := []
  tail : Option Line := none

/-- a record appended to what an unterminated line already holds -/
def Line.glue (j : Json) : Option Line → Line
  | none | some .blank => .value j
  | some _ => .bad

def Log.append (l : Log) (j : Json) : Log := { lines := l.lines ++ [.glue j l.tail] }

/-- what is left of an append that stopped inside its record -/
def Log.tear (l : Log) (torn : Option Line) : Log :=
  match l.tail, torn with
  | tail, none => { l with tail }
  | none, some t => { l with tail := some t }
  | some .blank, some t => { l with tail := some t }
  | some _, some _ => { l with tail := some .bad }

/-! ## the world -/

/-- who holds the lock on `tick.lock`: a tick object, `recover_receipt`, or a descriptor that an
interrupted `acquire` left open -/
inductive Owner where
  | tick (id : Nat)
  | recovery
  | leaked
deriving DecidableEq

/-- the fields of a `ValidatorTick` -/
structure TickObject where
  entered : Bool := false
  epochId : Option Int := none

inductive Event where
  | wrote (path : Path) (content : Content)
  /-- `verify_epoch_completion` accepted the marker for a commit -/
  | verified (epochId : Int) (minerState : Obj)
  /-- the substrate's `set_weights` is invoked, for the epoch, with this payload -/
  | setWeights (epochId : Int) (uids weights : List Int) (versionKey : Int)
  /-- `ValidatorTick.__enter__` returns -/
  | tickEntered (epochId : Int)
  /-- `run_epoch` loads the rolling `miner_state.json` -/
  | emaLoaded (epochId : Int) (rolling : Option Content)
  /-- `run_task_pipeline` returned a result -/
  | pipelineRan (panelPath : String) (result : PipelineResult)

structure World where
  files : Path → Option Content := fun _ => none
  submissions : Option Log := none
  panelCache : Option Log := none
  /-- the rows of the archive database, each with its task hash -/
  db : List (String × Json) := []
  lockOwner : Option Owner := none
  ticks : Nat → TickObject := fun _ => {}
  /-- the next tick object of the process -/
  nextTick : Nat := 0
  /-- the chain client has built its substrate -/
  connected : Bool := false
  clock : Nat := 0
  trace : List Event := []

/-- an exception that is none of the repository's -/
inductive Interrupt where
  | os (msg : String)
  | exception (name msg : String)
  | base (name msg : String)

def Interrupt.exn : Interrupt → Exn
  | .os msg => .osError msg
  | .exception name msg => .foreign name msg
  | .base name msg => .foreignBase name msg

inductive Fault where
  | none
  | raiseBefore (i : Interrupt)
  | raiseAfter (i : Interrupt)
  | killBefore
  | killAfter

/-- the solver panel's configuration file -/
structure PanelFile where
  digest : HexDigest
  solvers : Except Exn (List Obj)

structure Env where
  fault : Nat → Fault
  /-- what an append that is cut off leaves -/
  torn : Nat → Option Line
  /-- what a plain write that is cut off leaves -/
  tornBytes : Nat → Bytes
  decode : Bytes → Decoded
  sha256 : Content → HexDigest
  sha256Text : String → HexDigest
  now : Nat → String
  durationMs : Nat → Int
  environ : String → Option String
  text : PyText
  archiveDir : String
  panelFile : Option PanelFile

/-- an environment in which nothing fails -/
def Env.plain : Env where
  fault _ := .none
  torn _ := none
  tornBytes _ := []
  decode _ := .badJson
  sha256 _ := .zero
  sha256Text _ := .zero
  now _ := ""
  durationMs _ := 0
  environ _ := none
  text := ⟨fun _ => "0.0", fun _ => "[]", fun s => "'" ++ s ++ "'", fun _ => none⟩
  archiveDir := "archive"
  panelFile := none

abbrev M : Type → Type := Proc World Exn

/-- `str(path)` -/
def Env.fullPath (env : Env) (p : Path) : String := env.archiveDir ++ "/" ++ p.relative

namespace World

def tickClock (w : World) : World := { w with clock := w.clock + 1 }

def put (p : Path) (c : Content) (w : World) : World :=
  { w with files := Function.update w.files p (some c), trace := w.trace ++ [.wrote p c] }

def log (e : Event) (w : World) : World := { w with trace := w.trace ++ [e] }

@[simp] theorem put_self (p : Path) (c : Content) (w : World) : (w.put p c).files p = some c :=
  Function.update_self ..

theorem put_of_ne {p q : Path} (h : q ≠ p) (c : Content) (w : World) :
    (w.put p c).files q = w.files q := Function.update_of_ne h ..

@[simp] theorem put_trace (p : Path) (c : Content) (w : World) :
    (w.put p c).trace = w.trace ++ [.wrote p c] := rfl

@[simp] theorem put_lockOwner (p : Path) (c : Content) (w : World) :
    (w.put p c).lockOwner = w.lockOwner := rfl

@[simp] theorem put_ticks (p : Path) (c : Content) (w : World) : (w.put p c).ticks = w.ticks := rfl

@[simp] theorem put_submissions (p : Path) (c : Content) (w : World) :
    (w.put p c).submissions = w.submissions := rfl

@[simp] theorem log_files (e : Event) (w : World) : (w.log e).files = w.files := rfl
@[simp] theorem log_trace (e : Event) (w : World) : (w.log e).trace = w.trace ++ [e] := rfl
@[simp] theorem tickClock_files (w : World) : w.tickClock.files = w.files := rfl
@[simp] theorem tickClock_trace (w : World) : w.tickClock.trace = w.trace := rfl
@[simp] theorem tickClock_lockOwner (w : World) : w.tickClock.lockOwner = w.lockOwner := rfl
@[simp] theorem tickClock_ticks (w : World) : w.tickClock.ticks = w.ticks := rfl
@[simp] theorem tickClock_submissions (w : World) : w.tickClock.submissions = w.submissions := rfl

/-- a write that takes its turn leaves the other files alone -/
theorem written_of_ne {p q : Path} (h : q ≠ p) (c : Content) (w : World) :
    (w.tickClock.put p c).files q = w.files q := by
  rw [put_of_ne h, tickClock_files]

/-- what the end of a process leaves: its locks and objects are gone -/
def restart (w : World) : World :=
  { w with lockOwner := none, ticks := fun _ => {}, nextTick := 0, connected := false }

end World

/-! ## effects -/

section
variable (env : Env)

/-- a durable effect; `cut` is what an interruption before its completion leaves -/
def effectful (whole cut : World → World) : M Unit := fun w =>
  match env.fault w.clock with
  | .none => (.ok (), whole w.tickClock)
  | .raiseBefore i => (.raise i.exn, cut w.tickClock)
  | .raiseAfter i => (.raise i.exn, whole w.tickClock)
  | .killBefore => (.killed, cut w.tickClock)
  | .killAfter => (.killed, whole w.tickClock)

/-- a call that leaves the program; the process may be killed before it returns -/
def external {α : Type} (answer : Nat → Except Exn α) : M α := fun w =>
  match env.fault w.clock with
  | .killBefore | .killAfter => (.killed, w.tickClock)
  | _ =>
    match answer w.clock with
    | .ok a => (.ok a, w.tickClock)
    | .error e => (.raise e, w.tickClock)

def logEvent (e : Event) : M Unit := Proc.modify (World.log e)

/-- `datetime.now(UTC).isoformat()` -/
def now : M String := fun w => (.ok (env.now w.clock), w)

def atomicWriteJson (p : Path) (payload : Json) : M Unit :=
  effectful env (World.put p (.doc payload.canon)) id

/-- `path.write_text(json.dumps(payload))`, which is not atomic -/
def writeText (p : Path) (payload : Json) : M Unit := fun w =>
  effectful env (World.put p (.doc payload.canon))
    (World.put p (.raw (env.tornBytes w.clock))) w

/-- `append_jsonl_fsync` on the submission log -/
def appendSubmissionLine (payload : Json) : M Unit := fun w =>
  effectful env
    (fun w => { w with submissions := some ((w.submissions.getD {}).append payload.canon) })
    (fun w' => { w' with
      submissions := some ((w'.submissions.getD {}).tear (env.torn w.clock)) }) w

/-- the write of a line to `panel_cache.jsonl` -/
def appendPanelCacheLine (payload : Json) : M Unit := fun w =>
  effectful env
    (fun w => { w with panelCache := some ((w.panelCache.getD {}).append payload.canon) })
    (fun w' => { w' with
      panelCache := some ((w'.panelCache.getD {}).tear (env.torn w.clock)) }) w

/-! ### `archive.py` -/

variable (engine : Engine)

def initArchive : M Unit := do
  external env engine.initDb
  Proc.modify fun w => { w with submissions := some (w.submissions.getD {}) }

def appendSubmission (record : Obj) : M Unit := do
  let createdAt ← now env
  let payload := if Dict.contains record "created_at" then record
    else Dict.set record "created_at" (.str createdAt)
  appendSubmissionLine env (.obj payload)

def purgeTask (taskHash : String) : M Unit := do
  external env fun n => engine.purgeDb n taskHash
  Proc.modify fun w => { w with db := w.db.filter fun row => row.1 ≠ taskHash }

/-! ### the exclusive lock (`ExclusiveFileLock`) -/

def lockHeld (o : Owner) : M Bool := fun w => (.ok (w.lockOwner = some o), w)

def acquireLock (o : Owner) : M Unit := do
  let w ← Proc.get
  if w.lockOwner = some o then Proc.raise (.runtimeError "lock is already held")
  else if w.lockOwner ≠ none then
    Proc.raise (.lockUnavailable "validator tick lock is already held")
  else
    effectful env id fun w => { w with lockOwner := some .leaked }
    Proc.modify fun w => { w with lockOwner := some o }

/-- nothing happens unless the object holds the lock itself -/
def releaseLock (o : Owner) : M Unit :=
  Proc.modify fun w => if w.lockOwner = some o then { w with lockOwner := none } else w

end

/-! ## rules -/

section
variable {env : Env} {α : Type}

theorem wp_effectful {whole cut : World → World} {Q : Post World Exn Unit} {w : World}
    (hok : Q.ok () (whole w.tickClock)) (hcut : ∀ i : Interrupt, Q.raise i.exn (cut w.tickClock))
    (hwhole : ∀ i : Interrupt, Q.raise i.exn (whole w.tickClock))
    (hkcut : Q.killed (cut w.tickClock)) (hkwhole : Q.killed (whole w.tickClock)) :
    wp (effectful env whole cut) Q w := by
  show Q.holds (effectful env whole cut w)
  unfold effectful
  cases env.fault w.clock with
  | none => exact hok
  | raiseBefore i => exact hcut i
  | raiseAfter i => exact hwhole i
  | killBefore => exact hkcut
  | killAfter => exact hkwhole

theorem run_effectful {whole cut : World → World} {w w' : World} {u : Unit}
    (h : effectful env whole cut w = (.ok u, w')) : w' = whole w.tickClock := by
  unfold effectful at h
  cases hf : env.fault w.clock with
  | none =>
    rw [hf] at h
    exact (Prod.mk.inj h).2.symm
  | raiseBefore i => rw [hf] at h; exact nomatch (Prod.mk.inj h).1
  | raiseAfter i => rw [hf] at h; exact nomatch (Prod.mk.inj h).1
  | killBefore => rw [hf] at h; exact nomatch (Prod.mk.inj h).1
  | killAfter => rw [hf] at h; exact nomatch (Prod.mk.inj h).1

theorem wp_external {answer : Nat → Except Exn α} {Q : Post World Exn α} {w : World}
    (hok : ∀ a, answer w.clock = .ok a → Q.ok a w.tickClock)
    (hraise : ∀ e, answer w.clock = .error e → Q.raise e w.tickClock)
    (hkilled : Q.killed w.tickClock) : wp (external env answer) Q w := by
  have hanswer : Q.holds (match answer w.clock with
      | .ok a => (.ok a, w.tickClock)
      | .error e => (.raise e, w.tickClock)) := by
    cases h : answer w.clock with
    | ok a => exact hok a h
    | error e => exact hraise e h
  show Q.holds (external env answer w)
  unfold external
  cases env.fault w.clock with
  | killBefore => exact hkilled
  | killAfter => exact hkilled
  | none => exact hanswer
  | raiseBefore i => exact hanswer
  | raiseAfter i => exact hanswer

theorem run_external {answer : Nat → Except Exn α} {w w' : World} {o : Outcome Exn α}
    (h : external env answer w = (o, w')) : w' = w.tickClock := by
  have hclock : wp (external env answer) (Post.always fun w₁ => w₁ = w.tickClock) w :=
    wp_external (fun _ _ => rfl) (fun _ _ => rfl) rfl
  have hrun := wp_always.mp hclock
  rw [h] at hrun
  exact hrun

theorem answer_of_run {answer : Nat → Except Exn α} {w w' : World} {a : α}
    (h : external env answer w = (.ok a, w')) : answer w.clock = .ok a := by
  have hanswer : wp (external env answer)
      ⟨fun a _ => answer w.clock = .ok a, fun _ _ => True, fun _ => True⟩ w :=
    wp_external (fun _ ha => ha) (fun _ _ => trivial) trivial
  exact wp_of_run hanswer h

theorem run_initArchive {engine : Engine} {w w' : World} {u : Unit}
    (h : initArchive env engine w = (.ok u, w')) :
    w'.submissions = some (w.submissions.getD {}) := by
  obtain ⟨_, w₁, hdb, h⟩ := run_bind h
  rw [run_modify h, run_external hdb]
  rfl

@[simp] theorem wp_logEvent (e : Event) (Q : Post World Exn Unit) (w : World) :
    wp (logEvent e) Q w ↔ Q.ok () (w.log e) := Iff.rfl

@[simp] theorem wp_now (Q : Post World Exn String) (w : World) :
    wp (now env) Q w ↔ Q.ok (env.now w.clock) w := Iff.rfl

@[simp] theorem wp_lockHeld (o : Owner) (Q : Post World Exn Bool) (w : World) :
    wp (lockHeld o) Q w ↔ Q.ok (w.lockOwner = some o) w := Iff.rfl

/-- no call is interrupted and no effect fails -/
def Env.NoFaults (env : Env) : Prop := ∀ n, env.fault n = .none

theorem wp_effectful_of_noFaults (h : env.NoFaults) (whole cut : World → World)
    (Q : Post World Exn Unit) (w : World) :
    wp (effectful env whole cut) Q w ↔ Q.ok () (whole w.tickClock) := by
  show Q.holds (effectful env whole cut w) ↔ _
  unfold effectful
  rw [h w.clock]
  exact Iff.rfl

theorem wp_atomicWriteJson_of_noFaults (h : env.NoFaults) (p : Path) (payload : Json)
    (Q : Post World Exn Unit) (w : World) :
    wp (atomicWriteJson env p payload) Q w ↔ Q.ok () (World.put p (.doc payload.canon) w.tickClock) :=
  wp_effectful_of_noFaults h _ _ Q w

theorem wp_writeText_of_noFaults (h : env.NoFaults) (p : Path) (payload : Json)
    (Q : Post World Exn Unit) (w : World) :
    wp (writeText env p payload) Q w ↔ Q.ok () (World.put p (.doc payload.canon) w.tickClock) :=
  wp_effectful_of_noFaults h _ _ Q w

theorem wp_external_of_noFaults (h : env.NoFaults) (answer : Nat → Except Exn α)
    (Q : Post World Exn α) (w : World) :
    wp (external env answer) Q w ↔
      (∀ a, answer w.clock = .ok a → Q.ok a w.tickClock) ∧
        (∀ e, answer w.clock = .error e → Q.raise e w.tickClock) := by
  show Q.holds (external env answer w) ↔ _
  unfold external
  rw [h w.clock]
  cases answer w.clock with
  | ok a => exact ⟨fun hq => ⟨by rintro _ ⟨⟩; exact hq, by rintro _ ⟨⟩⟩, fun hq => hq.1 a rfl⟩
  | error e => exact ⟨fun hq => ⟨by rintro _ ⟨⟩, by rintro _ ⟨⟩; exact hq⟩, fun hq => hq.2 e rfl⟩

end

theorem returns_external (h : env.NoFaults) {answer : Nat → Except Exn α} {P : α → Prop}
    (ha : ∀ n, ∃ a, answer n = .ok a ∧ P a) : Returns (external env answer) P := fun w => by
  obtain ⟨a, ha, hP⟩ := ha w.clock
  rw [wp_external_of_noFaults h]
  refine ⟨fun b hb => ?_, fun e he => ?_⟩
  · rw [ha] at hb
    rw [← Except.ok.inj hb]
    exact hP
  · rw [ha] at he
    exact nomatch he

/-! ## frames -/

/-- closed under calls that leave the program -/
structure ClockFrame (R : World → World → Prop) : Prop where
  clock : ∀ w, R w w.tickClock

/-- closed under calls to the engine, and writes to its database and to the panel cache -/
structure EngineFrame (R : World → World → Prop) : Prop extends ClockFrame R where
  db : ∀ w db, R w { w with db }
  panelCache : ∀ w panelCache, R w { w with panelCache }
  createLog : ∀ w, R w { w with submissions := some (w.submissions.getD {}) }

/-- closed under what the evaluation of a submission does to the world -/
structure EvaluationFrame (R : World → World → Prop) : Prop extends EngineFrame R where
  pipelineRan : ∀ w panelPath result, R w (w.log (.pipelineRan panelPath result))

namespace ClockFrame

section
variable {R : World → World → Prop} [IsPreorder World R] (F : ClockFrame R) {env : Env} {α : Type}
include F

theorem external (answer : Nat → Except Exn α) : Moves R (external env answer) := fun w =>
  wp_external (fun _ _ => F.clock w) (fun _ _ => F.clock w) (F.clock w)

theorem effectful {whole cut : World → World} (hw : ∀ w, R w (whole w)) (hc : ∀ w, R w (cut w)) :
    Moves R (effectful env whole cut) := fun w => by
  have hwhole : R w (whole w.tickClock) := trans_of R (F.clock w) (hw _)
  have hcut : R w (cut w.tickClock) := trans_of R (F.clock w) (hc _)
  exact wp_effectful hwhole (fun _ => hcut) (fun _ => hwhole) hcut hwhole

theorem atomicWriteJson {p : Path} (hput : ∀ w content, R w (w.put p content)) (payload : Json) :
    Moves R (atomicWriteJson env p payload) :=
  F.effectful (fun w => hput w _) (fun w => refl_of R w)

theorem writeText {p : Path} (hput : ∀ w content, R w (w.put p content)) (payload : Json) :
    Moves R (writeText env p payload) :=
  fun w => F.effectful (fun w => hput w _) (fun w => hput w _) w

end

end ClockFrame

namespace EngineFrame

section
variable {R : World → World → Prop} [IsPreorder World R] (F : EngineFrame R)
  {env : Env} {engine : Engine}
include F

theorem initArchive : Moves R (initArchive env engine) :=
  Moves.bind (F.external _) fun _ => Moves.modify F.createLog

theorem appendPanelCacheLine (payload : Json) : Moves R (appendPanelCacheLine env payload) :=
  fun w => F.effectful (fun w => F.panelCache w _) (fun w => F.panelCache w _) w

theorem purgeTask (taskHash : String) : Moves R (purgeTask env engine taskHash) :=
  Moves.bind (F.external _) fun _ => Moves.modify fun w => F.db w _

theorem appendSubmission (hlog : ∀ w submissions, R w { w with submissions }) (record : Obj) :
    Moves R (appendSubmission env record) := by
  have hline : ∀ payload, Moves R (appendSubmissionLine env payload) := fun payload w =>
    F.effectful (fun w => hlog w _) (fun w => hlog w _) w
  exact Moves.bind (fun w => refl_of R w) fun _ => hline _

end

end EngineFrame

/-- events that say nothing about the files, the ticks or the chain -/
def Event.quiet : Event → Prop
  | .pipelineRan _ _ => True
  | _ => False

/-- files, lock and tick objects are as they were, and every new event is quiet -/
structure Quiet (w w' : World) : Prop where
  files : w'.files = w.files
  lockOwner : w'.lockOwner = w.lockOwner
  ticks : w'.ticks = w.ticks
  nextTick : w'.nextTick = w.nextTick
  trace : ∃ es : List Event, w'.trace = w.trace ++ es ∧ ∀ e ∈ es, e.quiet

instance : IsPreorder World Quiet where
  refl w := ⟨rfl, rfl, rfl, rfl, [], (List.append_nil _).symm, by simp⟩
  trans := by
    rintro w w' w'' ⟨hf, hl, ht, hn, es, he, hq⟩ ⟨hf', hl', ht', hn', es', he', hq'⟩
    refine ⟨hf'.trans hf, hl'.trans hl, ht'.trans ht, hn'.trans hn, es ++ es', ?_, ?_⟩
    · rw [he', he, List.append_assoc]
    · intro e h
      rcases List.mem_append.mp h with h | h
      · exact hq e h
      · exact hq' e h

theorem Quiet.of_eq {w w' : World} (hf : w'.files = w.files) (hl : w'.lockOwner = w.lockOwner)
    (ht : w'.ticks = w.ticks) (hn : w'.nextTick = w.nextTick) (htr : w'.trace = w.trace) :
    Quiet w w' :=
  ⟨hf, hl, ht, hn, [], by rw [htr, List.append_nil], by simp⟩

theorem quietFrame : EvaluationFrame Quiet where
  clock _ := Quiet.of_eq rfl rfl rfl rfl rfl
  db _ _ := Quiet.of_eq rfl rfl rfl rfl rfl
  panelCache _ _ := Quiet.of_eq rfl rfl rfl rfl rfl
  createLog _ := Quiet.of_eq rfl rfl rfl rfl rfl
  pipelineRan w panelPath result := ⟨rfl, rfl, rfl, rfl, [.pipelineRan panelPath result], rfl,
    by simp [Event.quiet]⟩

theorem quiet_appendSubmission {env : Env} (record : Obj) :
    Moves Quiet (appendSubmission env record) :=
  quietFrame.appendSubmission (fun _ _ => Quiet.of_eq rfl rfl rfl rfl rfl) record

end Dolores
