import Dolores.Epoch.LogFile
import Dolores.Lib.Flock

/-!
# The lock of a validator tick (`ExclusiveFileLock`)

Any number of objects, in any processes, for one path.  A move is a call of `acquire` or `release`,
or the answer of the system to the next system call of an object that is in one of these; the moves
of different objects interleave.

* `LockObject`, `Point`  what an object knows, and where it is in its own code;
* `step`, `run`          the moves, in any order;
* `step_call`            the call of an object is answered at the point where it is.
-/

set_option linter.unusedSectionVars false

namespace Dolores
namespace Lock
open JsonText

/-! ## the state -/

/-- the next system call of an object -/
inductive Point where
  /-- neither in `acquire` nor in `release` -/
  | idle
  | mkdir
  | openFile
  | flock (fd : Nat)
  /-- `os.close(fd)` of the handler of `BlockingIOError` -/
  | closeBlocked (fd : Nat)
  | lseek (fd : Nat)
  | ftruncate (fd : Nat)
  | write (fd : Nat) (view : Bytes)
  | fsync (fd : Nat)
  | unlock (fd : Nat)
  /-- `os.close(fd)` of `release`, after the unlock that may have raised -/
  | close (fd : Nat) (raised : Option Exn)
deriving DecidableEq

structure LockObject where
  /-- `self._fd` -/
  fd : Option Nat := none
  point : Point := .idle
deriving DecidableEq

def LockObject.held (x : LockObject) : Bool := x.fd.isSome

/-- a call that has ended; the descriptor is the one that the call has opened -/
inductive Ended (O : Type) where
  | acquired (o : O)
  | acquireRaised (o : O) (fd : Option Nat) (exc : Exn)
  | released (o : O)
  | releaseRaised (o : O) (exc : Exn)
deriving DecidableEq

structure LockWorld (O : Type) where
  flock : Flock O
  object : O → LockObject
  /-- the bytes of the lock file -/
  file : Bytes
  offset : Nat → Nat
  /-- the calls that have ended, in order -/
  ended : List (Ended O)

inductive Reply where
  | ok
  /-- what `os.write` returns -/
  | wrote (count : Nat)
  /-- the call fails, and does nothing -/
  | raised (exc : Exn)
  /-- `os.close` fails, and the descriptor is closed all the same -/
  | raisedClosed (exc : Exn)
deriving DecidableEq

inductive Move (O : Type) where
  | acquire (o : O)
  | release (o : O)
  /-- the answer to the system call at which the object is -/
  | call (o : O) (reply : Reply)
deriving DecidableEq

/-! ## one move -/

def isBlockingIOError : Exn → Bool
  | .foreign name _ => name == "BlockingIOError"
  | _ => false

/-- a write at an offset, which may lie beyond the end of the file -/
def writeAt (file : Bytes) (offset : Nat) (bs : Bytes) : Bytes :=
  file.take offset ++ List.replicate (offset - file.length) 0 ++ bs ++
    file.drop (offset + bs.length)

/-- the loop of `_write_all` -/
def nextWrite (fd : Nat) (view : Bytes) : Point := if view = [] then .fsync fd else .write fd view

section
variable {O : Type} [DecidableEq O]

def LockWorld.start (O : Type) (file : Bytes) : LockWorld O where
  flock := .unopened O
  object _ := {}
  file := file
  offset _ := 0
  ended := []

def LockWorld.set (w : LockWorld O) (o : O) (x : LockObject) : LockWorld O :=
  { w with object := Function.update w.object o x }

def LockWorld.goto (w : LockWorld O) (o : O) (point : Point) : LockWorld O :=
  w.set o { w.object o with point }

/-- the object leaves the call it was in -/
def LockWorld.leave (w : LockWorld O) (o : O) (e : Ended O) : LockWorld O :=
  { w.goto o .idle with ended := w.ended ++ [e] }

variable (T : PyText) (path : String) (pid : O → Nat)

/-- `json.dumps({"pid": os.getpid()}, sort_keys=True).encode("utf-8") + b"\n"` -/
def metadata (o : O) : Bytes := LogFile.lineBytes T [("pid", .int (pid o))]

/-- how `release` ends when the descriptor is closed -/
def afterClose (o : O) : Option Exn → Ended O
  | none => .released o
  | some exc => .releaseRaised o exc

/-- the system call at this point is answered -/
def callStep (w : LockWorld O) (o : O) : Point → Reply → Option (LockWorld O)
  | .mkdir, .ok => some (w.goto o .openFile)
  | .mkdir, .raised exc => some (w.leave o (.acquireRaised o none exc))
  | .openFile, .ok =>
    some { w.goto o (.flock w.flock.next) with
      flock := w.flock.openFile o, offset := Function.update w.offset w.flock.next 0 }
  | .openFile, .raised exc => some (w.leave o (.acquireRaised o none exc))
  | .flock fd, .ok => (w.flock.lock fd).map fun flock => { w.goto o (.lseek fd) with flock }
  | .flock fd, .raised exc =>
    if isBlockingIOError exc then some (w.goto o (.closeBlocked fd))
    else some (w.leave o (.acquireRaised o (some fd) exc))
  | .closeBlocked fd, .ok =>
    some { w.leave o (.acquireRaised o (some fd)
        (.lockUnavailable s!"validator tick lock is already held: {path}")) with
      flock := w.flock.close fd }
  | .closeBlocked fd, .raised exc => some (w.leave o (.acquireRaised o (some fd) exc))
  | .closeBlocked fd, .raisedClosed exc =>
    some { w.leave o (.acquireRaised o (some fd) exc) with flock := w.flock.close fd }
  | .lseek fd, .ok =>
    some { w.goto o (.ftruncate fd) with offset := Function.update w.offset fd 0 }
  | .lseek fd, .raised exc => some (w.leave o (.acquireRaised o (some fd) exc))
  | .ftruncate fd, .ok => some { w.goto o (nextWrite fd (metadata T pid o)) with file := [] }
  | .ftruncate fd, .raised exc => some (w.leave o (.acquireRaised o (some fd) exc))
  | .write fd view, .wrote count =>
    if view.length < count then none
    else if count = 0 then
      some (w.leave o (.acquireRaised o (some fd)
        (.osError "short write while persisting validator state")))
    else
      some { w.goto o (nextWrite fd (view.drop count)) with
        file := writeAt w.file (w.offset fd) (view.take count)
        offset := Function.update w.offset fd (w.offset fd + count) }
  | .write fd _, .raised exc => some (w.leave o (.acquireRaised o (some fd) exc))
  | .fsync fd, .ok =>
    some { w.set o { fd := some fd, point := .idle } with ended := w.ended ++ [.acquired o] }
  | .fsync fd, .raised exc => some (w.leave o (.acquireRaised o (some fd) exc))
  | .unlock fd, .ok => some { w.goto o (.close fd none) with flock := w.flock.unlock fd }
  | .unlock fd, .raised exc => some (w.goto o (.close fd (some exc)))
  | .close fd raised, .ok =>
    some { w.leave o (afterClose o raised) with flock := w.flock.close fd }
  | .close _ _, .raised exc => some (w.leave o (.releaseRaised o exc))
  | .close fd _, .raisedClosed exc =>
    some { w.leave o (.releaseRaised o exc) with flock := w.flock.close fd }
  | _, _ => none

/-- `acquire` is called -/
def acquire (w : LockWorld O) (o : O) : Option (LockWorld O) :=
  if (w.object o).point ≠ .idle then none
  else if (w.object o).held then
    some (w.leave o (.acquireRaised o none (.runtimeError s!"lock is already held: {path}")))
  else some (w.goto o .mkdir)

/-- `release` is called -/
def release (w : LockWorld O) (o : O) : Option (LockWorld O) :=
  if (w.object o).point ≠ .idle then none
  else match (w.object o).fd with
    | none => some (w.leave o (.released o))
    | some fd => some (w.set o { fd := none, point := .unlock fd })

def step (w : LockWorld O) : Move O → Option (LockWorld O)
  | .acquire o => acquire path w o
  | .release o => release w o
  | .call o reply => callStep T path pid w o (w.object o).point reply

def run (w : LockWorld O) (moves : List (Move O)) : Option (LockWorld O) :=
  moves.foldlM (step T path pid) w

end

/-! ## what these do -/

section
variable {O : Type} [DecidableEq O] {w : LockWorld O} {o q : O}

@[simp] theorem set_self (w : LockWorld O) (o : O) (x : LockObject) :
    (w.set o x).object o = x := Function.update_self _ _ _

theorem set_other (h : q ≠ o) (x : LockObject) : (w.set o x).object q = w.object q :=
  Function.update_of_ne h _ _

@[simp] theorem goto_self (w : LockWorld O) (o : O) (point : Point) :
    (w.goto o point).object o = { w.object o with point } := set_self w o _

theorem goto_point (w : LockWorld O) (o : O) (point : Point) :
    ((w.goto o point).object o).point = point := by
  rw [goto_self]

@[simp] theorem leave_self (w : LockWorld O) (o : O) (e : Ended O) :
    (w.leave o e).object o = { w.object o with point := .idle } := set_self w o _

/-- bytes written where the file ends -/
theorem writeAt_end (file bs : Bytes) : writeAt file file.length bs = file ++ bs := by
  unfold writeAt
  rw [List.take_length, Nat.sub_self, List.replicate_zero, List.append_nil,
    List.drop_eq_nil_of_le (Nat.le_add_right _ _), List.append_nil]

theorem metadata_ne_nil (T : PyText) (pid : O → Nat) (o : O) : metadata T pid o ≠ [] :=
  List.append_ne_nil_of_right_ne_nil _ (List.cons_ne_nil _ _)

variable {T : PyText} {path : String} {pid : O → Nat}

/-- the answer to an object that is known to be at this point -/
theorem step_call {point : Point} (h : (w.object o).point = point) (reply : Reply) :
    step T path pid w (.call o reply) = callStep T path pid w o point reply := by
  rw [← h]
  rfl

/-- `os.write` wrote nothing, or part of the view, or all of it -/
theorem callStep_wrote {w' : LockWorld O} {fd count : Nat} {view : Bytes}
    (h : callStep T path pid w o (.write fd view) (.wrote count) = some w') :
    (count = 0 ∧ w' = w.leave o (.acquireRaised o (some fd)
      (.osError "short write while persisting validator state"))) ∨
    (count ≠ 0 ∧ count ≤ view.length ∧ w' =
      { w.goto o (nextWrite fd (view.drop count)) with
        file := writeAt w.file (w.offset fd) (view.take count)
        offset := Function.update w.offset fd (w.offset fd + count) }) := by
  by_cases hmore : view.length < count
  · exact nomatch (if_pos hmore).symm.trans h
  replace h := (if_neg hmore).symm.trans h
  by_cases hzero : count = 0
  · exact .inl ⟨hzero, (Option.some.inj ((if_pos hzero).symm.trans h)).symm⟩
  · exact .inr ⟨hzero, Nat.le_of_not_lt hmore,
      (Option.some.inj ((if_neg hzero).symm.trans h)).symm⟩

theorem callStep_write_all {fd : Nat} {view : Bytes} (hview : view ≠ []) :
    callStep T path pid w o (.write fd view) (.wrote view.length) = some
      { w.goto o (.fsync fd) with
        file := writeAt w.file (w.offset fd) view
        offset := Function.update w.offset fd (w.offset fd + view.length) } := by
  have hpos : view.length ≠ 0 := fun h => hview (List.length_eq_zero_iff.mp h)
  have hrest : nextWrite fd (view.drop view.length) = .fsync fd := by
    rw [List.drop_length]
    rfl
  refine ((if_neg (Nat.lt_irrefl _)).trans (if_neg hpos)).trans ?_
  rw [hrest, List.take_length]

@[simp] theorem run_nil (w : LockWorld O) : run T path pid w [] = some w := rfl

theorem run_cons (w : LockWorld O) (m : Move O) (moves : List (Move O)) :
    run T path pid w (m :: moves) =
      (step T path pid w m).bind fun w' => run T path pid w' moves := rfl

end

end Lock
end Dolores
