import Dolores.Lib.Crash
import Mathlib.Algebra.Ring.Nat

/-!
# Atomic writes (`atomic.py`)

`atomicWriteBytes` on the part of the disk that it touches: the destination, its own temporary
file, and the descriptor of that file.  A plan says which system call fails, if one does, and how
many bytes each `os.write` takes.
-/

namespace Dolores
open Crash

structure DiskFile where
  bytes : List UInt8
  mode : Nat
deriving DecidableEq

structure Disk where
  destination : Option DiskFile
  temporary : Option DiskFile
  /-- the descriptor of the temporary file is open -/
  descriptor : Bool
  /-- the variable `fd` -/
  fd : Int
deriving DecidableEq

def contents (file : Option DiskFile) : Option (List UInt8) := file.map DiskFile.bytes

/-- the disk before the call; `mkstemp` is going to choose a name that no file has -/
def Disk.initial (previous : Option DiskFile) : Disk :=
  { destination := previous, temporary := none, descriptor := false, fd := -1 }

/-- the system calls of `atomic_write_bytes` -/
inductive SysCall where
  | mkdir
  | stat
  | mkstemp
  | fchmod
  /-- the `n`-th `os.write` -/
  | write (n : Nat)
  | fsync
  /-- a failing `close(2)` may have released the descriptor -/
  | close (released : Bool)
  | replace
  | openDirectory
  | fsyncDirectory
  | closeDirectory
  /-- the `close` of the `except` clause -/
  | cleanUpClose (released : Bool)
  | unlink
deriving DecidableEq

structure SysPlan where
  /-- the call that fails -/
  fails : Option SysCall
  /-- the `n`-th `os.write` takes this many bytes, if there are as many -/
  accepts : Nat → Nat
  /-- the descriptor that `mkstemp` returns -/
  fd : Nat

inductive WriteError where
  /-- the exception of the call that fails -/
  | failed (c : SysCall)
  | osError (msg : String)
  /-- `EBADF` -/
  | badDescriptor
deriving DecidableEq

section
variable (plan : SysPlan)

def sysCall (c : SysCall) (effect : Disk → Disk) : Proc Disk WriteError Unit := fun d =>
  if plan.fails = some c then (.raise (.failed c), d) else (.ok (), effect d)

/-- `destination.stat().st_mode & 0o777 if destination.exists() else 0o600` -/
def fileMode (destination : Option DiskFile) : Nat :=
  match destination with
  | some file => file.mode % 512
  | none => 384

def destinationMode : Proc Disk WriteError Nat := do
  sysCall plan .stat id
  let d ← Proc.get
  pure (fileMode d.destination)

def mkstemp : Proc Disk WriteError Unit :=
  sysCall plan .mkstemp fun d =>
    { d with temporary := some { bytes := [], mode := 384 }, descriptor := true, fd := plan.fd }

def fchmod (mode : Nat) : Proc Disk WriteError Unit :=
  sysCall plan .fchmod fun d =>
    { d with temporary := d.temporary.map fun file => { file with mode } }

def osWrite (n : Nat) (view : List UInt8) : Proc Disk WriteError Nat := do
  sysCall plan (.write n) fun d =>
    { d with temporary := d.temporary.map fun file =>
        { file with bytes := file.bytes ++ view.take (plan.accepts n) } }
  pure (min (plan.accepts n) view.length)

/-- `_write_all`; `n` writes have been made -/
def writeAll (n : Nat) (view : List UInt8) : Proc Disk WriteError Unit :=
  if _hview : view = [] then pure ()
  else do
    let written ← osWrite plan n view
    if _hwritten : written = 0 then
      Proc.raise (.osError "short write while persisting validator state")
    else writeAll (n + 1) (view.drop written)
termination_by view.length
decreasing_by
  rw [List.length_drop]
  have hpos := List.length_pos_iff.mpr _hview
  omega

/-- `os.close(fd)` of an `fd` that may be closed already -/
def osClose : Proc Disk WriteError Unit := fun d =>
  if d.descriptor then (.ok (), { d with descriptor := false }) else (.raise .badDescriptor, d)

/-- `os.close(fd)`, which may be the call that fails -/
def closeTemporary (call : Bool → SysCall) : Proc Disk WriteError Unit := fun d =>
  if plan.fails = some (call true) then
    (.raise (.failed (call true)), { d with descriptor := false })
  else if plan.fails = some (call false) then (.raise (.failed (call false)), d)
  else osClose d

/-- `os.replace(temp_path, destination)` -/
def replaceFile : Proc Disk WriteError Unit :=
  sysCall plan .replace fun d => { d with destination := d.temporary, temporary := none }

/-- `temp_path.unlink(missing_ok=True)` -/
def unlinkTemporary : Proc Disk WriteError Unit :=
  sysCall plan .unlink fun d => { d with temporary := none }

def fsyncDirectory : Proc Disk WriteError Unit := do
  sysCall plan .openDirectory id
  (sysCall plan .fsyncDirectory id).ensure (sysCall plan .closeDirectory id)

/-- the `except BaseException` clause -/
def cleanUp (e : WriteError) : Proc Disk WriteError Unit := do
  let d ← Proc.get
  if 0 ≤ d.fd then closeTemporary plan .cleanUpClose
  unlinkTemporary plan
  Proc.raise e

def atomicWriteBytes (payload : List UInt8) : Proc Disk WriteError Unit := do
  sysCall plan .mkdir id
  let mode ← destinationMode plan
  mkstemp plan
  Proc.handle (do
      fchmod plan mode
      writeAll plan 0 payload
      sysCall plan .fsync id
      closeTemporary plan .close
      Proc.modify fun d => { d with fd := -1 }
      replaceFile plan
      fsyncDirectory plan)
    (cleanUp plan)

/-! ## the law -/

/-- all or nothing, and no temporary file in either case -/
def AllOrNothing (previous : Option DiskFile) (payload : List UInt8) : Prop :=
  wp (atomicWriteBytes plan payload)
    ⟨fun _ d => contents d.destination = some payload ∧ d.temporary = none,
      fun _ d => contents d.destination = contents previous ∧ d.temporary = none,
      fun _ => False⟩
    (Disk.initial previous)

/-- some `os.write` takes nothing before the payload is out -/
def SysPlan.Stalls (payload : List UInt8) : Prop :=
  ∃ n, plan.accepts n = 0 ∧ ((List.range n).map plan.accepts).sum < payload.length

/-- the clean-up gets no further -/
def SysPlan.FailsCleanUp : Prop :=
  (∃ released, plan.fails = some (.cleanUpClose released)) ∨ plan.fails = some .unlink

/-- the directory is not opened, synced or closed -/
def SysPlan.LosesDirectory : Prop :=
  plan.fails = some .openDirectory ∨ plan.fails = some .fsyncDirectory ∨
    plan.fails = some .closeDirectory

end

end Dolores
