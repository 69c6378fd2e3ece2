import Dolores.Archive.World
import Dolores.Atomic.LockLaw

/-!
# The lock of the ticks is the lock on the file (`atomic.py`, `validator_state.py`)

The world of the ticks has an owner of `tick.lock`, and `acquireLock` is one effect of it.  Here
the owners are the objects of `ExclusiveFileLock`, and a call is its system calls.

* `worldOwner`         who holds the lock, for the world of the ticks;
* `AcquireEnds`        how `acquire` ends: with the lock, with nothing changed, with the lock lost;
* `acquireLock_ends_iff`, `acquire_ends`  the effect ends in these ways, the system calls too;
* `release_ends`       a `release` that returns does what `releaseLock` does;
* `calls_refine`       whatever calls follow one another, the ticks' effects follow them call by
                       call.
-/

set_option linter.unusedSectionVars false

namespace Dolores
namespace Lock
open Crash

/-- an owner that is an object -/
abbrev Holder : Type := { o : Owner // o ≠ .leaked }

/-- the holder that has set its flag, or a descriptor that no flag tells of -/
def worldOwner (l : LockWorld Holder) : Option Owner :=
  l.flock.owner.map fun fd =>
    match l.flock.opener fd with
    | some o => if (l.object o).fd = some fd then o.1 else .leaked
    | none => .leaked

/-- how a call of `acquire` ends, and whether it returns -/
inductive AcquireEnds (o : Owner) (before : Option Owner) : Option Owner → Bool → Prop where
  | acquired : before = none → AcquireEnds o before (some o) true
  | unchanged : AcquireEnds o before before false
  | lost : before = none → AcquireEnds o before (some .leaked) false

/-! ## the effects of the ticks -/

/-- whether a call returns or raises; the end of the process is neither -/
def returned : Outcome Exn Unit → Option Bool
  | .ok _ => some true
  | .raise _ => some false
  | .killed => none

/-- the fault of the next effect -/
def withFault (env : Env) (fault : Fault) : Env := { env with fault := fun _ => fault }

section
variable {env : Env} {o : Owner} {w : World} {after : Option Owner} {b : Bool} {fault : Fault}

theorem acquireLock_of_owned (env : Env) (o : Owner) (h : w.lockOwner ≠ none) :
    ∃ e, acquireLock env o w = (.raise e, w) := by
  unfold acquireLock
  by_cases hself : w.lockOwner = some o
  · refine ⟨.runtimeError "lock is already held", ?_⟩
    show (if w.lockOwner = some o then _ else _ : M Unit) w = _
    rw [if_pos hself]
    rfl
  · refine ⟨.lockUnavailable "validator tick lock is already held", ?_⟩
    show (if w.lockOwner = some o then _ else if w.lockOwner ≠ none then _ else _ : M Unit) w = _
    rw [if_neg hself, if_pos h]
    rfl

/-- what an effect of a free lock leaves -/
theorem acquireLock_of_free (h : w.lockOwner = none) :
    acquireLock (withFault env fault) o w =
      match fault with
      | .none => (.ok (), { w.tickClock with lockOwner := some o })
      | .raiseBefore i => (.raise i.exn, { w.tickClock with lockOwner := some .leaked })
      | .raiseAfter i => (.raise i.exn, w.tickClock)
      | .killBefore => (.killed, { w.tickClock with lockOwner := some .leaked })
      | .killAfter => (.killed, w.tickClock) := by
  have hself : w.lockOwner ≠ some o := by
    rw [h]
    exact (Option.some_ne_none o).symm
  unfold acquireLock
  show (if w.lockOwner = some o then _ else if w.lockOwner ≠ none then _ else _ : M Unit) w = _
  rw [if_neg hself, if_neg (not_not.mpr h)]
  cases fault with
  | none | raiseBefore i | raiseAfter i | killBefore | killAfter => rfl

/-- the effect has these ends, and unless the process is killed no others -/
theorem acquireLock_ends_iff : AcquireEnds o w.lockOwner after b ↔
    ∃ fault, returned (acquireLock (withFault env fault) o w).1 = some b ∧
      (acquireLock (withFault env fault) o w).2.lockOwner = after := by
  cases howner : w.lockOwner with
  | none =>
    constructor
    · rintro (_ | _ | _)
      · refine ⟨.none, ?_⟩
        rw [acquireLock_of_free howner]
        exact ⟨rfl, rfl⟩
      · refine ⟨.raiseAfter (.os ""), ?_⟩
        rw [acquireLock_of_free howner]
        exact ⟨rfl, howner⟩
      · refine ⟨.raiseBefore (.os ""), ?_⟩
        rw [acquireLock_of_free howner]
        exact ⟨rfl, rfl⟩
    · rintro ⟨fault, hreturned, hafter⟩
      rw [acquireLock_of_free howner] at hreturned hafter
      cases fault with
      | none =>
        rw [← Option.some.inj hreturned, ← hafter]
        exact .acquired rfl
      | raiseBefore i =>
        rw [← Option.some.inj hreturned, ← hafter]
        exact .lost rfl
      | raiseAfter i =>
        rw [← Option.some.inj hreturned, ← hafter, show w.tickClock.lockOwner = none from howner]
        exact .unchanged
      | killBefore | killAfter => exact absurd hreturned.symm (Option.some_ne_none b)
  | some p =>
    have howned : w.lockOwner ≠ none := by
      rw [howner]
      exact Option.some_ne_none p
    constructor
    · intro h
      cases h with
      | acquired h | lost h => exact absurd h (Option.some_ne_none p)
      | unchanged =>
        obtain ⟨e, hraise⟩ := acquireLock_of_owned (withFault env .none) o howned
        refine ⟨.none, ?_⟩
        rw [hraise]
        exact ⟨rfl, howner⟩
    · rintro ⟨fault, hreturned, hafter⟩
      obtain ⟨e, hraise⟩ := acquireLock_of_owned (withFault env fault) o howned
      rw [hraise] at hreturned hafter
      rw [← Option.some.inj hreturned, ← hafter, howner]
      exact .unchanged

end

/-! ## the owner -/

section
variable {T : PyText} {path : String} {pid : Holder → Nat} {l l' l₀ : LockWorld Holder}
  {o q : Holder} {fd : Nat} {point : Point}

theorem worldOwner_eq_none : worldOwner l = none ↔ l.flock.owner = none := Option.map_eq_none_iff

theorem worldOwner_of_ownsBy (h : l.flock.OwnsBy o fd) :
    worldOwner l = some (if (l.object o).fd = some fd then o.1 else .leaked) := by
  unfold worldOwner
  rw [h.1, Option.map_some, h.2]

/-- the owner is the same as long as its descriptor and all flags are -/
theorem worldOwner_congr (howner : l'.flock.owner = l.flock.owner)
    (hopener : ∀ fd, l.flock.owner = some fd → l'.flock.opener fd = l.flock.opener fd)
    (hflags : ∀ q, (l'.object q).fd = (l.object q).fd) : worldOwner l' = worldOwner l := by
  cases hself : l.flock.owner with
  | none =>
    rw [worldOwner_eq_none.mpr hself, worldOwner_eq_none.mpr (howner.trans hself)]
  | some fd =>
    obtain ⟨q, howns⟩ := Flock.exists_ownsBy hself
    have howns' : l'.flock.OwnsBy q fd := ⟨howner.trans hself, (hopener fd hself).trans howns.2⟩
    rw [worldOwner_of_ownsBy howns, worldOwner_of_ownsBy howns', hflags q]

theorem fd_goto (l : LockWorld Holder) (o q : Holder) (point : Point) :
    ((l.goto o point).object q).fd = (l.object q).fd := by
  by_cases hq : q = o
  · rw [hq, goto_self]
  · rw [show (l.goto o point).object q = l.object q from set_other hq _]

theorem worldOwner_goto (hobject : l'.object = (l.goto o point).object)
    (hflock : l'.flock = l.flock) : worldOwner l' = worldOwner l := by
  apply worldOwner_congr
  · rw [hflock]
  · intro fd _
    rw [hflock]
  · intro q
    rw [hobject, fd_goto]

/-- a call that goes on, or ends, without setting the flag -/
theorem Inv.worldOwner_lost (h : Inv T pid l) (hbefore : (l.object o).point ≠ .idle)
    (howns : l.flock.OwnsBy o fd) : worldOwner l = some .leaked := by
  rw [worldOwner_of_ownsBy howns, h.fd_none hbefore, if_neg (Option.some_ne_none fd).symm]

/-- the world's owner is the object whose flag is set -/
theorem Inv.worldOwner_eq_iff (h : Inv T pid l) :
    worldOwner l = some o.1 ↔ (l.object o).held = true := by
  constructor
  · intro howner
    cases hself : l.flock.owner with
    | none =>
      rw [worldOwner_eq_none.mpr hself] at howner
      exact absurd howner.symm (Option.some_ne_none _)
    | some fd =>
      obtain ⟨q, howns⟩ := Flock.exists_ownsBy hself
      rw [worldOwner_of_ownsBy howns] at howner
      by_cases hflag : (l.object q).fd = some fd
      · rw [if_pos hflag] at howner
        rw [← show q = o from Subtype.ext (Option.some.inj howner), LockObject.held, hflag]
        rfl
      · rw [if_neg hflag] at howner
        exact absurd (Option.some.inj howner).symm o.2
  · intro hheld
    obtain ⟨fd, hfd⟩ := Option.isSome_iff_exists.mp hheld
    rw [worldOwner_of_ownsBy ((h o).held fd hfd).2.1, if_pos hfd]

/-! ## the system calls of `acquire` -/

/-- what the call has done when it is here -/
def Point.Acquiring (l₀ l : LockWorld Holder) : Point → Prop
  | .mkdir | .openFile | .flock _ | .closeBlocked _ => worldOwner l = worldOwner l₀
  | .lseek _ | .ftruncate _ | .write _ _ | .fsync _ => worldOwner l₀ = none
  | .idle | .unlock _ | .close _ _ => False

structure InAcquire (l₀ l : LockWorld Holder) (o : Holder) : Prop where
  point : (l.object o).point.Acquiring l₀ l
  ended : l.ended = l₀.ended

/-- the call has ended in one of the ways -/
def AcquireEnded (l₀ l : LockWorld Holder) (o : Holder) : Prop :=
  ∃ e, l.ended = l₀.ended ++ [e] ∧
    AcquireEnds o.1 (worldOwner l₀) (worldOwner l) (decide (e = .acquired o))

theorem AcquireEnded.raised {opened : Option Nat} {exc : Exn}
    (hended : l.ended = l₀.ended ++ [.acquireRaised o opened exc])
    (hends : AcquireEnds o.1 (worldOwner l₀) (worldOwner l) false) : AcquireEnded l₀ l o := by
  refine ⟨_, hended, ?_⟩
  rw [decide_eq_false fun h => nomatch h]
  exact hends

theorem InAcquire.at_point (h : InAcquire l₀ l o) (hpoint : (l.object o).point = point) :
    point.Acquiring l₀ l := by
  rw [← hpoint]
  exact h.point

theorem InAcquire.goto (h : InAcquire l₀ l o) (hobject : l'.object = (l.goto o point).object)
    (hended : l'.ended = l.ended) (hpoint : point.Acquiring l₀ l') : InAcquire l₀ l' o where
  point := by
    rw [hobject, goto_point]
    exact hpoint
  ended := hended.trans h.ended

/-- a failure before the lock is taken, or of a lock that is not had -/
theorem InAcquire.refused (h : InAcquire l₀ l o) {opened : Option Nat} {exc : Exn}
    (hsame : worldOwner l' = worldOwner l₀)
    (hended : l'.ended = l.ended ++ [.acquireRaised o opened exc]) : AcquireEnded l₀ l' o := by
  rw [h.ended] at hended
  apply AcquireEnded.raised hended
  rw [hsame]
  exact .unchanged

/-- a failure after the lock is taken -/
theorem InAcquire.fails (h : InAcquire l₀ l o) (hinv : Inv T pid l)
    (hbefore : (l.object o).point ≠ .idle) (howns : l.flock.OwnsBy o fd)
    (hfree : worldOwner l₀ = none) {opened : Option Nat} {exc : Exn} :
    AcquireEnded l₀ (l.leave o (.acquireRaised o opened exc)) o := by
  apply AcquireEnded.raised
  · show l.ended ++ _ = _
    rw [h.ended]
  · rw [show worldOwner (l.leave o _) = worldOwner l from worldOwner_goto rfl rfl,
      hinv.worldOwner_lost hbefore howns]
    exact .lost hfree

theorem idle_of_leave (hobject : l'.object = (l.goto o .idle).object) :
    (l'.object o).point = .idle := by
  rw [hobject, goto_point]

/-- the call goes on, or it has ended -/
def AcquireGoes (l₀ l : LockWorld Holder) (o : Holder) : Prop :=
  InAcquire l₀ l o ∨ (l.object o).point = .idle ∧ AcquireEnded l₀ l o

theorem InAcquire.step_mkdir (h : InAcquire l₀ l o) {reply : Reply}
    (hpoint : (l.object o).point = .mkdir)
    (hstep : step T path pid l (.call o reply) = some l') : AcquireGoes l₀ l' o := by
  have hsame : worldOwner l = worldOwner l₀ := h.at_point hpoint
  rw [step_call hpoint] at hstep
  cases reply with
  | ok =>
    rw [← Option.some.inj hstep]
    exact .inl (h.goto rfl rfl ((worldOwner_goto rfl rfl).trans hsame))
  | raised exc =>
    rw [← Option.some.inj hstep]
    exact .inr ⟨idle_of_leave rfl, h.refused ((worldOwner_goto rfl rfl).trans hsame) rfl⟩
  | wrote | raisedClosed => exact nomatch hstep

theorem InAcquire.step_openFile (h : InAcquire l₀ l o) {reply : Reply}
    (hpoint : (l.object o).point = .openFile)
    (hstep : step T path pid l (.call o reply) = some l') : AcquireGoes l₀ l' o := by
  have hsame : worldOwner l = worldOwner l₀ := h.at_point hpoint
  rw [step_call hpoint] at hstep
  cases reply with
  | ok =>
    rw [← Option.some.inj hstep]
    refine .inl (h.goto rfl rfl (Eq.trans ?_ hsame))
    apply worldOwner_congr
    · rfl
    · intro fd hfd
      obtain ⟨q, howns⟩ := Flock.exists_ownsBy hfd
      exact Flock.opener_openFile_of_lt (Flock.lt_next howns.2) o
    · exact fun q => fd_goto l o q _
  | raised exc =>
    rw [← Option.some.inj hstep]
    exact .inr ⟨idle_of_leave rfl, h.refused ((worldOwner_goto rfl rfl).trans hsame) rfl⟩
  | wrote | raisedClosed => exact nomatch hstep

theorem InAcquire.step_flock (h : InAcquire l₀ l o) (hinv : Inv T pid l) {reply : Reply}
    (hpoint : (l.object o).point = .flock fd)
    (hstep : step T path pid l (.call o reply) = some l') : AcquireGoes l₀ l' o := by
  have hsame : worldOwner l = worldOwner l₀ := h.at_point hpoint
  have hnot : l.flock.owner ≠ some fd := (hinv.point_sound hpoint).2
  rw [step_call hpoint] at hstep
  cases reply with
  | ok =>
    obtain ⟨flock, hlock, hl'⟩ := Option.map_eq_some_iff.mp hstep
    have hfree : l.flock.owner = none := (Flock.lock_eq_some hlock).1.resolve_right hnot
    have hnone : worldOwner l₀ = none := hsame.symm.trans (worldOwner_eq_none.mpr hfree)
    rw [← hl']
    exact .inl (h.goto rfl rfl hnone)
  | raised exc =>
    by_cases hblocked : isBlockingIOError exc = true
    · have hgoto := (if_pos hblocked).symm.trans hstep
      rw [← Option.some.inj hgoto]
      exact .inl (h.goto rfl rfl ((worldOwner_goto rfl rfl).trans hsame))
    · have hleave := (if_neg hblocked).symm.trans hstep
      rw [← Option.some.inj hleave]
      exact .inr ⟨idle_of_leave rfl, h.refused ((worldOwner_goto rfl rfl).trans hsame) rfl⟩
  | wrote | raisedClosed => exact nomatch hstep

/-- a descriptor without the lock is closed -/
theorem worldOwner_close (hobject : l'.object = (l.goto o point).object)
    (hflock : l'.flock = l.flock.close fd) (hnot : l.flock.owner ≠ some fd) :
    worldOwner l' = worldOwner l := by
  apply worldOwner_congr
  · rw [hflock, Flock.owner_close, Flock.owner_unlock_of_ne hnot]
  · intro fd' hfd'
    rw [hflock]
    apply Flock.opener_close_of_ne
    intro heq
    rw [heq] at hfd'
    exact hnot hfd'
  · intro q
    rw [hobject, fd_goto]

theorem InAcquire.step_closeBlocked (h : InAcquire l₀ l o) (hinv : Inv T pid l) {reply : Reply}
    (hpoint : (l.object o).point = .closeBlocked fd)
    (hstep : step T path pid l (.call o reply) = some l') : AcquireGoes l₀ l' o := by
  have hsame : worldOwner l = worldOwner l₀ := h.at_point hpoint
  have hnot : l.flock.owner ≠ some fd := (hinv.point_sound hpoint).2
  rw [step_call hpoint] at hstep
  cases reply with
  | ok | raisedClosed =>
    rw [← Option.some.inj hstep]
    refine .inr ⟨idle_of_leave rfl, h.refused (Eq.trans ?_ hsame) rfl⟩
    exact worldOwner_close rfl rfl hnot
  | raised exc =>
    rw [← Option.some.inj hstep]
    exact .inr ⟨idle_of_leave rfl, h.refused ((worldOwner_goto rfl rfl).trans hsame) rfl⟩
  | wrote => exact nomatch hstep

theorem InAcquire.step_lseek (h : InAcquire l₀ l o) (hinv : Inv T pid l) {reply : Reply}
    (hpoint : (l.object o).point = .lseek fd)
    (hstep : step T path pid l (.call o reply) = some l') : AcquireGoes l₀ l' o := by
  have hfree : worldOwner l₀ = none := h.at_point hpoint
  have howns : l.flock.OwnsBy o fd := hinv.point_sound hpoint
  rw [step_call hpoint] at hstep
  cases reply with
  | ok =>
    rw [← Option.some.inj hstep]
    exact .inl (h.goto rfl rfl hfree)
  | raised exc =>
    rw [← Option.some.inj hstep]
    exact .inr ⟨idle_of_leave rfl, h.fails hinv (ne_idle hpoint fun h => nomatch h) howns hfree⟩
  | wrote | raisedClosed => exact nomatch hstep

theorem nextWrite_acquiring (fd : Nat) (view : Bytes) (hfree : worldOwner l₀ = none) :
    (nextWrite fd view).Acquiring l₀ l := by
  unfold nextWrite
  split
  · exact hfree
  · exact hfree

theorem InAcquire.step_ftruncate (h : InAcquire l₀ l o) (hinv : Inv T pid l) {reply : Reply}
    (hpoint : (l.object o).point = .ftruncate fd)
    (hstep : step T path pid l (.call o reply) = some l') : AcquireGoes l₀ l' o := by
  have hfree : worldOwner l₀ = none := h.at_point hpoint
  have howns : l.flock.OwnsBy o fd := (hinv.point_sound hpoint).1
  rw [step_call hpoint] at hstep
  cases reply with
  | ok =>
    rw [← Option.some.inj hstep]
    exact .inl (h.goto rfl rfl (nextWrite_acquiring _ _ hfree))
  | raised exc =>
    rw [← Option.some.inj hstep]
    exact .inr ⟨idle_of_leave rfl, h.fails hinv (ne_idle hpoint fun h => nomatch h) howns hfree⟩
  | wrote | raisedClosed => exact nomatch hstep

theorem InAcquire.step_write (h : InAcquire l₀ l o) (hinv : Inv T pid l) {reply : Reply}
    {view : Bytes} (hpoint : (l.object o).point = .write fd view)
    (hstep : step T path pid l (.call o reply) = some l') : AcquireGoes l₀ l' o := by
  have hfree : worldOwner l₀ = none := h.at_point hpoint
  have howns : l.flock.OwnsBy o fd := (hinv.point_sound hpoint).1
  have hbefore := ne_idle hpoint fun h => nomatch h
  rw [step_call hpoint] at hstep
  cases reply with
  | wrote count =>
    rcases callStep_wrote hstep with ⟨_, hl'⟩ | ⟨_, _, hl'⟩
    · rw [hl']
      exact .inr ⟨idle_of_leave rfl, h.fails hinv hbefore howns hfree⟩
    · rw [hl']
      exact .inl (h.goto rfl rfl (nextWrite_acquiring _ _ hfree))
  | raised exc =>
    rw [← Option.some.inj hstep]
    exact .inr ⟨idle_of_leave rfl, h.fails hinv hbefore howns hfree⟩
  | ok | raisedClosed => exact nomatch hstep

theorem InAcquire.step_fsync (h : InAcquire l₀ l o) (hinv : Inv T pid l) {reply : Reply}
    (hpoint : (l.object o).point = .fsync fd)
    (hstep : step T path pid l (.call o reply) = some l') : AcquireGoes l₀ l' o := by
  have hfree : worldOwner l₀ = none := h.at_point hpoint
  have howns : l.flock.OwnsBy o fd := (hinv.point_sound hpoint).1
  rw [step_call hpoint] at hstep
  cases reply with
  | ok =>
    have hobject : l'.object o = { fd := some fd, point := .idle } := by
      rw [← Option.some.inj hstep]
      exact set_self l o _
    have howner : worldOwner l' = some o.1 := by
      have howns' : l'.flock.OwnsBy o fd := by
        rw [← Option.some.inj hstep]
        exact howns
      rw [worldOwner_of_ownsBy howns', hobject, if_pos rfl]
    right
    refine ⟨by rw [hobject], .acquired o, ?_, ?_⟩
    · rw [← Option.some.inj hstep, ← h.ended]
    · rw [howner, decide_eq_true rfl]
      exact .acquired hfree
  | raised exc =>
    rw [← Option.some.inj hstep]
    exact .inr ⟨idle_of_leave rfl, h.fails hinv (ne_idle hpoint fun h => nomatch h) howns hfree⟩
  | wrote | raisedClosed => exact nomatch hstep

theorem InAcquire.step (h : InAcquire l₀ l o) (hinv : Inv T pid l) {reply : Reply}
    (hstep : step T path pid l (.call o reply) = some l') : AcquireGoes l₀ l' o := by
  cases hpoint : (l.object o).point with
  | idle | unlock | close => exact (h.at_point hpoint).elim
  | mkdir => exact h.step_mkdir hpoint hstep
  | openFile => exact h.step_openFile hpoint hstep
  | flock fd => exact h.step_flock hinv hpoint hstep
  | closeBlocked fd => exact h.step_closeBlocked hinv hpoint hstep
  | lseek fd => exact h.step_lseek hinv hpoint hstep
  | ftruncate fd => exact h.step_ftruncate hinv hpoint hstep
  | write fd view => exact h.step_write hinv hpoint hstep
  | fsync fd => exact h.step_fsync hinv hpoint hstep

/-- an object outside its calls gets no answer -/
theorem call_idle (hidle : (l.object o).point = .idle) (reply : Reply) :
    step T path pid l (.call o reply) = none := by
  rw [step_call hidle]
  cases reply with
  | ok | wrote | raised | raisedClosed => rfl

theorem run_call_cons {reply : Reply} {replies : List Reply}
    (hrun : run T path pid l ((reply :: replies).map (.call o)) = some l') :
    ∃ l₁, step T path pid l (.call o reply) = some l₁ ∧
      run T path pid l₁ (replies.map (.call o)) = some l' :=
  Option.bind_eq_some_iff.mp hrun

/-- an object outside its calls stays as it is -/
theorem run_call_idle {replies : List Reply} (hidle : (l.object o).point = .idle)
    (hrun : run T path pid l (replies.map (.call o)) = some l') : l' = l := by
  cases replies with
  | nil => exact (Option.some.inj hrun).symm
  | cons reply replies =>
    obtain ⟨l₁, hstep, _⟩ := run_call_cons hrun
    rw [call_idle hidle] at hstep
    exact absurd hstep.symm (Option.some_ne_none l₁)

theorem InAcquire.run {replies : List Reply} (h : InAcquire l₀ l o) (hinv : Inv T pid l)
    (hrun : run T path pid l (replies.map (.call o)) = some l')
    (hidle : (l'.object o).point = .idle) : AcquireEnded l₀ l' o := by
  induction replies generalizing l with
  | nil =>
    rw [← Option.some.inj hrun] at hidle
    exact (h.at_point hidle).elim
  | cons reply replies ih =>
    obtain ⟨l₁, hstep, hrest⟩ := run_call_cons hrun
    rcases h.step hinv hstep with hgoes | ⟨hidle₁, hended⟩
    · exact ih hgoes ((hinv.effect hstep).inv hinv) hrest
    · rw [run_call_idle hidle₁ hrest]
      exact hended

/-- a whole call of `acquire`, whatever the system answers -/
theorem acquire_ends {replies : List Reply} (hinv : Inv T pid l)
    (hrun : run T path pid l (.acquire o :: replies.map (.call o)) = some l')
    (hidle : (l'.object o).point = .idle) : AcquireEnded l l' o := by
  obtain ⟨l₁, hstep, hrest⟩ := Option.bind_eq_some_iff.mp hrun
  have hinv₁ : Inv T pid l₁ := (hinv.effect hstep).inv hinv
  by_cases hout : (l.object o).point = .idle
  · have hcall := (if_neg (not_not.mpr hout)).symm.trans hstep
    by_cases hheld : (l.object o).held = true
    · have hleave := (if_pos hheld).symm.trans hcall
      have hl₁ : _ = l₁ := Option.some.inj hleave
      rw [run_call_idle (by rw [← hl₁, leave_self]) hrest, ← hl₁]
      apply AcquireEnded.raised rfl
      rw [show worldOwner (l.leave o _) = worldOwner l from worldOwner_goto rfl rfl]
      exact .unchanged
    · have hgoto := (if_neg hheld).symm.trans hcall
      have hl₁ : l.goto o .mkdir = l₁ := Option.some.inj hgoto
      refine InAcquire.run ⟨?_, ?_⟩ hinv₁ hrest hidle
      · rw [← hl₁, goto_point]
        exact worldOwner_goto rfl rfl
      · rw [← hl₁]
        rfl
  · exact absurd ((if_pos hout).symm.trans hstep).symm (Option.some_ne_none l₁)

/-- the tick's effect can end as the call does -/
theorem acquire_refines {replies : List Reply} (hinv : Inv T pid l)
    (hrun : run T path pid l (.acquire o :: replies.map (.call o)) = some l')
    (hidle : (l'.object o).point = .idle) (env : Env) {w : World}
    (hw : w.lockOwner = worldOwner l) :
    ∃ e fault, l'.ended = l.ended ++ [e] ∧
      returned (acquireLock (withFault env fault) o.1 w).1 = some (decide (e = .acquired o)) ∧
      (acquireLock (withFault env fault) o.1 w).2.lockOwner = worldOwner l' := by
  obtain ⟨e, hended, hends⟩ := acquire_ends hinv hrun hidle
  rw [← hw] at hends
  obtain ⟨fault, hreturned, howner⟩ := acquireLock_ends_iff.mp hends
  exact ⟨e, fault, hended, hreturned, howner⟩

/-! ## the system calls of `release` -/

theorem lockOwner_releaseLock (p : Owner) (w : World) :
    (releaseLock p w).2.lockOwner = if w.lockOwner = some p then none else w.lockOwner := by
  show (if w.lockOwner = some p then { w with lockOwner := none } else w).lockOwner = _
  split
  · rfl
  · rfl

/-- what the call has done when it is here -/
def Point.Releasing (l : LockWorld Holder) : Point → Prop
  | .unlock _ => True
  | .close _ raised => raised = none → l.flock.owner = none
  | _ => False

structure InRelease (l₀ l : LockWorld Holder) (o : Holder) : Prop where
  point : (l.object o).point.Releasing l
  ended : l.ended = l₀.ended

/-- the call has ended, and leaves this owner; or it has raised, and may have lost the lock -/
def ReleaseEnded (l₀ l : LockWorld Holder) (o : Holder) (after : Option Owner) : Prop :=
  (l.ended = l₀.ended ++ [.released o] ∧ worldOwner l = after) ∨
  ∃ exc, l.ended = l₀.ended ++ [.releaseRaised o exc] ∧
    (worldOwner l = after ∨ worldOwner l = some .leaked)

theorem InRelease.at_point (h : InRelease l₀ l o) (hpoint : (l.object o).point = point) :
    point.Releasing l := by
  rw [← hpoint]
  exact h.point

theorem InRelease.step_unlock (h : InRelease l₀ l o) (hinv : Inv T pid l) {reply : Reply}
    (hpoint : (l.object o).point = .unlock fd)
    (hstep : step T path pid l (.call o reply) = some l') : InRelease l₀ l' o := by
  have howns : l.flock.OwnsBy o fd := hinv.point_sound hpoint
  rw [step_call hpoint] at hstep
  cases reply with
  | ok =>
    rw [← Option.some.inj hstep]
    refine ⟨?_, h.ended⟩
    show ((l.goto o (.close fd none)).object o).point.Releasing _
    rw [goto_point]
    exact fun _ => Flock.owner_unlock howns.1
  | raised exc =>
    rw [← Option.some.inj hstep]
    refine ⟨?_, h.ended⟩
    rw [goto_point]
    exact fun hnone => absurd hnone (Option.some_ne_none exc)
  | wrote | raisedClosed => exact nomatch hstep

theorem InRelease.step_close (h : InRelease l₀ l o) (hinv : Inv T pid l) {reply : Reply}
    {raised : Option Exn} (hpoint : (l.object o).point = .close fd raised)
    (hstep : step T path pid l (.call o reply) = some l') :
    (l'.object o).point = .idle ∧ ReleaseEnded l₀ l' o none := by
  have hreleased : raised = none → l.flock.owner = none := h.at_point hpoint
  obtain ⟨hopen, howner⟩ : l.flock.opener fd = some o ∧
      (l.flock.owner = some fd ↔ raised ≠ none) := hinv.point_sound hpoint
  -- a descriptor that is closed does not own the lock
  have hclosed : (l.flock.close fd).owner = none := by
    rw [Flock.owner_close]
    cases raised with
    | none =>
      have hfree := hreleased rfl
      rw [Flock.owner_unlock_of_ne fun hfd => howner.mp hfd rfl]
      exact hfree
    | some exc => exact Flock.owner_unlock (howner.mpr (Option.some_ne_none exc))
  rw [step_call hpoint] at hstep
  cases reply with
  | ok =>
    rw [← Option.some.inj hstep]
    refine ⟨idle_of_leave rfl, ?_⟩
    cases raised with
    | none =>
      left
      exact ⟨congrArg (· ++ [_]) h.ended, worldOwner_eq_none.mpr hclosed⟩
    | some exc =>
      right
      exact ⟨exc, congrArg (· ++ [_]) h.ended, .inl (worldOwner_eq_none.mpr hclosed)⟩
  | raised exc =>
    rw [← Option.some.inj hstep]
    refine ⟨idle_of_leave rfl, .inr ⟨exc, congrArg (· ++ [_]) h.ended, ?_⟩⟩
    rw [show worldOwner (l.leave o _) = worldOwner l from worldOwner_goto rfl rfl]
    cases raised with
    | none => exact .inl (worldOwner_eq_none.mpr (hreleased rfl))
    | some exc' =>
      right
      exact hinv.worldOwner_lost (ne_idle hpoint fun h => nomatch h)
        ⟨howner.mpr (Option.some_ne_none exc'), hopen⟩
  | raisedClosed exc =>
    rw [← Option.some.inj hstep]
    refine ⟨idle_of_leave rfl, .inr ⟨exc, congrArg (· ++ [_]) h.ended, .inl ?_⟩⟩
    exact worldOwner_eq_none.mpr hclosed
  | wrote => exact nomatch hstep

theorem InRelease.run {replies : List Reply} (h : InRelease l₀ l o) (hinv : Inv T pid l)
    (hrun : run T path pid l (replies.map (.call o)) = some l')
    (hidle : (l'.object o).point = .idle) : ReleaseEnded l₀ l' o none := by
  induction replies generalizing l with
  | nil =>
    rw [← Option.some.inj hrun] at hidle
    exact (h.at_point hidle).elim
  | cons reply replies ih =>
    obtain ⟨l₁, hstep, hrest⟩ := run_call_cons hrun
    cases hpoint : (l.object o).point with
    | unlock fd => exact ih (h.step_unlock hinv hpoint hstep) ((hinv.effect hstep).inv hinv) hrest
    | close fd raised =>
      obtain ⟨hidle₁, hended⟩ := h.step_close hinv hpoint hstep
      rw [run_call_idle hidle₁ hrest]
      exact hended
    | idle | mkdir | openFile | flock | closeBlocked | lseek | ftruncate | write | fsync =>
      exact (h.at_point hpoint).elim

/-- a whole call of `release` that returns does what the tick's effect does; one that raises may
lose the lock -/
theorem release_ends {replies : List Reply} (hinv : Inv T pid l)
    (hrun : run T path pid l (.release o :: replies.map (.call o)) = some l')
    (hidle : (l'.object o).point = .idle) {w : World} (hw : w.lockOwner = worldOwner l) :
    ReleaseEnded l l' o (releaseLock o.1 w).2.lockOwner := by
  obtain ⟨l₁, hstep, hrest⟩ := Option.bind_eq_some_iff.mp hrun
  have hinv₁ : Inv T pid l₁ := (hinv.effect hstep).inv hinv
  rw [lockOwner_releaseLock, hw]
  by_cases hout : (l.object o).point = .idle
  · have hcall := (if_neg (not_not.mpr hout)).symm.trans hstep
    cases hfd : (l.object o).fd with
    | none =>
      rw [hfd] at hcall
      have hl₁ : l.leave o (.released o) = l₁ := Option.some.inj hcall
      have hnot : worldOwner l ≠ some o.1 := by
        rw [Ne, hinv.worldOwner_eq_iff, LockObject.held, hfd]
        exact Bool.false_ne_true
      rw [run_call_idle (by rw [← hl₁, leave_self]) hrest, ← hl₁, if_neg hnot]
      exact .inl ⟨rfl, worldOwner_goto rfl rfl⟩
    | some fd =>
      rw [hfd] at hcall
      have hl₁ : l.set o { fd := none, point := .unlock fd } = l₁ := Option.some.inj hcall
      have hself : worldOwner l = some o.1 := by
        rw [hinv.worldOwner_eq_iff, LockObject.held, hfd]
        rfl
      rw [if_pos hself]
      refine InRelease.run ⟨?_, ?_⟩ hinv₁ hrest hidle
      · rw [← hl₁, set_self]
        trivial
      · rw [← hl₁]
        rfl
  · exact absurd ((if_pos hout).symm.trans hstep).symm (Option.some_ne_none l₁)

end

/-! ## calls that follow one another -/

/-- a finished call: whose it is, whether it returns, and who owns the lock after it -/
inductive CallEnd where
  | acquire (o : Holder) (returns : Bool) (owner : Option Owner)
  | release (o : Holder) (owner : Option Owner)

/-- finished calls, one after another -/
inductive Calls {σ : Type} (R : σ → CallEnd → σ → Prop) : σ → List CallEnd → σ → Prop where
  | nil (s : σ) : Calls R s [] s
  | cons {s s' s'' : σ} {c : CallEnd} {calls : List CallEnd} (h : R s c s')
      (hrest : Calls R s' calls s'') : Calls R s (c :: calls) s''

section
variable (T : PyText) (path : String) (pid : Holder → Nat)

/-- the system calls of an `acquire`, or of a `release` that returns -/
inductive Call : LockWorld Holder → CallEnd → LockWorld Holder → Prop where
  | acquire {l l' : LockWorld Holder} {o : Holder} {owner : Option Owner} (replies : List Reply)
      (e : Ended Holder)
      (hrun : run T path pid l (.acquire o :: replies.map (.call o)) = some l')
      (hidle : (l'.object o).point = .idle) (hended : l'.ended = l.ended ++ [e])
      (howner : worldOwner l' = owner) : Call l (.acquire o (decide (e = .acquired o)) owner) l'
  | release {l l' : LockWorld Holder} {o : Holder} {owner : Option Owner} (replies : List Reply)
      (hrun : run T path pid l (.release o :: replies.map (.call o)) = some l')
      (hidle : (l'.object o).point = .idle) (hreturns : l'.ended = l.ended ++ [.released o])
      (howner : worldOwner l' = owner) : Call l (.release o owner) l'

/-- the effect of the ticks for the same call -/
inductive TickCall (env : Env) : World → CallEnd → World → Prop where
  | acquire {w : World} {o : Holder} {returns : Bool} (fault : Fault)
      (hreturned : returned (acquireLock (withFault env fault) o.1 w).1 = some returns) :
      TickCall env w (.acquire o returns (acquireLock (withFault env fault) o.1 w).2.lockOwner)
        (acquireLock (withFault env fault) o.1 w).2
  | release (w : World) (o : Holder) :
      TickCall env w (.release o (releaseLock o.1 w).2.lockOwner) (releaseLock o.1 w).2

variable {T path pid} {l l' : LockWorld Holder} {w : World} {c : CallEnd} {calls : List CallEnd}

/-- one call is one effect of the ticks: of the same object, with the same result and owner -/
theorem Call.refines (h : Call T path pid l c l') (hinv : Inv T pid l) (env : Env)
    (hw : w.lockOwner = worldOwner l) :
    ∃ w', TickCall env w c w' ∧ w'.lockOwner = worldOwner l' := by
  cases h with
  | acquire replies e hrun hidle hended howner =>
    obtain ⟨e', fault, hended', hreturned, howner'⟩ := acquire_refines hinv hrun hidle env hw
    have hsame := List.singleton_inj.mp (List.append_cancel_left (hended.symm.trans hended'))
    refine ⟨_, ?_, howner'⟩
    rw [hsame, ← howner, ← howner']
    exact .acquire fault hreturned
  | release replies hrun hidle hreturns howner =>
    rcases release_ends hinv hrun hidle hw with ⟨_, howner'⟩ | ⟨exc, hraised, _⟩
    · refine ⟨_, ?_, howner'.symm⟩
      rw [← howner, howner']
      exact .release w _
    · have hsame := List.append_cancel_left (hreturns.symm.trans hraised)
      exact nomatch List.singleton_inj.mp hsame

theorem Call.inv (h : Call T path pid l c l') (hinv : Inv T pid l) : Inv T pid l' := by
  cases h with
  | acquire _ _ hrun | release _ hrun => exact hinv.run hrun

/-- **The ticks' lock abstracts the system calls.** Whatever calls follow one another, and whatever
the system answers in them, the effects of the ticks follow them call by call, each of the same
object, with the same result and with the same owner after it. -/
theorem calls_refine (h : Calls (Call T path pid) l calls l') (hinv : Inv T pid l) (env : Env)
    (hw : w.lockOwner = worldOwner l) :
    ∃ w', Calls (TickCall env) w calls w' ∧ w'.lockOwner = worldOwner l' := by
  induction h generalizing w with
  | nil l => exact ⟨w, .nil w, hw⟩
  | cons hcall _ ih =>
    obtain ⟨w₁, htick, howner⟩ := hcall.refines hinv env hw
    obtain ⟨w', hticks, howner'⟩ := ih (hcall.inv hinv) howner
    exact ⟨w', .cons htick hticks, howner'⟩

end

def sampleTick : Holder := ⟨.tick 0, fun h => Owner.noConfusion h⟩

def sampleRecovery : Holder := ⟨.recovery, fun h => Owner.noConfusion h⟩

/-- the recovery finds the lock taken, the tick releases it, and then the first `os.write` of the
recovery finds the disk full: the owner is the descriptor that it has left open -/
def sampleCalls : List CallEnd :=
  [.acquire sampleTick true (some (.tick 0)), .acquire sampleRecovery false (some (.tick 0)),
    .release sampleTick none, .acquire sampleRecovery false (some .leaked)]

/-- what the system answers in each of them -/
def sampleReplies : List (List Reply) :=
  [[.ok, .ok, .ok, .ok, .ok, .wrote 14, .ok],
    [.ok, .ok, .raised (.foreign "BlockingIOError" ""), .ok], [.ok, .ok],
    [.ok, .ok, .ok, .ok, .ok, .raised (.osError "[Errno 28]")]]

theorem sampleCalls_made : ∃ l', Calls (Call LogFile.sampleText "tick.lock" fun _ => 1000)
    (.start Holder []) sampleCalls l' ∧ worldOwner l' = some .leaked := by
  refine ⟨_, .cons (.acquire sampleReplies[0] (.acquired sampleTick) rfl rfl rfl rfl)
    (.cons (.acquire sampleReplies[1] (.acquireRaised sampleRecovery (some 1)
        (.lockUnavailable "validator tick lock is already held: tick.lock")) rfl rfl rfl rfl)
      (.cons (.release sampleReplies[2] rfl rfl rfl rfl)
        (.cons (.acquire sampleReplies[3] (.acquireRaised sampleRecovery (some 2)
          (.osError "[Errno 28]")) rfl rfl rfl rfl) (.nil _)))), ?_⟩
  rfl

theorem calls_refine_sample : ∃ w', Calls (TickCall .plain) {} sampleCalls w' ∧
    w'.lockOwner = some .leaked := by
  obtain ⟨l', hcalls, howner⟩ := sampleCalls_made
  obtain ⟨w', hticks, hw'⟩ := calls_refine hcalls (inv_start []) .plain (w := {}) rfl
  exact ⟨w', hticks, hw'.trans howner⟩

end Lock
end Dolores
