import Dolores.Atomic.Lock
import Dolores.Epoch.LogSurvival

/-!
# What the tick lock keeps when system calls fail

`acquire` sets the flag last, after four system calls that it makes with the lock already taken.

* `Kept`                   flags that are right, one owner, nothing left by an `acquire` that fails;
* `Effect`                 what one move does, to the object whose move it is and to the others;
* `Inv`, `Tracked`         what holds in every run, and what holds as long as no call fails badly;
* `lock_bookkeeping_iff`   every state of a run is kept if and only if the run is careful;
* `Leaked.never_held`      a lock that is lost is lost for all objects;
* `full_disk_loses_lock`   an `os.write` that fails in `acquire`.
-/

set_option linter.unusedSectionVars false

namespace Dolores
namespace Lock
open JsonText

/-! ## what is to be kept -/

section
variable {O : Type} [DecidableEq O] (T : PyText) (path : String) (pid : O → Nat)

/-- the object acquires the lock if nothing fails -/
def CanAcquire (w : LockWorld O) (o : O) : Prop :=
  ∃ (replies : List Reply) (w' : LockWorld O),
    run T path pid w (.acquire o :: replies.map (.call o)) = some w' ∧
    (w'.object o).held = true ∧ w'.ended = w.ended ++ [.acquired o]

/-- A flag is set exactly when the object's descriptor owns the lock, unless the object is inside
one of its calls; there is one owner; what a raising `acquire` has opened is closed; and when all
have left their calls and none holds the lock, each can acquire it. -/
structure Kept (w : LockWorld O) : Prop where
  held_iff : ∀ o, (w.object o).point = .idle → ((w.object o).held = true ↔ w.flock.Owns o)
  exclusive : ∀ o p, ((w.object o).held = true ∨ w.flock.Owns o) →
    ((w.object p).held = true ∨ w.flock.Owns p) → o = p
  closed : ∀ o fd exc, .acquireRaised o (some fd) exc ∈ w.ended → w.flock.opener fd = none
  free : (∀ o, (w.object o).point = .idle ∧ (w.object o).held = false) →
    ∀ o, CanAcquire T path pid w o

/-! ## the failures that are handled -/

/-- no call fails between the lock taken and the flag set; `flock` fails only as it does when the
lock is taken; a descriptor that has the lock, or that `acquire` gives up, is closed -/
def Point.careful : Point → Reply → Bool
  | .flock _, .raised exc => isBlockingIOError exc
  | .closeBlocked _, .raised _ => false
  | .lseek _, .raised _ => false
  | .ftruncate _, .raised _ => false
  | .write _ _, .raised _ => false
  | .write _ _, .wrote count => count ≠ 0
  | .fsync _, .raised _ => false
  | .close _ (some _), .raised _ => false
  | _, _ => true

def LockWorld.Careful (w : LockWorld O) : Move O → Prop
  | .acquire _ | .release _ => True
  | .call o reply => (w.object o).point.careful reply = true

/-- every move of the run is careful -/
def CarefulRun (w : LockWorld O) : List (Move O) → Prop
  | [] => True
  | m :: moves =>
    match step T path pid w m with
    | none => True
    | some w' => w.Careful m ∧ CarefulRun w' moves

instance (w : LockWorld O) : (m : Move O) → Decidable (w.Careful m)
  | .acquire _ | .release _ => inferInstanceAs (Decidable True)
  | .call o reply => inferInstanceAs (Decidable ((w.object o).point.careful reply = true))

instance (w : LockWorld O) : (moves : List (Move O)) → Decidable (CarefulRun T path pid w moves)
  | [] => inferInstanceAs (Decidable True)
  | m :: moves =>
    match h : step T path pid w m with
    | none => .isTrue (by rw [CarefulRun, h]; trivial)
    | some w' =>
      have := instDecidableCarefulRun w' moves
      decidable_of_iff (w.Careful m ∧ CarefulRun T path pid w' moves) (by rw [CarefulRun, h])

end

/-! ## what holds in every run -/

section
variable {O : Type} [DecidableEq O]

def Point.fd? : Point → Option Nat
  | .idle | .mkdir | .openFile => none
  | .flock fd | .closeBlocked fd | .lseek fd | .ftruncate fd | .write fd _ | .fsync fd
  | .unlock fd | .close fd _ => some fd

/-- the object has the descriptor in `self._fd`, or in the variable `fd` of its call -/
def LockObject.Refers (x : LockObject) (fd : Nat) : Prop := x.fd = some fd ∨ x.point.fd? = some fd

variable (T : PyText) (pid : O → Nat)

/-- what an object that is inside a call knows of its descriptor -/
def Point.Sound (w : LockWorld O) (o : O) : Point → Prop
  | .idle | .mkdir | .openFile => True
  | .flock fd | .closeBlocked fd => w.flock.opener fd = some o ∧ w.flock.owner ≠ some fd
  | .lseek fd | .unlock fd => w.flock.OwnsBy o fd
  | .ftruncate fd => w.flock.OwnsBy o fd ∧ w.offset fd = 0
  | .write fd view => w.flock.OwnsBy o fd ∧ w.file ++ view = metadata T pid o ∧
      w.offset fd = w.file.length
  | .fsync fd => w.flock.OwnsBy o fd ∧ w.file = metadata T pid o
  | .close fd raised => w.flock.opener fd = some o ∧ (w.flock.owner = some fd ↔ raised ≠ none)

/-- a flag that is set is right: the descriptor owns the lock, and the file names the process -/
structure LockObject.Sound (w : LockWorld O) (o : O) (x : LockObject) : Prop where
  held : ∀ fd, x.fd = some fd → x.point = .idle ∧ w.flock.OwnsBy o fd ∧ w.file = metadata T pid o
  point : x.point.Sound T pid w o

def Inv (w : LockWorld O) : Prop := ∀ o, (w.object o).Sound T pid w o

/-- as long as all moves are careful: the lock belongs to a descriptor that some object has, and
the descriptors of raising calls are closed -/
structure Tracked (w : LockWorld O) : Prop where
  owner : ∀ fd, w.flock.owner = some fd → ∃ o, (w.object o).Refers fd
  closed : ∀ o fd exc, .acquireRaised o (some fd) exc ∈ w.ended → w.flock.Closed fd

/-- what a move leaves of a descriptor that is not its own -/
structure Untouched (w w' : LockWorld O) (fd : Nat) (q : O) : Prop where
  opener : w'.flock.opener fd = some q
  offset : w'.offset fd = w.offset fd
  owner : w'.flock.owner = some fd ↔ w.flock.owner = some fd
  file : w.flock.owner = some fd → w'.file = w.file

/-- what one move of the object does -/
structure Effect (w : LockWorld O) (m : Move O) (o : O) (w' : LockWorld O) : Prop where
  others : ∀ q, q ≠ o → w'.object q = w.object q
  untouched : ∀ q fd, ¬ (w.object o).Refers fd → w.flock.opener fd = some q →
    Untouched w w' fd q
  closed : ∀ fd, w.flock.Closed fd → w'.flock.Closed fd
  sound : (w'.object o).Sound T pid w' o
  refers : ∀ fd, (w'.object o).Refers fd → (w.object o).Refers fd ∨ w.flock.next ≤ fd
  owner : w.Careful m → ∀ fd, w'.flock.owner = some fd →
    (w'.object o).Refers fd ∨ w.flock.owner = some fd ∧ ¬ (w.object o).Refers fd
  ended : w.Careful m → ∀ e ∈ w'.ended, e ∈ w.ended ∨
    ∀ q fd exc, e = .acquireRaised q (some fd) exc → w'.flock.Closed fd

end

section
variable {O : Type} [DecidableEq O] {T : PyText} {path : String} {pid : O → Nat}
  {w w' : LockWorld O} {o q : O} {x : LockObject} {fd : Nat}

/-! ### what a move leaves of the others -/

theorem opener_of_fd? {point : Point} (h : point.Sound T pid w o) (hfd : point.fd? = some fd) :
    w.flock.opener fd = some o := by
  cases point with
  | idle | mkdir | openFile => exact absurd hfd.symm (Option.some_ne_none _)
  | flock fd' | closeBlocked fd' | close fd' =>
    rw [← Option.some.inj hfd]
    exact h.1
  | lseek fd' | unlock fd' =>
    rw [← Option.some.inj hfd]
    exact h.2
  | ftruncate fd' | write fd' | fsync fd' =>
    rw [← Option.some.inj hfd]
    exact h.1.2

theorem Inv.opener_of_refers (h : Inv T pid w) (hrefers : (w.object o).Refers fd) :
    w.flock.opener fd = some o := by
  rcases hrefers with hfd | hfd
  · exact ((h o).held fd hfd).2.1.2
  · exact opener_of_fd? (h o).point hfd

theorem Point.Sound.untouched {point : Point} (h : point.Sound T pid w q)
    (huntouched : ∀ fd, w.flock.opener fd = some q → Untouched w w' fd q) :
    point.Sound T pid w' q := by
  have howns : ∀ {fd}, w.flock.OwnsBy q fd → w'.flock.OwnsBy q fd := by
    intro fd howns
    have hkept := huntouched fd howns.2
    exact ⟨hkept.owner.mpr howns.1, hkept.opener⟩
  cases point with
  | idle | mkdir | openFile => trivial
  | flock fd | closeBlocked fd =>
    have hkept := huntouched fd h.1
    exact ⟨hkept.opener, fun howner => h.2 (hkept.owner.mp howner)⟩
  | lseek fd | unlock fd => exact howns h
  | ftruncate fd =>
    have hkept := huntouched fd h.1.2
    exact ⟨howns h.1, hkept.offset.trans h.2⟩
  | write fd view =>
    obtain ⟨howner, hfile, hoffset⟩ := h
    have hkept := huntouched fd howner.2
    have hsame := hkept.file howner.1
    refine ⟨howns howner, ?_, ?_⟩
    · rw [hsame]
      exact hfile
    · rw [hkept.offset, hsame]
      exact hoffset
  | fsync fd =>
    have hkept := huntouched fd h.1.2
    exact ⟨howns h.1, (hkept.file h.1.1).trans h.2⟩
  | close fd raised =>
    have hkept := huntouched fd h.1
    exact ⟨hkept.opener, hkept.owner.trans h.2⟩

theorem LockObject.Sound.untouched (h : x.Sound T pid w q)
    (huntouched : ∀ fd, w.flock.opener fd = some q → Untouched w w' fd q) :
    x.Sound T pid w' q where
  held := by
    intro fd hfd
    obtain ⟨hidle, howns, hfile⟩ := h.held fd hfd
    have hkept := huntouched fd howns.2
    exact ⟨hidle, ⟨hkept.owner.mpr howns.1, hkept.opener⟩, (hkept.file howns.1).trans hfile⟩
  point := h.point.untouched huntouched

theorem Effect.inv {m : Move O} (h : Effect T pid w m o w') (hinv : Inv T pid w) :
    Inv T pid w' := by
  intro q
  by_cases hq : q = o
  · rw [hq]
    exact h.sound
  · rw [h.others q hq]
    refine (hinv q).untouched fun fd hopen => h.untouched q fd ?_ hopen
    intro hrefers
    have hself := hinv.opener_of_refers hrefers
    exact hq (Option.some.inj (hopen.symm.trans hself))

theorem Effect.tracked {m : Move O} (h : Effect T pid w m o w') (hcareful : w.Careful m)
    (htracked : Tracked w) : Tracked w' where
  owner := by
    intro fd hfd
    rcases h.owner hcareful fd hfd with hself | ⟨hbefore, hnot⟩
    · exact ⟨o, hself⟩
    · obtain ⟨q, hq⟩ := htracked.owner fd hbefore
      have hne : q ≠ o := by
        intro heq
        rw [heq] at hq
        exact hnot hq
      refine ⟨q, ?_⟩
      rw [h.others q hne]
      exact hq
  closed := by
    intro q fd exc hmem
    rcases h.ended hcareful _ hmem with hbefore | hnew
    · exact h.closed fd (htracked.closed q fd exc hbefore)
    · exact hnew q fd exc rfl

/-! ### the moves that leave the descriptors -/

theorem Untouched.refl (h : w.flock.opener fd = some q) (hflock : w'.flock = w.flock)
    (hoffset : w'.offset fd = w.offset fd) (hfile : w.flock.owner = some fd → w'.file = w.file) :
    Untouched w w' fd q where
  opener := by rw [hflock, h]
  offset := hoffset
  owner := by rw [hflock]
  file := hfile

theorem ended_same {m : Move O} (h : w'.ended = w.ended) :
    w.Careful m → ∀ e ∈ w'.ended, e ∈ w.ended ∨
      ∀ q fd exc, e = .acquireRaised q (some fd) exc → w'.flock.Closed fd := by
  intro _ e he
  rw [h] at he
  exact .inl he

theorem ended_snoc {m : Move O} {e : Ended O} (h : w'.ended = w.ended ++ [e])
    (hclosed : w.Careful m → ∀ q fd exc, e = .acquireRaised q (some fd) exc →
      w'.flock.Closed fd) :
    w.Careful m → ∀ e ∈ w'.ended, e ∈ w.ended ∨
      ∀ q fd exc, e = .acquireRaised q (some fd) exc → w'.flock.Closed fd := by
  intro hcareful e' he'
  rw [h] at he'
  rcases List.mem_append.mp he' with hbefore | hnew
  · exact .inl hbefore
  · right
    rw [List.mem_singleton.mp hnew]
    exact hclosed hcareful

/-- the lock and the descriptors are the same; only the owner writes -/
theorem Effect.same_flock {m : Move O} (hobject : w'.object = Function.update w.object o x)
    (hflock : w'.flock = w.flock)
    (hdata : (w'.file = w.file ∧ w'.offset = w.offset) ∨
      ∃ fd, (w.object o).Refers fd ∧ w.flock.owner = some fd ∧
        ∀ fd', fd' ≠ fd → w'.offset fd' = w.offset fd')
    (hsound : x.Sound T pid w' o) (hrefers : ∀ fd, x.Refers fd → (w.object o).Refers fd)
    (howner : w.Careful m → ∀ fd, w.flock.owner = some fd → (w.object o).Refers fd → x.Refers fd)
    (hended : w.Careful m → ∀ e ∈ w'.ended, e ∈ w.ended ∨
      ∀ q fd exc, e = .acquireRaised q (some fd) exc → w'.flock.Closed fd) :
    Effect T pid w m o w' where
  others := by
    intro q hq
    rw [hobject, Function.update_of_ne hq]
  untouched := by
    intro q fd hnot hopen
    rcases hdata with ⟨hfile, hoffset⟩ | ⟨fd', hself, hown, hoffset⟩
    · exact .refl hopen hflock (by rw [hoffset]) fun _ => hfile
    · have hne : fd ≠ fd' := by
        intro heq
        rw [← heq] at hself
        exact hnot hself
      refine .refl hopen hflock (hoffset fd hne) ?_
      intro hfd
      exact absurd (Option.some.inj (hfd.symm.trans hown)) hne
  closed := by
    intro fd hfd
    rw [hflock]
    exact hfd
  sound := by
    rw [hobject, Function.update_self]
    exact hsound
  refers := by
    rw [hobject, Function.update_self]
    exact fun fd hfd => .inl (hrefers fd hfd)
  owner := by
    intro hcareful fd hfd
    rw [hflock] at hfd
    rw [hobject, Function.update_self]
    by_cases hself : (w.object o).Refers fd
    · exact .inl (howner hcareful fd hfd hself)
    · exact .inr ⟨hfd, hself⟩
  ended := hended

/-- a descriptor of the object is unlocked, and perhaps closed -/
theorem Effect.freed {m : Move O} (hobject : w'.object = Function.update w.object o x)
    (hopener : ∀ fd', fd' ≠ fd → w'.flock.opener fd' = w.flock.opener fd')
    (howner : w'.flock.owner = (w.flock.unlock fd).owner) (hfile : w'.file = w.file)
    (hoffset : w'.offset = w.offset)
    (hclosed : ∀ fd', w.flock.Closed fd' → w'.flock.Closed fd')
    (hrefers : ∀ fd', (w.object o).Refers fd' ↔ fd' = fd)
    (hkeeps : ∀ fd', x.Refers fd' → fd' = fd) (hsound : x.Sound T pid w' o)
    (hended : w.Careful m → ∀ e ∈ w'.ended, e ∈ w.ended ∨
      ∀ q fd exc, e = .acquireRaised q (some fd) exc → w'.flock.Closed fd) :
    Effect T pid w m o w' where
  others := by
    intro q hq
    rw [hobject, Function.update_of_ne hq]
  untouched := by
    intro q fd' hnot hfd'
    have hne : fd' ≠ fd := fun heq => hnot ((hrefers fd').mpr heq)
    refine ⟨(hopener fd' hne).trans hfd', by rw [hoffset], ?_, fun _ => hfile⟩
    rw [howner]
    exact Flock.owner_unlock_other hne
  closed := hclosed
  sound := by
    rw [hobject, Function.update_self]
    exact hsound
  refers := by
    rw [hobject, Function.update_self]
    exact fun fd' hfd' => .inl ((hrefers fd').mpr (hkeeps fd' hfd'))
  owner := by
    intro _ fd' hfd'
    rw [howner] at hfd'
    have hne : fd' ≠ fd := by
      intro heq
      rw [heq] at hfd'
      exact w.flock.unlock_not_owner fd hfd'
    exact .inr ⟨(Flock.owner_unlock_other hne).mp hfd', fun h => hne ((hrefers fd').mp h)⟩
  ended := hended

/-! ### one object in a call -/

/-- inside a call `self._fd` is `None` -/
theorem Inv.fd_none (h : Inv T pid w) (hpoint : (w.object o).point ≠ .idle) :
    (w.object o).fd = none := by
  cases hfd : (w.object o).fd with
  | none => rfl
  | some fd => exact absurd ((h o).held fd hfd).1 hpoint

/-- an object in a call has the descriptor of the call alone -/
theorem refers_at (hfd : x.fd = none) (point : Point) :
    ({ x with point } : LockObject).Refers fd ↔ point.fd? = some fd := by
  unfold LockObject.Refers
  rw [hfd]
  exact or_iff_right (Option.some_ne_none _).symm

theorem Inv.refers_iff (h : Inv T pid w) (hpoint : (w.object o).point ≠ .idle) :
    (w.object o).Refers fd ↔ (w.object o).point.fd? = some fd :=
  refers_at (h.fd_none hpoint) (w.object o).point

theorem sound_of_none (hfd : x.fd = none) (hpoint : x.point.Sound T pid w o) :
    x.Sound T pid w o where
  held := by
    intro fd h
    rw [hfd] at h
    exact absurd h.symm (Option.some_ne_none _)
  point := hpoint

theorem not_refers (hfd : x.fd = none) (hidle : x.point = .idle) : ¬ x.Refers fd := by
  unfold LockObject.Refers
  rw [hfd, hidle]
  exact not_or.mpr ⟨(Option.some_ne_none _).symm, (Option.some_ne_none _).symm⟩

/-- from one point of the call to the next, with the same descriptor or none -/
theorem Inv.goto_effect (h : Inv T pid w) {m : Move O} (point : Point)
    (hbefore : (w.object o).point ≠ .idle) (hobject : w'.object = (w.goto o point).object)
    (hflock : w'.flock = w.flock) (hended : w'.ended = w.ended)
    (hdata : (w'.file = w.file ∧ w'.offset = w.offset) ∨
      ∃ fd, (w.object o).Refers fd ∧ w.flock.owner = some fd ∧
        ∀ fd', fd' ≠ fd → w'.offset fd' = w.offset fd')
    (hsound : point.Sound T pid w' o) (hfd : (w.object o).point.fd? = point.fd?) :
    Effect T pid w m o w' := by
  apply Effect.same_flock hobject hflock hdata
  · exact sound_of_none (h.fd_none hbefore) hsound
  · intro fd hrefers
    rw [h.refers_iff hbefore, hfd]
    exact (refers_at (h.fd_none hbefore) point).mp hrefers
  · intro _ fd _ hrefers
    right
    rw [h.refers_iff hbefore, hfd] at hrefers
    exact hrefers
  · exact ended_same hended

/-- the call ends, and the lock and the descriptors stay as they are; a descriptor that the object
has in its call does not own the lock, or the move is not careful -/
theorem Inv.leave_effect (h : Inv T pid w) {m : Move O} {e : Ended O}
    (hbefore : (w.object o).point ≠ .idle)
    (howner : w.Careful m → ∀ fd, (w.object o).point.fd? = some fd →
      w.flock.owner ≠ some fd)
    (hclosed : w.Careful m → ∀ q fd exc, e ≠ .acquireRaised q (some fd) exc) :
    Effect T pid w m o (w.leave o e) := by
  have hobject : (w.leave o e).object =
      Function.update w.object o { w.object o with point := .idle } := rfl
  apply Effect.same_flock hobject rfl (.inl ⟨rfl, rfl⟩)
  · exact sound_of_none (h.fd_none hbefore) trivial
  · exact fun fd hrefers => absurd hrefers (not_refers (h.fd_none hbefore) rfl)
  · intro hcareful fd hfd hrefers
    rw [h.refers_iff hbefore] at hrefers
    exact absurd hfd (howner hcareful fd hrefers)
  · exact ended_snoc rfl fun hcareful q fd exc heq => absurd heq (hclosed hcareful q fd exc)

/-- the call ends, and its descriptor is closed -/
theorem Inv.close_effect (h : Inv T pid w) {m : Move O} {e : Ended O}
    (hfd : (w.object o).point.fd? = some fd) (hopen : w.flock.opener fd = some o)
    (hclosed : ∀ q fd' exc, e = .acquireRaised q (some fd') exc → fd' = fd) :
    Effect T pid w m o { w.leave o e with flock := w.flock.close fd } := by
  have hbefore : (w.object o).point ≠ .idle := by
    intro hidle
    rw [hidle] at hfd
    exact absurd hfd.symm (Option.some_ne_none _)
  have hdone : (w.flock.close fd).Closed fd := Flock.closed_close hopen
  apply Effect.freed rfl
  · intro fd' hne
    exact Flock.opener_close_of_ne hne
  · exact Flock.owner_close _ _
  · rfl
  · rfl
  · exact fun fd' hfd' => hfd'.close fd
  · intro fd'
    rw [h.refers_iff hbefore, hfd, Option.some_inj, eq_comm]
  · exact fun fd' hrefers => absurd hrefers (not_refers (h.fd_none hbefore) rfl)
  · exact sound_of_none (h.fd_none hbefore) trivial
  · apply ended_snoc rfl
    intro _ q fd' exc heq
    rw [hclosed q fd' exc heq]
    exact hdone

/-! ### the system calls of `acquire` -/

theorem not_careful {point : Point} {reply : Reply} (hpoint : (w.object o).point = point)
    (h : point.careful reply = false) : ¬ w.Careful (.call o reply) := by
  intro hcareful
  rw [← hpoint] at h
  exact absurd (h.symm.trans hcareful) Bool.false_ne_true

/-- a failure that is not handled -/
theorem Inv.fail_effect (h : Inv T pid w) {m : Move O} {e : Ended O} (hm : ¬ w.Careful m)
    (hbefore : (w.object o).point ≠ .idle) : Effect T pid w m o (w.leave o e) :=
  h.leave_effect hbefore (fun hcareful => absurd hcareful hm) fun hcareful => absurd hcareful hm

theorem ne_idle {point : Point} (hpoint : (w.object o).point = point) (h : point ≠ .idle) :
    (w.object o).point ≠ .idle := by
  rw [hpoint]
  exact h

theorem Inv.point_sound (h : Inv T pid w) {point : Point} (hpoint : (w.object o).point = point) :
    point.Sound T pid w o := by
  rw [← hpoint]
  exact (h o).point

theorem Inv.mkdir_effect (h : Inv T pid w) {reply : Reply} (hpoint : (w.object o).point = .mkdir)
    (hstep : step T path pid w (.call o reply) = some w') :
    Effect T pid w (.call o reply) o w' := by
  have hbefore := ne_idle hpoint (fun h => nomatch h)
  rw [step_call hpoint] at hstep
  cases reply with
  | ok =>
    rw [← Option.some.inj hstep]
    apply h.goto_effect .openFile hbefore rfl rfl rfl (.inl ⟨rfl, rfl⟩) trivial
    rw [hpoint]
    rfl
  | raised exc =>
    rw [← Option.some.inj hstep]
    apply h.leave_effect hbefore
    · intro _ fd hfd
      rw [hpoint] at hfd
      exact absurd hfd.symm (Option.some_ne_none _)
    · intro _ q fd exc heq
      exact nomatch heq
  | wrote | raisedClosed => exact nomatch hstep

theorem Inv.openFile_effect (h : Inv T pid w) {reply : Reply}
    (hpoint : (w.object o).point = .openFile)
    (hstep : step T path pid w (.call o reply) = some w') :
    Effect T pid w (.call o reply) o w' := by
  have hbefore := ne_idle hpoint (fun h => nomatch h)
  rw [step_call hpoint] at hstep
  cases reply with
  | ok =>
    rw [← Option.some.inj hstep]
    constructor
    · intro q hq
      exact set_other hq _
    · intro q fd hq hopen
      have hlt := Flock.lt_next hopen
      refine ⟨(Flock.opener_openFile_of_lt hlt o).trans hopen, ?_, Iff.rfl, fun _ => rfl⟩
      exact Function.update_of_ne (Nat.ne_of_lt hlt) _ _
    · intro fd hfd
      exact hfd.openFile o
    · show LockObject.Sound T pid _ o ((w.goto o (.flock w.flock.next)).object o)
      rw [goto_self]
      refine sound_of_none (h.fd_none hbefore) ?_
      exact ⟨Flock.opener_openFile _ _, w.flock.next_not_owner⟩
    · intro fd hrefers
      have hnew : (w.object o).fd = some fd ∨ some w.flock.next = some fd := by
        rw [show _ = _ from goto_self w o (.flock w.flock.next)] at hrefers
        exact hrefers
      rw [h.fd_none hbefore] at hnew
      exact .inr (Nat.le_of_eq (Option.some.inj (hnew.resolve_left (Option.some_ne_none _).symm)))
    · intro _ fd hfd
      right
      refine ⟨hfd, ?_⟩
      rw [h.refers_iff hbefore, hpoint]
      exact (Option.some_ne_none _).symm
    · exact ended_same rfl
  | raised exc =>
    rw [← Option.some.inj hstep]
    apply h.leave_effect hbefore
    · intro _ fd hfd
      rw [hpoint] at hfd
      exact absurd hfd.symm (Option.some_ne_none _)
    · intro _ q fd exc heq
      exact nomatch heq
  | wrote | raisedClosed => exact nomatch hstep

theorem Inv.flock_effect (h : Inv T pid w) {reply : Reply}
    (hpoint : (w.object o).point = .flock fd)
    (hstep : step T path pid w (.call o reply) = some w') :
    Effect T pid w (.call o reply) o w' := by
  have hbefore := ne_idle hpoint (fun h => nomatch h)
  obtain ⟨hopen, hnot⟩ : w.flock.opener fd = some o ∧ w.flock.owner ≠ some fd :=
    h.point_sound hpoint
  rw [step_call hpoint] at hstep
  cases reply with
  | ok =>
    obtain ⟨flock, hlock, hw'⟩ := Option.map_eq_some_iff.mp hstep
    obtain ⟨hfree, howner, hopener, hnext⟩ := Flock.lock_eq_some hlock
    have hnone : w.flock.owner = none := hfree.resolve_right hnot
    have hrefers : ∀ {fd'}, (w.object o).Refers fd' ↔ fd' = fd := by
      intro fd'
      rw [h.refers_iff hbefore, hpoint]
      exact Option.some_inj.trans eq_comm
    have hobject : w'.object = (w.goto o (.lseek fd)).object := by rw [← hw']
    have hflock : w'.flock = flock := by rw [← hw']
    constructor
    · intro q hq
      rw [hobject]
      exact set_other hq _
    · intro q fd' hother hfd'
      have hne : fd' ≠ fd := fun heq => hother (hrefers.mpr heq)
      refine ⟨?_, ?_, ?_, ?_⟩
      · rw [hflock, hopener]
        exact hfd'
      · rw [← hw']
        rfl
      · rw [hflock, howner, hnone]
        constructor
        · exact fun h => absurd (Option.some.inj h).symm hne
        · exact fun h => absurd h.symm (Option.some_ne_none _)
      · intro _
        rw [← hw']
        rfl
    · intro fd' hfd'
      rw [hflock]
      unfold Flock.Closed
      rw [hnext, hopener]
      exact hfd'
    · rw [hobject, goto_self]
      refine sound_of_none (h.fd_none hbefore) ?_
      unfold Point.Sound Flock.OwnsBy
      rw [hflock, hopener]
      exact ⟨howner, hopen⟩
    · intro fd' hfd'
      rw [hobject, goto_self, refers_at (h.fd_none hbefore)] at hfd'
      exact .inl (hrefers.mpr (Option.some.inj hfd').symm)
    · intro _ fd' hfd'
      left
      rw [hflock, howner] at hfd'
      rw [hobject, goto_self]
      exact .inr hfd'
    · apply ended_same
      rw [← hw']
      rfl
  | raised exc =>
    by_cases hblocked : isBlockingIOError exc = true
    · have hgoto : some (w.goto o (.closeBlocked fd)) = some w' :=
        (if_pos hblocked).symm.trans hstep
      rw [← Option.some.inj hgoto]
      apply h.goto_effect (.closeBlocked fd) hbefore rfl rfl rfl (.inl ⟨rfl, rfl⟩) ⟨hopen, hnot⟩
      rw [hpoint]
      rfl
    · have hleave := (if_neg hblocked).symm.trans hstep
      rw [← Option.some.inj hleave]
      exact h.fail_effect (not_careful hpoint (Bool.eq_false_iff.mpr hblocked)) hbefore
  | wrote | raisedClosed => exact nomatch hstep

theorem Inv.closeBlocked_effect (h : Inv T pid w) {reply : Reply}
    (hpoint : (w.object o).point = .closeBlocked fd)
    (hstep : step T path pid w (.call o reply) = some w') :
    Effect T pid w (.call o reply) o w' := by
  have hbefore := ne_idle hpoint (fun h => nomatch h)
  obtain ⟨hopen, _⟩ : w.flock.opener fd = some o ∧ w.flock.owner ≠ some fd :=
    h.point_sound hpoint
  have hfd : (w.object o).point.fd? = some fd := by
    rw [hpoint]
    rfl
  have hraised : ∀ (exc exc' : Exn) (q : O) (fd' : Nat),
      Ended.acquireRaised o (some fd) exc = .acquireRaised q (some fd') exc' → fd' = fd := by
    intro exc exc' q fd' heq
    exact (Option.some.inj (Ended.acquireRaised.inj heq).2.1).symm
  rw [step_call hpoint] at hstep
  cases reply with
  | ok =>
    rw [← Option.some.inj hstep]
    exact h.close_effect hfd hopen fun q fd' exc => hraised _ exc q fd'
  | raised exc =>
    rw [← Option.some.inj hstep]
    exact h.fail_effect (not_careful hpoint rfl) hbefore
  | raisedClosed exc =>
    rw [← Option.some.inj hstep]
    exact h.close_effect hfd hopen fun q fd' exc' => hraised exc exc' q fd'
  | wrote => exact nomatch hstep

theorem Inv.lseek_effect (h : Inv T pid w) {reply : Reply}
    (hpoint : (w.object o).point = .lseek fd)
    (hstep : step T path pid w (.call o reply) = some w') :
    Effect T pid w (.call o reply) o w' := by
  have hbefore := ne_idle hpoint (fun h => nomatch h)
  have howns : w.flock.OwnsBy o fd := h.point_sound hpoint
  have hrefers : (w.object o).Refers fd := .inr (by rw [hpoint]; rfl)
  rw [step_call hpoint] at hstep
  cases reply with
  | ok =>
    rw [← Option.some.inj hstep]
    refine h.goto_effect (.ftruncate fd) hbefore rfl rfl rfl ?_ ?_ ?_
    · exact .inr ⟨fd, hrefers, howns.1, fun fd' hne => Function.update_of_ne hne _ _⟩
    · exact ⟨howns, Function.update_self _ _ _⟩
    · rw [hpoint]
      rfl
  | raised exc =>
    rw [← Option.some.inj hstep]
    exact h.fail_effect (not_careful hpoint rfl) hbefore
  | wrote | raisedClosed => exact nomatch hstep

theorem fd?_nextWrite (fd : Nat) (view : Bytes) : (nextWrite fd view).fd? = some fd := by
  unfold nextWrite
  split <;> rfl

/-- where `_write_all` goes on -/
theorem nextWrite_sound {view : Bytes} (howns : w.flock.OwnsBy o fd)
    (hfile : w.file ++ view = metadata T pid o) (hoffset : w.offset fd = w.file.length) :
    (nextWrite fd view).Sound T pid w o := by
  unfold nextWrite
  split
  · next hnil =>
    rw [hnil, List.append_nil] at hfile
    exact ⟨howns, hfile⟩
  · exact ⟨howns, hfile, hoffset⟩

theorem Inv.ftruncate_effect (h : Inv T pid w) {reply : Reply}
    (hpoint : (w.object o).point = .ftruncate fd)
    (hstep : step T path pid w (.call o reply) = some w') :
    Effect T pid w (.call o reply) o w' := by
  have hbefore := ne_idle hpoint (fun h => nomatch h)
  obtain ⟨howns, hoffset⟩ : w.flock.OwnsBy o fd ∧ w.offset fd = 0 := h.point_sound hpoint
  have hrefers : (w.object o).Refers fd := .inr (by rw [hpoint]; rfl)
  rw [step_call hpoint] at hstep
  cases reply with
  | ok =>
    rw [← Option.some.inj hstep]
    refine h.goto_effect _ hbefore rfl rfl rfl ?_ ?_ ?_
    · exact .inr ⟨fd, hrefers, howns.1, fun _ _ => rfl⟩
    · exact nextWrite_sound howns rfl hoffset
    · rw [hpoint, fd?_nextWrite]
      rfl
  | raised exc =>
    rw [← Option.some.inj hstep]
    exact h.fail_effect (not_careful hpoint rfl) hbefore
  | wrote | raisedClosed => exact nomatch hstep

theorem Inv.write_effect (h : Inv T pid w) {reply : Reply} {view : Bytes}
    (hpoint : (w.object o).point = .write fd view)
    (hstep : step T path pid w (.call o reply) = some w') :
    Effect T pid w (.call o reply) o w' := by
  have hbefore := ne_idle hpoint (fun h => nomatch h)
  obtain ⟨howns, hfile, hoffset⟩ : w.flock.OwnsBy o fd ∧ w.file ++ view = metadata T pid o ∧
      w.offset fd = w.file.length := h.point_sound hpoint
  have hrefers : (w.object o).Refers fd := .inr (by rw [hpoint]; rfl)
  rw [step_call hpoint] at hstep
  cases reply with
  | wrote count =>
    rcases callStep_wrote hstep with ⟨hzero, hw'⟩ | ⟨_, hcount, hw'⟩
    · rw [hw']
      refine h.fail_effect (not_careful hpoint ?_) hbefore
      rw [hzero]
      rfl
    · rw [hw']
      have hlength : (view.take count).length = count := List.length_take_of_le hcount
      have hwritten : writeAt w.file (w.offset fd) (view.take count) =
          w.file ++ view.take count := by
        rw [hoffset, writeAt_end]
      refine h.goto_effect _ hbefore rfl rfl rfl ?_ ?_ ?_
      · exact .inr ⟨fd, hrefers, howns.1, fun fd' hne => Function.update_of_ne hne _ _⟩
      · refine nextWrite_sound howns ?_ ?_
        · show writeAt w.file (w.offset fd) (view.take count) ++ view.drop count = _
          rw [hwritten, List.append_assoc, List.take_append_drop]
          exact hfile
        · show Function.update w.offset fd (w.offset fd + count) fd =
            (writeAt w.file (w.offset fd) (view.take count)).length
          rw [Function.update_self, hwritten, List.length_append, hlength, hoffset]
      · rw [hpoint, fd?_nextWrite]
        rfl
  | raised exc =>
    rw [← Option.some.inj hstep]
    exact h.fail_effect (not_careful hpoint rfl) hbefore
  | ok | raisedClosed => exact nomatch hstep

theorem Inv.fsync_effect (h : Inv T pid w) {reply : Reply}
    (hpoint : (w.object o).point = .fsync fd)
    (hstep : step T path pid w (.call o reply) = some w') :
    Effect T pid w (.call o reply) o w' := by
  have hbefore := ne_idle hpoint (fun h => nomatch h)
  obtain ⟨howns, hfile⟩ : w.flock.OwnsBy o fd ∧ w.file = metadata T pid o :=
    h.point_sound hpoint
  rw [step_call hpoint] at hstep
  cases reply with
  | ok =>
    rw [← Option.some.inj hstep]
    have hrefers : ∀ {fd'}, (w.object o).Refers fd' ↔ some fd = some fd' := by
      intro fd'
      rw [h.refers_iff hbefore, hpoint]
      exact Iff.rfl
    refine Effect.same_flock rfl rfl (.inl ⟨rfl, rfl⟩) ?_ ?_ ?_ ?_
    · constructor
      · intro fd' hfd'
        rw [← Option.some.inj hfd']
        exact ⟨rfl, howns, hfile⟩
      · trivial
    · exact fun fd' hfd' => hrefers.mpr (hfd'.resolve_right (Option.some_ne_none _).symm)
    · exact fun _ fd' _ hfd' => .inl (hrefers.mp hfd')
    · exact ended_snoc rfl fun _ q fd exc heq => nomatch heq
  | raised exc =>
    rw [← Option.some.inj hstep]
    exact h.fail_effect (not_careful hpoint rfl) hbefore
  | wrote | raisedClosed => exact nomatch hstep

/-! ### the system calls of `release` -/

theorem Inv.unlock_effect (h : Inv T pid w) {reply : Reply}
    (hpoint : (w.object o).point = .unlock fd)
    (hstep : step T path pid w (.call o reply) = some w') :
    Effect T pid w (.call o reply) o w' := by
  have hbefore := ne_idle hpoint (fun h => nomatch h)
  have howns : w.flock.OwnsBy o fd := h.point_sound hpoint
  rw [step_call hpoint] at hstep
  cases reply with
  | ok =>
    rw [← Option.some.inj hstep]
    refine Effect.freed rfl ?_ rfl rfl rfl ?_ ?_ ?_ ?_ (ended_same rfl)
    · exact fun _ _ => rfl
    · exact fun fd' hfd' => hfd'
    · intro fd'
      rw [h.refers_iff hbefore, hpoint]
      exact Option.some_inj.trans eq_comm
    · intro fd' hfd'
      exact (Option.some.inj ((refers_at (h.fd_none hbefore) _).mp hfd')).symm
    · refine sound_of_none (h.fd_none hbefore) ?_
      exact ⟨howns.2, iff_of_false (w.flock.unlock_not_owner fd) fun h => h rfl⟩
  | raised exc =>
    rw [← Option.some.inj hstep]
    refine h.goto_effect _ hbefore rfl rfl rfl (.inl ⟨rfl, rfl⟩) ?_ ?_
    · exact ⟨howns.2, iff_of_true howns.1 fun h => nomatch h⟩
    · rw [hpoint]
      rfl
  | wrote | raisedClosed => exact nomatch hstep

theorem afterClose_ne (q : O) (raised : Option Exn) (fd : Option Nat) (exc : Exn) :
    afterClose o raised ≠ .acquireRaised q fd exc := by
  cases raised with
  | none => exact fun h => nomatch h
  | some exc => exact fun h => nomatch h

theorem Inv.closing_effect (h : Inv T pid w) {reply : Reply} {raised : Option Exn}
    (hpoint : (w.object o).point = .close fd raised)
    (hstep : step T path pid w (.call o reply) = some w') :
    Effect T pid w (.call o reply) o w' := by
  have hbefore := ne_idle hpoint (fun h => nomatch h)
  obtain ⟨hopen, hunlocked⟩ : w.flock.opener fd = some o ∧
      (w.flock.owner = some fd ↔ raised ≠ none) := h.point_sound hpoint
  have hfd : (w.object o).point.fd? = some fd := by
    rw [hpoint]
    rfl
  rw [step_call hpoint] at hstep
  cases reply with
  | ok =>
    rw [← Option.some.inj hstep]
    exact h.close_effect hfd hopen fun q fd' exc heq => absurd heq (afterClose_ne q raised _ exc)
  | raised exc =>
    rw [← Option.some.inj hstep]
    cases raised with
    | none =>
      apply h.leave_effect hbefore
      · intro _ fd' hfd'
        rw [← Option.some.inj (hfd.symm.trans hfd')]
        exact fun howner => hunlocked.mp howner rfl
      · exact fun _ q fd' exc' heq => nomatch heq
    | some exc' => exact h.fail_effect (not_careful hpoint rfl) hbefore
  | raisedClosed exc =>
    rw [← Option.some.inj hstep]
    exact h.close_effect hfd hopen fun q fd' exc' heq => nomatch heq
  | wrote => exact nomatch hstep

/-! ### a call begins -/

theorem Inv.idle_effect (h : Inv T pid w) {m : Move O} {e : Ended O}
    (hidle : (w.object o).point = .idle) (he : ∀ q fd exc, e ≠ .acquireRaised q (some fd) exc) :
    Effect T pid w m o (w.leave o e) := by
  have hsame : (w.leave o e).object = Function.update w.object o (w.object o) := by
    show Function.update w.object o { w.object o with point := .idle } = _
    rw [← hidle]
  refine Effect.same_flock hsame rfl (.inl ⟨rfl, rfl⟩) ?_ ?_ ?_ ?_
  · exact (h o).untouched fun fd hopen => .refl hopen rfl rfl fun _ => rfl
  · exact fun _ hrefers => hrefers
  · exact fun _ _ _ hrefers => hrefers
  · exact ended_snoc rfl fun _ q fd exc heq => absurd heq (he q fd exc)

theorem Inv.acquire_effect (h : Inv T pid w)
    (hstep : step T path pid w (.acquire o) = some w') : Effect T pid w (.acquire o) o w' := by
  by_cases hidle : (w.object o).point = .idle
  · replace hstep := (if_neg (not_not.mpr hidle)).symm.trans hstep
    by_cases hheld : (w.object o).held = true
    · replace hstep := (if_pos hheld).symm.trans hstep
      rw [← Option.some.inj hstep]
      exact h.idle_effect hidle fun q fd exc heq => nomatch heq
    · replace hstep := (if_neg hheld).symm.trans hstep
      rw [← Option.some.inj hstep]
      have hfd : (w.object o).fd = none := by
        rw [LockObject.held, Option.isSome_iff_ne_none, not_not] at hheld
        exact hheld
      refine Effect.same_flock rfl rfl (.inl ⟨rfl, rfl⟩) ?_ ?_ ?_ (ended_same rfl)
      · exact sound_of_none hfd trivial
      · intro fd hrefers
        exact absurd ((refers_at hfd .mkdir).mp hrefers).symm (Option.some_ne_none _)
      · intro _ fd _ hrefers
        exact absurd hrefers (not_refers hfd hidle)
  · exact nomatch (if_pos hidle).symm.trans hstep

theorem Inv.release_effect (h : Inv T pid w)
    (hstep : step T path pid w (.release o) = some w') : Effect T pid w (.release o) o w' := by
  by_cases hidle : (w.object o).point = .idle
  · replace hstep := (if_neg (not_not.mpr hidle)).symm.trans hstep
    cases hfd : (w.object o).fd with
    | none =>
      rw [hfd] at hstep
      rw [← Option.some.inj hstep]
      exact h.idle_effect hidle fun q fd exc heq => nomatch heq
    | some fd =>
      rw [hfd] at hstep
      rw [← Option.some.inj hstep]
      obtain ⟨_, howns, _⟩ := (h o).held fd hfd
      refine Effect.same_flock rfl rfl (.inl ⟨rfl, rfl⟩) ?_ ?_ ?_ (ended_same rfl)
      · exact sound_of_none rfl howns
      · intro fd' hrefers
        exact .inl (hfd.trans (hrefers.resolve_left (Option.some_ne_none _).symm))
      · intro _ fd' howner _
        exact .inr (howns.1.symm.trans howner)
  · exact nomatch (if_pos hidle).symm.trans hstep

/-! ## whole runs -/

/-- the object whose move it is -/
def Move.object : Move O → O
  | .acquire o | .release o | .call o _ => o

theorem Inv.effect (h : Inv T pid w) {m : Move O} (hstep : step T path pid w m = some w') :
    Effect T pid w m m.object w' := by
  cases m with
  | acquire o => exact h.acquire_effect hstep
  | release o => exact h.release_effect hstep
  | call o reply =>
    cases hpoint : (w.object o).point with
    | idle =>
      rw [step_call hpoint] at hstep
      cases reply with
      | ok | wrote | raised | raisedClosed => exact nomatch hstep
    | mkdir => exact h.mkdir_effect hpoint hstep
    | openFile => exact h.openFile_effect hpoint hstep
    | flock fd => exact h.flock_effect hpoint hstep
    | closeBlocked fd => exact h.closeBlocked_effect hpoint hstep
    | lseek fd => exact h.lseek_effect hpoint hstep
    | ftruncate fd => exact h.ftruncate_effect hpoint hstep
    | write fd view => exact h.write_effect hpoint hstep
    | fsync fd => exact h.fsync_effect hpoint hstep
    | unlock fd => exact h.unlock_effect hpoint hstep
    | close fd raised => exact h.closing_effect hpoint hstep

theorem inv_start (file : Bytes) : Inv T pid (.start O file) := fun _ => sound_of_none rfl trivial

theorem tracked_start (file : Bytes) : Tracked (.start O file) where
  owner _ h := absurd h.symm (Option.some_ne_none _)
  closed _ _ _ h := absurd h List.not_mem_nil

theorem Inv.run {moves : List (Move O)} (h : Inv T pid w)
    (hrun : run T path pid w moves = some w') : Inv T pid w' := by
  induction moves generalizing w with
  | nil =>
    rw [← Option.some.inj hrun]
    exact h
  | cons m moves ih =>
    obtain ⟨w₁, hstep, hrest⟩ := Option.bind_eq_some_iff.mp hrun
    exact ih ((h.effect hstep).inv h) hrest

/-! ### an object that acquires the lock alone -/

variable (T path pid) in
/-- the call of `acquire` that the object is in can end with the lock -/
def Finishes (w : LockWorld O) (o : O) : Prop :=
  ∃ (replies : List Reply) (w' : LockWorld O),
    run T path pid w (replies.map (.call o)) = some w' ∧
    (w'.object o).held = true ∧ w'.ended = w.ended ++ [.acquired o]

theorem Finishes.step {reply : Reply} (hstep : step T path pid w (.call o reply) = some w')
    (hended : w'.ended = w.ended) (h : Finishes T path pid w' o) : Finishes T path pid w o := by
  obtain ⟨replies, w'', hrun, hheld, hlast⟩ := h
  refine ⟨reply :: replies, w'', ?_, hheld, ?_⟩
  · rw [List.map_cons, run_cons, hstep]
    exact hrun
  · rw [hlast, hended]

theorem finishes_of_fsync (hpoint : (w.object o).point = .fsync fd) :
    Finishes T path pid w o := by
  have hstep : step T path pid w (.call o .ok) = some
      { w.set o { fd := some fd, point := .idle } with ended := w.ended ++ [.acquired o] } :=
    step_call hpoint .ok
  refine ⟨[.ok], { w.set o { fd := some fd, point := .idle } with
    ended := w.ended ++ [.acquired o] }, ?_, ?_, rfl⟩
  · rw [List.map_singleton, run_cons, hstep]
    rfl
  · show ((w.set o { fd := some fd, point := .idle }).object o).held = true
    rw [set_self]
    rfl

theorem finishes_of_write {view : Bytes} (hpoint : (w.object o).point = .write fd view)
    (hview : view ≠ []) : Finishes T path pid w o := by
  have hstep : step T path pid w (.call o (.wrote view.length)) = some
      { w.goto o (.fsync fd) with
        file := writeAt w.file (w.offset fd) view
        offset := Function.update w.offset fd (w.offset fd + view.length) } := by
    rw [step_call hpoint]
    exact callStep_write_all hview
  exact .step hstep rfl (finishes_of_fsync (goto_point w o _))

theorem finishes_of_ftruncate (hpoint : (w.object o).point = .ftruncate fd) :
    Finishes T path pid w o := by
  have hstep : step T path pid w (.call o .ok) = some
      { w.goto o (.write fd (metadata T pid o)) with file := [] } := by
    rw [step_call hpoint]
    show some { w.goto o (nextWrite fd (metadata T pid o)) with file := [] } = _
    rw [nextWrite, if_neg (metadata_ne_nil T pid o)]
  exact .step hstep rfl (finishes_of_write (goto_point w o _) (metadata_ne_nil T pid o))

theorem finishes_of_lseek (hpoint : (w.object o).point = .lseek fd) :
    Finishes T path pid w o :=
  .step (step_call hpoint .ok) rfl (finishes_of_ftruncate (goto_point w o _))

theorem finishes_of_flock (hpoint : (w.object o).point = .flock fd)
    (hopen : w.flock.opener fd = some o) (hfree : w.flock.owner = none) :
    Finishes T path pid w o := by
  obtain ⟨flock, hlock⟩ := Flock.lock_of_free hopen hfree
  have hstep : step T path pid w (.call o .ok) =
      some { w.goto o (.lseek fd) with flock := flock } := by
    rw [step_call hpoint]
    exact Option.map_eq_some_iff.mpr ⟨flock, hlock, rfl⟩
  exact .step hstep rfl (finishes_of_lseek (goto_point w o _))

theorem finishes_of_openFile (hpoint : (w.object o).point = .openFile)
    (hfree : w.flock.owner = none) : Finishes T path pid w o :=
  .step (step_call hpoint .ok) rfl
    (finishes_of_flock (goto_point w o _) (Flock.opener_openFile _ _) hfree)

theorem finishes_of_mkdir (hpoint : (w.object o).point = .mkdir)
    (hfree : w.flock.owner = none) : Finishes T path pid w o :=
  .step (step_call hpoint .ok) rfl (finishes_of_openFile (goto_point w o _) hfree)

theorem canAcquire_of_free (hidle : (w.object o).point = .idle)
    (hheld : (w.object o).held = false) (hfree : w.flock.owner = none) :
    CanAcquire T path pid w o := by
  have hstep : step T path pid w (.acquire o) = some (w.goto o .mkdir) := by
    refine (if_neg (not_not.mpr hidle)).trans (if_neg ?_)
    rw [hheld]
    exact Bool.false_ne_true
  have hfinishes : Finishes T path pid (w.goto o .mkdir) o :=
    finishes_of_mkdir (goto_point w o .mkdir) hfree
  obtain ⟨replies, w', hrun, hlast⟩ := hfinishes
  refine ⟨replies, w', ?_, hlast⟩
  rw [run_cons, hstep]
  exact hrun

/-! ### the flags are right -/

/-- whatever fails, an object whose flag is set owns the lock -/
theorem Inv.owns_of_held (h : Inv T pid w) (hheld : (w.object o).held = true) :
    w.flock.Owns o := by
  obtain ⟨fd, hfd⟩ := Option.isSome_iff_exists.mp hheld
  exact ⟨fd, ((h o).held fd hfd).2.1⟩

theorem Tracked.held_of_owns (h : Tracked w) (hinv : Inv T pid w)
    (hidle : (w.object o).point = .idle) (howns : w.flock.Owns o) :
    (w.object o).held = true := by
  obtain ⟨fd, howner, hopen⟩ := howns
  obtain ⟨q, hrefers⟩ := h.owner fd howner
  have hq : w.flock.opener fd = some q := by
    rcases hrefers with hfd | hfd
    · exact ((hinv q).held fd hfd).2.1.2
    · exact opener_of_fd? (hinv q).point hfd
  have heq : q = o := Option.some.inj (hq.symm.trans hopen)
  rw [heq] at hrefers
  unfold LockObject.Refers at hrefers
  rw [hidle] at hrefers
  rw [LockObject.held, hrefers.resolve_right (Option.some_ne_none _).symm]
  rfl

theorem Tracked.kept (h : Tracked w) (hinv : Inv T pid w) : Kept T path pid w where
  held_iff _ hidle := ⟨hinv.owns_of_held, h.held_of_owns hinv hidle⟩
  exclusive _ _ ho hp := (ho.elim hinv.owns_of_held id).unique (hp.elim hinv.owns_of_held id)
  closed o fd exc hmem := (h.closed o fd exc hmem).2
  free := by
    intro hidle o
    refine canAcquire_of_free (hidle o).1 (hidle o).2 ?_
    cases howner : w.flock.owner with
    | none => rfl
    | some fd =>
      obtain ⟨q, hq⟩ := Flock.exists_ownsBy howner
      have hheld := h.held_of_owns hinv (hidle q).1 ⟨fd, hq⟩
      exact absurd ((hidle q).2.symm.trans hheld) Bool.false_ne_true

/-! ### the failures that are not handled -/

/-- the call ends, and the object does not know that it owns the lock -/
theorem Inv.not_kept_of_owns (h : Inv T pid w) {e : Ended O} (hbefore : (w.object o).point ≠ .idle)
    (howns : w.flock.OwnsBy o fd) : ¬ Kept T path pid (w.leave o e) := by
  intro hkept
  have hheld : ((w.leave o e).object o).held = true := by
    refine (hkept.held_iff o ?_).mpr ⟨fd, howns⟩
    rw [leave_self]
  rw [leave_self] at hheld
  unfold LockObject.held at hheld
  rw [h.fd_none hbefore] at hheld
  exact Bool.false_ne_true hheld

/-- the call of `acquire` ends, and what it opened is not closed -/
theorem not_kept_of_opener {exc : Exn} (hopen : w.flock.opener fd = some o) :
    ¬ Kept T path pid (w.leave o (.acquireRaised o (some fd) exc)) := by
  intro hkept
  have hmem : Ended.acquireRaised o (some fd) exc ∈
      (w.leave o (.acquireRaised o (some fd) exc)).ended :=
    List.mem_append_right _ (List.mem_singleton.mpr rfl)
  have hclosed : w.flock.opener fd = none := hkept.closed o fd exc hmem
  exact Option.some_ne_none _ (hopen.symm.trans hclosed)

/-- a failure that is not handled ends the call: an `acquire` that has opened its descriptor, or a
`release` whose unlock has failed before -/
theorem callStep_not_careful {point : Point} {reply : Reply}
    (hstep : callStep T path pid w o point reply = some w') (h : point.careful reply = false) :
    ∃ fd e, point.fd? = some fd ∧ w' = w.leave o e ∧
      ((∃ exc, e = .acquireRaised o (some fd) exc) ∨ ∃ exc, point = .close fd (some exc)) := by
  -- a call of `acquire` that ends here
  have hacquire : ∀ {fd exc}, point.fd? = some fd →
      some (w.leave o (.acquireRaised o (some fd) exc)) = some w' →
      ∃ fd e, point.fd? = some fd ∧ w' = w.leave o e ∧
        ((∃ exc, e = .acquireRaised o (some fd) exc) ∨ ∃ exc, point = .close fd (some exc)) :=
    fun hfd hleave => ⟨_, _, hfd, (Option.some.inj hleave).symm, .inl ⟨_, rfl⟩⟩
  cases point with
  | idle | mkdir | openFile | unlock fd => exact absurd h.symm Bool.false_ne_true
  | flock fd =>
    cases reply with
    | raised exc => exact hacquire rfl ((if_neg (Bool.eq_false_iff.mp h)).symm.trans hstep)
    | ok | wrote | raisedClosed => exact absurd h.symm Bool.false_ne_true
  | closeBlocked fd | lseek fd | ftruncate fd | fsync fd =>
    cases reply with
    | raised exc => exact hacquire rfl hstep
    | ok | wrote | raisedClosed => exact absurd h.symm Bool.false_ne_true
  | write fd view =>
    cases reply with
    | raised exc => exact hacquire rfl hstep
    | wrote count =>
      rcases callStep_wrote hstep with ⟨_, hw'⟩ | ⟨hcount, _⟩
      · exact hacquire rfl (congrArg some hw'.symm)
      · exact absurd (of_decide_eq_false h) (not_not.mpr hcount)
    | ok | raisedClosed => exact absurd h.symm Bool.false_ne_true
  | close fd raised =>
    cases raised with
    | none => exact absurd h.symm Bool.false_ne_true
    | some exc =>
      cases reply with
      | raised exc' => exact ⟨fd, _, rfl, (Option.some.inj hstep).symm, .inr ⟨exc, rfl⟩⟩
      | ok | wrote | raisedClosed => exact absurd h.symm Bool.false_ne_true

theorem Inv.careful_of_kept (h : Inv T pid w) {m : Move O}
    (hstep : step T path pid w m = some w') (hkept : Kept T path pid w') : w.Careful m := by
  cases m with
  | acquire | release => trivial
  | call o reply =>
    show (w.object o).point.careful reply = true
    by_contra hcareful
    obtain ⟨fd, e, hfd, hw', hend⟩ := callStep_not_careful hstep (Bool.eq_false_iff.mpr hcareful)
    have hopen : w.flock.opener fd = some o := opener_of_fd? (h o).point hfd
    rw [hw'] at hkept
    rcases hend with ⟨exc, he⟩ | ⟨exc, hpoint⟩
    · rw [he] at hkept
      exact not_kept_of_opener hopen hkept
    · have howner : w.flock.owner = some fd :=
        (h.point_sound hpoint).2.mpr (Option.some_ne_none exc)
      exact h.not_kept_of_owns (ne_idle hpoint fun h => nomatch h) ⟨howner, hopen⟩ hkept

/-! ## what a run keeps -/

theorem kept_iff_careful {moves : List (Move O)} (hinv : Inv T pid w) (htracked : Tracked w) :
    (∀ before, before <+: moves → ∀ w', run T path pid w before = some w' →
      Kept T path pid w') ↔ CarefulRun T path pid w moves := by
  induction moves generalizing w with
  | nil =>
    refine iff_of_true ?_ trivial
    intro before hbefore w' hrun
    rw [List.prefix_nil.mp hbefore] at hrun
    rw [← Option.some.inj hrun]
    exact htracked.kept hinv
  | cons m moves ih =>
    unfold CarefulRun
    cases hstep : step T path pid w m with
    | none =>
      refine iff_of_true ?_ trivial
      intro before hbefore w' hrun
      cases before with
      | nil =>
        rw [← Option.some.inj hrun]
        exact htracked.kept hinv
      | cons m' before =>
        rw [(List.cons_prefix_cons.mp hbefore).1, run_cons, hstep] at hrun
        exact nomatch hrun
    | some w₁ =>
      have heffect := hinv.effect hstep
      have hrest : ∀ before, run T path pid w (m :: before) = run T path pid w₁ before := by
        intro before
        rw [run_cons, hstep]
        rfl
      constructor
      · intro hkept
        have hcareful : w.Careful m := by
          refine hinv.careful_of_kept hstep (hkept [m] ?_ w₁ ?_)
          · exact List.cons_prefix_cons.mpr ⟨rfl, List.nil_prefix⟩
          · rw [hrest, run_nil]
        refine ⟨hcareful, (ih (heffect.inv hinv) (heffect.tracked hcareful htracked)).mp ?_⟩
        intro before hbefore w' hrun
        refine hkept (m :: before) (List.cons_prefix_cons.mpr ⟨rfl, hbefore⟩) w' ?_
        rw [hrest]
        exact hrun
      · intro hcareful before hbefore w' hrun
        cases before with
        | nil =>
          rw [← Option.some.inj hrun]
          exact htracked.kept hinv
        | cons m' before =>
          obtain ⟨hm, hbefore⟩ := List.cons_prefix_cons.mp hbefore
          rw [hm, hrest] at hrun
          have htracked₁ := heffect.tracked hcareful.1 htracked
          exact (ih (heffect.inv hinv) htracked₁).mpr hcareful.2 before hbefore w' hrun

/-- whatever the calls, their order and their failures: the flags are right at every point, an
`acquire` that raises leaves nothing behind, and the lock can be had again, if and only if no
system call fails where the code does not handle it -/
theorem lock_bookkeeping_iff (T : PyText) (path : String) (pid : O → Nat) (file : Bytes)
    (moves : List (Move O)) :
    (∀ before, before <+: moves → ∀ w, run T path pid (.start O file) before = some w →
      Kept T path pid w) ↔ CarefulRun T path pid (.start O file) moves :=
  kept_iff_careful (inv_start file) (tracked_start file)

end

/-! ## a lock that is lost -/

section
variable {O : Type} [DecidableEq O] {T : PyText} {path : String} {pid : O → Nat}
  {w w' : LockWorld O} {o : O} {fd : Nat}

/-- the lock belongs to a descriptor that no object has -/
def Leaked (w : LockWorld O) (fd : Nat) : Prop :=
  w.flock.owner = some fd ∧ ∀ o, ¬ (w.object o).Refers fd

theorem Effect.leaked {m : Move O} (h : Effect T pid w m o w') (hleaked : Leaked w fd) :
    Leaked w' fd := by
  obtain ⟨q, howns⟩ := Flock.exists_ownsBy hleaked.1
  refine ⟨(h.untouched q fd (hleaked.2 o) howns.2).owner.mpr hleaked.1, ?_⟩
  intro p hrefers
  by_cases hp : p = o
  · rw [hp] at hrefers
    rcases h.refers fd hrefers with hbefore | hnew
    · exact hleaked.2 o hbefore
    · exact absurd (Flock.lt_next howns.2) (Nat.not_lt.mpr hnew)
  · rw [h.others p hp] at hrefers
    exact hleaked.2 p hrefers

theorem Leaked.run {moves : List (Move O)} (hinv : Inv T pid w) (h : Leaked w fd)
    (hrun : run T path pid w moves = some w') : Leaked w' fd := by
  induction moves generalizing w with
  | nil =>
    rw [← Option.some.inj hrun]
    exact h
  | cons m moves ih =>
    obtain ⟨w₁, hstep, hrest⟩ := Option.bind_eq_some_iff.mp hrun
    have heffect := hinv.effect hstep
    exact ih (heffect.inv hinv) (heffect.leaked h) hrest

/-- no object ever holds a lock that is lost, whatever is called and whatever the system answers -/
theorem Leaked.never_held {moves : List (Move O)} (hinv : Inv T pid w) (h : Leaked w fd)
    (hrun : Lock.run T path pid w moves = some w') (o : O) : (w'.object o).held = false := by
  have hlast := h.run hinv hrun
  cases hfd : (w'.object o).fd with
  | none =>
    rw [LockObject.held, hfd]
    rfl
  | some fd' =>
    obtain ⟨_, howns, _⟩ := (hinv.run hrun o).held fd' hfd
    rw [← Option.some.inj (hlast.1.symm.trans howns.1)] at hfd
    exact absurd (.inl hfd) (hlast.2 o)

end

/-! ### a full disk -/

def samplePid (second : Bool) : Nat := if second then 1001 else 1000

/-- the first object's `os.write` fails -/
def fullDiskMoves : List (Move Bool) :=
  .acquire false :: [.ok, .ok, .ok, .ok, .ok,
    .raised (.osError "[Errno 28] No space left on device")].map (.call false)

/-- the object has left `acquire` with the lock and without the flag, and no object ever holds the
lock again -/
theorem full_disk_loses_lock :
    ∃ w, run LogFile.sampleText "tick.lock" samplePid (.start Bool []) fullDiskMoves = some w ∧
      (w.object false).point = .idle ∧ (w.object false).held = false ∧ w.flock.Owns false ∧
      ¬ Kept LogFile.sampleText "tick.lock" samplePid w ∧
      ∀ moves w', run LogFile.sampleText "tick.lock" samplePid w moves = some w' →
        ∀ o, (w'.object o).held = false := by
  obtain ⟨w, hrun, hobject, howns⟩ : ∃ w, run LogFile.sampleText "tick.lock" samplePid
      (.start Bool []) fullDiskMoves = some w ∧ (∀ o, w.object o = {}) ∧
      w.flock.OwnsBy false 0 := by
    refine ⟨_, rfl, ?_, rfl, rfl⟩
    intro o
    cases o with
    | false => rfl
    | true => rfl
  have hstart : Inv LogFile.sampleText samplePid (.start Bool []) := inv_start []
  have hinv := hstart.run hrun
  have hidle : (w.object false).point = .idle := by rw [hobject]
  have hheld : (w.object false).held = false := by
    rw [hobject]
    rfl
  have hleaked : Leaked w 0 := by
    refine ⟨howns.1, ?_⟩
    intro o
    rw [hobject]
    exact not_refers rfl rfl
  refine ⟨w, hrun, hidle, hheld, ⟨0, howns⟩, ?_, fun moves w' => hleaked.never_held hinv⟩
  intro hkept
  have hset := (hkept.held_iff false hidle).mpr ⟨0, howns⟩
  exact Bool.false_ne_true (hheld.symm.trans hset)

/-- the second object is blocked, and acquires the lock when the first has released it -/
def takeoverMoves : List (Move Bool) :=
  Move.acquire false :: [Reply.ok, .ok, .ok, .ok, .ok, .wrote 6, .wrote 8, .ok].map
    (Move.call false) ++
  Move.acquire true :: [Reply.ok, .ok, .raised (.foreign "BlockingIOError" "[Errno 11]"), .ok].map
    (Move.call true) ++
  Move.release false :: [Reply.ok, .ok].map (Move.call false) ++
  Move.acquire true :: [Reply.ok, .ok, .ok, .ok, .ok, .wrote 14, .ok].map (Move.call true)

example : CarefulRun LogFile.sampleText "tick.lock" samplePid (.start Bool []) takeoverMoves ∧
    (run LogFile.sampleText "tick.lock" samplePid (.start Bool []) takeoverMoves).map
      (fun w => (w.object true).held) = some true := by
  decide

end Lock
end Dolores
