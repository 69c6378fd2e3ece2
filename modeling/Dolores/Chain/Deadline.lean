import Mathlib.Algebra.Order.Ring.Rat
import Dolores.Lib.Inject
import Dolores.Py.Json

/-!
# Deadlines for chain reads (`chain.py`, `miner_cli.py`)

`bounded_call` and `_bounded_call` are one function, `deadlineCall`, with other errors.  It is a
machine whose program counter names the statement that comes next; the alarm is an event that
comes in place of a step, and raises the expiry exception at that point when `expire` is the
handler.  The callable is any machine: it returns, raises, or runs on, and it may catch the expiry.

* `Pc.Deliverable`   the instants at which the alarm of the timer may be delivered;
* `EndsCleanly`      the call ends by returning the callable's result, raising the callable's own
                     exception or raising the timeout error, with the handler and the timer as
                     they were;
* `Pc.Covered`       the instants whose exception the function catches;
* `endsCleanly_iff`  the call ends cleanly exactly when the alarm comes at one of these.
-/

namespace Dolores

/-! ## the callable -/

inductive FnStep (S ε α : Type) where
  | goesOn (s : S)
  | returns (a : α)
  | raises (e : ε)
  /-- the expiry exception leaves the callable -/
  | expires

structure Callee (S ε α : Type) where
  start : S
  step : S → FnStep S ε α
  /-- the expiry exception is raised at this point of the callable -/
  expire : S → FnStep S ε α

/-- the callable ends -/
inductive Callee.Ends {S ε α : Type} (f : Callee S ε α) : FnStep S ε α → Prop
  | returns (a : α) : f.Ends (.returns a)
  | raises (e : ε) : f.Ends (.raises e)
  | expires : f.Ends .expires
  | goesOn {s : S} (h : f.Ends (f.step s)) : f.Ends (.goesOn s)

/-! ## the function -/

/-- the process when the function is called -/
structure Host (H : Type) where
  posix : Bool
  mainThread : Bool
  /-- `signal.getsignal(SIGALRM)`; nothing for a handler that Python did not install -/
  handler : Option H
  /-- `signal.getitimer(ITIMER_REAL)` -/
  timer : ℚ × ℚ
  /-- `signal.setitimer` takes the duration -/
  accepts : ℚ → Bool

/-- the handler of SIGALRM -/
inductive SigHandler (H : Type) where
  | previous (h : Option H)
  | expire
deriving DecidableEq

inductive DeadlineOutcome (ε α : Type) where
  | fnReturned (a : α)
  | fnRaised (e : ε)
  | timeout (msg : String)
  /-- the internal expiry exception -/
  | expired
  /-- `signal.signal(SIGALRM, None)` -/
  | typeError
deriving DecidableEq

/-- the statement that comes next -/
inductive Pc (S ε α : Type) where
  | install
  | arm
  /-- the end of the first `try` -/
  | armed
  | undoDisarm
  | undoRestore
  | undoRearm
  /-- after the first `try` statement, before the second -/
  | between
  | enter
  | inFn (s : S)
  /-- the result is there, and the second `try` is yet to be left -/
  | returned (a : α)
  /-- the callable's own exception does not match the `except` clause -/
  | raised (e : ε)
  /-- the `except` clause has caught the expiry exception -/
  | caught
  | disarm (o : DeadlineOutcome ε α)
  | restore (o : DeadlineOutcome ε α)
  | rearm (o : DeadlineOutcome ε α)
  | exit (o : DeadlineOutcome ε α)

structure Config (H S ε α : Type) where
  pc : Pc S ε α
  handler : SigHandler H
  timer : ℚ × ℚ

structure DeadlineErrors where
  notPosix : String
  notMainThread : String
  badDuration : String
  activeTimer : String
  notInstalled : String
  timedOut : String

section
variable {H S ε α : Type}

def FnStep.pc : FnStep S ε α → Pc S ε α
  | .goesOn s => .inFn s
  | .returns a => .returned a
  | .raises e => .raised e
  | .expires => .caught

/-- the checks before the timer is armed -/
def refusal (errors : DeadlineErrors) (host : Host H) (duration : PyFloat) : Except String ℚ :=
  if host.posix = false then .error errors.notPosix
  else if host.mainThread = false then .error errors.notMainThread
  else
    match duration with
    | .fin q =>
      if q ≤ 0 then .error errors.badDuration
      else if 0 < host.timer.1 ∨ 0 < host.timer.2 then .error errors.activeTimer
      else .ok q
    | _ => .error errors.badDuration

/-- `signal.signal(SIGALRM, previous_handler)` -/
def restoreHandler (host : Host H) (next : Pc S ε α) (c : Config H S ε α) : Config H S ε α :=
  match host.handler with
  | some h => { c with pc := next, handler := .previous (some h) }
  | none => { c with pc := .exit .typeError }

def deadlineStep (errors : DeadlineErrors) (host : Host H) (duration : ℚ) (fn : Callee S ε α)
    (c : Config H S ε α) : Config H S ε α :=
  match c.pc with
  | .install => { c with pc := .arm, handler := .expire }
  | .arm =>
    if host.accepts duration then { c with pc := .armed, timer := (duration, 0) }
    else { c with pc := .undoDisarm }
  | .armed => { c with pc := .between }
  | .undoDisarm => { c with pc := .undoRestore, timer := (0, 0) }
  | .undoRestore => restoreHandler host .undoRearm c
  | .undoRearm => { c with pc := .exit (.timeout errors.notInstalled), timer := host.timer }
  | .between => { c with pc := .enter }
  | .enter => { c with pc := .inFn fn.start }
  | .inFn s => { c with pc := (fn.step s).pc }
  | .returned a => { c with pc := .disarm (.fnReturned a) }
  | .raised e => { c with pc := .disarm (.fnRaised e) }
  | .caught => { c with pc := .disarm (.timeout errors.timedOut) }
  | .disarm o => { c with pc := .restore o, timer := (0, 0) }
  | .restore o => restoreHandler host (.rearm o) c
  | .rearm o => { c with pc := .exit o, timer := host.timer }
  | .exit _ => c

/-- where the expiry exception goes when it is raised here -/
def Pc.interrupted (fn : Callee S ε α) : Pc S ε α → Pc S ε α
  | .armed => .undoDisarm
  | .enter | .returned _ => .caught
  | .inFn s => (fn.expire s).pc
  | .raised _ | .caught => .disarm .expired
  | .undoDisarm | .undoRestore | .between | .disarm _ | .restore _ => .exit .expired
  | pc => pc

/-- the timer has run off, and its signal is handled -/
def deliver (fn : Callee S ε α) (c : Config H S ε α) : Config H S ε α :=
  { c with pc := c.pc.interrupted fn, timer := (0, 0) }

def deadlineStart (host : Host H) : Config H S ε α :=
  { pc := .install, handler := .previous host.handler, timer := host.timer }

/-- a call that is not refused: its runs, by the moment of the alarm -/
def deadlineCall (errors : DeadlineErrors) (host : Host H) (timeout : PyFloat)
    (fn : Callee S ε α) : Except String (Option Nat → Nat → Config H S ε α) :=
  (refusal errors host timeout).map fun duration alarm =>
    Inject.run (deadlineStep errors host duration fn) (deliver fn) alarm (deadlineStart host)

/-- the errors of `bounded_call`; `fixed duration` is `f"{duration:.0f}"` -/
def chainReadErrors (fixed : PyFloat → String) (timeout : PyFloat) : DeadlineErrors :=
  let timeoutError := "chain read exceeded " ++ fixed timeout ++ "s (testnet websocket hang guard)"
  { notPosix := timeoutError
    notMainThread := "chain read deadline requires the POSIX main thread " ++
      "(testnet websocket hang guard)"
    badDuration := timeoutError
    activeTimer := "chain read deadline unavailable while a SIGALRM timer is active " ++
      "(testnet websocket hang guard)"
    notInstalled := timeoutError
    timedOut := timeoutError }

def boundedCall (fixed : PyFloat → String) (host : Host H) (timeout : PyFloat)
    (fn : Callee S ε α) : Except String (Option Nat → Nat → Config H S ε α) :=
  deadlineCall (chainReadErrors fixed timeout) host timeout fn

/-- the errors of the miner's `_bounded_call` -/
def minerReadErrors : DeadlineErrors where
  notPosix := "read-only chain deadline requires POSIX SIGALRM"
  notMainThread := "read-only chain deadline requires the POSIX main thread"
  badDuration := "read-only chain call timed out"
  activeTimer := "read-only chain deadline unavailable with active SIGALRM timer"
  notInstalled := "read-only chain deadline could not be installed"
  timedOut := "read-only chain call timed out"

def minerBoundedCall (host : Host H) (timeout : PyFloat) (fn : Callee S ε α) :
    Except String (Option Nat → Nat → Config H S ε α) :=
  deadlineCall minerReadErrors host timeout fn

/-! ## what is claimed of a call -/

/-- after the timer is armed, while `expire` is the handler; `signal.signal` handles what is
pending before it replaces a handler -/
def Pc.Deliverable : Pc S ε α → Prop
  | .armed | .between | .enter | .inFn _ | .returned _ | .raised _ | .caught | .disarm _
  | .restore _ => True
  | _ => False

/-- the outcome is the callable's, or the timeout error -/
def DeadlineOutcome.Proper (run : Nat → Config H S ε α) : DeadlineOutcome ε α → Prop
  | .fnReturned a => ∃ n, (run n).pc = .returned a
  | .fnRaised e => ∃ n, (run n).pc = .raised e
  | .timeout _ => True
  | .expired | .typeError => False

def EndsCleanly (host : Host H) (run : Nat → Config H S ε α) : Prop :=
  ∃ n o, (run n).pc = .exit o ∧ o.Proper run ∧ (run n).handler = .previous host.handler ∧
    (run n).timer = host.timer

/-- the exception of an alarm at this point is caught, and the callable ends after it -/
def Pc.Covered (fn : Callee S ε α) : Pc S ε α → Prop
  | .armed | .enter | .returned _ => True
  | .inFn s => fn.Ends (fn.expire s)
  | _ => False

end

/-! ## the way out -/

section
variable {H S ε α : Type} {errors : DeadlineErrors} {host : Host H} {duration : ℚ}
  {fn : Callee S ε α} {c : Config H S ε α} {o o' : DeadlineOutcome ε α}

/-- a handler that Python does not know cannot be put back -/
def DeadlineOutcome.final (host : Host H) (o : DeadlineOutcome ε α) : DeadlineOutcome ε α :=
  if host.handler.isSome then o else .typeError

theorem step_exit (h : c.pc = .exit o) : deadlineStep errors host duration fn c = c := by
  unfold deadlineStep
  rw [h]

theorem exit_unique {n m : Nat}
    (hn : ((deadlineStep errors host duration fn)^[n] c).pc = .exit o)
    (hm : ((deadlineStep errors host duration fn)^[m] c).pc = .exit o') : o = o' := by
  have heq := Inject.eq_of_fixed (step_exit hn) (step_exit hm)
  rw [heq] at hn
  exact Pc.exit.inj (hn.symm.trans hm)

/-- no step is needed -/
theorem exit_at_start {n : Nat} (hn : ((deadlineStep errors host duration fn)^[n] c).pc = .exit o)
    (h : c.pc = .exit o') : o = o' :=
  exit_unique hn (show ((deadlineStep errors host duration fn)^[0] c).pc = .exit o' from h)

/-- the steps from `c` end with `o`, and with the handler and the timer put back if possible -/
def Finishes (errors : DeadlineErrors) (host : Host H) (duration : ℚ) (fn : Callee S ε α)
    (c : Config H S ε α) (o : DeadlineOutcome ε α) : Prop :=
  ∃ n, ((deadlineStep errors host duration fn)^[n] c).pc = .exit (o.final host) ∧
    (host.handler.isSome = true →
      ((deadlineStep errors host duration fn)^[n] c).handler = .previous host.handler ∧
        ((deadlineStep errors host duration fn)^[n] c).timer = host.timer)

theorem Finishes.step
    (h : Finishes errors host duration fn (deadlineStep errors host duration fn c) o) :
    Finishes errors host duration fn c o := by
  obtain ⟨n, hn⟩ := h
  exact ⟨n + 1, hn⟩

/-- the `finally` clause -/
theorem finishes_disarm (o : DeadlineOutcome ε α) (handler : SigHandler H) (timer : ℚ × ℚ) :
    Finishes errors host duration fn ⟨.disarm o, handler, timer⟩ o := by
  have hrestore : deadlineStep errors host duration fn ⟨.restore o, handler, (0, 0)⟩ =
      restoreHandler host (.rearm o) ⟨.restore o, handler, (0, 0)⟩ := rfl
  refine .step (.step ?_)
  show Finishes errors host duration fn (deadlineStep errors host duration fn
    ⟨.restore o, handler, (0, 0)⟩) o
  rw [hrestore]
  unfold Finishes DeadlineOutcome.final restoreHandler
  cases hhandler : host.handler with
  | none => exact ⟨0, rfl, fun h => absurd h Bool.false_ne_true⟩
  | some h => exact ⟨1, rfl, fun _ => ⟨rfl, rfl⟩⟩

/-- the clean-up of the first `try` -/
theorem finishes_undo (handler : SigHandler H) (timer : ℚ × ℚ) :
    Finishes errors host duration fn ⟨.undoDisarm, handler, timer⟩
      (.timeout errors.notInstalled) := by
  have hrestore : deadlineStep errors host duration fn ⟨.undoRestore, handler, (0, 0)⟩ =
      restoreHandler host .undoRearm ⟨.undoRestore, handler, (0, 0)⟩ := rfl
  refine .step (.step ?_)
  show Finishes errors host duration fn (deadlineStep errors host duration fn
    ⟨.undoRestore, handler, (0, 0)⟩) _
  rw [hrestore]
  unfold Finishes DeadlineOutcome.final restoreHandler
  cases hhandler : host.handler with
  | none => exact ⟨0, rfl, fun h => absurd h Bool.false_ne_true⟩
  | some h => exact ⟨1, rfl, fun _ => ⟨rfl, rfl⟩⟩

theorem finishes_caught (handler : SigHandler H) (timer : ℚ × ℚ) :
    Finishes errors host duration fn ⟨.caught, handler, timer⟩ (.timeout errors.timedOut) :=
  .step (finishes_disarm _ handler timer)

theorem DeadlineOutcome.Proper.step
    (h : o.Proper fun n => (deadlineStep errors host duration fn)^[n]
      (deadlineStep errors host duration fn c)) :
    o.Proper fun n => (deadlineStep errors host duration fn)^[n] c := by
  cases o with
  | fnReturned a =>
    obtain ⟨n, hn⟩ := h
    exact ⟨n + 1, hn⟩
  | fnRaised e =>
    obtain ⟨n, hn⟩ := h
    exact ⟨n + 1, hn⟩
  | timeout => trivial
  | expired => exact h
  | typeError => exact h

/-- a callable that ends -/
theorem finishes_of_ends {fs : FnStep S ε α} (h : fn.Ends fs) (handler : SigHandler H)
    (timer : ℚ × ℚ) :
    ∃ o : DeadlineOutcome ε α, Finishes errors host duration fn ⟨fs.pc, handler, timer⟩ o ∧
      o.Proper fun n => (deadlineStep errors host duration fn)^[n] ⟨fs.pc, handler, timer⟩ := by
  induction h with
  | returns a => exact ⟨_, .step (finishes_disarm (.fnReturned a) handler timer), 0, rfl⟩
  | raises e => exact ⟨_, .step (finishes_disarm (.fnRaised e) handler timer), 0, rfl⟩
  | expires => exact ⟨_, finishes_caught handler timer, trivial⟩
  | goesOn _ ih =>
    obtain ⟨o, hfinishes, hproper⟩ := ih
    exact ⟨o, .step hfinishes, .step hproper⟩

/-- a callable that does not end -/
theorem inFn_of_not_ends (n : Nat) {fs : FnStep S ε α} (h : ¬ fn.Ends fs)
    (handler : SigHandler H) (timer : ℚ × ℚ) :
    ∃ s, ((deadlineStep errors host duration fn)^[n] ⟨fs.pc, handler, timer⟩).pc = .inFn s := by
  induction n generalizing fs with
  | zero =>
    cases fs with
    | goesOn s => exact ⟨s, rfl⟩
    | returns a => exact absurd (.returns a) h
    | raises e => exact absurd (.raises e) h
    | expires => exact absurd .expires h
  | succ n ih =>
    cases fs with
    | goesOn s => exact ih fun hends => h (.goesOn hends)
    | returns a => exact absurd (.returns a) h
    | raises e => exact absurd (.raises e) h
    | expires => exact absurd .expires h

/-! ## the run with the alarm -/

/-- the run whose alarm comes in place of step `k` -/
def alarmed (errors : DeadlineErrors) (host : Host H) (duration : ℚ) (fn : Callee S ε α)
    (alarm : Option Nat) : Nat → Config H S ε α :=
  Inject.run (deadlineStep errors host duration fn) (deliver fn) alarm (deadlineStart host)

variable {k : Nat}

theorem endsCleanly_of_finishes
    (h : Finishes errors host duration fn (deliver fn (alarmed errors host duration fn none k)) o)
    (hsome : host.handler.isSome = true)
    (hproper : o.Proper fun n => (deadlineStep errors host duration fn)^[n]
      (deliver fn (alarmed errors host duration fn none k))) :
    EndsCleanly host (alarmed errors host duration fn (some k)) := by
  have hafter : ∀ n, alarmed errors host duration fn (some k) (k + 1 + n) =
      (deadlineStep errors host duration fn)^[n]
        (deliver fn (alarmed errors host duration fn none k)) := by
    intro n
    unfold alarmed
    rw [Inject.run_after, Inject.run_none]
  obtain ⟨n, hexit, hback⟩ := h
  obtain ⟨hhandler, htimer⟩ := hback hsome
  have hfinal : o.final host = o := if_pos hsome
  rw [hfinal, ← hafter] at hexit
  rw [← hafter] at hhandler htimer
  refine ⟨k + 1 + n, o, hexit, ?_, hhandler, htimer⟩
  cases o with
  | fnReturned a =>
    obtain ⟨m, hm⟩ := hproper
    exact ⟨k + 1 + m, by rw [hafter]; exact hm⟩
  | fnRaised e =>
    obtain ⟨m, hm⟩ := hproper
    exact ⟨k + 1 + m, by rw [hafter]; exact hm⟩
  | timeout => trivial
  | expired => exact hproper
  | typeError => exact hproper

/-- a run that ends cleanly ends after the alarm -/
theorem exit_of_endsCleanly (hdeliver : (alarmed errors host duration fn none k).pc.Deliverable)
    (h : EndsCleanly host (alarmed errors host duration fn (some k))) :
    ∃ o : DeadlineOutcome ε α, o.Proper (alarmed errors host duration fn (some k)) ∧
      ∃ n, ((deadlineStep errors host duration fn)^[n]
        (deliver fn (alarmed errors host duration fn none k))).pc = .exit o := by
  obtain ⟨n, o, hexit, hproper, -, -⟩ := h
  refine ⟨o, hproper, ?_⟩
  unfold alarmed at hdeliver hexit ⊢
  rw [Inject.run_none] at hdeliver ⊢
  rcases (Inject.exists_run_iff (P := fun c : Config H S ε α => c.pc = .exit o)).mp
    ⟨n, hexit⟩ with ⟨m, hle, hm⟩ | hafter
  · -- the run would have ended before the alarm
    obtain ⟨d, rfl⟩ := Nat.exists_eq_add_of_le hle
    rw [Inject.iterate_of_fixed (step_exit hm), hm] at hdeliver
    exact hdeliver.elim
  · exact hafter

theorem isSome_of_exit {n : Nat} {run : Nat → Config H S ε α}
    (h : Finishes errors host duration fn c o)
    (hexit : ((deadlineStep errors host duration fn)^[n] c).pc = .exit o')
    (hproper : o'.Proper run) : host.handler.isSome = true ∧ o' = o := by
  obtain ⟨m, hm, -⟩ := h
  have heq := exit_unique hexit hm
  cases hsome : host.handler.isSome with
  | false =>
    rw [heq, DeadlineOutcome.final, if_neg (by rw [hsome]; decide)] at hproper
    exact hproper.elim
  | true => exact ⟨rfl, heq.trans (if_pos hsome)⟩

/-- the call ends cleanly exactly when the alarm comes where its exception is caught; the callable
must end after it, and the handler from before must be one that Python can put back -/
theorem endsCleanly_iff (hdeliver : (alarmed errors host duration fn none k).pc.Deliverable) :
    EndsCleanly host (alarmed errors host duration fn (some k)) ↔
      host.handler.isSome = true ∧ (alarmed errors host duration fn none k).pc.Covered fn := by
  constructor
  · intro h
    obtain ⟨o, hproper, n, hexit⟩ := exit_of_endsCleanly hdeliver h
    revert hexit
    unfold deliver
    generalize alarmed errors host duration fn none k = c at hdeliver
    cases hpc : c.pc with
    | armed =>
      intro hexit
      exact ⟨(isSome_of_exit (finishes_undo _ _) hexit hproper).1, trivial⟩
    | enter | returned a =>
      intro hexit
      exact ⟨(isSome_of_exit (finishes_caught _ _) hexit hproper).1, trivial⟩
    | inFn s =>
      intro hexit
      by_cases hends : fn.Ends (fn.expire s)
      · obtain ⟨o', hfinishes, -⟩ := finishes_of_ends hends c.handler (0, 0)
        exact ⟨(isSome_of_exit hfinishes hexit hproper).1, hends⟩
      · obtain ⟨s', hs'⟩ := inFn_of_not_ends n hends c.handler (0, 0)
        exact nomatch hs'.symm.trans hexit
    | raised e | caught =>
      intro hexit
      rw [(isSome_of_exit (finishes_disarm _ _ _) hexit hproper).2] at hproper
      exact hproper.elim
    | between | disarm o' | restore o' =>
      intro hexit
      rw [exit_at_start hexit rfl] at hproper
      exact hproper.elim
    | install | arm | undoDisarm | undoRestore | undoRearm | rearm | exit =>
      rw [hpc] at hdeliver
      exact hdeliver.elim
  · intro h
    obtain ⟨hsome, hcovered⟩ := h
    have hfinish : ∃ o : DeadlineOutcome ε α, Finishes errors host duration fn
        (deliver fn (alarmed errors host duration fn none k)) o ∧
        o.Proper fun n => (deadlineStep errors host duration fn)^[n]
          (deliver fn (alarmed errors host duration fn none k)) := by
      unfold deliver
      generalize alarmed errors host duration fn none k = c at hcovered
      cases hpc : c.pc with
      | armed => exact ⟨_, finishes_undo _ _, trivial⟩
      | enter | returned a => exact ⟨_, finishes_caught _ _, trivial⟩
      | inFn s =>
        rw [hpc] at hcovered
        exact finishes_of_ends hcovered _ _
      | raised | caught | between | disarm | restore | install | arm | undoDisarm | undoRestore
      | undoRearm | rearm | exit =>
        rw [hpc] at hcovered
        exact hcovered.elim
    obtain ⟨o, hfinishes, hproper⟩ := hfinish
    exact endsCleanly_of_finishes hfinishes hsome hproper

theorem deadlineCall_ok {timeout : PyFloat} {run : Option Nat → Nat → Config H S ε α}
    (h : deadlineCall errors host timeout fn = .ok run) :
    ∃ duration, run = alarmed errors host duration fn := by
  unfold deadlineCall at h
  cases hrefusal : refusal errors host timeout with
  | error msg =>
    rw [hrefusal] at h
    exact nomatch h
  | ok duration =>
    rw [hrefusal] at h
    exact ⟨duration, (Except.ok.inj h).symm⟩

/-- `bounded_call` and the miner's `_bounded_call`, for every callable and every moment of the
alarm -/
theorem deadline_endsCleanly_iff {fixed : PyFloat → String} {timeout : PyFloat}
    {run : Option Nat → Nat → Config H S ε α}
    (h : boundedCall fixed host timeout fn = .ok run ∨ minerBoundedCall host timeout fn = .ok run)
    (hdeliver : (run none k).pc.Deliverable) :
    EndsCleanly host (run (some k)) ↔
      host.handler.isSome = true ∧ (run none k).pc.Covered fn := by
  rcases h with h | h
  · obtain ⟨duration, rfl⟩ := deadlineCall_ok h
    exact endsCleanly_iff hdeliver
  · obtain ⟨duration, rfl⟩ := deadlineCall_ok h
    exact endsCleanly_iff hdeliver

end

/-! ## an alarm in the `finally` clause -/

/-- a process with the default handler and no timer -/
def plainHost : Host Unit where
  posix := true
  mainThread := true
  handler := some ()
  timer := (0, 0)
  accepts _ := true

/-- a callable that returns 7 -/
def returnsSeven : Callee Unit Empty Nat where
  start := ()
  step _ := .returns 7
  expire _ := .expires

def sevenRun : Option Nat → Nat → Config Unit Unit Empty Nat :=
  alarmed (chainReadErrors (fun _ => "90") (.fin 90)) plainHost 90 returnsSeven

theorem boundedCall_seven :
    boundedCall (fun _ => "90") plainHost (.fin 90) returnsSeven = .ok sevenRun := by
  have hrefusal : refusal (chainReadErrors (fun _ => "90") (.fin 90)) plainHost (.fin 90) =
      .ok 90 := by
    unfold refusal
    rw [if_neg (by decide), if_neg (by decide)]
    dsimp only
    rw [if_neg (by decide +kernel), if_neg (by decide +kernel)]
  unfold boundedCall deadlineCall
  rw [hrefusal]
  rfl

/-- the alarm strikes while the callable runs -/
theorem deadline_endsCleanly_iff_sample : EndsCleanly plainHost (sevenRun (some 5)) :=
  (deadline_endsCleanly_iff (k := 5) (.inl boundedCall_seven) trivial).mpr ⟨rfl, .expires⟩

/-- the alarm strikes after `fn` has returned and the timer is disarmed, before the handler is put
back: the expiry exception leaves the function, and `expire` stays installed -/
theorem expiry_escapes_from_finally :
    boundedCall (fun _ => "90") plainHost (.fin 90) returnsSeven = .ok sevenRun ∧
      (sevenRun none 8).pc = .restore (.fnReturned 7) ∧ (sevenRun none 8).pc.Deliverable ∧
      (sevenRun (some 8) 9).pc = .exit .expired ∧ (sevenRun (some 8) 9).handler = .expire ∧
      ¬ EndsCleanly plainHost (sevenRun (some 8)) := by
  have hdeliver : (sevenRun none 8).pc.Deliverable := trivial
  exact ⟨boundedCall_seven, rfl, hdeliver, rfl, rfl, fun h => ((endsCleanly_iff hdeliver).mp h).2⟩

end Dolores
