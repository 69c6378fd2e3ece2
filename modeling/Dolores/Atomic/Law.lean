import Dolores.Atomic.Impl

/-!
# When an atomic write is all or nothing

A write first stages the payload in the temporary file, then publishes it.

* `writeAll_cases`, `stage_cases`   staging either raises, with everything in place for the
                    clean-up, or leaves the whole payload in the temporary file;
* `publish_cases`   how publishing ends;
* `wp_atomicWriteBytes`   whatever fails, the destination holds its previous content or the
                    payload;
* `atomic_write_all_or_nothing_iff`   the law holds unless a stalled write meets a clean-up that
                    fails, or the payload is staged and then either closing the temporary file fails
                    and releases its descriptor, or the directory is lost after the destination has
                    changed.
-/

namespace Dolores
open Crash

section
variable {plan : SysPlan} {d : Disk} {c : SysCall} {effect : Disk → Disk}
  {previous : Option DiskFile} {payload view : List UInt8} {n mode : Nat}

theorem sysCall_of_ne (h : plan.fails ≠ some c) :
    sysCall plan c effect d = (.ok (), effect d) := by
  unfold sysCall
  rw [if_neg h]

theorem sysCall_of_fails (h : plan.fails = some c) :
    sysCall plan c effect d = (.raise (.failed c), d) := by
  unfold sysCall
  rw [if_pos h]

/-- the calls whose failure comes after the payload is staged and may break the law -/
def SysPlan.FailsLate (plan : SysPlan) : Prop :=
  plan.fails = some (.close true) ∨ plan.LosesDirectory

/-- the calls whose failure never breaks the law -/
def SysCall.harmless : SysCall → Bool
  | .mkdir | .stat | .mkstemp | .fchmod | .write _ | .fsync | .close false | .replace => true
  | .close true | .openDirectory | .fsyncDirectory | .closeDirectory | .cleanUpClose _
  | .unlink => false

/-- the failing call comes neither late nor in the clean-up -/
def SysPlan.Harmless (plan : SysPlan) : Prop := ¬ plan.FailsLate ∧ ¬ plan.FailsCleanUp

theorem SysPlan.harmless (h : plan.fails = some c) (hc : c.harmless = true) : plan.Harmless := by
  refine ⟨fun hlate => ?_, fun hclean => ?_⟩
  · unfold SysPlan.FailsLate SysPlan.LosesDirectory at hlate
    rw [h] at hlate
    rcases hlate with heq | heq | heq | heq
    all_goals
      rw [Option.some.inj heq] at hc
      exact nomatch hc
  · unfold SysPlan.FailsCleanUp at hclean
    rw [h] at hclean
    rcases hclean with ⟨released, heq⟩ | heq
    all_goals
      rw [Option.some.inj heq] at hc
      exact nomatch hc

/-- only one call fails -/
theorem SysPlan.FailsLate.cleanUp (h : plan.FailsLate) : ¬ plan.FailsCleanUp := by
  intro hclean
  unfold SysPlan.FailsLate SysPlan.LosesDirectory at h
  rcases hclean with ⟨released, heq⟩ | heq
  all_goals
    rw [heq] at h
    rcases h with h | h | h | h
    all_goals exact nomatch h

/-! ## the write loop -/

/-- the loop stalls, with `n` writes made and `length` bytes to go -/
def SysPlan.StallsFrom (plan : SysPlan) (n length : Nat) : Prop :=
  ∃ m, plan.accepts (n + m) = 0 ∧
    ((List.range m).map fun i => plan.accepts (n + i)).sum < length

theorem stallsFrom_zero_iff (length : Nat) : plan.StallsFrom 0 length ↔
    ∃ m, plan.accepts m = 0 ∧ ((List.range m).map plan.accepts).sum < length := by
  unfold SysPlan.StallsFrom
  simp only [Nat.zero_add]

theorem sum_range_succ (n m : Nat) :
    ((List.range (m + 1)).map fun i => plan.accepts (n + i)).sum =
      plan.accepts n + ((List.range m).map fun i => plan.accepts (n + 1 + i)).sum := by
  rw [List.range_succ_eq_map, List.map_cons, List.sum_cons, List.map_map, Nat.add_zero]
  congr 2
  exact List.map_congr_left fun i _ => by
    show plan.accepts (n + (i + 1)) = plan.accepts (n + 1 + i)
    congr 1
    omega

theorem stallsFrom_succ_iff {length : Nat} (h : plan.accepts n ≠ 0) :
    plan.StallsFrom (n + 1) (length - plan.accepts n) ↔ plan.StallsFrom n length := by
  constructor
  · rintro ⟨m, hzero, hsum⟩
    refine ⟨m + 1, ?_, ?_⟩
    · rw [← hzero]
      congr 1
      omega
    · rw [sum_range_succ]
      omega
  · rintro ⟨m, hzero, hsum⟩
    cases m with
    | zero => exact absurd hzero h
    | succ m =>
      rw [sum_range_succ] at hsum
      refine ⟨m, ?_, by omega⟩
      rw [← hzero]
      congr 1
      omega

/-- everything is in place for the clean-up -/
structure Staged (previous : Option DiskFile) (d : Disk) : Prop where
  destination : d.destination = previous
  descriptor : d.descriptor = true
  fd : 0 ≤ d.fd
  temporary : d.temporary.isSome

def Disk.write (d : Disk) (bytes : List UInt8) : Disk :=
  { d with temporary := d.temporary.map fun file => { file with bytes := file.bytes ++ bytes } }

theorem Staged.write (h : Staged previous d) (bytes : List UInt8) :
    Staged previous (d.write bytes) := by
  refine ⟨h.destination, h.descriptor, h.fd, ?_⟩
  show (d.temporary.map _).isSome
  rw [Option.isSome_map]
  exact h.temporary

theorem write_write (d : Disk) (bytes more : List UInt8) :
    (d.write bytes).write more = d.write (bytes ++ more) := by
  unfold Disk.write
  cases d.temporary with
  | none => rfl
  | some file =>
    show Disk.mk _ (some { file with bytes := file.bytes ++ bytes ++ more }) _ _ = _
    rw [List.append_assoc]
    rfl

theorem write_nil (d : Disk) : d.write [] = d := by
  obtain ⟨destination, temporary, descriptor, fd⟩ := d
  cases temporary with
  | none => rfl
  | some file =>
    show Disk.mk _ (some { file with bytes := file.bytes ++ [] }) _ _ = _
    rw [List.append_nil]

theorem osWrite_of_ne (h : plan.fails ≠ some (.write n)) :
    osWrite plan n view d =
      (.ok (min (plan.accepts n) view.length), d.write (view.take (plan.accepts n))) := by
  unfold osWrite
  rw [Proc.bind_of_ok (sysCall_of_ne h)]
  rfl

theorem osWrite_of_fails (h : plan.fails = some (.write n)) :
    osWrite plan n view d = (.raise (.failed (.write n)), d) := by
  unfold osWrite
  rw [Proc.bind_of_raise (sysCall_of_fails h)]

/-- what the loop does -/
theorem writeAll_cases (hd : Staged previous d) :
    (∃ e d', writeAll plan n view d = (.raise e, d') ∧ Staged previous d' ∧
        (plan.StallsFrom n view.length ∨ ∃ k, plan.fails = some (.write k))) ∨
      ¬ plan.StallsFrom n view.length ∧ writeAll plan n view d = (.ok (), d.write view) := by
  induction hlen : view.length using Nat.strongRecOn generalizing n view d with
  | ind length ih =>
    subst hlen
    rw [writeAll]
    by_cases hview : view = []
    · refine .inr ⟨?_, ?_⟩
      · rintro ⟨m, -, hsum⟩
        rw [hview, List.length_nil] at hsum
        exact absurd hsum (Nat.not_lt_zero _)
      · rw [dif_pos hview, hview, write_nil]
        rfl
    · have hpos := List.length_pos_iff.mpr hview
      rw [dif_neg hview]
      by_cases hfails : plan.fails = some (.write n)
      · exact .inl ⟨_, d, Proc.bind_of_raise (osWrite_of_fails hfails), hd, .inr ⟨n, hfails⟩⟩
      · rw [Proc.bind_of_ok (osWrite_of_ne hfails)]
        by_cases hzero : plan.accepts n = 0
        · have hshort : min (plan.accepts n) view.length = 0 := by omega
          rw [dif_pos hshort]
          exact .inl ⟨_, _, rfl, hd.write _, .inl ⟨0, hzero, hpos⟩⟩
        · have hsome : min (plan.accepts n) view.length ≠ 0 := by omega
          rw [dif_neg hsome]
          have hdrop : view.drop (min (plan.accepts n) view.length) =
              view.drop (plan.accepts n) :=
            List.drop_eq_drop_min.symm
          have hshort : (view.drop (plan.accepts n)).length < view.length := by
            rw [List.length_drop]
            omega
          have hrest := ih _ hshort (n := n + 1) (hd.write (view.take (plan.accepts n))) rfl
          rw [hdrop]
          rw [List.length_drop, stallsFrom_succ_iff hzero, write_write, List.take_append_drop]
            at hrest
          exact hrest

/-! ## staging -/

/-- the `try` block up to `os.fsync` -/
def stage (plan : SysPlan) (mode : Nat) (payload : List UInt8) : Proc Disk WriteError Unit := do
  fchmod plan mode
  writeAll plan 0 payload
  sysCall plan .fsync id

/-- the disk after `mkstemp` -/
def Disk.opened (previous : Option DiskFile) (fd : Nat) : Disk :=
  { destination := previous, temporary := some { bytes := [], mode := 384 }, descriptor := true,
    fd := fd }

/-- the payload is in the temporary file -/
def Disk.staged (previous : Option DiskFile) (fd mode : Nat) (payload : List UInt8) : Disk :=
  { destination := previous, temporary := some { bytes := payload, mode }, descriptor := true,
    fd := fd }

theorem staged_opened (fd : Nat) : Staged previous (Disk.opened previous fd) :=
  ⟨rfl, rfl, Int.natCast_nonneg fd, rfl⟩

theorem fchmod_of_ne (h : plan.fails ≠ some .fchmod) :
    fchmod plan mode (Disk.opened previous plan.fd) =
      (.ok (), Disk.staged previous plan.fd mode []) := by
  unfold fchmod
  rw [sysCall_of_ne h]
  rfl

theorem stage_cases (mode : Nat) (payload : List UInt8) :
    (∃ e d', stage plan mode payload (Disk.opened previous plan.fd) = (.raise e, d') ∧
        Staged previous d' ∧ (plan.Stalls payload ∨ plan.Harmless)) ∨
      ¬ plan.Stalls payload ∧ stage plan mode payload (Disk.opened previous plan.fd) =
        (.ok (), Disk.staged previous plan.fd mode payload) := by
  have hopened : Staged previous (Disk.opened previous plan.fd) := staged_opened plan.fd
  unfold stage
  by_cases hchmod : plan.fails = some .fchmod
  · refine .inl ⟨_, _, Proc.bind_of_raise (sysCall_of_fails hchmod), hopened, .inr ?_⟩
    exact SysPlan.harmless hchmod rfl
  · rw [Proc.bind_of_ok (fchmod_of_ne hchmod)]
    have hmode : Staged previous (Disk.staged previous plan.fd mode []) :=
      ⟨rfl, rfl, Int.natCast_nonneg plan.fd, rfl⟩
    have hstalls : plan.StallsFrom 0 payload.length ↔ plan.Stalls payload :=
      stallsFrom_zero_iff payload.length
    rcases @writeAll_cases plan _ _ payload 0 hmode with
      ⟨e, d', hrun, hd', hwhy⟩ | ⟨hno, hrun⟩
    · refine .inl ⟨e, d', Proc.bind_of_raise hrun, hd', ?_⟩
      rcases hwhy with hstall | ⟨k, hk⟩
      · exact .inl (hstalls.mp hstall)
      · exact .inr (SysPlan.harmless hk rfl)
    · by_cases hsync : plan.fails = some .fsync
      · refine .inl ⟨_, _, (Proc.bind_of_ok hrun).trans (sysCall_of_fails hsync), hmode.write _,
          .inr ?_⟩
        exact SysPlan.harmless hsync rfl
      · refine .inr ⟨fun h => hno (hstalls.mpr h), ?_⟩
        exact (Proc.bind_of_ok hrun).trans (sysCall_of_ne hsync)

/-! ## publishing -/

/-- the rest of the `try` block -/
def publish (plan : SysPlan) : Proc Disk WriteError Unit := do
  closeTemporary plan .close
  Proc.modify fun d => { d with fd := -1 }
  replaceFile plan
  fsyncDirectory plan

theorem atomicWriteBytes_eq (plan : SysPlan) (payload : List UInt8) :
    atomicWriteBytes plan payload = (do
      sysCall plan .mkdir id
      let mode ← destinationMode plan
      mkstemp plan
      (stage plan mode payload >>= fun _ => publish plan).handle (cleanUp plan)) := by
  unfold atomicWriteBytes stage publish
  simp only [bind_assoc]

theorem osClose_of_open (h : d.descriptor = true) :
    osClose d = (.ok (), { d with descriptor := false }) := by
  unfold osClose
  rw [if_pos h]

theorem osClose_of_released (h : d.descriptor = false) :
    osClose d = (.raise .badDescriptor, d) := by
  unfold osClose
  rw [if_neg (by rw [h]; decide)]

theorem closeTemporary_of_ne {call : Bool → SysCall}
    (h : ∀ released, plan.fails ≠ some (call released)) :
    closeTemporary plan call d = osClose d := by
  unfold closeTemporary
  rw [if_neg (h true), if_neg (h false)]

theorem closeTemporary_of_open {call : Bool → SysCall} (hopen : d.descriptor = true)
    (h : ∀ released, plan.fails ≠ some (call released)) :
    closeTemporary plan call d = (.ok (), { d with descriptor := false }) :=
  (closeTemporary_of_ne h).trans (osClose_of_open hopen)

theorem closeTemporary_of_released {call : Bool → SysCall} (h : plan.fails = some (call true)) :
    closeTemporary plan call d = (.raise (.failed (call true)), { d with descriptor := false }) :=
  if_pos h

theorem closeTemporary_of_kept {call : Bool → SysCall} (hne : call true ≠ call false)
    (h : plan.fails = some (call false)) :
    closeTemporary plan call d = (.raise (.failed (call false)), d) := by
  have hother : plan.fails ≠ some (call true) := by
    rw [h]
    exact fun heq => hne (Option.some.inj heq).symm
  unfold closeTemporary
  rw [if_neg hother, if_pos h]

theorem unlinkTemporary_of_ne (h : ¬ plan.FailsCleanUp) :
    unlinkTemporary plan d = (.ok (), { d with temporary := none }) :=
  sysCall_of_ne fun hunlink => h (.inr hunlink)

theorem cleanUp_eq (e : WriteError) : cleanUp plan e d = (do
    if 0 ≤ d.fd then closeTemporary plan .cleanUpClose
    unlinkTemporary plan
    Proc.raise e : Proc Disk WriteError Unit) d := by
  unfold cleanUp
  rw [Proc.bind_of_ok (show Proc.get d = (.ok d, d) from rfl)]

/-- the clean-up, with the descriptor open -/
theorem cleanUp_of_staged (h : Staged previous d) (hclean : ¬ plan.FailsCleanUp) (e : WriteError) :
    cleanUp plan e d = (.raise e, { d with descriptor := false, temporary := none }) := by
  have hclose : closeTemporary plan .cleanUpClose d = (.ok (), { d with descriptor := false }) :=
    closeTemporary_of_open h.descriptor fun released hfails => hclean (.inl ⟨released, hfails⟩)
  rw [cleanUp_eq, if_pos h.fd]
  exact (Proc.bind_of_ok hclose).trans (Proc.bind_of_ok (unlinkTemporary_of_ne hclean))

/-- the same, where one of its calls fails: the temporary file stays -/
theorem cleanUp_of_fails (h : Staged previous d) (hclean : plan.FailsCleanUp) (e : WriteError) :
    ∃ e' d', cleanUp plan e d = (.raise e', d') ∧ d'.destination = previous ∧
      d'.temporary.isSome := by
  rw [cleanUp_eq, if_pos h.fd]
  rcases hclean with ⟨released, hfails⟩ | hunlink
  · cases released with
    | true =>
      exact ⟨_, _, Proc.bind_of_raise (closeTemporary_of_released hfails), h.destination,
        h.temporary⟩
    | false =>
      have hclose := @closeTemporary_of_kept plan d .cleanUpClose (by decide) hfails
      exact ⟨_, _, Proc.bind_of_raise hclose, h.destination, h.temporary⟩
  · have hother : ∀ released, plan.fails ≠ some (.cleanUpClose released) := by
      rw [hunlink]
      decide
    have hclose := closeTemporary_of_open h.descriptor hother
    have hstays : unlinkTemporary plan { d with descriptor := false } =
        (.raise (.failed .unlink), { d with descriptor := false }) := sysCall_of_fails hunlink
    exact ⟨_, _, (Proc.bind_of_ok hclose).trans (Proc.bind_of_raise hstays), h.destination,
      h.temporary⟩

/-- the clean-up, with the descriptor released by the failing `close` -/
theorem cleanUp_of_released (hfd : 0 ≤ d.fd) (h : d.descriptor = false)
    (hclean : ¬ plan.FailsCleanUp) (e : WriteError) :
    cleanUp plan e d = (.raise .badDescriptor, d) := by
  have hclose : closeTemporary plan .cleanUpClose d = (.raise .badDescriptor, d) := by
    rw [closeTemporary_of_ne fun released hfails => hclean (.inl ⟨released, hfails⟩)]
    exact osClose_of_released h
  rw [cleanUp_eq, if_pos hfd, Proc.bind_of_raise hclose]

/-- the clean-up, with the file closed -/
theorem cleanUp_of_closed (h : d.fd = -1) (hclean : ¬ plan.FailsCleanUp) (e : WriteError) :
    cleanUp plan e d = (.raise e, { d with temporary := none }) := by
  have hfd : ¬ 0 ≤ d.fd := by
    rw [h]
    decide
  rw [cleanUp_eq, if_neg hfd]
  exact Proc.bind_of_ok (unlinkTemporary_of_ne hclean)

/-- the payload is staged, and the descriptor is no longer open -/
def Disk.closed (previous : Option DiskFile) (fd : Int) (mode : Nat) (payload : List UInt8) :
    Disk :=
  { destination := previous, temporary := some { bytes := payload, mode }, descriptor := false,
    fd := fd }

/-- the disk after `os.replace` -/
def Disk.published (file : DiskFile) : Disk :=
  { destination := some file, temporary := none, descriptor := false, fd := -1 }

/-- how publishing ends -/
inductive WriteEnds (plan : SysPlan) (previous : Option DiskFile) (mode : Nat)
    (payload : List UInt8) : Outcome WriteError Unit × Disk → Prop
  | done (h : ¬ plan.FailsLate) :
      WriteEnds plan previous mode payload (.ok (), .published ⟨payload, mode⟩)
  /-- the clean-up closes the descriptor again and gets no further -/
  | released (h : plan.fails = some (.close true)) :
      WriteEnds plan previous mode payload
        (.raise .badDescriptor, .closed previous plan.fd mode payload)
  | directory (h : plan.LosesDirectory) (e : WriteError) :
      WriteEnds plan previous mode payload (.raise e, .published ⟨payload, mode⟩)
  /-- the destination is as it was -/
  | undone (h : ¬ plan.FailsLate) (e : WriteError) (d : Disk) (hd : d.destination = previous)
      (ht : d.temporary = none) : WriteEnds plan previous mode payload (.raise e, d)

theorem fsyncDirectory_cases (plan : SysPlan) (d : Disk) :
    (plan.LosesDirectory ∧ ∃ e, fsyncDirectory plan d = (.raise e, d)) ∨
      ¬ plan.LosesDirectory ∧ fsyncDirectory plan d = (.ok (), d) := by
  unfold fsyncDirectory SysPlan.LosesDirectory
  by_cases hopen : plan.fails = some .openDirectory
  · exact .inl ⟨.inl hopen, _, Proc.bind_of_raise (sysCall_of_fails hopen)⟩
  · rw [Proc.bind_of_ok (sysCall_of_ne hopen)]
    by_cases hsync : plan.fails = some .fsyncDirectory
    · have hclose : plan.fails ≠ some .closeDirectory := by
        rw [hsync]
        decide
      exact .inl ⟨.inr (.inl hsync), _,
        Proc.ensure_of_raise (sysCall_of_fails hsync) (sysCall_of_ne hclose)⟩
    · by_cases hclose : plan.fails = some .closeDirectory
      · exact .inl ⟨.inr (.inr hclose), _,
          Proc.ensure_of_ok_raise (sysCall_of_ne hsync) (sysCall_of_fails hclose)⟩
      · refine .inr ⟨?_, Proc.ensure_of_ok (sysCall_of_ne hsync) (sysCall_of_ne hclose)⟩
        rintro (h | h | h)
        · exact hopen h
        · exact hsync h
        · exact hclose h

theorem publish_cases (plan : SysPlan) (previous : Option DiskFile) (mode : Nat)
    (payload : List UInt8) : WriteEnds plan previous mode payload
      ((publish plan).handle (cleanUp plan) (Disk.staged previous plan.fd mode payload)) := by
  have hstaged : Staged previous (Disk.staged previous plan.fd mode payload) :=
    ⟨rfl, rfl, Int.natCast_nonneg plan.fd, rfl⟩
  by_cases hreleased : plan.fails = some (.close true)
  · have hclose : closeTemporary plan .close (Disk.staged previous plan.fd mode payload) =
        (.raise (.failed (.close true)), Disk.closed previous plan.fd mode payload) :=
      closeTemporary_of_released hreleased
    have hrun : publish plan _ = _ := Proc.bind_of_raise hclose
    have hlate : plan.FailsLate := .inl hreleased
    rw [Proc.handle_of_raise hrun,
      cleanUp_of_released (Int.natCast_nonneg plan.fd) rfl hlate.cleanUp]
    exact .released hreleased
  · by_cases hkept : plan.fails = some (.close false)
    · have hclose : closeTemporary plan .close (Disk.staged previous plan.fd mode payload) =
          (.raise (.failed (.close false)), Disk.staged previous plan.fd mode payload) :=
        closeTemporary_of_kept (by decide) hkept
      have hrun : publish plan _ = _ := Proc.bind_of_raise hclose
      have hharmless := SysPlan.harmless hkept rfl
      rw [Proc.handle_of_raise hrun, cleanUp_of_staged hstaged hharmless.2]
      exact .undone hharmless.1 _ _ rfl rfl
    · have hother : ∀ released, plan.fails ≠ some (.close released) := by
        intro released
        cases released with
        | true => exact hreleased
        | false => exact hkept
      have hclose : closeTemporary plan .close (Disk.staged previous plan.fd mode payload) =
          (.ok (), Disk.closed previous plan.fd mode payload) := closeTemporary_of_open rfl hother
      have hmark : publish plan (Disk.staged previous plan.fd mode payload) =
          (replaceFile plan >>= fun _ => fsyncDirectory plan)
            (Disk.closed previous (-1) mode payload) :=
        Proc.bind_of_ok hclose
      by_cases hreplace : plan.fails = some .replace
      · have hstays : replaceFile plan (Disk.closed previous (-1) mode payload) =
            (.raise (.failed .replace), Disk.closed previous (-1) mode payload) :=
          sysCall_of_fails hreplace
        rw [Proc.bind_of_raise hstays] at hmark
        have hharmless := SysPlan.harmless hreplace rfl
        rw [Proc.handle_of_raise hmark, cleanUp_of_closed rfl hharmless.2]
        exact .undone hharmless.1 _ _ rfl rfl
      · have hpublished : replaceFile plan (Disk.closed previous (-1) mode payload) =
            (.ok (), Disk.published ⟨payload, mode⟩) := sysCall_of_ne hreplace
        rw [Proc.bind_of_ok hpublished] at hmark
        rcases fsyncDirectory_cases plan (Disk.published ⟨payload, mode⟩) with
          ⟨hlost, e, hraise⟩ | ⟨hkeeps, hok⟩
        · rw [hraise] at hmark
          have hlate : plan.FailsLate := .inr hlost
          rw [Proc.handle_of_raise hmark, cleanUp_of_closed rfl hlate.cleanUp]
          exact .directory hlost e
        · rw [hok] at hmark
          rw [Proc.handle_of_ok hmark]
          refine .done ?_
          rintro (h | h)
          · exact hreleased h
          · exact hkeeps h

/-! ## the whole call -/

/-- how a call ends -/
inductive CallEnds (plan : SysPlan) (previous : Option DiskFile) (payload : List UInt8) :
    Outcome WriteError Unit × Disk → Prop
  /-- staging fails, and the clean-up does its work -/
  | cleaned (e : WriteError) (d : Disk) (hd : d.destination = previous) (ht : d.temporary = none)
      (hwhy : plan.Stalls payload ∧ ¬ plan.FailsCleanUp ∨ plan.Harmless) :
      CallEnds plan previous payload (.raise e, d)
  /-- staging fails, and so does the clean-up -/
  | littered (e : WriteError) (d : Disk) (hd : d.destination = previous)
      (ht : d.temporary.isSome) (hstalls : plan.Stalls payload) (hclean : plan.FailsCleanUp) :
      CallEnds plan previous payload (.raise e, d)
  | staged (r : Outcome WriteError Unit × Disk) (hstalls : ¬ plan.Stalls payload)
      (h : WriteEnds plan previous (fileMode previous) payload r) :
      CallEnds plan previous payload r

theorem atomicWriteBytes_cases (plan : SysPlan) (previous : Option DiskFile)
    (payload : List UInt8) :
    CallEnds plan previous payload (atomicWriteBytes plan payload (Disk.initial previous)) := by
  rw [atomicWriteBytes_eq]
  by_cases hmkdir : plan.fails = some .mkdir
  · rw [Proc.bind_of_raise (sysCall_of_fails hmkdir)]
    exact .cleaned _ _ rfl rfl (.inr (SysPlan.harmless hmkdir rfl))
  rw [Proc.bind_of_ok (sysCall_of_ne hmkdir),
    show id (Disk.initial previous) = Disk.initial previous from rfl]
  by_cases hstat : plan.fails = some .stat
  · have hmode : destinationMode plan (Disk.initial previous) =
        (.raise (.failed .stat), Disk.initial previous) :=
      Proc.bind_of_raise (sysCall_of_fails hstat)
    rw [Proc.bind_of_raise hmode]
    exact .cleaned _ _ rfl rfl (.inr (SysPlan.harmless hstat rfl))
  have hmode : destinationMode plan (Disk.initial previous) =
      (.ok (fileMode previous), Disk.initial previous) := Proc.bind_of_ok (sysCall_of_ne hstat)
  rw [Proc.bind_of_ok hmode]
  by_cases hmkstemp : plan.fails = some .mkstemp
  · have hraise : mkstemp plan (Disk.initial previous) =
        (.raise (.failed .mkstemp), Disk.initial previous) := sysCall_of_fails hmkstemp
    rw [Proc.bind_of_raise hraise]
    exact .cleaned _ _ rfl rfl (.inr (SysPlan.harmless hmkstemp rfl))
  have hopened : mkstemp plan (Disk.initial previous) =
      (.ok (), Disk.opened previous plan.fd) := sysCall_of_ne hmkstemp
  rw [Proc.bind_of_ok hopened]
  rcases @stage_cases plan previous (fileMode previous) payload with
    ⟨e, d, hraise, hd, hwhy⟩ | ⟨hno, hok⟩
  · rw [Proc.handle_of_raise (Proc.bind_of_raise hraise)]
    by_cases hclean : plan.FailsCleanUp
    · obtain ⟨e', d', hrun, hdestination, htemporary⟩ := cleanUp_of_fails hd hclean e
      rw [hrun]
      exact .littered _ _ hdestination htemporary (hwhy.resolve_right fun h => h.2 hclean) hclean
    · rw [cleanUp_of_staged hd hclean]
      exact .cleaned _ _ hd.destination rfl (hwhy.imp_left fun hstalls => ⟨hstalls, hclean⟩)
  · have hsame : (stage plan (fileMode previous) payload >>= fun _ => publish plan).handle
          (cleanUp plan) (Disk.opened previous plan.fd) =
        (publish plan).handle (cleanUp plan)
          (Disk.staged previous plan.fd (fileMode previous) payload) := by
      unfold Proc.handle
      rw [Proc.bind_of_ok hok]
    rw [hsame]
    exact .staged _ hno (publish_cases plan previous (fileMode previous) payload)

/-- whatever fails, the destination holds its previous content or the payload; it holds the
payload if the call returns -/
theorem wp_atomicWriteBytes (plan : SysPlan) (previous : Option DiskFile) (payload : List UInt8) :
    wp (atomicWriteBytes plan payload)
      ⟨fun _ d => d.destination = some ⟨payload, fileMode previous⟩,
        fun _ d => d.destination = previous ∨ d.destination = some ⟨payload, fileMode previous⟩,
        fun _ => False⟩
      (Disk.initial previous) := by
  unfold wp
  have hcall := atomicWriteBytes_cases plan previous payload
  generalize atomicWriteBytes plan payload (Disk.initial previous) = r at hcall ⊢
  cases hcall with
  | cleaned e d hd => exact .inl hd
  | littered e d hd => exact .inl hd
  | staged r hstalls hends =>
    cases hends with
    | done h => exact rfl
    | released h => exact .inl rfl
    | directory h e => exact .inr rfl
    | undone h e d hd ht => exact .inl hd

theorem not_lost_of_released (h : plan.fails = some (.close true)) : ¬ plan.LosesDirectory := by
  intro hlost
  unfold SysPlan.LosesDirectory at hlost
  rw [h] at hlost
  rcases hlost with heq | heq | heq
  all_goals exact nomatch heq

theorem not_allOrNothing_of_lost (hstalls : ¬ plan.Stalls payload) (hlost : plan.LosesDirectory)
    (hne : contents previous ≠ some payload) : ¬ AllOrNothing plan previous payload := by
  unfold AllOrNothing wp
  have hcall := atomicWriteBytes_cases plan previous payload
  generalize atomicWriteBytes plan payload (Disk.initial previous) = r at hcall ⊢
  cases hcall with
  | cleaned e d hd ht hwhy =>
    exact ((hwhy.resolve_left fun h => hstalls h.1).1 (.inr hlost)).elim
  | littered e d hd ht hstalled => exact (hstalls hstalled).elim
  | staged r _ hends =>
    cases hends with
    | done h => exact (h (.inr hlost)).elim
    | released h => exact (not_lost_of_released h hlost).elim
    | directory h e => exact fun hlaw => hne hlaw.1.symm
    | undone h e d hd ht => exact (h (.inr hlost)).elim

/-- **When an atomic write is all or nothing.** -/
theorem atomic_write_all_or_nothing_iff (plan : SysPlan) (previous : Option DiskFile)
    (payload : List UInt8) :
    AllOrNothing plan previous payload ↔
      (plan.Stalls payload → ¬ plan.FailsCleanUp) ∧
        (¬ plan.Stalls payload → plan.fails ≠ some (.close true) ∧
          (plan.LosesDirectory → contents previous = some payload)) := by
  unfold AllOrNothing wp
  have hcall := atomicWriteBytes_cases plan previous payload
  generalize atomicWriteBytes plan payload (Disk.initial previous) = r at hcall ⊢
  cases hcall with
  | cleaned e d hd ht hwhy =>
    refine ⟨fun _ => ⟨fun hstalls hclean => ?_, fun hstalls => ?_⟩, fun _ => ⟨by rw [hd], ht⟩⟩
    · rcases hwhy with ⟨_, h⟩ | h
      · exact h hclean
      · exact h.2 hclean
    · have hlate := (hwhy.resolve_left fun h => hstalls h.1).1
      exact ⟨fun h => hlate (.inl h), fun h => (hlate (.inr h)).elim⟩
  | littered e d hd ht hstalls hclean =>
    refine ⟨fun hlaw => ?_, fun h => (h.1 hstalls hclean).elim⟩
    rw [hlaw.2] at ht
    exact nomatch ht
  | staged r hstalls hends =>
    have hcond : ((plan.Stalls payload → ¬ plan.FailsCleanUp) ∧
        (¬ plan.Stalls payload → plan.fails ≠ some (.close true) ∧
          (plan.LosesDirectory → contents previous = some payload))) ↔
        plan.fails ≠ some (.close true) ∧
          (plan.LosesDirectory → contents previous = some payload) :=
      ⟨fun h => h.2 hstalls, fun h => ⟨fun hs => (hstalls hs).elim, fun _ => h⟩⟩
    rw [hcond]
    cases hends with
    | done h =>
      exact ⟨fun _ => ⟨fun h' => h (.inl h'), fun h' => (h (.inr h')).elim⟩, fun _ => ⟨rfl, rfl⟩⟩
    | released h => exact ⟨fun hlaw => (nomatch hlaw.2), fun hkept => (hkept.1 h).elim⟩
    | directory h e =>
      exact ⟨fun hlaw => ⟨fun h' => not_lost_of_released h' h, fun _ => hlaw.1.symm⟩,
        fun hkept => ⟨(hkept.2 h).symm, rfl⟩⟩
    | undone h e d hd ht =>
      exact ⟨fun _ => ⟨fun h' => h (.inl h'), fun h' => (h (.inr h')).elim⟩,
        fun _ => ⟨by rw [hd], ht⟩⟩

/-- the directory is synced after the rename, and the call raises with the new content in place -/
theorem late_sync_failure_keeps_payload :
    ¬ ∀ (plan : SysPlan) (previous : Option DiskFile) (payload : List UInt8),
      AllOrNothing plan previous payload := by
  intro hlaw
  have hbroken := hlaw { fails := some .fsyncDirectory, accepts := fun _ => 4096, fd := 3 }
    (some ⟨[111, 108, 100], 384⟩) [110, 101, 119]
  refine not_allOrNothing_of_lost ?_ (.inr (.inl rfl)) (by decide) hbroken
  rintro ⟨n, hzero, -⟩
  exact absurd hzero (show (4096 : Nat) ≠ 0 by decide)

end

end Dolores
