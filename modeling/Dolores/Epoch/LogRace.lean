import Dolores.Epoch.LogSurvival
import Dolores.Lib.Volume

/-!
# Processes that share the submission log (`epoch.py`, `atomic.py`)

Each process repairs the log and then appends; the steps of all processes interleave.  An append
locks the inode it opened.  The repair takes no lock, and gives the path to a new inode.

* `step`, `run`                   the steps of the repair and of the append, in any order;
* `Inv`                           what holds of the file as long as no record is lost;
* `careful_run_loses_nothing`     no record is lost if no rename drops bytes that were appended
                                  since the read, and no write goes to an inode that lost its
                                  path;
* `append_before_rename_is_lost`  an interleaving of two processes that loses a record.
-/

set_option linter.unusedSectionVars false

namespace Dolores
namespace LogFile
open JsonText

/-! ## the steps -/

/-- a payload that `json.dumps` writes -/
structure Record (T : PyText) where
  payload : Obj
  writable : Writable T payload

/-- where a process is -/
inductive Pc (T : PyText)
  | start
  | read (raw : Bytes)
  /-- the bytes need no repair, and the file is read once more -/
  | checking
  | decided (raw repaired : Bytes)
  /-- the temporary file is written and not renamed -/
  | temporary (raw repaired : Bytes) (inode : Nat)
  | ready
  | opened (record : Record T) (inode : Nat)
  | locked (record : Record T) (inode : Nat)
  | written (record : Record T) (inode : Nat)
  /-- the repair raised -/
  | failed

structure Process (T : PyText) where
  pc : Pc T
  /-- the records still to append -/
  calls : List (Record T)
  /-- the records whose append has returned -/
  returned : List (Record T)

structure World (P : Type) (T : PyText) where
  volume : Volume UInt8
  lock : Nat → Option P
  process : P → Process T

section
variable {P : Type} [DecidableEq P] (T : PyText)

def World.start (file : Option Bytes) (calls : P → List (Record T)) : World P T where
  volume := .ofFile file
  lock _ := none
  process p := { pc := .start, calls := calls p, returned := [] }

variable {T}

def World.set (w : World P T) (p : P) (process : Process T) : World P T :=
  { w with process := Function.update w.process p process }

def World.goto (w : World P T) (p : P) (pc : Pc T) : World P T :=
  w.set p { w.process p with pc }

variable (T) in
/-- what `repair_jsonl_tail` does with the bytes it read -/
def decideRepair (raw : Bytes) : Pc T :=
  if raw.isEmpty || endsWithNewline raw then .checking
  else
    match repairJsonlTail T (some raw) with
    | .ok (_, some repaired) => .decided raw repaired
    | _ => .failed

/-- the next step of the process, if it is not waiting -/
def step (w : World P T) (p : P) : Option (World P T) :=
  match (w.process p).pc with
  | .start =>
    match w.volume.path with
    | none => some (w.goto p .ready)
    | some i => some (w.goto p (.read (w.volume.bytes i)))
  | .read raw => some (w.goto p (decideRepair T raw))
  | .checking =>
    match readJsonlToleratingTornFinal T w.volume.content with
    | .ok _ => some (w.goto p .ready)
    | .error _ => some (w.goto p .failed)
  | .decided raw repaired =>
    some { w.goto p (.temporary raw repaired w.volume.next) with
      volume := w.volume.create repaired }
  | .temporary _ _ i => some { w.goto p .ready with volume := w.volume.rename i }
  | .ready =>
    match (w.process p).calls with
    | [] => none
    | record :: calls =>
      some { w.set p { w.process p with pc := .opened record w.volume.openFile.1, calls } with
        volume := w.volume.openFile.2 }
  | .opened record i =>
    if w.lock i = none then
      some { w.goto p (.locked record i) with lock := Function.update w.lock i (some p) }
    else none
  | .locked record i =>
    some { w.goto p (.written record i) with
      volume := w.volume.append i (lineBytes T record.payload) }
  | .written record i =>
    some { w.set p { w.process p with
        pc := .ready, returned := (w.process p).returned ++ [record] } with
      lock := Function.update w.lock i none }
  | .failed => none

/-- one interleaving: the processes in the order of their steps -/
def run (w : World P T) (schedule : List P) : Option (World P T) := schedule.foldlM step w

/-! ## no record is lost -/

/-- the lines of a file that end in a newline -/
def completeLines (raw : Bytes) : List Bytes := (raw.splitOn newline).dropLast

/-- a record that is written and whose append has not returned -/
def Pc.pending : Pc T → List (Record T)
  | .written record _ => [record]
  | _ => []

/-- the lines before any append: those of the file, or those of the repaired file -/
def OldLines (T : PyText) (file : Option Bytes) (old : List Bytes) : Prop :=
  old = completeLines (file.getD []) ∨
    ∃ changed repaired, repairJsonlTail T file = .ok (changed, some repaired) ∧
      old = completeLines repaired

/-- The complete lines at the path are the old ones and one for each append that has written its
record, those of each process in order; every append that has returned is among them. -/
def LosesNothing (file : Option Bytes) (w : World P T) : Prop :=
  ∃ (old : List Bytes) (landed : List (P × Record T)), OldLines T file old ∧
    completeLines w.volume.content = old ++ landed.map (fun a => recordBytes T a.2.payload) ∧
    ∀ p, (landed.filter fun a => a.1 = p).map Prod.snd =
      (w.process p).returned ++ (w.process p).pc.pending

/-- the next step overwrites nothing that was appended since the file was read, and does not write
to a file that the path no longer names -/
def Pc.Careful (volume : Volume UInt8) : Pc T → Prop
  | .temporary raw repaired _ => volume.content = raw ∨ volume.content = repaired
  | .locked _ i => volume.path = some i
  | .start | .read _ | .checking | .decided _ _ | .ready | .opened _ _ | .written _ _ | .failed =>
    True

instance (volume : Volume UInt8) : (pc : Pc T) → Decidable (pc.Careful volume)
  | .temporary raw repaired _ =>
    inferInstanceAs (Decidable (volume.content = raw ∨ volume.content = repaired))
  | .locked _ i => inferInstanceAs (Decidable (volume.path = some i))
  | .start | .read _ | .checking | .decided _ _ | .ready | .opened _ _ | .written _ _ | .failed =>
    inferInstanceAs (Decidable True)

/-- every step of the run is careful -/
def CarefulRun (w : World P T) : List P → Prop
  | [] => True
  | p :: schedule => (w.process p).pc.Careful w.volume ∧
      match step w p with
      | none => True
      | some w' => CarefulRun w' schedule

instance (w : World P T) : (schedule : List P) → Decidable (CarefulRun w schedule)
  | [] => inferInstanceAs (Decidable True)
  | p :: schedule =>
    have : Decidable (match step w p with
        | none => True
        | some w' => CarefulRun w' schedule) :=
      match step w p with
      | none => inferInstanceAs (Decidable True)
      | some w' => instDecidableCarefulRun w' schedule
    inferInstanceAs (Decidable (_ ∧ _))

end

/-! ## what holds of the file -/

section
variable {P : Type} [DecidableEq P] {T : PyText}

/-- bytes that the repair rewrites, unless it raises -/
def OpenTail (raw : Bytes) : Prop := ¬ (raw.isEmpty || endsWithNewline raw) = true

variable (T) in
/-- the repair of a file -/
def Repairs (raw repaired : Bytes) : Prop :=
  OpenTail raw ∧ ∃ changed, repairJsonlTail T (some raw) = .ok (changed, some repaired)

/-- a process that has not appended, and whose repair is not done; a file it read was this one -/
def Pc.Repairing (raw : Bytes) : Pc T → Prop
  | .start | .decided _ _ | .temporary _ _ _ | .failed => True
  | .read raw' => raw' = raw
  | _ => False

/-- what a process knows of its temporary file -/
def Pc.Sound (volume : Volume UInt8) : Pc T → Prop
  | .decided raw repaired => Repairs T raw repaired
  | .temporary raw repaired i => Repairs T raw repaired ∧ volume.Unnamed i repaired
  | _ => True

/-- the inode of the temporary file -/
def Pc.inode? : Pc T → Option Nat
  | .temporary _ _ i => some i
  | _ => none

/-- the file is not repaired yet, and nothing was appended -/
def Unrepaired (file : Option Bytes) (w : World P T) : Prop :=
  ∃ raw, file = some raw ∧ OpenTail raw ∧ w.volume.content = raw ∧
    ∀ p, (w.process p).pc.Repairing raw ∧ (w.process p).returned = []

/-- every line is complete, and is an old one or that of an append -/
def Settled (file : Option Bytes) (w : World P T) : Prop :=
  ∃ (old : List Bytes) (landed : List (P × Record T)), OldLines T file old ∧
    (∀ line ∈ old, newline ∉ line) ∧
    w.volume.content = terminate (old ++ landed.map fun a => recordBytes T a.2.payload) ∧
    ∀ p, (landed.filter fun a => a.1 = p).map Prod.snd =
      (w.process p).returned ++ (w.process p).pc.pending

structure Inv (file : Option Bytes) (w : World P T) : Prop where
  valid : w.volume.Valid
  sound : ∀ p, (w.process p).pc.Sound w.volume
  distinct : ∀ p q i, (w.process p).pc.inode? = some i → (w.process q).pc.inode? = some i → p = q
  content : Settled file w ∨ Unrepaired file w

/-! ### lines -/

theorem completeLines_terminate {lines : List Bytes} (h : ∀ line ∈ lines, newline ∉ line) :
    completeLines (terminate lines) = lines := by
  unfold completeLines
  rw [splitOn_closed h, List.dropLast_concat]

theorem openTail_lines {lines : List Bytes} {tail : Bytes}
    (h : OpenTail (terminate lines ++ tail)) : tail ≠ [] := by
  intro hnil
  apply h
  rw [hnil, List.append_nil]
  cases lines with
  | nil => rfl
  | cons line lines =>
    have hends := @endsWithNewline_iff (line :: lines) [] List.not_mem_nil
    rw [List.append_nil] at hends
    rw [hends.mpr ⟨rfl, List.cons_ne_nil _ _⟩, Bool.or_true]

theorem not_openTail_terminate (lines : List Bytes) : ¬ OpenTail (terminate lines) := by
  intro h
  have hne := @openTail_lines lines []
  rw [List.append_nil] at hne
  exact hne h rfl

theorem lines_of_closed {raw : Bytes} (h : ¬ OpenTail raw) :
    ∃ lines, (∀ line ∈ lines, newline ∉ line) ∧ raw = terminate lines := by
  obtain ⟨lines, tail, hlines, htail, hraw⟩ := exists_lines raw
  refine ⟨lines, hlines, ?_⟩
  cases tail with
  | nil => rw [hraw, List.append_nil]
  | cons b tail =>
    refine absurd ?_ h
    unfold OpenTail
    rw [hraw, Bool.or_eq_true, List.isEmpty_iff, endsWithNewline_iff htail]
    intro hclosed
    rcases hclosed with hnil | hends
    · exact absurd hnil (List.append_ne_nil_of_right_ne_nil _ (List.cons_ne_nil _ _))
    · exact absurd hends.1 (List.cons_ne_nil _ _)

/-- a repaired file has no open part -/
theorem lines_of_repairs {raw repaired : Bytes} (h : Repairs T raw repaired) :
    ∃ lines, (∀ line ∈ lines, newline ∉ line) ∧ repaired = terminate lines := by
  obtain ⟨hopen, changed, hrepair⟩ := h
  obtain ⟨lines, tail, hlines, htail, hraw⟩ := exists_lines raw
  rw [hraw] at hopen hrepair
  rw [repairJsonlTail_open hlines htail (openTail_lines hopen)] at hrepair
  obtain ⟨_, _, hrepair⟩ := Except.bind_ok hrepair
  split at hrepair
  · have heq := (Prod.mk.inj (Except.ok.inj hrepair)).2
    exact ⟨lines, hlines, (Option.some.inj heq).symm⟩
  · have heq := (Prod.mk.inj (Except.ok.inj hrepair)).2
    refine ⟨lines ++ [tail], ?_, ?_⟩
    · intro line hline
      rcases List.mem_append.mp hline with hline | hline
      · exact hlines line hline
      · rw [List.mem_singleton.mp hline]
        exact htail
    · rw [terminate_concat]
      exact (Option.some.inj heq).symm
  · exact nomatch hrepair

theorem oldLines_closed {file : Option Bytes} {lines : List Bytes}
    (hlines : ∀ line ∈ lines, newline ∉ line) (hfile : file.getD [] = terminate lines) :
    OldLines T file lines := by
  left
  rw [hfile, completeLines_terminate hlines]

theorem newline_not_mem_landed {old : List Bytes} (hold : ∀ line ∈ old, newline ∉ line)
    (landed : List (P × Record T)) :
    ∀ line ∈ old ++ landed.map (fun a => recordBytes T a.2.payload), newline ∉ line := by
  intro line hline
  rcases List.mem_append.mp hline with hline | hline
  · exact hold line hline
  · obtain ⟨a, _, heq⟩ := List.mem_map.mp hline
    rw [← heq]
    exact newline_not_mem a.2.writable

theorem Pc.Repairing.not_pending {raw : Bytes} {pc : Pc T} (h : pc.Repairing raw) :
    pc.pending = [] := by
  cases pc with
  | written => exact h.elim
  | start | read | checking | decided | temporary | ready | opened | locked | failed => rfl

/-- as long as the invariant holds no record is lost -/
theorem Inv.losesNothing {file : Option Bytes} {w : World P T} (h : Inv file w) :
    LosesNothing file w := by
  rcases h.content with hsettled | hunrepaired
  · obtain ⟨old, landed, hold, hlines, hcontent, hlanded⟩ := hsettled
    refine ⟨old, landed, hold, ?_, hlanded⟩
    rw [hcontent, completeLines_terminate (newline_not_mem_landed hlines landed)]
  · obtain ⟨raw, hfile, _, hcontent, hprocess⟩ := hunrepaired
    refine ⟨completeLines raw, [], .inl ?_, ?_, ?_⟩
    · rw [hfile]
      rfl
    · rw [hcontent]
      exact (List.append_nil _).symm
    · intro p
      rw [(hprocess p).2, (hprocess p).1.not_pending]
      rfl

end

/-! ## one step -/

section
variable {P : Type} [DecidableEq P] {T : PyText} {file : Option Bytes} {w : World P T} {p : P}

theorem Pc.Sound.mono {pc : Pc T} {v v' : Volume UInt8} (h : pc.Sound v)
    (hkeep : ∀ i bs, pc.inode? = some i → v.Unnamed i bs → v'.Unnamed i bs) : pc.Sound v' := by
  cases pc with
  | decided raw repaired => exact h
  | temporary raw repaired i => exact ⟨h.1, hkeep i repaired rfl h.2⟩
  | start | read | checking | ready | opened | locked | written | failed => trivial

/-- a process in a new state, over a volume that names the temporary files of no other process -/
theorem Inv.update (h : Inv file w) {volume : Volume UInt8} {lock : Nat → Option P}
    {x : Process T} (hvalid : volume.Valid) (hself : x.pc.Sound volume)
    (hothers : ∀ q i bs, q ≠ p → (w.process q).pc.inode? = some i → w.volume.Unnamed i bs →
      volume.Unnamed i bs)
    (hinode : ∀ i, x.pc.inode? = some i → ∀ q, q ≠ p → (w.process q).pc.inode? ≠ some i)
    (hcontent : Settled file ⟨volume, lock, Function.update w.process p x⟩ ∨
      Unrepaired file ⟨volume, lock, Function.update w.process p x⟩) :
    Inv file ⟨volume, lock, Function.update w.process p x⟩ where
  valid := hvalid
  sound := by
    intro q
    by_cases hq : q = p
    · rw [hq]
      dsimp only
      rw [Function.update_self]
      exact hself
    · dsimp only
      rw [Function.update_of_ne hq]
      exact (h.sound q).mono fun i bs hi => hothers q i bs hq hi
  distinct := by
    intro q r i hqi hri
    dsimp only at hqi hri
    by_cases hq : q = p
    · by_cases hr : r = p
      · rw [hq, hr]
      · rw [hq, Function.update_self] at hqi
        rw [Function.update_of_ne hr] at hri
        exact absurd hri (hinode i hqi r hr)
    · rw [Function.update_of_ne hq] at hqi
      by_cases hr : r = p
      · rw [hr, Function.update_self] at hri
        exact absurd hqi (hinode i hri q hq)
      · rw [Function.update_of_ne hr] at hri
        exact h.distinct q r i hqi hri
  content := hcontent

/-- a step that leaves the bytes at the path, and what the process has appended -/
theorem Inv.content_same (h : Inv file w) {volume : Volume UInt8} {lock : Nat → Option P}
    {x : Process T} (hcontent : volume.content = w.volume.content)
    (hreturned : x.returned ++ x.pc.pending =
      (w.process p).returned ++ (w.process p).pc.pending)
    (hrepairing : ∀ raw, OpenTail raw → w.volume.content = raw →
      (w.process p).pc.Repairing raw → (w.process p).returned = [] →
        x.pc.Repairing raw ∧ x.returned = []) :
    Settled file ⟨volume, lock, Function.update w.process p x⟩ ∨
      Unrepaired file ⟨volume, lock, Function.update w.process p x⟩ := by
  rcases h.content with hsettled | hunrepaired
  · left
    obtain ⟨old, landed, hold, hlines, hbytes, hlanded⟩ := hsettled
    refine ⟨old, landed, hold, hlines, hcontent.trans hbytes, ?_⟩
    intro q
    rw [hlanded q]
    by_cases hq : q = p
    · rw [hq]
      dsimp only
      rw [Function.update_self, hreturned]
    · dsimp only
      rw [Function.update_of_ne hq]
  · right
    obtain ⟨raw, hfile, hopen, hbytes, hprocess⟩ := hunrepaired
    refine ⟨raw, hfile, hopen, hcontent.trans hbytes, ?_⟩
    intro q
    by_cases hq : q = p
    · rw [hq]
      dsimp only
      rw [Function.update_self]
      exact hrepairing raw hopen hbytes (hprocess p).1 (hprocess p).2
    · dsimp only
      rw [Function.update_of_ne hq]
      exact hprocess q

/-- a step of a process alone -/
theorem Inv.goto (h : Inv file w) {pc : Pc T} (hsound : pc.Sound w.volume)
    (hinode : pc.inode? = none) (hpending : pc.pending = (w.process p).pc.pending)
    (hrepairing : ∀ raw, OpenTail raw → w.volume.content = raw →
      (w.process p).pc.Repairing raw → pc.Repairing raw) : Inv file (w.goto p pc) := by
  apply h.update h.valid hsound
  · intro q i bs _ _ hunnamed
    exact hunnamed
  · intro i hi
    rw [hinode] at hi
    exact absurd hi.symm (Option.some_ne_none _)
  · apply h.content_same rfl
    · show (w.process p).returned ++ pc.pending = _
      rw [hpending]
    · intro raw hopen hbytes hpc hnone
      exact ⟨hrepairing raw hopen hbytes hpc, hnone⟩

/-! ### the steps of the repair -/

theorem Inv.exists_or_read (h : Inv file w) (hpc : (w.process p).pc = .start) {w' : World P T}
    (hstep : step w p = some w') : Inv file w' := by
  unfold step at hstep
  rw [hpc] at hstep
  dsimp only at hstep
  cases hpath : w.volume.path with
  | none =>
    rw [hpath] at hstep
    rw [← Option.some.inj hstep]
    refine h.goto trivial rfl (by rw [hpc]; rfl) ?_
    intro raw hopen hbytes
    have hempty : w.volume.content = [] := by
      unfold Volume.content
      rw [hpath]
    rw [← hbytes, hempty] at hopen
    exact absurd rfl hopen
  | some i =>
    rw [hpath] at hstep
    rw [← Option.some.inj hstep]
    refine h.goto trivial rfl (by rw [hpc]; rfl) ?_
    intro raw _ hbytes _
    rw [← Volume.content_of_path hpath]
    exact hbytes

theorem decideRepair_sound (raw : Bytes) (volume : Volume UInt8) :
    (decideRepair T raw).Sound volume ∧ (decideRepair T raw).inode? = none ∧
      (decideRepair T raw).pending = [] ∧
      (OpenTail raw → ∀ raw', (decideRepair T raw).Repairing raw') := by
  unfold decideRepair
  by_cases hclosed : (raw.isEmpty || endsWithNewline raw) = true
  · rw [if_pos hclosed]
    exact ⟨trivial, rfl, rfl, fun hopen => absurd hclosed hopen⟩
  · rw [if_neg hclosed]
    cases hrepair : repairJsonlTail T (some raw) with
    | error e => exact ⟨trivial, rfl, rfl, fun _ _ => trivial⟩
    | ok r =>
      obtain ⟨changed, after⟩ := r
      cases after with
      | none => exact ⟨trivial, rfl, rfl, fun _ _ => trivial⟩
      | some repaired =>
        exact ⟨⟨hclosed, changed, hrepair⟩, rfl, rfl, fun _ _ => trivial⟩

theorem Inv.readDecision (h : Inv file w) {raw : Bytes} (hpc : (w.process p).pc = .read raw)
    {w' : World P T} (hstep : step w p = some w') : Inv file w' := by
  unfold step at hstep
  rw [hpc] at hstep
  rw [← Option.some.inj hstep]
  obtain ⟨hsound, hinode, hpending, hrepairing⟩ := decideRepair_sound (T := T) raw w.volume
  refine h.goto hsound hinode (by rw [hpc]; exact hpending) ?_
  intro raw' hopen _ hread
  rw [hpc] at hread
  have hraw : raw = raw' := hread
  rw [← hraw] at hopen
  exact hrepairing hopen raw'

theorem Inv.check (h : Inv file w) (hpc : (w.process p).pc = .checking) {w' : World P T}
    (hstep : step w p = some w') : Inv file w' := by
  unfold step at hstep
  rw [hpc] at hstep
  dsimp only at hstep
  have hrepairing : ∀ pc : Pc T, ∀ raw, OpenTail raw → w.volume.content = raw →
      (w.process p).pc.Repairing raw → pc.Repairing raw := by
    intro pc raw _ _ hchecking
    rw [hpc] at hchecking
    exact hchecking.elim
  cases hread : readJsonlToleratingTornFinal T w.volume.content with
  | ok rows =>
    rw [hread] at hstep
    rw [← Option.some.inj hstep]
    exact h.goto trivial rfl (by rw [hpc]; rfl) (hrepairing _)
  | error e =>
    rw [hread] at hstep
    rw [← Option.some.inj hstep]
    exact h.goto trivial rfl (by rw [hpc]; rfl) (hrepairing _)

theorem Inv.writeTemporary (h : Inv file w) {raw repaired : Bytes}
    (hpc : (w.process p).pc = .decided raw repaired) {w' : World P T}
    (hstep : step w p = some w') : Inv file w' := by
  unfold step at hstep
  rw [hpc] at hstep
  rw [← Option.some.inj hstep]
  have hrepairs : Repairs T raw repaired := by
    have hsound := h.sound p
    rw [hpc] at hsound
    exact hsound
  apply h.update (h.valid.create repaired)
  · exact ⟨hrepairs, Volume.unnamed_create h.valid repaired⟩
  · intro q i bs _ _ hunnamed
    exact hunnamed.create repaired
  · intro i hi q hq hqi
    have hnext : w.volume.next = i := Option.some.inj hi
    have hsound := h.sound q
    cases hpcq : (w.process q).pc with
    | temporary raw' repaired' j =>
      rw [hpcq] at hsound hqi
      have hj : j = i := Option.some.inj hqi
      have hlt := hsound.2.1
      omega
    | start | read | checking | decided | ready | opened | locked | written | failed =>
      rw [hpcq] at hqi
      exact absurd hqi.symm (Option.some_ne_none _)
  · apply h.content_same (Volume.content_create h.valid repaired)
    · rw [hpc]
      rfl
    · intro _ _ _ _ hnone
      exact ⟨trivial, hnone⟩

/-- the rename of the temporary file, when the path still holds what was read, or the same repair -/
theorem Inv.renameTemporary (h : Inv file w) {raw repaired : Bytes} {i : Nat}
    (hpc : (w.process p).pc = .temporary raw repaired i)
    (hcareful : w.volume.content = raw ∨ w.volume.content = repaired) {w' : World P T}
    (hstep : step w p = some w') : Inv file w' := by
  unfold step at hstep
  rw [hpc] at hstep
  rw [← Option.some.inj hstep]
  have hsound : Repairs T raw repaired ∧ w.volume.Unnamed i repaired := by
    have hsound := h.sound p
    rw [hpc] at hsound
    exact hsound
  obtain ⟨hrepairs, hlt, hpath, hbytes⟩ := hsound
  have hcontent : (w.volume.rename i).content = repaired := hbytes
  refine h.update (Volume.valid_rename hlt) ?_ ?_ ?_ ?_
  · trivial
  · intro q j bs hq hqj hunnamed
    apply hunnamed.rename
    intro hij
    rw [hij] at hqj
    exact hq (h.distinct q p i hqj (by rw [hpc]; rfl))
  · intro j hj
    exact absurd hj.symm (Option.some_ne_none _)
  · rcases h.content with hsettled | hunrepaired
    · -- the path holds complete lines, so it holds what the rename puts there
      have hclosed : ¬ OpenTail w.volume.content := by
        obtain ⟨old, landed, _, _, hbytes, _⟩ := hsettled
        rw [hbytes]
        exact not_openTail_terminate _
      have hsame : w.volume.content = repaired := by
        rcases hcareful with hraw | hsame
        · rw [hraw] at hclosed
          exact absurd hrepairs.1 hclosed
        · exact hsame
      apply h.content_same (hcontent.trans hsame.symm)
      · rw [hpc]
        rfl
      · intro raw' hopen hbytes
        rw [hbytes] at hclosed
        exact absurd hopen hclosed
    · left
      obtain ⟨raw', hfile, hopen, hread, hprocess⟩ := hunrepaired
      obtain ⟨lines, hlines, hrepaired⟩ := lines_of_repairs hrepairs
      have hraw : raw' = raw := by
        rcases hcareful with hraw | hsame
        · rw [← hread, hraw]
        · rw [← hread, hsame, hrepaired] at hopen
          exact absurd hopen (not_openTail_terminate lines)
      obtain ⟨changed, hrepair⟩ := hrepairs.2
      refine ⟨lines, [], .inr ⟨changed, repaired, ?_, ?_⟩, hlines, ?_, ?_⟩
      · rw [hfile, hraw]
        exact hrepair
      · rw [hrepaired, completeLines_terminate hlines]
      · rw [List.map_nil, List.append_nil, ← hrepaired]
        exact hcontent
      · intro q
        by_cases hq : q = p
        · rw [hq]
          dsimp only
          rw [Function.update_self]
          exact (List.append_eq_nil_iff.mpr ⟨(hprocess p).2, rfl⟩).symm
        · dsimp only
          rw [Function.update_of_ne hq, (hprocess q).2, (hprocess q).1.not_pending]
          rfl

/-! ### the steps of the append -/

/-- a process that is appending: the file needs no repair -/
theorem not_repairing {pc : Pc T} (hpc : (w.process p).pc = pc)
    (hnot : ∀ raw, ¬ pc.Repairing raw) {x : Process T} :
    ∀ raw, OpenTail raw → w.volume.content = raw →
      (w.process p).pc.Repairing raw → (w.process p).returned = [] →
        x.pc.Repairing raw ∧ x.returned = [] := by
  intro raw _ _ hrepairing
  rw [hpc] at hrepairing
  exact absurd hrepairing (hnot raw)

theorem Inv.openLog (h : Inv file w) (hpc : (w.process p).pc = .ready) {w' : World P T}
    (hstep : step w p = some w') : Inv file w' := by
  unfold step at hstep
  rw [hpc] at hstep
  dsimp only at hstep
  cases hcalls : (w.process p).calls with
  | nil =>
    rw [hcalls] at hstep
    exact nomatch hstep
  | cons record calls =>
    rw [hcalls] at hstep
    rw [← Option.some.inj hstep]
    refine h.update h.valid.openFile ?_ ?_ ?_ ?_
    · trivial
    · intro q i bs _ _ hunnamed
      exact hunnamed.openFile
    · intro i hi
      exact absurd hi.symm (Option.some_ne_none _)
    · apply h.content_same (Volume.content_openFile w.volume)
      · rw [hpc]
        rfl
      · exact not_repairing hpc fun _ h => h

theorem Inv.lockLog (h : Inv file w) {record : Record T} {i : Nat}
    (hpc : (w.process p).pc = .opened record i) {w' : World P T}
    (hstep : step w p = some w') : Inv file w' := by
  unfold step at hstep
  rw [hpc] at hstep
  dsimp only at hstep
  by_cases hlock : w.lock i = none
  · rw [if_pos hlock] at hstep
    rw [← Option.some.inj hstep]
    refine h.update h.valid ?_ ?_ ?_ ?_
    · trivial
    · intro q j bs _ _ hunnamed
      exact hunnamed
    · intro j hj
      exact absurd hj.symm (Option.some_ne_none _)
    · apply h.content_same rfl
      · rw [hpc]
        rfl
      · exact not_repairing hpc fun _ h => h
  · rw [if_neg hlock] at hstep
    exact nomatch hstep

theorem landed_self (p : P) (record : Record T) :
    ([(p, record)].filter fun a => a.1 = p).map Prod.snd = [record] := by
  simp

theorem landed_other {p q : P} (h : p ≠ q) (record : Record T) :
    ([(p, record)].filter fun a => a.1 = q).map Prod.snd = [] := by
  simp [h]

/-- the write, when the path still names the inode that was opened -/
theorem Inv.writeLog (h : Inv file w) {record : Record T} {i : Nat}
    (hpc : (w.process p).pc = .locked record i) (hcareful : w.volume.path = some i)
    {w' : World P T} (hstep : step w p = some w') : Inv file w' := by
  unfold step at hstep
  rw [hpc] at hstep
  rw [← Option.some.inj hstep]
  refine h.update (h.valid.append i _) ?_ ?_ ?_ ?_
  · trivial
  · intro q j bs _ _ hunnamed
    exact hunnamed.append hcareful _
  · intro j hj
    exact absurd hj.symm (Option.some_ne_none _)
  · rcases h.content with hsettled | ⟨raw, _, _, _, hprocess⟩
    · left
      obtain ⟨old, landed, hold, hlines, hbytes, hlanded⟩ := hsettled
      refine ⟨old, landed ++ [(p, record)], hold, hlines, ?_, ?_⟩
      · rw [List.map_append, List.map_singleton, ← List.append_assoc, terminate_concat,
          ← hbytes, List.append_assoc]
        exact Volume.content_append hcareful _
      · intro q
        rw [List.filter_append, List.map_append, hlanded q]
        by_cases hq : q = p
        · rw [hq, landed_self]
          dsimp only
          rw [Function.update_self, hpc]
          show (w.process p).returned ++ [] ++ [record] = _
          rw [List.append_nil]
          rfl
        · rw [landed_other (Ne.symm hq)]
          dsimp only
          rw [Function.update_of_ne hq, List.append_nil]
    · have hrepairing := (hprocess p).1
      rw [hpc] at hrepairing
      exact hrepairing.elim

theorem Inv.unlockLog (h : Inv file w) {record : Record T} {i : Nat}
    (hpc : (w.process p).pc = .written record i) {w' : World P T}
    (hstep : step w p = some w') : Inv file w' := by
  unfold step at hstep
  rw [hpc] at hstep
  rw [← Option.some.inj hstep]
  refine h.update h.valid ?_ ?_ ?_ ?_
  · trivial
  · intro q j bs _ _ hunnamed
    exact hunnamed
  · intro j hj
    exact absurd hj.symm (Option.some_ne_none _)
  · apply h.content_same rfl
    · rw [hpc]
      exact List.append_nil _
    · exact not_repairing hpc fun _ h => h

/-! ## whole runs -/

theorem Inv.step (h : Inv file w) (hcareful : (w.process p).pc.Careful w.volume)
    {w' : World P T} (hstep : step w p = some w') : Inv file w' := by
  cases hpc : (w.process p).pc with
  | start => exact h.exists_or_read hpc hstep
  | read raw => exact h.readDecision hpc hstep
  | checking => exact h.check hpc hstep
  | decided raw repaired => exact h.writeTemporary hpc hstep
  | temporary raw repaired i =>
    rw [hpc] at hcareful
    exact h.renameTemporary hpc hcareful hstep
  | ready => exact h.openLog hpc hstep
  | opened record i => exact h.lockLog hpc hstep
  | locked record i =>
    rw [hpc] at hcareful
    exact h.writeLog hpc hcareful hstep
  | written record i => exact h.unlockLog hpc hstep
  | failed =>
    unfold LogFile.step at hstep
    rw [hpc] at hstep
    exact nomatch hstep

theorem Inv.run {schedule : List P} (h : Inv file w) (hcareful : CarefulRun w schedule)
    {w' : World P T} (hrun : run w schedule = some w') : Inv file w' := by
  induction schedule generalizing w with
  | nil =>
    rw [← Option.some.inj hrun]
    exact h
  | cons p schedule ih =>
    unfold LogFile.run at hrun
    rw [List.foldlM_cons] at hrun
    obtain ⟨w₁, hstep, hrest⟩ := Option.bind_eq_some_iff.mp hrun
    obtain ⟨hstep', hcareful⟩ := hcareful
    rw [hstep] at hcareful
    exact ih (h.step hstep' hstep) hcareful hrest

theorem Inv.start (file : Option Bytes) (calls : P → List (Record T)) :
    Inv file (World.start T file calls) where
  valid := Volume.valid_ofFile file
  sound _ := trivial
  distinct _ _ i hi := absurd hi.symm (Option.some_ne_none _)
  content := by
    have hcontent : (World.start T file calls).volume.content = file.getD [] :=
      Volume.content_ofFile file
    by_cases hopen : OpenTail (file.getD [])
    · right
      cases file with
      | none => exact absurd rfl hopen
      | some raw => exact ⟨raw, rfl, hopen, hcontent, fun p => ⟨trivial, rfl⟩⟩
    · left
      obtain ⟨lines, hlines, hraw⟩ := lines_of_closed hopen
      refine ⟨lines, [], oldLines_closed hlines hraw, hlines, ?_, fun p => rfl⟩
      rw [hcontent, hraw, List.map_nil, List.append_nil]

/-- No record is lost, in any interleaving of any processes over any file, as long as no repair
renames its file over bytes that were appended since it read, and no append writes to an inode that
the path no longer names. -/
theorem careful_run_loses_nothing (file : Option Bytes) (calls : P → List (Record T))
    (schedule : List P) (hcareful : CarefulRun (World.start T file calls) schedule)
    (w : World P T) (hrun : run (World.start T file calls) schedule = some w) :
    LosesNothing file w :=
  ((Inv.start file calls).run hcareful hrun).losesNothing

/-! ## two processes -/

inductive Party
  | tick
  | once
deriving DecidableEq

def sampleRecord : Record sampleText where
  payload := [("epoch_id", .int 1)]
  writable := by simp [Writable, Printable, PrintableFields, Dict.keys]

/-- a file that holds the first byte of a record, and a record for each process -/
def sampleWorld : World Party sampleText :=
  .start sampleText (some ((recordBytes sampleText sampleRecord.payload).take 1))
    fun _ => [sampleRecord]

/-- both processes read the torn file and repair it, and then append -/
def carefulSchedule : List Party :=
  [.tick, .once, .tick, .once, .tick, .tick, .once, .once, .tick, .once, .tick, .tick, .tick,
    .once, .once, .once]

theorem careful_run_sample : ∃ w, run sampleWorld carefulSchedule = some w ∧
    LosesNothing (some ((recordBytes sampleText sampleRecord.payload).take 1)) w := by
  refine ⟨_, rfl, ?_⟩
  exact careful_run_loses_nothing _ (fun _ => [sampleRecord]) carefulSchedule (by decide +kernel) _
    rfl

/-- one process reads the torn file; the other repairs it and appends; then the first renames its
own repair -/
def raceSchedule : List Party :=
  [.tick, .once, .once, .once, .once, .once, .once, .once, .once, .tick, .tick, .tick]

/-- An append that returned between the read and the rename of the other process is lost. -/
theorem append_before_rename_is_lost : ∃ w, run sampleWorld raceSchedule = some w ∧
    (w.process .once).returned = [sampleRecord] ∧ w.volume.content = [] ∧
    ¬ LosesNothing (some ((recordBytes sampleText sampleRecord.payload).take 1)) w := by
  refine ⟨_, rfl, rfl, rfl, ?_⟩
  intro hnothing
  obtain ⟨old, landed, _, hlines, hlanded⟩ := hnothing
  have hempty : [] = old ++ landed.map fun a => recordBytes sampleText a.2.payload := hlines
  have hnone : landed = [] := List.map_eq_nil_iff.mp (List.append_eq_nil_iff.mp hempty.symm).2
  have honce := hlanded .once
  rw [hnone] at honce
  exact nomatch honce

end

end LogFile
end Dolores
