import Mathlib.Data.List.Basic

/-!
# Marked runs before a colon

A text is searched for a mark, a run of symbols that are neither marks nor escapes, a mark,
blanks, and a colon, such that the run is a hit.  `scan` finds the same in one pass: it keeps the
run since the last mark, and whether a hit has just been closed.

* `found_foldl_step`   what a scan finds, from any state;
* `search_eq_scan`     the search and the scan agree.
-/

namespace MarkScan

structure Alphabet (α : Type) where
  mark : α
  escape : α
  colon : α
  blank : α → Bool
  mark_ne_escape : mark ≠ escape
  colon_ne_mark : colon ≠ mark
  colon_ne_escape : colon ≠ escape
  not_blank_mark : blank mark = false
  not_blank_escape : blank escape = false
  not_blank_colon : blank colon = false

section
variable {α : Type} [DecidableEq α] (A : Alphabet α) (hit : List α → Bool)

def Alphabet.plain (c : α) : Bool := c ≠ A.mark && c ≠ A.escape

/-- a colon comes next, after blanks -/
def colonNext (cs : List α) : Bool := (cs.dropWhile A.blank).head? == some A.colon

/-- the run that goes on with `cs` is closed by a mark, is a hit and comes before a colon -/
def closes (read cs : List α) : Bool :=
  let tail := cs.dropWhile A.plain
  tail.head? == some A.mark && hit (read ++ cs.takeWhile A.plain) && colonNext A tail.tail

def search : List α → Bool
  | [] => false
  | c :: cs => (c == A.mark && closes A hit [] cs) || search cs

structure State (α : Type) where
  found : Bool
  /-- a hit has just been closed, and blanks at most have come since -/
  pending : Bool
  /-- the run since the last mark, reversed, if no escape has come since -/
  run : Option (List α)

def start : State α := { found := false, pending := false, run := none }

def step (s : State α) (c : α) : State α :=
  if c = A.mark then
    { found := s.found, pending := s.run.any fun read => hit read.reverse, run := some [] }
  else if c = A.escape then { found := s.found, pending := false, run := none }
  else
    { found := s.found || (s.pending && c == A.colon), pending := s.pending && A.blank c,
      run := s.run.map (c :: ·) }

def scan (cs : List α) : Bool := (cs.foldl (step A hit) start).found

variable {A hit} {s : State α} {c : α} {cs : List α}

/-! ## one step -/

theorem step_mark : step A hit s A.mark =
    { found := s.found, pending := s.run.any fun read => hit read.reverse, run := some [] } := by
  unfold step
  rw [if_pos rfl]

theorem step_escape : step A hit s A.escape =
    { found := s.found, pending := false, run := none } := by
  unfold step
  rw [if_neg A.mark_ne_escape.symm, if_pos rfl]

theorem plain_iff : A.plain c = true ↔ c ≠ A.mark ∧ c ≠ A.escape := by
  unfold Alphabet.plain
  rw [Bool.and_eq_true, decide_eq_true_iff, decide_eq_true_iff]

theorem step_plain (h : A.plain c = true) : step A hit s c =
    { found := s.found || (s.pending && c == A.colon), pending := s.pending && A.blank c,
      run := s.run.map (c :: ·) } := by
  obtain ⟨hmark, hescape⟩ := plain_iff.mp h
  unfold step
  rw [if_neg hmark, if_neg hescape]

/-! ## what a symbol does to the search -/

theorem colonNext_cons : colonNext A (c :: cs) =
    if A.blank c = true then colonNext A cs else c == A.colon := by
  unfold colonNext
  rw [List.dropWhile_cons]
  split
  · rfl
  · show (some c == some A.colon) = _
    exact Option.some_beq_some

theorem closes_mark (read : List α) : closes A hit read (A.mark :: cs) =
    (hit read && colonNext A cs) := by
  have hplain : A.plain A.mark = false := by
    unfold Alphabet.plain
    simp
  unfold closes
  simp [hplain]

theorem closes_escape (read : List α) : closes A hit read (A.escape :: cs) = false := by
  have hplain : A.plain A.escape = false := by
    unfold Alphabet.plain
    simp
  unfold closes
  simp [hplain, A.mark_ne_escape.symm]

theorem closes_plain (h : A.plain c = true) (read : List α) :
    closes A hit read (c :: cs) = closes A hit (read ++ [c]) cs := by
  unfold closes
  rw [List.dropWhile_cons, List.takeWhile_cons, if_pos h, if_pos h]
  dsimp only
  rw [List.append_assoc]
  rfl

theorem search_plain (h : c ≠ A.mark) : search A hit (c :: cs) = search A hit cs := by
  rw [search, beq_false_of_ne h, Bool.false_and, Bool.false_or]

/-! ## the scan -/

theorem found_foldl_step (cs : List α) (s : State α) :
    (cs.foldl (step A hit) s).found =
      (s.found || (s.pending && colonNext A cs) ||
        (s.run.any fun read => closes A hit read.reverse cs) || search A hit cs) := by
  induction cs generalizing s with
  | nil =>
    have hany : (s.run.any fun read => closes A hit read.reverse []) = false := by
      cases s.run <;> rfl
    show s.found = (s.found || (s.pending && false) || _ || false)
    rw [hany, Bool.and_false, Bool.or_false, Bool.or_false, Bool.or_false]
  | cons c cs ih =>
    rw [List.foldl_cons, ih]
    by_cases hmark : c = A.mark
    · -- a mark closes the run and opens another
      rw [hmark, step_mark, colonNext_cons, A.not_blank_mark, if_neg Bool.false_ne_true,
        beq_false_of_ne A.colon_ne_mark.symm, Bool.and_false, Bool.or_false, search,
        beq_self_eq_true, Bool.true_and]
      have hclose : (s.run.any fun read => closes A hit read.reverse (A.mark :: cs)) =
          ((s.run.any fun read => hit read.reverse) && colonNext A cs) := by
        cases s.run with
        | none => rfl
        | some read => exact closes_mark read.reverse
      rw [hclose]
      show (s.found || _ || closes A hit [].reverse cs || search A hit cs) = _
      rw [List.reverse_nil, Bool.or_assoc _ (closes A hit [] cs)]
    · rw [search_plain hmark]
      by_cases hescape : c = A.escape
      · rw [hescape, step_escape, colonNext_cons, A.not_blank_escape, if_neg Bool.false_ne_true,
          beq_false_of_ne A.colon_ne_escape.symm, Bool.and_false]
        have hclose : (s.run.any fun read => closes A hit read.reverse (A.escape :: cs)) =
            false := by
          cases s.run with
          | none => rfl
          | some read => exact closes_escape read.reverse
        rw [hclose]
        rfl
      · have hplain : A.plain c = true := plain_iff.mpr ⟨hmark, hescape⟩
        have hclose : (s.run.any fun read => closes A hit read.reverse (c :: cs)) =
            ((s.run.map (c :: ·)).any fun read => closes A hit read.reverse cs) := by
          cases s.run with
          | none => rfl
          | some read =>
            show closes A hit read.reverse (c :: cs) = closes A hit (c :: read).reverse cs
            rw [closes_plain hplain, List.reverse_cons]
        rw [step_plain hplain, hclose, colonNext_cons]
        dsimp only
        congr 2
        by_cases hblank : A.blank c = true
        · have hcolon : c ≠ A.colon := by
            intro heq
            rw [heq, A.not_blank_colon] at hblank
            exact Bool.false_ne_true hblank
          rw [if_pos hblank, beq_false_of_ne hcolon, hblank, Bool.and_false, Bool.or_false,
            Bool.and_true]
        · rw [if_neg hblank, Bool.eq_false_iff.mpr hblank, Bool.and_false, Bool.false_and,
            Bool.or_false]

theorem search_eq_scan (cs : List α) : search A hit cs = scan A hit cs := by
  unfold scan
  rw [found_foldl_step]
  rfl

end

end MarkScan
