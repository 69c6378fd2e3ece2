import Mathlib.Logic.Function.Basic
import Mathlib.Data.List.Basic

/-!
# One path over inodes

A path names at most one inode; an open file keeps its inode when the path is given another.

* `content`                       what a reader of the path finds;
* `create`, `rename`, `openFile`  a new inode, the path given to an inode, a file opened by its
                                  path;
* `append`                        bytes added to an inode, whether the path names it or not.
-/

structure Volume (β : Type) where
  path : Option Nat
  bytes : Nat → List β
  /-- the inodes from here on are not in use -/
  next : Nat

namespace Volume
variable {β : Type}

/-- the path names an inode that is in use -/
def Valid (v : Volume β) : Prop := ∀ i, v.path = some i → i < v.next

def content (v : Volume β) : List β :=
  match v.path with
  | none => []
  | some i => v.bytes i

/-- a path that names these bytes, or nothing -/
def ofFile : Option (List β) → Volume β
  | none => { path := none, bytes := fun _ => [], next := 0 }
  | some raw => { path := some 0, bytes := fun _ => raw, next := 1 }

/-- a new file, which the path does not name -/
def create (v : Volume β) (bs : List β) : Volume β :=
  { v with bytes := Function.update v.bytes v.next bs, next := v.next + 1 }

def rename (v : Volume β) (i : Nat) : Volume β := { v with path := some i }

/-- the inode of the path, which is created if there is none -/
def openFile (v : Volume β) : Nat × Volume β :=
  match v.path with
  | some i => (i, v)
  | none => (v.next, (v.create []).rename v.next)

def append (v : Volume β) (i : Nat) (bs : List β) : Volume β :=
  { v with bytes := Function.update v.bytes i (v.bytes i ++ bs) }

/-- a file in use that the path does not name -/
def Unnamed (v : Volume β) (i : Nat) (bs : List β) : Prop :=
  i < v.next ∧ v.path ≠ some i ∧ v.bytes i = bs

section
variable {v : Volume β} {i : Nat} {bs : List β}

theorem content_of_path (h : v.path = some i) : v.content = v.bytes i := by
  unfold content
  rw [h]

theorem content_ofFile (file : Option (List β)) : (ofFile file).content = file.getD [] := by
  cases file with
  | none => rfl
  | some raw => rfl

theorem valid_ofFile (file : Option (List β)) : (ofFile file).Valid := by
  cases file with
  | none => exact fun i h => nomatch h
  | some raw =>
    intro i h
    rw [← Option.some.inj h]
    exact Nat.one_pos

/-! ## a new file -/

theorem Valid.create (h : v.Valid) (bs : List β) : (v.create bs).Valid :=
  fun i hi => Nat.lt_succ_of_lt (h i hi)

theorem bytes_create (h : i < v.next) (bs : List β) : (v.create bs).bytes i = v.bytes i := by
  show Function.update v.bytes v.next bs i = v.bytes i
  rw [Function.update_of_ne (Nat.ne_of_lt h)]

theorem content_create (h : v.Valid) (bs : List β) : (v.create bs).content = v.content := by
  cases hpath : v.path with
  | none =>
    unfold content
    rw [show (v.create bs).path = none from hpath, hpath]
  | some i =>
    rw [content_of_path hpath, content_of_path (show (v.create bs).path = some i from hpath),
      bytes_create (h i hpath)]

theorem unnamed_create (h : v.Valid) (bs : List β) : (v.create bs).Unnamed v.next bs := by
  refine ⟨Nat.lt_succ_self _, ?_, Function.update_self _ _ _⟩
  intro hpath
  exact absurd (h v.next hpath) (Nat.lt_irrefl _)

theorem Unnamed.create (h : v.Unnamed i bs) (more : List β) : (v.create more).Unnamed i bs := by
  refine ⟨Nat.lt_succ_of_lt h.1, h.2.1, ?_⟩
  rw [bytes_create h.1]
  exact h.2.2

/-! ## a path given to another inode -/

theorem valid_rename (h : i < v.next) : (v.rename i).Valid := by
  intro j hj
  rw [← Option.some.inj hj]
  exact h

theorem Unnamed.rename {j : Nat} (h : v.Unnamed i bs) (hne : i ≠ j) :
    (v.rename j).Unnamed i bs := by
  refine ⟨h.1, ?_, h.2.2⟩
  intro hpath
  exact hne (Option.some.inj hpath).symm

/-! ## a file opened by its path -/

theorem Valid.openFile (h : v.Valid) : v.openFile.2.Valid := by
  unfold Volume.openFile
  cases hpath : v.path with
  | none => exact valid_rename (Nat.lt_succ_self _)
  | some i => exact h

theorem content_openFile (v : Volume β) : v.openFile.2.content = v.content := by
  unfold openFile
  cases hpath : v.path with
  | none =>
    show (v.create []).bytes v.next = v.content
    unfold content
    rw [hpath]
    exact Function.update_self _ _ _
  | some i => rfl

theorem Unnamed.openFile (h : v.Unnamed i bs) : v.openFile.2.Unnamed i bs := by
  unfold Volume.openFile
  cases hpath : v.path with
  | none => exact (h.create []).rename (Nat.ne_of_lt h.1)
  | some j => exact h

/-! ## bytes added -/

theorem Valid.append (h : v.Valid) (i : Nat) (bs : List β) : (v.append i bs).Valid := h

theorem content_append (h : v.path = some i) (bs : List β) :
    (v.append i bs).content = v.content ++ bs := by
  rw [content_of_path h, content_of_path (show (v.append i bs).path = some i from h)]
  exact Function.update_self _ _ _

theorem Unnamed.append {j : Nat} (h : v.Unnamed i bs) (hpath : v.path = some j)
    (more : List β) : (v.append j more).Unnamed i bs := by
  have hne : i ≠ j := by
    intro heq
    rw [heq] at h
    exact h.2.1 hpath
  refine ⟨h.1, h.2.1, ?_⟩
  rw [← h.2.2]
  exact Function.update_of_ne hne _ _

end

end Volume
