import Dolores.Lib.PathWalk
import Dolores.Py.Json

/-!
# The directory of the validator's store (`validator_cli.py`, `config.py`)

`recover-receipt` derives it from `--work` and the current directory, the other commands from
`--work` and the directory of the installed repository.

* `recoverReceiptStore`, `tickStore`  the two derivations;
* `same_store_iff`                    they give one directory for every current directory and every
                                      installation if and only if the argument is absolute;
* `same_store_plain_iff`              a relative argument, where no link is met;
* `relative_work_splits_store`        a relative argument that names two stores.
-/

namespace Dolores
namespace StoreDir
open Links

/-! ## paths (`pathlib`) -/

/-- a `PosixPath`; the component `..` is a step of its own -/
structure PosixPath where
  absolute : Bool
  parts : List (PathStep String)
deriving DecidableEq

def parsePart (part : List Char) : PathStep String :=
  if part = ['.', '.'] then .up else .down (String.ofList part)

/-- `Path(text)` -/
def parsePath (text : String) : PosixPath where
  absolute := text.toList.head? = some '/'
  parts := ((text.toList.splitOn '/').filter fun part => part ≠ [] ∧ part ≠ ['.']).map parsePart

/-- `p / q` -/
def PosixPath.join (p q : PosixPath) : PosixPath :=
  if q.absolute then q else { p with parts := p.parts ++ q.parts }

/-- `p / name`, for a name without `/` -/
def PosixPath.child (p : PosixPath) (name : String) : PosixPath :=
  { p with parts := p.parts ++ [.down name] }

/-- `os.path.expanduser` on a component that begins with `~`; the home directory of the user of
that name, or of the process for the empty name -/
def osExpanduser (userHome : String → Option String) (part : String) : String :=
  match userHome (String.ofList part.toList.tail) with
  | none => part
  | some home =>
    let home := home.toList.rdropWhile (· = '/')
    if home = [] then "/" else String.ofList home

def beginsWithTilde (text : String) : Bool := text.toList.head? = some '~'

/-- `Path.expanduser` -/
def expanduser (userHome : String → Option String) (p : PosixPath) : Except Exn PosixPath :=
  match p.absolute, p.parts with
  | false, .down first :: rest =>
    if beginsWithTilde first then
      let homedir := osExpanduser userHome first
      if beginsWithTilde homedir then
        .error (.runtimeError "Could not determine home directory.")
      else .ok ((parsePath homedir).join { absolute := false, parts := rest })
    else .ok p
  | _, _ => .ok p

section
variable {links : Links String}

/-- where the walk of a path begins -/
def PosixPath.start (p : PosixPath) (cwd : links.Place) : links.Place :=
  if p.absolute then .root else cwd

/-- the path names this directory, in a process with this current directory -/
def PosixPath.Opens (p : PosixPath) (cwd there : links.Place) : Prop :=
  Resolves (p.start cwd) p.parts there

def ofPlace (place : links.Place) : PosixPath := { absolute := true, parts := place.steps }

/-- `Path.resolve`, which follows links until so many components are looked up -/
def PosixPath.resolve (p : PosixPath) (fuel : Nat) (cwd : links.Place) : Option PosixPath :=
  (links.walk fuel (p.start cwd) p.parts).map ofPlace

/-! ## the two derivations -/

variable (userHome : String → Option String)

/-- `recover_receipt_command`: the path of the store, if `resolve` comes to an end -/
def recoverReceiptStore (fuel : Nat) (cwd : links.Place) (work : PosixPath) :
    Except Exn (Option PosixPath) := do
  let expanded ← expanduser userHome work
  return (expanded.resolve fuel cwd).map fun resolved =>
    (resolved.child "subnet_archive").child "validator_runtime"

/-- `SubnetConfig.from_env`: the archive directory; the environment variable is
`DOLORES_SUBNET_WORK_DIR` -/
def fromEnvArchiveDir (environ : Option String) (repoRoot : PosixPath)
    (workDir : Option PosixPath) : Except Exn PosixPath := do
  let given := workDir.getD
    (match environ with
    | some text => parsePath text
    | none => repoRoot.child "work")
  let expanded ← expanduser userHome given
  let resolvedWork := if expanded.absolute then expanded else repoRoot.join expanded
  return resolvedWork.child "subnet_archive"

/-- `_state_store` -/
def stateStore (archiveDir : PosixPath) : PosixPath := archiveDir.child "validator_runtime"

/-- the path of the store in `tick`, `health` and `replay` -/
def tickStore (environ : Option String) (repoRoot : links.Place) (work : PosixPath) :
    Except Exn PosixPath := do
  let archiveDir ← fromEnvArchiveDir userHome environ (ofPlace repoRoot) (some work)
  return stateStore archiveDir

/-- the two commands open one directory, or neither opens any -/
def SameStore (environ : Option String) (cwd repoRoot : links.Place) (work : String) : Prop :=
  ∀ there : links.Place,
    (∃ fuel path, recoverReceiptStore userHome fuel cwd (parsePath work) = .ok (some path) ∧
      path.Opens cwd there) ↔
    ∃ path, tickStore userHome environ repoRoot (parsePath work) = .ok path ∧
      path.Opens cwd there

/-- the argument is absolute, when a leading `~` is expanded, or is refused -/
def AbsoluteWork (work : String) : Prop :=
  ∀ p, expanduser userHome (parsePath work) = .ok p → p.absolute = true

end

/-! ## where they lead -/

/-- from the work directory to the store -/
def storeSteps : List (PathStep String) := [.down "subnet_archive", .down "validator_runtime"]

section
variable {links : Links String} {userHome : String → Option String} {environ : Option String}
  {cwd repoRoot there : links.Place} {work : PosixPath} {p : PosixPath}

theorem parts_child_child (p : PosixPath) :
    ((p.child "subnet_archive").child "validator_runtime").parts = p.parts ++ storeSteps := by
  show p.parts ++ [_] ++ [_] = _
  rw [List.append_assoc]
  rfl

theorem recoverReceiptStore_eq (userHome : String → Option String) (fuel : Nat)
    (cwd : links.Place) (work : PosixPath) :
    recoverReceiptStore userHome fuel cwd work = (expanduser userHome work).map fun p =>
      (p.resolve fuel cwd).map fun resolved =>
        (resolved.child "subnet_archive").child "validator_runtime" := by
  unfold recoverReceiptStore
  cases expanduser userHome work with
  | error e => rfl
  | ok p => rfl

/-- a path that is not absolute is one under the repository -/
def underRoot (repoRoot : links.Place) (p : PosixPath) : PosixPath :=
  if p.absolute then p else (ofPlace repoRoot).join p

theorem tickStore_eq (userHome : String → Option String) (environ : Option String)
    (repoRoot : links.Place) (work : PosixPath) :
    tickStore userHome environ repoRoot work = (expanduser userHome work).map fun p =>
      ((underRoot repoRoot p).child "subnet_archive").child "validator_runtime" := by
  unfold tickStore fromEnvArchiveDir
  dsimp only [Option.getD_some]
  cases expanduser userHome work with
  | error e => rfl
  | ok p => rfl

/-- the store that `recover-receipt` opens -/
theorem recover_opens_iff (h : expanduser userHome work = .ok p) :
    (∃ fuel path, recoverReceiptStore userHome fuel cwd work = .ok (some path) ∧
      path.Opens cwd there) ↔ Resolves (p.start cwd) (p.parts ++ storeSteps) there := by
  have hstore : ∀ fuel, recoverReceiptStore userHome fuel cwd work =
      .ok ((p.resolve fuel cwd).map fun resolved =>
        (resolved.child "subnet_archive").child "validator_runtime") := by
    intro fuel
    rw [recoverReceiptStore_eq, h]
    rfl
  -- a resolved path is the names of a place
  have hopens : ∀ place : links.Place,
      (((ofPlace place).child "subnet_archive").child "validator_runtime").Opens cwd there ↔
        Resolves place storeSteps there := by
    intro place
    unfold PosixPath.Opens
    rw [parts_child_child]
    exact resolves_from place storeSteps
  rw [resolves_append]
  constructor
  · rintro ⟨fuel, path, hpath, hthere⟩
    rw [hstore fuel] at hpath
    unfold PosixPath.resolve at hpath
    rw [Option.map_map] at hpath
    obtain ⟨place, hwalk, hplace⟩ := Option.map_eq_some_iff.mp (Except.ok.inj hpath)
    rw [← hplace] at hthere
    exact ⟨place, ⟨fuel, hwalk⟩, (hopens place).mp hthere⟩
  · rintro ⟨place, ⟨fuel, hwalk⟩, hthere⟩
    refine ⟨fuel, _, ?_, (hopens place).mpr hthere⟩
    rw [hstore fuel]
    unfold PosixPath.resolve
    rw [hwalk]
    rfl

/-- the store that the other commands open -/
theorem tick_opens_iff (h : expanduser userHome work = .ok p) :
    (∃ path, tickStore userHome environ repoRoot work = .ok path ∧ path.Opens cwd there) ↔
      Resolves (p.start repoRoot) (p.parts ++ storeSteps) there := by
  have hstore : tickStore userHome environ repoRoot work =
      .ok (((underRoot repoRoot p).child "subnet_archive").child "validator_runtime") := by
    rw [tickStore_eq, h]
    rfl
  have hsingle : (∃ path, tickStore userHome environ repoRoot work = .ok path ∧
      path.Opens cwd there) ↔
      (((underRoot repoRoot p).child "subnet_archive").child "validator_runtime").Opens
        cwd there := by
    rw [hstore]
    constructor
    · rintro ⟨path, hpath, hopens⟩
      rw [Except.ok.inj hpath]
      exact hopens
    · exact fun hopens => ⟨_, rfl, hopens⟩
  rw [hsingle]
  unfold PosixPath.Opens
  rw [parts_child_child]
  show Resolves ((underRoot repoRoot p).start cwd) _ there ↔ _
  unfold underRoot PosixPath.start
  cases habsolute : p.absolute with
  | true =>
    rw [if_pos rfl, if_pos habsolute]
    rfl
  | false =>
    have hjoin : (ofPlace repoRoot).join p =
        { absolute := true, parts := repoRoot.steps ++ p.parts } := by
      unfold PosixPath.join
      rw [habsolute]
      rfl
    rw [if_neg Bool.false_ne_true, hjoin]
    show Resolves .root (repoRoot.steps ++ p.parts ++ storeSteps) there ↔ _
    rw [List.append_assoc]
    exact resolves_from repoRoot (p.parts ++ storeSteps)

/-- a refused argument opens no store -/
theorem same_store_of_refused {work : String} {e : Exn}
    (h : expanduser userHome (parsePath work) = .error e) :
    SameStore userHome environ cwd repoRoot work := by
  intro there
  rw [tickStore_eq, h]
  constructor
  · rintro ⟨fuel, path, hpath, _⟩
    rw [recoverReceiptStore_eq, h] at hpath
    exact nomatch hpath
  · rintro ⟨path, hpath, _⟩
    exact nomatch hpath

/-- the components of the argument lead to one store from both directories -/
def LeadTogether (userHome : String → Option String) (cwd repoRoot : links.Place)
    (work : String) : Prop :=
  ∀ p, expanduser userHome (parsePath work) = .ok p → ∀ there : links.Place,
    Resolves cwd (p.parts ++ storeSteps) there ↔ Resolves repoRoot (p.parts ++ storeSteps) there

/-- an argument that begins at the root -/
theorem absoluteWork_of_slash {work : String} (h : work.toList.head? = some '/') :
    AbsoluteWork userHome work := by
  have habsolute : (parsePath work).absolute = true := decide_eq_true h
  intro p hp
  unfold expanduser at hp
  rw [habsolute] at hp
  rw [← Except.ok.inj hp]
  exact habsolute

theorem same_store_here_iff (userHome : String → Option String) (environ : Option String)
    (cwd repoRoot : links.Place) (work : String) :
    SameStore userHome environ cwd repoRoot work ↔
      AbsoluteWork userHome work ∨ LeadTogether userHome cwd repoRoot work := by
  cases hexpanded : expanduser userHome (parsePath work) with
  | error e =>
    refine iff_of_true (same_store_of_refused hexpanded) (.inl ?_)
    intro p hp
    exact nomatch hexpanded.symm.trans hp
  | ok p =>
    have honly : ∀ {q}, expanduser userHome (parsePath work) = .ok q → q = p :=
      fun hq => (Except.ok.inj (hexpanded.symm.trans hq)).symm
    have hsame : SameStore userHome environ cwd repoRoot work ↔ ∀ there : links.Place,
        Resolves (p.start cwd) (p.parts ++ storeSteps) there ↔
          Resolves (p.start repoRoot) (p.parts ++ storeSteps) there := by
      unfold SameStore
      refine forall_congr' fun there => ?_
      rw [recover_opens_iff hexpanded, tick_opens_iff hexpanded]
    rw [hsame]
    unfold PosixPath.start
    cases habsolute : p.absolute with
    | true =>
      refine iff_of_true (fun _ => Iff.rfl) (.inl ?_)
      intro q hq
      rw [honly hq]
      exact habsolute
    | false =>
      constructor
      · intro h
        right
        intro q hq
        rw [honly hq]
        exact h
      · rintro (h | h)
        · exact absurd (habsolute.symm.trans (h p hexpanded)) Bool.false_ne_true
        · exact h p hexpanded

/-! ## where no link is met -/

theorem levels_storeSteps (steps : List (PathStep String)) :
    (net (steps ++ storeSteps)).1 = (net steps).1 := by
  have hsteps : steps ++ storeSteps =
      steps ++ [.down "subnet_archive"] ++ [.down "validator_runtime"] := by
    rw [List.append_assoc]
    rfl
  rw [hsteps, net_concat, levels_down, net_concat, levels_down]

/-- a relative argument on whose way there is no link: the two directories agree above the levels
that the argument climbs -/
theorem same_store_plain_iff {work : String} (h : expanduser userHome (parsePath work) = .ok p)
    (hrelative : p.absolute = false) (hcwd : Plain links cwd.names (p.parts ++ storeSteps))
    (hroot : Plain links repoRoot.names (p.parts ++ storeSteps)) :
    SameStore userHome environ cwd repoRoot work ↔
      cwd.names.rdrop (net p.parts).1 = repoRoot.names.rdrop (net p.parts).1 := by
  rw [← levels_storeSteps p.parts, ← plain_together_iff hcwd hroot, same_store_here_iff]
  constructor
  · rintro (habsolute | htogether)
    · exact absurd (hrelative.symm.trans (habsolute p h)) Bool.false_ne_true
    · exact htogether p h
  · intro htogether
    right
    intro q hq
    rw [Except.ok.inj (hq.symm.trans h)]
    exact htogether

/-! ## every directory and every installation -/

/-- a file system without links -/
def noLinks : Links String := fun _ => none

/-- a place of depth `depth` -/
def deep (name : String) (depth : Nat) : noLinks.Place where
  names := List.replicate depth name
  real _ _ _ := rfl

theorem plain_noLinks (here : List String) (steps : List (PathStep String)) :
    Plain noLinks here steps := by
  induction steps generalizing here with
  | nil => trivial
  | cons step steps ih =>
    cases step with
    | up => exact ih here.dropLast
    | down n => exact ⟨rfl, ih (here ++ [n])⟩

/-- some levels above a place one level deeper, its first name is left -/
theorem rdrop_deep (name : String) (levels : Nat) :
    (deep name (levels + 1)).names.rdrop levels = [name] := by
  show (List.replicate (levels + 1) name).rdrop levels = [name]
  unfold List.rdrop
  rw [List.length_replicate, Nat.add_sub_cancel_left, List.replicate_succ]
  rfl

theorem absolute_of_same_store {work : String}
    (h : ∀ (links : Links String) (cwd repoRoot : links.Place),
      SameStore userHome environ cwd repoRoot work) : AbsoluteWork userHome work := by
  intro p hp
  by_contra hrelative
  have hfalse : p.absolute = false := Bool.eq_false_iff.mpr hrelative
  have hsame := h noLinks (deep "home" ((net p.parts).1 + 1)) (deep "opt" ((net p.parts).1 + 1))
  rw [same_store_plain_iff hp hfalse (plain_noLinks _ _) (plain_noLinks _ _), rdrop_deep,
    rdrop_deep] at hsame
  exact absurd (List.singleton_inj.mp hsame) (by decide)

/-- The commands address one store, whatever the current directory, the place of the repository and
the links, if and only if the argument is absolute.  In one place they do if and only if it is, or
its components lead to one store from both directories. -/
theorem same_store_iff (userHome : String → Option String) (environ : Option String)
    (work : String) :
    ((∀ (links : Links String) (cwd repoRoot : links.Place),
      SameStore userHome environ cwd repoRoot work) ↔ AbsoluteWork userHome work) ∧
    ∀ (links : Links String) (cwd repoRoot : links.Place),
      SameStore userHome environ cwd repoRoot work ↔
        AbsoluteWork userHome work ∨ LeadTogether userHome cwd repoRoot work := by
  have hhere : ∀ (links : Links String) (cwd repoRoot : links.Place),
      SameStore userHome environ cwd repoRoot work ↔
        AbsoluteWork userHome work ∨ LeadTogether userHome cwd repoRoot work :=
    fun links cwd repoRoot => same_store_here_iff userHome environ cwd repoRoot work
  refine ⟨⟨absolute_of_same_store, ?_⟩, hhere⟩
  intro habsolute links cwd repoRoot
  exact (hhere links cwd repoRoot).mpr (.inl habsolute)

/-- `--work work/validator` in the operator's home directory, with the repository under `/opt` -/
theorem relative_work_splits_store :
    ¬ SameStore (fun _ => some "/home/op") none
      (⟨["home", "op"], fun _ _ _ => rfl⟩ : noLinks.Place) ⟨["opt", "dolores"], fun _ _ _ => rfl⟩
      "work/validator" := by
  have hexpanded : expanduser (fun _ => some "/home/op") (parsePath "work/validator") =
      .ok ⟨false, [.down "work", .down "validator"]⟩ := by decide
  rw [same_store_plain_iff hexpanded rfl (plain_noLinks _ _) (plain_noLinks _ _)]
  decide

end
end StoreDir
end Dolores
