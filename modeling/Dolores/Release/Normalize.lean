import Dolores.Release.Law

/-!
# The normalised source distribution (`normalize_sdist.py`)

`normalizeSdist` reads the members of an archive and writes them again, sorted, with metadata that
depends on nothing but their kind and whether they are executable.  The writer of archives is a
parameter (`Packer`).

* `readMembers_ok_iff`             what is read: safe, distinct names under one root;
* `normalize_canonical`            the result depends on the members alone, and is left as it is;
* `normalized_sdist_accepted_iff`  what the bundle's check still asks of it.
-/

set_option linter.unusedSectionVars false

namespace Dolores
namespace Release
open Except

/-- `_Member` -/
structure SdistMember where
  name : String
  isDirectory : Bool
  executable : Bool
  data : Bytes
deriving DecidableEq, Repr

/-- a `TarInfo` that is written, with its file -/
structure TarEntry where
  name : String
  isDirectory : Bool
  mode : Nat
  uid : Nat
  gid : Nat
  uname : String
  gname : String
  mtime : Int
  size : Nat
  file : Option Bytes
deriving DecidableEq, Repr

/-- the member that is read back -/
def TarEntry.member (entry : TarEntry) : TarMember where
  name := entry.name
  isFile := !entry.isDirectory
  isDir := entry.isDirectory
  size := entry.size
  mtime := entry.mtime
  mode := entry.mode
  uid := entry.uid
  gid := entry.gid
  uname := entry.uname
  gname := entry.gname
  content := .ok entry.file

/-- the writer of compressed archives: its members can be read, and the header has the time -/
structure Packer (tools : Tools) where
  pack : List TarEntry → Int → Except Exn Bytes
  reads : ∀ {entries epoch data}, pack entries epoch = .ok data →
    tools.openTar data = .ok (entries.map TarEntry.member)
  header : ∀ {entries epoch data}, pack entries epoch = .ok data → 10 ≤ data.length ∧
    data.take 3 = [0x1f, 0x8b, 0x08] ∧ (littleEndian ((data.drop 4).take 4) : Int) = epoch

/-- what `_safe_name` asks of a name -/
structure SafeMember (value : String) : Prop where
  plain : value ≠ "" ∧ '\\' ∉ value.toList ∧ value.toList.any isControl = false
  path : isAbsolute value = false ∧ (∀ part ∈ parts value, part ∉ [[], ['.'], ['.', '.']]) ∧
    value = posixPath value

/-- the same, computed -/
def isSafeMember (value : String) : Bool :=
  value != "" && !value.toList.contains '\\' && !value.toList.any isControl &&
    !isAbsolute value && ((parts value).all fun part => !List.elem part [[], ['.'], ['.', '.']]) &&
    value == posixPath value

theorem isSafeMember_iff {value : String} : isSafeMember value = true ↔ SafeMember value := by
  unfold isSafeMember
  simp only [Bool.and_eq_true, bne_iff_ne, Bool.not_eq_true', List.contains_eq_mem,
    decide_eq_false_iff_not, List.all_eq_true, beq_iff_eq]
  constructor
  · rintro ⟨⟨⟨⟨⟨hne, hslash⟩, hcontrol⟩, habsolute⟩, hparts⟩, hpath⟩
    exact ⟨⟨hne, hslash, hcontrol⟩, habsolute, hparts, hpath⟩
  · rintro ⟨⟨hne, hslash, hcontrol⟩, habsolute, hparts, hpath⟩
    exact ⟨⟨⟨⟨⟨hne, hslash⟩, hcontrol⟩, habsolute⟩, hparts⟩, hpath⟩

instance (value : String) : Decidable (SafeMember value) := decidable_of_iff _ isSafeMember_iff

section
variable (tools : Tools)

/-- `_safe_name` -/
def safeName (value : String) : Except Exn String :=
  if SafeMember value then .ok (posixPath value)
  else .error (.valueError ("unsafe source-distribution member: " ++ tools.text.reprStr value))

/-- the handler around the reading of the archive -/
def readingSdist {α : Type} : Except ReadFault α → Except Exn α
  | .ok a => .ok a
  | .error (.archive msg) => .error (.valueError ("invalid source distribution: " ++ msg))
  | .error (.other exc) => .error exc

/-- one pass of the loop over the members -/
def readMember (member : TarMember) : Except Exn SdistMember := do
  if ¬ (member.isDir = true ∨ member.isFile = true) then
    .error (.valueError "source distribution contains a link or special member")
  else if member.isFile = false then
    .ok { name := member.name, isDirectory := member.isDir,
          executable := decide (member.mode &&& 0o111 ≠ 0), data := [] }
  else do
    let handle ← readingSdist member.content
    match handle with
    | none => .error (.valueError ("could not read source-distribution member: " ++
        tools.text.reprStr member.name))
    | some data =>
      .ok { name := member.name, isDirectory := member.isDir,
            executable := decide (member.mode &&& 0o111 ≠ 0), data }

/-- the first parts of the names -/
def rootsOf (names : List String) : List (List Char) :=
  (names.map fun name => (parts name).headD []).dedup

/-- `_read_members` -/
def readMembers (file : InputFile) : Except Exn (List SdistMember) :=
  match file.node with
  | .missing => .error (.valueError ("source distribution does not exist: " ++ file.path))
  | .special => .error (.valueError "source distribution must be a regular file, not a symlink")
  | .regular data => do
    let raw ← readingSdist (tools.openTar data)
    let names ← raw.mapM fun member => safeName tools member.name
    if names.isEmpty then .error (.valueError "source distribution is empty")
    else if ¬ names.Nodup then
      .error (.valueError "source distribution contains duplicate members")
    else if (rootsOf names).length ≠ 1 then
      .error (.valueError "source distribution must have exactly one top-level root")
    else do
      let members ← raw.mapM (readMember tools)
      .ok (members.insertionSort fun a b => a.name ≤ b.name)

/-- the entry of a member -/
def SdistMember.entry (epoch : Int) (member : SdistMember) : TarEntry where
  name := member.name
  isDirectory := member.isDirectory
  mode := if member.isDirectory ∨ member.executable then 0o755 else 0o644
  uid := 0
  gid := 0
  uname := ""
  gname := ""
  mtime := epoch
  size := if member.isDirectory then 0 else member.data.length
  file := if member.isDirectory then none else some member.data

/-- `normalize_sdist`: the new content of the file -/
def normalizeSdist (packer : Packer tools) (file : InputFile) (epoch : Int) : Except Exn Bytes :=
  if ¬ (315532800 ≤ epoch ∧ epoch ≤ 2 ^ 31 - 1) then
    .error (.valueError "epoch must be an integer from 1980-01-01 through 2038-01-19")
  else do
    let members ← readMembers tools file
    packer.pack (members.map (SdistMember.entry epoch)) epoch

end

/-! ## what is read -/

section
variable {tools : Tools} {file : InputFile} {members : List SdistMember} {epoch : Int}

theorem SafeMember.posix {value : String} (h : SafeMember value) : posixPath value = value :=
  h.path.2.2.symm

theorem safeName_ok_iff {value name : String} :
    safeName tools value = .ok name ↔ name = value ∧ SafeMember value := by
  unfold safeName
  split
  next h =>
    rw [h.posix]
    exact ⟨fun heq => ⟨(Except.ok.inj heq).symm, h⟩, fun heq => by rw [heq.1]⟩
  next h => exact iff_of_false nofun fun heq => h heq.2

theorem mapM_safeName {raw : List TarMember} {names : List String} :
    raw.mapM (fun member => safeName tools member.name) = .ok names ↔
      names = raw.map TarMember.name ∧ ∀ member ∈ raw, SafeMember member.name := by
  constructor
  · intro h
    have hforall := forall₂_of_mapM h
    induction hforall with
    | nil => exact ⟨rfl, fun _ hm => (List.not_mem_nil hm).elim⟩
    | @cons member name raw names hname hrest ih =>
      obtain ⟨rfl, hsafe⟩ := safeName_ok_iff.mp hname
      rw [List.mapM_cons, hname, ok_bind] at h
      obtain ⟨names', hnames, hcons⟩ := bind_ok h
      obtain rfl := (List.cons.inj (Except.ok.inj hcons)).2
      obtain ⟨rfl, hall⟩ := ih hnames
      exact ⟨rfl, fun m hm => (List.mem_cons.mp hm).elim (fun e => e ▸ hsafe) (hall m)⟩
  · rintro ⟨rfl, hsafe⟩
    exact mapM_ok TarMember.name fun member hm => safeName_ok_iff.mpr ⟨rfl, hsafe member hm⟩

theorem readingSdist_ok {α : Type} {x : Except ReadFault α} {a : α} :
    readingSdist x = .ok a ↔ x = .ok a := by
  cases x with
  | ok b => exact ⟨fun h => by rw [Except.ok.inj h], fun h => by rw [Except.ok.inj h]; rfl⟩
  | error fault =>
    refine iff_of_false ?_ nofun
    cases fault with
    | archive msg => exact nofun
    | other exc => exact nofun

theorem name_of_readMember {raw : TarMember} {member : SdistMember}
    (h : readMember tools raw = .ok member) : member.name = raw.name := by
  unfold readMember at h
  split at h
  · exact nomatch h
  split at h
  · rw [← Except.ok.inj h]
  · obtain ⟨handle, _, h⟩ := bind_ok h
    cases handle with
    | none => exact nomatch h
    | some data => rw [← Except.ok.inj h]

/-- what the members of a readable archive satisfy -/
structure Kept (members : List SdistMember) : Prop where
  nonempty : members ≠ []
  safe : ∀ member ∈ members, SafeMember member.name
  sorted : members.Pairwise fun a b => a.name < b.name
  oneRoot : (rootsOf (members.map SdistMember.name)).length = 1

theorem length_rootsOf_of_perm {names names' : List String} (h : names.Perm names') :
    (rootsOf names).length = (rootsOf names').length :=
  ((h.map _).dedup).length_eq

theorem readMembers_ok_iff : readMembers tools file = .ok members ↔
    ∃ data raw read, file.node = .regular data ∧ tools.openTar data = .ok raw ∧
      (∀ member ∈ raw, SafeMember member.name) ∧ raw ≠ [] ∧ (raw.map TarMember.name).Nodup ∧
      (rootsOf (raw.map TarMember.name)).length = 1 ∧ raw.mapM (readMember tools) = .ok read ∧
      members = read.insertionSort fun a b => a.name ≤ b.name := by
  unfold readMembers
  cases hnode : file.node with
  | missing => exact iff_of_false nofun fun ⟨_, _, _, h, _⟩ => nomatch h
  | special => exact iff_of_false nofun fun ⟨_, _, _, h, _⟩ => nomatch h
  | regular data =>
    dsimp only
    constructor
    · intro h
      obtain ⟨raw, hopen, h⟩ := bind_ok h
      obtain ⟨names, hnames, h⟩ := bind_ok h
      obtain ⟨rfl, hsafe⟩ := mapM_safeName.mp hnames
      split at h
      · exact nomatch h
      next hne =>
      split at h
      · exact nomatch h
      next hnodup =>
      split at h
      · exact nomatch h
      next hroot =>
      obtain ⟨read, hread, h⟩ := bind_ok h
      refine ⟨data, raw, read, rfl, readingSdist_ok.mp hopen, hsafe, ?_, not_not.mp hnodup,
        not_not.mp hroot, hread, (Except.ok.inj h).symm⟩
      rintro rfl
      exact hne rfl
    · rintro ⟨_, raw, read, hdata, hopen, hsafe, hne, hnodup, hroot, hread, rfl⟩
      obtain rfl := FileNode.regular.inj hdata
      rw [readingSdist_ok.mpr hopen, ok_bind, mapM_safeName.mpr ⟨rfl, hsafe⟩, ok_bind,
        if_neg (by simpa using hne), if_neg (not_not.mpr hnodup), if_neg (not_not.mpr hroot), hread]
      rfl

theorem map_name_sorted (read : List SdistMember) :
    (read.insertionSort fun a b => a.name ≤ b.name).map SdistMember.name =
      (read.map SdistMember.name).insertionSort (· ≤ ·) :=
  List.map_insertionSort _ _ _ _ fun _ _ _ _ => Iff.rfl

theorem kept_of_readMembers (h : readMembers tools file = .ok members) : Kept members := by
  obtain ⟨data, raw, read, _, _, hsafe, hne, hnodup, hroot, hread, rfl⟩ := readMembers_ok_iff.mp h
  have hforall := forall₂_of_mapM hread
  have hnames : read.map SdistMember.name = raw.map TarMember.name := by
    clear * - hforall
    induction hforall with
    | nil => rfl
    | cons hmember _ ih => rw [List.map_cons, List.map_cons, name_of_readMember hmember, ih]
  have hperm := List.perm_insertionSort (fun a b : SdistMember => a.name ≤ b.name) read
  refine ⟨?_, fun member hm => ?_, ?_, ?_⟩
  · intro hnil
    have hlen := hforall.length_eq
    rw [← hperm.length_eq, hnil] at hlen
    exact hne (List.length_eq_zero_iff.mp hlen)
  · have hmem : member.name ∈ raw.map TarMember.name := by
      rw [← hnames]
      exact List.mem_map_of_mem (hperm.subset hm)
    obtain ⟨m, hm', hname⟩ := List.mem_map.mp hmem
    rw [← hname]
    exact hsafe m hm'
  · have hsorted := List.pairwise_insertionSort (· ≤ ·) (raw.map TarMember.name)
    have hdistinct := (List.perm_insertionSort (· ≤ ·) (raw.map TarMember.name)).nodup_iff.mpr hnodup
    have hstrict := (hsorted.and hdistinct).imp fun h => lt_of_le_of_ne h.1 h.2
    rw [← hnames, ← map_name_sorted, List.pairwise_map] at hstrict
    exact hstrict
  · rw [length_rootsOf_of_perm (hperm.map SdistMember.name), hnames]
    exact hroot

/-! ## what is written -/

/-- a member that has been written and read -/
def SdistMember.reread (member : SdistMember) : SdistMember :=
  if member.isDirectory then { member with executable := true, data := [] } else member

theorem SdistMember.entry_reread (member : SdistMember) :
    member.reread.entry epoch = member.entry epoch := by
  unfold reread
  split
  next h => simp [entry, h]
  · rfl

theorem SdistMember.name_reread (member : SdistMember) : member.reread.name = member.name := by
  unfold reread
  split
  · rfl
  · rfl

theorem readMember_entry (member : SdistMember) :
    readMember tools (member.entry epoch).member = .ok member.reread := by
  obtain ⟨name, isDirectory, executable, data⟩ := member
  cases isDirectory with
  | true => simp [readMember, SdistMember.entry, TarEntry.member, SdistMember.reread]
  | false =>
    have hcontent : (readingSdist (.ok (some data)) : Except Exn (Option Bytes)) = .ok (some data) :=
      rfl
    cases executable with
    | true =>
      simp [readMember, SdistMember.entry, TarEntry.member, SdistMember.reread, hcontent, ok_bind]
    | false =>
      simp [readMember, SdistMember.entry, TarEntry.member, SdistMember.reread, hcontent, ok_bind]

theorem readMembers_of_kept (file : InputFile) (h : Kept members) {data : Bytes}
    (hopen : tools.openTar data =
      .ok ((members.map (SdistMember.entry epoch)).map TarEntry.member)) :
    readMembers tools { file with node := .regular data } =
      .ok (members.map SdistMember.reread) := by
  have hnames : ((members.map (SdistMember.entry epoch)).map TarEntry.member).map TarMember.name =
      members.map SdistMember.name := by
    rw [List.map_map, List.map_map]
    rfl
  refine readMembers_ok_iff.mpr ⟨data, _, members.map SdistMember.reread, rfl, hopen, ?_, ?_, ?_,
    ?_, ?_, ?_⟩
  · intro m hm
    have hmem := List.mem_map_of_mem (f := TarMember.name) hm
    rw [hnames] at hmem
    obtain ⟨member, hmember, hname⟩ := List.mem_map.mp hmem
    rw [← hname]
    exact h.safe member hmember
  · simpa using h.nonempty
  · rw [hnames]
    exact (List.pairwise_map.mpr (h.sorted.imp fun hlt => ne_of_lt hlt))
  · rw [hnames]
    exact h.oneRoot
  · rw [List.map_map]
    have hall := mapM_ok (f := fun member => readMember tools (member.entry epoch).member)
      SdistMember.reread (l := members) fun member _ => readMember_entry member
    rw [← hall, List.mapM_map]
    rfl
  · refine (List.Pairwise.insertionSort_eq ?_).symm
    refine List.pairwise_map.mpr (h.sorted.imp fun {a b} hlt => ?_)
    rw [a.name_reread, b.name_reread]
    exact le_of_lt hlt

/-! ## the result -/

/-- what is kept of a member: nothing of a directory -/
def SdistMember.held (member : SdistMember) : Option (Bool × Bytes) :=
  if member.isDirectory then none else some (member.executable, member.data)

/-- the archive has a directory of this name, or a file with this content -/
def Holds (tools : Tools) (file : InputFile) (name : String) (content : Option (Bool × Bytes)) :
    Prop :=
  ∃ archive raw, file.node = .regular archive ∧ tools.openTar archive = .ok raw ∧
    ∃ member ∈ raw, member.name = name ∧
      match content with
      | none => member.isDir = true
      | some (executable, data) => member.isDir = false ∧ member.isFile = true ∧
          executable = decide (member.mode &&& 0o111 ≠ 0) ∧ member.content = .ok (some data)

theorem held_of_readMember {raw : TarMember} {member : SdistMember}
    (h : readMember tools raw = .ok member) (content : Option (Bool × Bytes)) :
    member.held = content ↔ match content with
      | none => raw.isDir = true
      | some (executable, data) => raw.isDir = false ∧ raw.isFile = true ∧
          executable = decide (raw.mode &&& 0o111 ≠ 0) ∧ raw.content = .ok (some data) := by
  unfold readMember at h
  split at h
  · exact nomatch h
  next hkind =>
  split at h
  next hfile =>
    have hdir : raw.isDir = true := by simpa [hfile] using hkind
    rw [← Except.ok.inj h]
    cases content with
    | none => simp [SdistMember.held, hdir]
    | some content => simp [SdistMember.held, hdir]
  next hfile =>
    obtain ⟨handle, hcontent, h⟩ := bind_ok h
    cases handle with
    | none => exact nomatch h
    | some data =>
      rw [← Except.ok.inj h, readingSdist_ok.mp hcontent]
      cases content with
      | none => simp [SdistMember.held]
      | some content =>
        obtain ⟨executable, value⟩ := content
        cases hdir : raw.isDir <;> simp [SdistMember.held, hfile, eq_comm]

theorem holds_iff (h : readMembers tools file = .ok members) {name : String}
    {content : Option (Bool × Bytes)} :
    Holds tools file name content ↔ (name, content) ∈ members.map fun m => (m.name, m.held) := by
  obtain ⟨archive, raw, read, hnode, hopen, -, -, -, -, hread, rfl⟩ := readMembers_ok_iff.mp h
  have hperm := List.perm_insertionSort (fun a b : SdistMember => a.name ≤ b.name) read
  rw [(hperm.map _).mem_iff, List.mem_map]
  constructor
  · rintro ⟨_, _, hnode', hopen', member, hmember, rfl, hheld⟩
    obtain rfl := FileNode.regular.inj (hnode.symm.trans hnode')
    obtain rfl := Except.ok.inj (hopen.symm.trans hopen')
    obtain ⟨m, hm, hreadm⟩ := (exists_mem_of_mapM hread).1 member hmember
    refine ⟨m, hm, ?_⟩
    rw [name_of_readMember hreadm, (held_of_readMember hreadm content).mpr hheld]
  · rintro ⟨m, hm, heq⟩
    obtain ⟨rfl, rfl⟩ := Prod.mk.inj heq
    obtain ⟨member, hmember, hreadm⟩ := (exists_mem_of_mapM hread).2 m hm
    exact ⟨archive, raw, hnode, hopen, member, hmember, (name_of_readMember hreadm).symm,
      (held_of_readMember hreadm m.held).mp rfl⟩

theorem entry_eq_iff {a b : SdistMember} :
    a.entry epoch = b.entry epoch ↔ (a.name, a.held) = (b.name, b.held) := by
  obtain ⟨name, isDirectory, executable, data⟩ := a
  obtain ⟨name', isDirectory', executable', data'⟩ := b
  cases isDirectory <;> cases isDirectory' <;>
    simp [SdistMember.entry, SdistMember.held]
  cases executable <;> cases executable' <;> simp +contextual

theorem TarEntry.member_injective : Function.Injective TarEntry.member := by
  intro a b h
  obtain ⟨name, isDirectory, mode, uid, gid, uname, gname, mtime, size, file⟩ := a
  obtain ⟨name', isDirectory', mode', uid', gid', uname', gname', mtime', size', file'⟩ := b
  simp [TarEntry.member] at h
  simp [h]

/-- members in the order of their names are determined by what they hold -/
theorem Kept.entries_eq_iff {members' : List SdistMember} (h : Kept members) (h' : Kept members') :
    members.map (SdistMember.entry epoch) = members'.map (SdistMember.entry epoch) ↔
      ∀ p, p ∈ members.map (fun m => (m.name, m.held)) ↔
        p ∈ members'.map (fun m => (m.name, m.held)) := by
  constructor
  · intro heq p
    have hheld : members.map (fun m => (m.name, m.held)) =
        members'.map fun m => (m.name, m.held) := by
      rw [← List.forall₂_eq_eq_eq, List.forall₂_map_left_iff, List.forall₂_map_right_iff] at heq ⊢
      exact heq.imp fun a b => entry_eq_iff.mp
    rw [hheld]
  · intro hmem
    have hlt : ∀ {l : List SdistMember}, l.Pairwise (fun a b => a.name < b.name) →
        (l.map fun m => (m.name, m.held)).Pairwise fun p q => p.1 < q.1 :=
      fun hl => List.pairwise_map.mpr hl
    have : Std.Irrefl fun p q : String × Option (Bool × Bytes) => p.1 < q.1 := ⟨fun p => lt_irrefl _⟩
    have : Std.Antisymm fun p q : String × Option (Bool × Bytes) => p.1 < q.1 :=
      ⟨fun p q hpq hqp => absurd hqp (lt_asymm hpq)⟩
    have heq := List.Pairwise.eq_of_mem_iff (hlt h.sorted) (hlt h'.sorted) hmem
    rw [← List.forall₂_eq_eq_eq, List.forall₂_map_left_iff, List.forall₂_map_right_iff] at heq ⊢
    exact heq.imp fun a b => entry_eq_iff.mpr

theorem normalizeSdist_ok {packer : Packer tools} {data : Bytes}
    (h : normalizeSdist tools packer file epoch = .ok data) :
    ∃ members, readMembers tools file = .ok members ∧
      packer.pack (members.map (SdistMember.entry epoch)) epoch = .ok data := by
  unfold normalizeSdist at h
  split at h
  · exact nomatch h
  · exact bind_ok h

/-- **The normal form is canonical.**  Two archives have the same normal form if and only if they
hold the same: the same directories, and the same files with the same bytes that are executable
alike, whatever the order of the members and the other metadata.  Normalising the normal form, also
with another time, gives what normalising the archive itself gives. -/
theorem normalize_canonical (tools : Tools) (packer : Packer tools) {file file' : InputFile}
    {epoch : Int} {data data' : Bytes} (h : normalizeSdist tools packer file epoch = .ok data)
    (h' : normalizeSdist tools packer file' epoch = .ok data') :
    (data = data' ↔ ∀ name content, Holds tools file name content ↔
      Holds tools file' name content) ∧
    ∀ time, normalizeSdist tools packer { file with node := .regular data } time =
      normalizeSdist tools packer file time := by
  obtain ⟨members, hread, hpack⟩ := normalizeSdist_ok h
  obtain ⟨members', hread', hpack'⟩ := normalizeSdist_ok h'
  have hkept := kept_of_readMembers hread
  have hkept' := kept_of_readMembers hread'
  refine ⟨?_, fun time => ?_⟩
  · have hentries : data = data' ↔ members.map (SdistMember.entry epoch) =
        members'.map (SdistMember.entry epoch) := by
      constructor
      · rintro rfl
        have hopen := Except.ok.inj ((packer.reads hpack).symm.trans (packer.reads hpack'))
        exact TarEntry.member_injective.list_map hopen
      · intro heq
        rw [heq] at hpack
        exact Except.ok.inj (hpack.symm.trans hpack')
    rw [hentries, hkept.entries_eq_iff hkept', Prod.forall]
    simp only [holds_iff hread, holds_iff hread']
  · have hreread := readMembers_of_kept file hkept (packer.reads hpack)
    unfold normalizeSdist
    rw [hread, hreread, ok_bind, ok_bind, List.map_map]
    have hsame : SdistMember.entry time ∘ SdistMember.reread = SdistMember.entry time := by
      funext member
      exact member.entry_reread
    rw [hsame]

section Example

/-! ### archives without compression -/

/-- `n` bytes, the lowest first -/
def littleBytes : Nat → Nat → Bytes
  | 0, _ => []
  | n + 1, k => UInt8.ofNat k :: littleBytes n (k / 256)

def asciiBytes (s : String) : Bytes := s.toList.map fun c => UInt8.ofNat c.toNat
def asciiText (data : Bytes) : String := String.ofList (data.map fun b => Char.ofNat b.toNat)

/-- a field, its length first -/
def fieldBytes (data : Bytes) : Bytes := UInt8.ofNat data.length :: data

def takeField : Bytes → Option (Bytes × Bytes)
  | [] => none
  | n :: data =>
    if n.toNat ≤ data.length then some (data.take n.toNat, data.drop n.toNat) else none

def entryBytes (entry : TarEntry) : Bytes :=
  fieldBytes (asciiBytes entry.name) ++ fieldBytes (littleBytes 2 entry.mode) ++
    fieldBytes (littleBytes 2 entry.uid) ++ fieldBytes (littleBytes 2 entry.gid) ++
    fieldBytes (asciiBytes entry.uname) ++ fieldBytes (asciiBytes entry.gname) ++
    fieldBytes (littleBytes 4 entry.mtime.toNat) ++
    match entry.file with
    | none => fieldBytes (asciiBytes "5") ++ fieldBytes []
    | some data => fieldBytes (asciiBytes "0") ++ fieldBytes data

/-- the entry in front, and the bytes after it -/
def takeEntry (data : Bytes) : Option (TarEntry × Bytes) := do
  let (name, data) ← takeField data
  let (mode, data) ← takeField data
  let (uid, data) ← takeField data
  let (gid, data) ← takeField data
  let (uname, data) ← takeField data
  let (gname, data) ← takeField data
  let (mtime, data) ← takeField data
  let (kind, data) ← takeField data
  let (content, data) ← takeField data
  let isDirectory := kind = asciiBytes "5"
  some ({
    name := asciiText name
    isDirectory
    mode := littleEndian mode
    uid := littleEndian uid
    gid := littleEndian gid
    uname := asciiText uname
    gname := asciiText gname
    mtime := littleEndian mtime
    size := content.length
    file := if isDirectory then none else some content }, data)

def readEntries : Nat → Bytes → Option (List TarEntry)
  | _, [] => some []
  | 0, _ :: _ => none
  | fuel + 1, data => do
    let (entry, rest) ← takeEntry data
    let entries ← readEntries fuel rest
    some (entry :: entries)

def archiveBytes (entries : List TarEntry) (epoch : Int) : Bytes :=
  [0x1f, 0x8b, 8, 0] ++ littleBytes 4 epoch.toNat ++ [2, 255] ++ entries.flatMap entryBytes

def readArchive (data : Bytes) : Option (List TarEntry) :=
  if data.take 3 = [0x1f, 0x8b, 8] then readEntries data.length (data.drop 10) else none

/-- the value after the name of the field, on a line of its own -/
def headerField (data : Bytes) (field : String) : Option String :=
  ((asciiText data).toList.splitOn '\n').findSome? fun line =>
    if (field ++ ": ").toList.isPrefixOf line then
      some (String.ofList (line.drop (field ++ ": ").toList.length))
    else none

def sdistTools : Tools :=
  { plainTools with
    openTar := fun data =>
      match readArchive data with
      | some entries => .ok (entries.map TarEntry.member)
      | none => .error (.archive "not a gzip file")
    header := headerField }

theorem openTar_of_read {data : Bytes} {entries : List TarEntry}
    (h : readArchive data = some entries) :
    sdistTools.openTar data = .ok (entries.map TarEntry.member) := by
  unfold sdistTools
  dsimp only
  rw [h]

/-- it reads back what it has written -/
def sdistPacker : Packer sdistTools where
  pack entries epoch :=
    let data := archiveBytes entries epoch
    if readArchive data = some entries ∧ 10 ≤ data.length ∧
        data.take 3 = [0x1f, 0x8b, 8] ∧ (littleEndian ((data.drop 4).take 4) : Int) = epoch then
      .ok data
    else .error (.valueError "archive is corrupt")
  reads := by
    intro entries epoch data h
    dsimp only at h
    split at h
    next hread =>
      obtain rfl := Except.ok.inj h
      exact openTar_of_read hread.1
    · exact nomatch h
  header := by
    intro entries epoch data h
    dsimp only at h
    split at h
    next hread =>
      obtain rfl := Except.ok.inj h
      exact hread.2
    · exact nomatch h

theorem pack_of_read {entries : List TarEntry} {epoch : Int}
    (hread : readArchive (archiveBytes entries epoch) = some entries)
    (hheader : 10 ≤ (archiveBytes entries epoch).length ∧
      (archiveBytes entries epoch).take 3 = [0x1f, 0x8b, 8] ∧
      (littleEndian (((archiveBytes entries epoch).drop 4).take 4) : Int) = epoch) :
    sdistPacker.pack entries epoch = .ok (archiveBytes entries epoch) :=
  if_pos ⟨hread, hheader⟩

/-! ### one distribution in two archives -/

def sampleRoot : String := "dolores_bittensor_subnet-0.1.0"

def sampleInfo : Bytes :=
  asciiBytes "Metadata-Version: 2.4\nName: dolores-bittensor-subnet\nVersion: 0.1.0\n"

def rootEntry : TarEntry where
  name := sampleRoot
  isDirectory := true
  mode := 0o700
  uid := 1000
  gid := 1000
  uname := "dev"
  gname := "staff"
  mtime := 7
  size := 0
  file := none

def infoEntry : TarEntry where
  name := sampleRoot ++ "/PKG-INFO"
  isDirectory := false
  mode := 0o600
  uid := 1000
  gid := 1000
  uname := "dev"
  gname := "staff"
  mtime := 5
  size := sampleInfo.length
  file := some sampleInfo

def looseArchive : Bytes := archiveBytes [infoEntry, rootEntry] 5

/-- the other order, another owner, other times and modes -/
def rebuiltArchive : Bytes :=
  archiveBytes [{ rootEntry with mode := 0o755, uid := 0, mtime := 9 },
    { infoEntry with mode := 0o644, uname := "ci", mtime := 9 }] 9

/-- the members in their order -/
def tidyMembers : List SdistMember := [
  { name := sampleRoot, isDirectory := true, executable := true, data := [] },
  { name := sampleRoot ++ "/PKG-INFO", isDirectory := false, executable := false,
    data := sampleInfo }]

def tidyArchive : Bytes :=
  archiveBytes (tidyMembers.map (SdistMember.entry sampleMetadata.sourceDateEpoch))
    sampleMetadata.sourceDateEpoch

def sdistFile (archive : Bytes) : InputFile where
  path := "sdist.tar.gz"
  name := "sdist.tar.gz"
  node := .regular archive

theorem readMembers_sample :
    readMembers sdistTools (sdistFile looseArchive) = .ok tidyMembers := by
  have hread : readArchive looseArchive = some [infoEntry, rootEntry] := by decide +kernel
  unfold readMembers sdistFile
  dsimp only
  rw [openTar_of_read hread]
  rfl

theorem readMembers_rebuilt :
    readMembers sdistTools (sdistFile rebuiltArchive) = .ok tidyMembers := by
  have hread : readArchive rebuiltArchive =
      some [{ rootEntry with mode := 0o755, uid := 0, mtime := 9 },
        { infoEntry with mode := 0o644, uname := "ci", mtime := 9 }] := by decide +kernel
  unfold readMembers sdistFile
  dsimp only
  rw [openTar_of_read hread]
  rfl

theorem normalizeSdist_of_read {archive : Bytes}
    (h : readMembers sdistTools (sdistFile archive) = .ok tidyMembers) :
    normalizeSdist sdistTools sdistPacker (sdistFile archive) sampleMetadata.sourceDateEpoch =
      .ok tidyArchive := by
  have hepoch : 315532800 ≤ sampleMetadata.sourceDateEpoch ∧
      sampleMetadata.sourceDateEpoch ≤ 2 ^ 31 - 1 := by decide
  unfold normalizeSdist
  rw [if_neg (not_not.mpr hepoch), h, ok_bind]
  exact pack_of_read (by decide +kernel) (by decide +kernel)

theorem normalize_canonical_sample :
    normalizeSdist sdistTools sdistPacker (sdistFile tidyArchive) sampleMetadata.sourceDateEpoch =
      .ok tidyArchive ∧
    (Holds sdistTools (sdistFile looseArchive) sampleRoot none ↔
      Holds sdistTools (sdistFile rebuiltArchive) sampleRoot none) := by
  have hloose := normalizeSdist_of_read readMembers_sample
  have hrebuilt := normalizeSdist_of_read readMembers_rebuilt
  obtain ⟨hsame, hagain⟩ := normalize_canonical sdistTools sdistPacker hloose hrebuilt
  exact ⟨(hagain _).trans hloose, hsame.mp rfl _ _⟩

end Example

/-! ## the check of the bundle -/

theorem require_bind_ok {α : Type} {c : Prop} [Decidable c] {msg : String}
    {x : Except ReleaseError α} {a : α} : (require c msg >>= fun _ => x) = .ok a ↔ c ∧ x = .ok a := by
  rw [seq_ok_iff, require_ok]

/-- the bytes of a file, none of a directory -/
def SdistMember.size (member : SdistMember) : Nat :=
  if member.isDirectory then 0 else member.data.length

/-- the root that the check expects -/
def sdistRoot (version : String) : String := "dolores_bittensor_subnet-" ++ version

theorem SdistMember.mode_entry (epoch : Int) (member : SdistMember) :
    (member.entry epoch).mode = if (member.entry epoch).isDirectory = true ∨
      (member.entry epoch).mode &&& 0o111 ≠ 0 then 0o755 else 0o644 := by
  obtain ⟨name, isDirectory, executable, data⟩ := member
  cases isDirectory <;> cases executable <;> simp [entry]

/-- what the loop still asks of normalised members -/
theorem checkSdistMembers_entries (tools : Tools) (epoch : Int) (root : String) {total : Nat}
    (hsafe : ∀ member ∈ members, SafeMember member.name) (htotal : total ≤ maxArchiveTotalBytes) :
    checkSdistMembers tools root epoch total
        ((members.map (SdistMember.entry epoch)).map TarEntry.member) = .ok () ↔
      (∀ member ∈ members, member.size ≤ maxArchiveMemberBytes ∧
        (parts member.name).head? = some root.toList) ∧
      total + (members.map SdistMember.size).sum ≤ maxArchiveTotalBytes := by
  induction members generalizing total with
  | nil => exact ⟨fun _ => ⟨fun _ h => (List.not_mem_nil h).elim, htotal⟩, fun _ => rfl⟩
  | cons member members ih =>
    have hmember := hsafe member List.mem_cons_self
    have hpath : validateArchivePath tools member.name "source distribution member" = .ok () := by
      unfold validateArchivePath
      rw [require_of hmember.plain, ok_bind]
      exact require_of hmember.path _
    have hkind : (!member.isDirectory) = true ∨ member.isDirectory = true := by
      cases member.isDirectory <;> simp
    rw [List.map_cons, List.map_cons, checkSdistMembers]
    show (validateArchivePath tools member.name _ >>= fun _ => _) = _ ↔ _
    rw [hpath, ok_bind, require_bind_ok, require_bind_ok, require_bind_ok, require_bind_ok,
      require_bind_ok, require_bind_ok, require_bind_ok]
    show (_ ∧ member.size ≤ _ ∧ total + member.size ≤ _ ∧ epoch = epoch ∧ true = true ∧ _ ∧
      (parts member.name).head? = _ ∧ checkSdistMembers tools root epoch (total + member.size) _ =
        .ok ()) ↔ _
    rw [List.forall_mem_cons, List.map_cons, List.sum_cons, ← Nat.add_assoc]
    by_cases hfits : total + member.size ≤ maxArchiveTotalBytes
    · rw [ih (fun m hm => hsafe m (List.mem_cons_of_mem _ hm)) hfits]
      constructor
      · rintro ⟨_, hsize, _, _, _, _, hhead, hall, hsum⟩
        exact ⟨⟨⟨hsize, hhead⟩, hall⟩, hsum⟩
      · rintro ⟨⟨⟨hsize, hhead⟩, hall⟩, hsum⟩
        exact ⟨hkind, hsize, hfits, rfl, rfl, member.mode_entry epoch, hhead, hall, hsum⟩
    · exact iff_of_false (fun h => hfits h.2.2.1) fun h => hfits (by omega)

theorem filter_name (epoch : Int) (h : Kept members) (name : String) :
    (((members.map (SdistMember.entry epoch)).map TarEntry.member).filter
      fun member => member.name = name) = [] ∧ (∀ member ∈ members, member.name ≠ name) ∨
    ∃ member ∈ members, member.name = name ∧
      (((members.map (SdistMember.entry epoch)).map TarEntry.member).filter
        fun member => member.name = name) = [(member.entry epoch).member] ∧
      ∀ m ∈ members, m.name = name → m = member := by
  have hsorted := h.sorted
  clear h
  induction members with
  | nil => exact .inl ⟨rfl, fun _ h => (List.not_mem_nil h).elim⟩
  | cons a members ih =>
    obtain ⟨ha, hrest⟩ := List.pairwise_cons.mp hsorted
    rw [List.map_cons, List.map_cons]
    have hname : (a.entry epoch).member.name = a.name := rfl
    by_cases hequal : a.name = name
    · have hother : ∀ m ∈ members, m.name ≠ name := fun m hm => hequal ▸ (ne_of_lt (ha m hm)).symm
      have hnone := (ih hrest).resolve_right fun ⟨m, hm, hmname, _⟩ => hother m hm hmname
      rw [List.filter_cons_of_pos (by simp [hname, hequal]), hnone.1]
      refine .inr ⟨a, List.mem_cons_self, hequal, rfl, fun m hm hmname => ?_⟩
      exact (List.mem_cons.mp hm).resolve_right fun hm => hother m hm hmname
    · rw [List.filter_cons_of_neg (by simp [hname, hequal])]
      rcases ih hrest with ⟨hnil, hall⟩ | ⟨m, hm, hmname, hfilter, hunique⟩
      · exact .inl ⟨hnil, List.forall_mem_cons.mpr ⟨hequal, hall⟩⟩
      · refine .inr ⟨m, List.mem_cons_of_mem a hm, hmname, hfilter, ?_⟩
        exact List.forall_mem_cons.mpr ⟨fun h => absurd h hequal, hunique⟩

theorem isFile_entry (member : SdistMember) :
    (member.entry epoch).member.isFile = !member.isDirectory := rfl

theorem readTarMember_entry {member : SdistMember} (h : member.isDirectory = false)
    {invalid : String} :
    readTarMember tools invalid (member.entry epoch).member = .ok member.data := by
  have hcontent : (member.entry epoch).member.content = .ok (some member.data) := by
    simp [SdistMember.entry, TarEntry.member, h]
  unfold readTarMember
  rw [hcontent]
  rfl

/-- **The bundle takes a normalised source distribution.**  Of a normalised archive the check of
the bundle only asks the sizes, that the root is the one of the release, and the metadata in
`PKG-INFO`: the header, the order, the paths and the metadata of the members always pass. -/
theorem normalized_sdist_accepted_iff (tools : Tools) (packer : Packer tools) {file : InputFile}
    {epoch : Int} {data : Bytes} {members : List SdistMember}
    (hread : readMembers tools file = .ok members)
    (h : normalizeSdist tools packer file epoch = .ok data) (label distribution version : String) :
    validateSdistBytes tools data label distribution version epoch = .ok () ↔
      data.length ≤ maxArchiveMemberBytes ∧
      (∀ member ∈ members, member.size ≤ maxArchiveMemberBytes ∧
        (parts member.name).head? = some (sdistRoot version).toList) ∧
      (members.map SdistMember.size).sum ≤ maxArchiveTotalBytes ∧
      ∃ member ∈ members, member.name = sdistRoot version ++ "/PKG-INFO" ∧
        member.isDirectory = false ∧
        validateDistributionMetadata tools member.data label distribution version = .ok () := by
  obtain ⟨_, hread', hpack⟩ := normalizeSdist_ok h
  obtain rfl := Except.ok.inj (hread.symm.trans hread')
  have hkept := kept_of_readMembers hread
  obtain ⟨hlength, hmagic, htime⟩ := packer.header hpack
  have hnames : ((members.map (SdistMember.entry epoch)).map TarEntry.member).map TarMember.name =
      members.map SdistMember.name := by
    rw [List.map_map, List.map_map]
    rfl
  have hstrict : (members.map SdistMember.name).Pairwise (· < ·) :=
    List.pairwise_map.mpr hkept.sorted
  have hsorted := (List.Pairwise.insertionSort_eq (hstrict.imp fun hlt => le_of_lt hlt)).symm
  have hnodup : (members.map SdistMember.name).Nodup := hstrict.imp fun hlt => ne_of_lt hlt
  unfold validateSdistBytes
  dsimp only
  rw [require_bind_ok, require_of ⟨hlength, hmagic⟩, ok_bind, require_of htime, ok_bind,
    reading_ok.mpr (packer.reads hpack), ok_bind, hnames, require_of hsorted, ok_bind,
    require_of hnodup, ok_bind]
  refine and_congr_right fun _ => ?_
  have hcheck :=
    checkSdistMembers_entries tools epoch (sdistRoot version) hkept.safe (Nat.zero_le _)
  rw [Nat.zero_add] at hcheck
  rw [show "dolores_bittensor_subnet-" ++ version = sdistRoot version from rfl, seq_ok_iff, hcheck,
    and_assoc]
  refine and_congr_right fun _ => and_congr_right fun _ => ?_
  rcases filter_name epoch hkept (sdistRoot version ++ "/PKG-INFO") with
    ⟨hnil, hall⟩ | ⟨member, hmember, hname, hfilter, hunique⟩
  · rw [hnil]
    exact iff_of_false nofun fun ⟨m, hm, hmname, _⟩ => hall m hm hmname
  · rw [hfilter]
    dsimp only
    rw [require_bind_ok]
    constructor
    · rintro ⟨hfile, hmetadata⟩
      have hfile : member.isDirectory = false := by simpa [isFile_entry] using hfile
      rw [readTarMember_entry hfile, ok_bind] at hmetadata
      exact ⟨member, hmember, hname, hfile, hmetadata⟩
    · rintro ⟨m, hm, hmname, hfile, hmetadata⟩
      obtain rfl := hunique m hm hmname
      rw [readTarMember_entry hfile, ok_bind]
      exact ⟨by simpa [isFile_entry] using hfile, hmetadata⟩

theorem normalized_sdist_accepted_sample :
    validateSdistBytes sdistTools tidyArchive "sdist.tar.gz" subnetDistribution
      sampleMetadata.version sampleMetadata.sourceDateEpoch = .ok () := by
  refine (normalized_sdist_accepted_iff sdistTools sdistPacker readMembers_sample
    (normalizeSdist_of_read readMembers_sample) _ _ _).mpr
      ⟨by decide +kernel, by decide, by decide, ?_⟩
  exact ⟨_, List.mem_cons_of_mem _ List.mem_cons_self, by decide, rfl, rfl⟩

end

end Release
end Dolores
