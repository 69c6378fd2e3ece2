import Dolores.Release.Bundle

/-!
# The paths of a bundle (`build_release_bundle.py`)

* `listedPaths_sorted`     the members of a bundle in their order;
* `posixPath_of_named`     a path without empty parts and dots is normalised;
* `joinPath_joinPath`      joining twice is joining the joined path;
* `safePath_of_version`    the members of a release have safe paths.
-/

namespace Dolores
namespace Release
open Except

variable {tools : Tools}

/-! ## paths and roles -/

theorem lt_append_left (base : String) {a b : String} (h : a < b) : base ++ a < base ++ b := by
  rw [String.lt_iff_toList_lt] at h ⊢
  rw [String.toList_append, String.toList_append]
  exact List.append_left_lt h

theorem lt_of_head {a b : String} {c d : Char} (ha : a.toList.head? = some c)
    (hb : b.toList.head? = some d) (h : c < d) : a < b := by
  obtain ⟨cs, ha⟩ := List.head?_eq_some_iff.mp ha
  obtain ⟨ds, hb⟩ := List.head?_eq_some_iff.mp hb
  rw [String.lt_iff_toList_lt, ha, hb]
  exact List.cons_lt_cons_iff.mpr (.inl h)

theorem head?_append {base : String} {c : Char} (h : base.toList.head? = some c)
    (value : String) : (base ++ value).toList.head? = some c := by
  rw [String.toList_append, List.head?_append, h]
  rfl

/-- the roles as they are listed in the source -/
def listedRoles (version : String) : Dict String String := [
  ("artifacts/" ++ engineWheelName version, "engine_wheel"),
  ("artifacts/" ++ subnetWheelName version, "subnet_wheel"),
  ("artifacts/" ++ subnetSdistName version, "subnet_sdist"),
  (fixtureRoot ++ "/task.yaml", "honest_fixture"),
  (fixtureRoot ++ "/wire.json", "honest_fixture")]

theorem engineWheelName_lt (version : String) :
    engineWheelName version < subnetWheelName version := by
  unfold engineWheelName subnetWheelName
  rw [show "dolores_autocurricula-" = "dolores_" ++ "autocurricula-" from rfl,
    show "dolores_bittensor_subnet-" = "dolores_" ++ "bittensor_subnet-" from rfl]
  simp only [String.append_assoc]
  exact lt_append_left _ (lt_of_head (head?_append rfl _) (head?_append rfl _) (by decide))

theorem subnetWheelName_lt (version : String) :
    subnetWheelName version < subnetSdistName version :=
  lt_append_left _ (lt_of_head (c := '-') (d := '.') rfl rfl (by decide))

/-- the members of a bundle in their order -/
def listedPaths (version : String) : List String :=
  checksumsPath :: (Dict.keys (listedRoles version) ++ [provenancePath])

theorem listedPaths_sorted (version : String) : (listedPaths version).Pairwise (· < ·) := by
  have hartifact : ∀ name, ("artifacts/" ++ name).toList.head? = some 'a' := head?_append rfl
  have hfixture : ∀ name, (fixtureRoot ++ name).toList.head? = some 'e' := head?_append rfl
  rw [← List.isChain_iff_pairwise]
  show List.IsChain _ [_, _, _, _, _, _, _]
  simp only [List.isChain_cons_cons, List.IsChain.singleton, and_true]
  exact ⟨lt_of_head (c := 'S') rfl (hartifact _) (by decide),
    lt_append_left _ (engineWheelName_lt version), lt_append_left _ (subnetWheelName_lt version),
    lt_of_head (hartifact _) (hfixture _) (by decide), lt_append_left _ (by decide),
    lt_of_head (d := 'p') (hfixture _) rfl (by decide)⟩

theorem roles_sorted (version : String) :
    (Dict.keys (listedRoles version) ++ [provenancePath]).Pairwise (· < ·) :=
  (List.pairwise_cons.mp (listedPaths_sorted version)).2

theorem nodup_listedRoles (version : String) : (Dict.keys (listedRoles version)).Nodup :=
  ((List.pairwise_append.mp (roles_sorted version)).1).imp fun h => ne_of_lt h

theorem expectedRoles_eq (version : String) : expectedRoles version = listedRoles version :=
  Dict.ofPairs_of_nodup (nodup_listedRoles version)

/-- the sorted paths of the payloads -/
def payloadPaths (version : String) : List String :=
  (Dict.keys (expectedRoles version)).insertionSort (· ≤ ·)

/-- the roles are listed in the order of their paths -/
theorem payloadPaths_eq (version : String) :
    payloadPaths version = Dict.keys (listedRoles version) := by
  unfold payloadPaths
  rw [expectedRoles_eq]
  exact List.Pairwise.insertionSort_eq
    (((List.pairwise_append.mp (roles_sorted version)).1).imp fun h => le_of_lt h)

/-- the paths that the checksums cover, sorted -/
def checksumPaths (version : String) : List String := payloadPaths version ++ [provenancePath]

theorem checksumPaths_sorted (version : String) : (checksumPaths version).Pairwise (· < ·) := by
  unfold checksumPaths
  rw [payloadPaths_eq]
  exact roles_sorted version

theorem provenancePath_not_mem (version : String) : provenancePath ∉ payloadPaths version := by
  intro hmem
  exact lt_irrefl _ ((List.pairwise_append.mp (checksumPaths_sorted version)).2.2 _ hmem _
    (List.mem_singleton_self _))

/-! ### normalised paths -/

/-- no part of the path is empty or the directory itself -/
def Named (value : String) : Prop := ∀ part ∈ parts value, part ≠ [] ∧ part ≠ ['.']

theorem parts_join (base name : String) :
    parts (base ++ "/" ++ name) = parts base ++ parts name := by
  unfold parts
  have hlist : (base ++ "/" ++ name).toList = base.toList ++ '/' :: name.toList := by
    rw [String.toList_append, String.toList_append, List.append_assoc]
    rfl
  rw [hlist, List.splitOn_append_cons_self]

theorem Named.join {base name : String} (h : Named base) (h' : Named name) :
    Named (base ++ "/" ++ name) := by
  intro part hpart
  rw [parts_join] at hpart
  exact (List.mem_append.mp hpart).elim (h part) (h' part)

theorem Named.head_ne {value : String} (h : Named value) :
    ∃ c cs, value.toList = c :: cs ∧ c ≠ '/' := by
  cases hvalue : value.toList with
  | nil =>
    have hparts : parts value = [[]] := by
      unfold parts
      rw [hvalue]
      rfl
    exact absurd rfl (h [] (hparts ▸ List.mem_singleton_self _)).1
  | cons c cs =>
    refine ⟨c, cs, rfl, ?_⟩
    rintro rfl
    have hparts : parts value = [] :: cs.splitOn '/' := by
      unfold parts
      rw [hvalue]
      exact List.splitOn_append_cons_self [] cs
    exact absurd rfl (h [] (hparts ▸ List.mem_cons_self)).1

theorem Named.not_isPrefixOf {value : String} (h : Named value) (root : List Char) :
    ('/' :: root).isPrefixOf value.toList = false := by
  obtain ⟨c, cs, hvalue, hc⟩ := h.head_ne
  rw [hvalue]
  show ('/' == c && root.isPrefixOf cs) = false
  rw [beq_eq_false_iff_ne.mpr (Ne.symm hc), Bool.false_and]

theorem Named.isAbsolute {value : String} (h : Named value) : isAbsolute value = false :=
  h.not_isPrefixOf []

theorem posixPath_of_named {value : String} (h : Named value) : posixPath value = value := by
  have hjoin : ['/'].intercalate (parts value) = value.toList := List.intercalate_splitOn '/'
  have hparts : ((parts value).filter fun part => part ≠ [] ∧ part ≠ ['.']) = parts value :=
    List.filter_eq_self.mpr fun part hpart => decide_eq_true (h part hpart)
  have hne : value ≠ "" := by
    obtain ⟨c, cs, hvalue, -⟩ := h.head_ne
    rintro rfl
    exact nomatch hvalue
  have hroot : ∀ root : List Char, ('/' :: root).isPrefixOf value.toList = false :=
    h.not_isPrefixOf
  unfold posixPath
  dsimp only
  rw [hparts, hjoin, String.ofList_toList, show "///".toList = ['/', '/', '/'] from rfl,
    show "//".toList = ['/', '/'] from rfl, show "/".toList = ['/'] from rfl, hroot, hroot, hroot,
    if_neg Bool.false_ne_true, if_neg Bool.false_ne_true, if_neg Bool.false_ne_true,
    String.empty_append, if_neg hne]

theorem joinPath_of_named {base name : String} (h : Named base) (h' : Named name) :
    joinPath base name = base ++ "/" ++ name := by
  unfold joinPath
  rw [h'.isAbsolute, if_neg Bool.false_ne_true]
  exact posixPath_of_named (h.join h')

/-- joining twice is joining the joined path -/
theorem joinPath_joinPath {base directory name : String} (hbase : Named base)
    (hdirectory : Named directory) (hname : Named name) :
    joinPath (joinPath base directory) name = joinPath base (directory ++ "/" ++ name) := by
  rw [joinPath_of_named hbase hdirectory, joinPath_of_named (hbase.join hdirectory) hname,
    joinPath_of_named hbase (hdirectory.join hname)]
  simp only [String.append_assoc]

/-! ## safe paths -/

/-- the paths can be members of a bundle -/
def ValidPath (tools : Tools) (path : String) : Prop :=
  ∀ label, validateArchivePath tools path label = .ok ()

theorem ValidPath.spec {path : String} (h : ValidPath tools path) :
    path ≠ "" ∧ ∀ c ∈ path.toList, isControl c = false := by
  obtain ⟨_, hshape, -⟩ := bind_ok (h "")
  rw [require_ok] at hshape
  exact ⟨hshape.1, fun c hc => by simpa using List.any_eq_false.mp hshape.2.2 c hc⟩

/-- what the characters of a version are -/
def isNameChar (c : Char) : Bool := isAsciiAlnum c || "._+-".toList.contains c

theorem isNameChar_range {c : Char} (h : isNameChar c = true) : 33 ≤ c.toNat ∧ c.toNat ≤ 122 := by
  rcases (Bool.or_eq_true _ _).mp h with h | h
  · simp only [isAsciiAlnum, Bool.or_eq_true, Bool.and_eq_true, decide_eq_true_eq] at h
    omega
  · have hall : "._+-".toList.all (fun c => 33 ≤ c.toNat ∧ c.toNat ≤ 122) = true := by decide
    exact of_decide_eq_true (List.all_eq_true.mp hall c (List.contains_iff_mem.mp h))

structure SafePath (path : String) : Prop where
  chars : ∀ c ∈ path.toList, isNameChar c = true ∨ c = '/'
  parts : ∀ part ∈ parts path, part ∉ [[], ['.'], ['.', '.']]

theorem SafePath.range {path : String} (h : SafePath path) :
    ∀ c ∈ path.toList, c ≠ '\\' ∧ 33 ≤ c.toNat ∧ c.toNat ≤ 122 := by
  intro c hc
  rcases h.chars c hc with hname | rfl
  · refine ⟨?_, isNameChar_range hname⟩
    rintro rfl
    exact absurd hname (by decide)
  · decide

theorem SafePath.named {path : String} (h : SafePath path) : Named path := by
  intro part hpart
  have hnot := h.parts part hpart
  constructor
  · rintro rfl
    exact hnot List.mem_cons_self
  · rintro rfl
    exact hnot (List.mem_cons_of_mem _ List.mem_cons_self)

theorem SafePath.valid {path : String} (h : SafePath path) : ValidPath tools path := by
  intro label
  obtain ⟨c, cs, hpath, -⟩ := h.named.head_ne
  have hne : path ≠ "" := by
    rintro rfl
    exact nomatch hpath
  have hbackslash : '\\' ∉ path.toList := fun hmem => (h.range _ hmem).1 rfl
  have hcontrol : path.toList.any isControl = false := by
    rw [List.any_eq_false]
    intro c hc hcontrol
    obtain ⟨-, hlow, hhigh⟩ := h.range c hc
    simp only [isControl, Bool.or_eq_true, decide_eq_true_eq, beq_iff_eq] at hcontrol
    omega
  unfold validateArchivePath
  rw [require_of ⟨hne, hbackslash, hcontrol⟩, ok_bind]
  exact require_of ⟨h.named.isAbsolute, h.parts, (posixPath_of_named h.named).symm⟩ _

/-- it is within a line -/
theorem SafePath.unbroken {path : String} (h : SafePath path) :
    ∀ c ∈ path.toList, isLineBreak c = false := by
  intro c hc
  obtain ⟨-, hlow, hhigh⟩ := h.range c hc
  unfold isLineBreak
  rw [List.contains_eq_mem, decide_eq_false_iff_not]
  simp only [List.mem_cons, List.not_mem_nil, or_false]
  omega

theorem SafePath.join {base name : String} (h : SafePath base) (h' : SafePath name) :
    SafePath (base ++ "/" ++ name) where
  chars := by
    intro c hc
    rw [String.toList_append, String.toList_append, List.mem_append, List.mem_append] at hc
    rcases hc with (hc | hc) | hc
    · exact h.chars c hc
    · exact .inr (List.mem_singleton.mp hc)
    · exact h'.chars c hc
  parts := by
    intro part hpart
    rw [parts_join] at hpart
    exact (List.mem_append.mp hpart).elim (h.parts part) (h'.parts part)

/-- a name that does not begin with a dot -/
structure SafeName (name : String) : Prop where
  chars : ∀ c ∈ name.toList, isNameChar c = true
  head : ∃ c cs, name.toList = c :: cs ∧ c ≠ '.'

theorem SafeName.append {a b : String} (h : SafeName a) (hb : ∀ c ∈ b.toList, isNameChar c = true) :
    SafeName (a ++ b) where
  chars := by
    intro c hc
    rw [String.toList_append, List.mem_append] at hc
    exact hc.elim (h.chars c) (hb c)
  head := by
    obtain ⟨c, cs, ha, hc⟩ := h.head
    refine ⟨c, cs ++ b.toList, ?_, hc⟩
    rw [String.toList_append, ha]
    rfl

/-- it is one part -/
theorem SafeName.parts_eq {name : String} (h : SafeName name) : parts name = [name.toList] := by
  have hslash : ∀ c ∈ name.toList, (c == '/') = false := by
    intro c hc
    rw [beq_eq_false_iff_ne]
    rintro rfl
    exact absurd (h.chars _ hc) (by decide)
  exact List.splitOnP_eq_singleton hslash

theorem SafeName.path {name : String} (h : SafeName name) : SafePath name where
  chars := fun c hc => .inl (h.chars c hc)
  parts := by
    obtain ⟨c, cs, hname, hc⟩ := h.head
    intro part hpart
    rw [h.parts_eq, List.mem_singleton] at hpart
    rw [hpart, hname]
    simp only [List.mem_cons, List.cons.injEq, reduceCtorEq, List.not_mem_nil, hc,
      false_and, or_self, not_false_eq_true]

theorem isVersion_chars {version : String} (h : isVersion version = true) :
    ∀ c ∈ version.toList, isNameChar c = true := by
  unfold isVersion at h
  cases hversion : version.toList with
  | nil => exact fun c hc => absurd hc List.not_mem_nil
  | cons c cs =>
    rw [hversion] at h
    obtain ⟨hc, hcs⟩ := (Bool.and_eq_true _ _).mp h
    refine List.forall_mem_cons.mpr ⟨?_, List.all_eq_true.mp hcs⟩
    unfold isNameChar
    rw [hc, Bool.true_or]

theorem safeName_engine : SafeName "dolores_autocurricula-" :=
  ⟨by simp; decide, 'd', _, rfl, by decide⟩

theorem safeName_subnet : SafeName "dolores_bittensor_subnet-" :=
  ⟨by simp; decide, 'd', _, rfl, by decide⟩

theorem safePath_bundleRoot : SafePath bundleRoot :=
  SafeName.path ⟨by unfold bundleRoot; simp; decide, 'r', _, rfl, by decide⟩

theorem safePath_artifacts : SafePath "artifacts" :=
  SafeName.path ⟨by simp; decide, 'a', _, rfl, by decide⟩

theorem safePath_fixtureRoot : SafePath fixtureRoot := by
  have hexamples : SafePath "examples" := SafeName.path ⟨by simp; decide, 'e', _, rfl, by decide⟩
  have htasks : SafePath "tasks" := SafeName.path ⟨by simp; decide, 't', _, rfl, by decide⟩
  have hhonest : SafePath "honest_example" :=
    SafeName.path ⟨by simp; decide, 'h', _, rfl, by decide⟩
  exact (hexamples.join htasks).join hhonest

theorem safePath_taskYaml : SafePath "task.yaml" :=
  SafeName.path ⟨by simp; decide, 't', _, rfl, by decide⟩

theorem safePath_wireJson : SafePath "wire.json" :=
  SafeName.path ⟨by simp; decide, 'w', _, rfl, by decide⟩

theorem safePath_provenance : SafePath provenancePath :=
  SafeName.path ⟨by unfold provenancePath; simp; decide, 'p', _, rfl, by decide⟩

theorem safePath_checksums : SafePath checksumsPath :=
  SafeName.path ⟨by unfold checksumsPath; simp; decide, 'S', _, rfl, by decide⟩

theorem safeName_engineWheel {version : String} (h : isVersion version = true) :
    SafeName (engineWheelName version) :=
  (safeName_engine.append (isVersion_chars h)).append (by simp; decide)

theorem safeName_subnetWheel {version : String} (h : isVersion version = true) :
    SafeName (subnetWheelName version) :=
  (safeName_subnet.append (isVersion_chars h)).append (by simp; decide)

theorem safeName_subnetSdist {version : String} (h : isVersion version = true) :
    SafeName (subnetSdistName version) :=
  (safeName_subnet.append (isVersion_chars h)).append (by simp; decide)

/-- the members of a release -/
theorem safePath_of_version {version path : String} (h : isVersion version = true)
    (hpath : path ∈ listedPaths version) : SafePath path := by
  simp only [listedPaths, listedRoles, Dict.keys, List.map_cons, List.map_nil, List.cons_append,
    List.nil_append, List.mem_cons, List.not_mem_nil, or_false] at hpath
  rcases hpath with rfl | rfl | rfl | rfl | rfl | rfl | rfl
  · exact safePath_checksums
  · exact safePath_artifacts.join (safeName_engineWheel h).path
  · exact safePath_artifacts.join (safeName_subnetWheel h).path
  · exact safePath_artifacts.join (safeName_subnetSdist h).path
  · exact safePath_fixtureRoot.join safePath_taskYaml
  · exact safePath_fixtureRoot.join safePath_wireJson
  · exact safePath_provenance

end Release
end Dolores
