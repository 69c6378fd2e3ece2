import Mathlib.Algebra.Order.BigOperators.Group.List
import Dolores.Release.Written

/-!
# Written bundles are accepted (`build_release_bundle.py`)

The contents that the builder writes for given payload files, with the lines of the checksums ended
in either way, and the archive of them.

* `openBundle_written`     the members are read, when the reader of archives finds them;
* `verified_written`       the verifier accepts the archive;
* `canonical_written_iff`  whose members are canonical exactly when the lines end in newlines;
* `statedInputs_written`   the inputs that it states are the same in either way.
-/

namespace Dolores
namespace Release
open Except JsonText

/-! ## the contents -/

section
variable (tools : Tools) (terminator : Terminator) (m : Metadata) (data : String → Bytes)

/-- the payloads with these bytes -/
def writtenPayloads : List Payload :=
  (payloadPaths m.version).map fun path =>
    ⟨path, Dict.getD (expectedRoles m.version) path "", data path⟩

def writtenProvenance : Bytes := provenanceBytes tools (writtenPayloads m data) m

/-- the files that the checksums cover -/
def coveredData (path : String) : Bytes :=
  if path = provenancePath then writtenProvenance tools m data else data path

def writtenData (path : String) : Bytes :=
  if path = checksumsPath then
    writtenChecksums terminator (fun path => tools.sha256 (coveredData tools m data path))
      (checksumPaths m.version)
  else coveredData tools m data path

def writtenContents : Contents :=
  (listedPaths m.version).map fun path =>
    (bundleMember path, writtenData tools terminator m data path)

/-- a member of the archive as the builder writes it -/
def plainMember (size : String → Nat) (epoch : Int) (p : String × Bytes) : TarMember where
  name := p.1
  size := size p.1
  mtime := epoch
  content := .ok (some p.2)

/-- the members that the reader of archives finds, of these sizes -/
def writtenMembers (size : String → Nat) : List TarMember :=
  (writtenContents tools terminator m data).map (plainMember size m.sourceDateEpoch)

end

section
variable {tools : Tools} {terminator : Terminator} {m : Metadata} {data : String → Bytes}

theorem bundleMember_of_safe {path : String} (h : SafePath path) :
    bundleMember path = bundleRoot ++ "/" ++ path :=
  joinPath_of_named safePath_bundleRoot.named h.named

theorem keys_writtenContents :
    Dict.keys (writtenContents tools terminator m data) =
      (listedPaths m.version).map bundleMember := by
  unfold writtenContents Dict.keys
  rw [List.map_map]
  rfl

theorem safePath_of_mem (h : isVersion m.version = true) {name : String}
    (hname : name ∈ Dict.keys (writtenContents tools terminator m data)) : SafePath name := by
  rw [keys_writtenContents] at hname
  obtain ⟨path, hpath, rfl⟩ := List.mem_map.mp hname
  have hsafe := safePath_of_version h hpath
  rw [bundleMember_of_safe hsafe]
  exact safePath_bundleRoot.join hsafe

theorem sorted_writtenContents (h : isVersion m.version = true) :
    (Dict.keys (writtenContents tools terminator m data)).Pairwise (· < ·) := by
  rw [keys_writtenContents, List.pairwise_map]
  refine List.Pairwise.imp_of_mem ?_ (listedPaths_sorted m.version)
  intro path path' hpath hpath' hlt
  rw [bundleMember_of_safe (safePath_of_version h hpath),
    bundleMember_of_safe (safePath_of_version h hpath')]
  exact lt_append_left _ hlt

theorem nodup_writtenContents (h : isVersion m.version = true) :
    (Dict.keys (writtenContents tools terminator m data)).Nodup :=
  (sorted_writtenContents h).imp fun hlt => ne_of_lt hlt

/-! ### the files by path -/

theorem get?_writtenContents (h : isVersion m.version = true) {path : String}
    (hpath : path ∈ listedPaths m.version) :
    Dict.get? (writtenContents tools terminator m data) (bundleMember path) =
      some (writtenData tools terminator m data path) :=
  Dict.get?_of_mem (nodup_writtenContents h) (List.mem_map_of_mem hpath)

theorem mem_listedPaths_of_covered {version path : String} (h : path ∈ checksumPaths version) :
    path ∈ listedPaths version := by
  unfold checksumPaths at h
  rw [payloadPaths_eq] at h
  exact List.mem_cons_of_mem _ h

theorem ne_checksumsPath {version path : String} (h : path ∈ checksumPaths version) :
    path ≠ checksumsPath := by
  rintro rfl
  unfold checksumPaths at h
  rw [payloadPaths_eq] at h
  exact lt_irrefl _ ((List.pairwise_cons.mp (listedPaths_sorted version)).1 _ h)

theorem dataAt_covered (h : isVersion m.version = true) {path : String}
    (hpath : path ∈ checksumPaths m.version) :
    dataAt (writtenContents tools terminator m data) path = coveredData tools m data path := by
  rw [dataAt_of_get? (get?_writtenContents h (mem_listedPaths_of_covered hpath))]
  exact if_neg (ne_checksumsPath hpath)

theorem dataAt_payload (h : isVersion m.version = true) {path : String}
    (hpath : path ∈ payloadPaths m.version) :
    dataAt (writtenContents tools terminator m data) path = data path := by
  have hne : path ≠ provenancePath := by
    rintro rfl
    exact provenancePath_not_mem m.version hpath
  rw [dataAt_covered h (List.mem_append_left _ hpath)]
  exact if_neg hne

theorem containedPayloads_written (h : isVersion m.version = true) :
    containedPayloads (writtenContents tools terminator m data) m.version =
      writtenPayloads m data := by
  unfold containedPayloads writtenPayloads
  refine List.map_congr_left fun path hpath => ?_
  unfold containedPayload
  rw [dataAt_payload h hpath]

theorem get?_provenance (h : isVersion m.version = true) :
    Dict.get? (writtenContents tools terminator m data) provenanceName =
      some (writtenProvenance tools m data) := by
  have hmem : provenancePath ∈ checksumPaths m.version :=
    List.mem_append_right _ (List.mem_singleton_self _)
  have hdata : writtenData tools terminator m data provenancePath =
      writtenProvenance tools m data := by
    unfold writtenData coveredData
    rw [if_neg (ne_checksumsPath hmem), if_pos rfl]
  rw [← hdata]
  exact get?_writtenContents h (mem_listedPaths_of_covered hmem)

theorem get?_checksums (h : isVersion m.version = true) :
    Dict.get? (writtenContents tools terminator m data) checksumsName =
      some (writtenChecksums terminator
        (fun path => tools.sha256 (coveredData tools m data path)) (checksumPaths m.version)) := by
  have hdata : writtenData tools terminator m data checksumsPath = writtenChecksums terminator
      (fun path => tools.sha256 (coveredData tools m data path)) (checksumPaths m.version) :=
    if_pos rfl
  rw [← hdata]
  exact get?_writtenContents h List.mem_cons_self

/-! ## the archive -/

/-- the sizes of the members are within the limits -/
structure WithinLimits (size : String → Nat) (contents : Contents) : Prop where
  member : ∀ p ∈ contents, size p.1 ≤ maxArchiveMemberBytes
  total : (contents.map fun p => size p.1).sum ≤ maxArchiveTotalBytes

theorem withinLimits_of_le {size : String → Nat} {bound : Nat} (h : ∀ name, size name ≤ bound)
    (hbound : 7 * bound ≤ maxArchiveMemberBytes) :
    WithinLimits size (writtenContents tools terminator m data) where
  member := fun p _ => le_trans (h p.1) (le_trans (Nat.le_mul_of_pos_left bound (by decide)) hbound)
  total := by
    have hsum := List.sum_le_card_nsmul
      ((writtenContents tools terminator m data).map fun p => size p.1) bound
      (fun n hn => by obtain ⟨p, -, rfl⟩ := List.mem_map.mp hn; exact h p.1)
    have hlength :
        ((writtenContents tools terminator m data).map fun p => size p.1).length = 7 := by
      rw [List.length_map]
      exact List.length_map _
    rw [hlength] at hsum
    exact le_trans hsum (le_trans hbound (by decide))

variable {size : String → Nat}

theorem checkBundleMembers_plain (epoch : Int) {contents : Contents} {total : Nat}
    (hsafe : ∀ p ∈ contents, SafePath p.1)
    (hmember : ∀ p ∈ contents, size p.1 ≤ maxArchiveMemberBytes)
    (htotal : total + (contents.map fun p => size p.1).sum ≤ maxArchiveTotalBytes) :
    checkBundleMembers tools total (contents.map (plainMember size epoch)) = .ok () := by
  induction contents generalizing total with
  | nil => rfl
  | cons p contents ih =>
    obtain ⟨hp, hsafe⟩ := List.forall_mem_cons.mp hsafe
    obtain ⟨hsize, hmember⟩ := List.forall_mem_cons.mp hmember
    rw [List.map_cons, List.sum_cons, ← Nat.add_assoc] at htotal
    have hvalid : validateArchivePath tools (plainMember size epoch p).name "bundle member" =
        .ok () := hp.valid _
    have hfile : (plainMember size epoch p).isFile = true := rfl
    have hsum : total + size p.1 ≤ maxArchiveTotalBytes :=
      le_trans (Nat.le_add_right _ _) htotal
    rw [List.map_cons, checkBundleMembers]
    rw [hvalid, ok_bind, require_of hfile, ok_bind]
    show (require (size p.1 ≤ maxArchiveMemberBytes) _ >>= fun _ =>
      require (total + size p.1 ≤ maxArchiveTotalBytes) _ >>= fun _ =>
      checkBundleMembers tools (total + size p.1) _) = _
    rw [require_of hsize, ok_bind, require_of hsum, ok_bind]
    exact ih hsafe hmember htotal

theorem readMember_plain (epoch : Int) (p : String × Bytes) :
    (readTarMember tools invalidBundle (plainMember size epoch p) >>= fun bytes =>
      Except.ok ((plainMember size epoch p).name, bytes)) = .ok p := rfl

theorem checkMemberMetadata_plain (epoch : Int) (p : String × Bytes) :
    checkMemberMetadata tools epoch (plainMember size epoch p) = .ok () := by
  have hmtime : (plainMember size epoch p).mtime = epoch := rfl
  have howner : (plainMember size epoch p).rootOwned = true := rfl
  have hmode : (plainMember size epoch p).mode = 0o644 := rfl
  unfold checkMemberMetadata
  dsimp only
  rw [require_of hmtime, ok_bind, require_of howner, ok_bind, require_of hmode]

/-- the members are read when the reader of archives finds them -/
theorem openBundle_written {archive : Bytes} (h : isVersion m.version = true)
    (hlimits : WithinLimits size (writtenContents tools terminator m data))
    (hopen : tools.openTar archive = .ok (writtenMembers tools terminator m data size)) :
    openBundle tools archive = .ok (writtenMembers tools terminator m data size,
      writtenContents tools terminator m data) := by
  have hnames : (writtenMembers tools terminator m data size).map TarMember.name =
      Dict.keys (writtenContents tools terminator m data) := by
    unfold writtenMembers Dict.keys
    rw [List.map_map]
    rfl
  have hsorted := (List.Pairwise.insertionSort_eq
    ((@sorted_writtenContents tools terminator m data h).imp
      fun hlt => le_of_lt hlt)).symm
  have hread : (writtenMembers tools terminator m data size).mapM (fun member => do
      let bytes ← readTarMember tools invalidBundle member
      Except.ok (member.name, bytes)) = .ok (writtenContents tools terminator m data) := by
    unfold writtenMembers
    rw [List.mapM_map]
    exact (mapM_ok id fun p _ => readMember_plain m.sourceDateEpoch p).trans
      (congrArg Except.ok (List.map_id _))
  have hchecked : checkBundleMembers tools 0 (writtenMembers tools terminator m data size) =
      .ok () := by
    refine checkBundleMembers_plain m.sourceDateEpoch
      (fun p hp => safePath_of_mem h (List.mem_map_of_mem hp)) hlimits.member ?_
    rw [Nat.zero_add]
    exact hlimits.total
  have hreading : reading invalidBundle (tools.openTar archive) =
      .ok (writtenMembers tools terminator m data size) := reading_ok.mpr hopen
  unfold openBundle
  rw [hreading, ok_bind]
  dsimp only
  rw [hnames, require_of hsorted, ok_bind, require_of (nodup_writtenContents h), ok_bind, hchecked,
    ok_bind, hread, ok_bind, Dict.ofPairs_of_nodup (nodup_writtenContents h)]

/-- the archive of the written contents -/
structure Written (tools : Tools) (terminator : Terminator) (m : Metadata)
    (data : String → Bytes) (size : String → Nat) (archive : Bytes) : Prop where
  metadata : ValidMetadata m
  readable : Unlimited tools (writtenProvenance tools m data)
  limits : WithinLimits size (writtenContents tools terminator m data)
  length_le : archive.length ≤ maxBundleBytes
  opened : tools.openTar archive = .ok (writtenMembers tools terminator m data size)
  artifacts : ArtifactsChecked tools (writtenContents tools terminator m data) m
  rendered : tools.render (writtenContents tools terminator m data) m.sourceDateEpoch = .ok archive

variable {archive : Bytes}

theorem Written.version (h : Written tools terminator m data size archive) :
    isVersion m.version = true := h.metadata.version

theorem hasKeys_written : HasKeys (writtenContents tools terminator m data)
    ((payloadPaths m.version).map bundleMember ++ [provenanceName, checksumsName]) := by
  have hkeys : Dict.keys (writtenContents tools terminator m data) = checksumsName ::
      ((payloadPaths m.version).map bundleMember ++ [provenanceName]) := by
    rw [keys_writtenContents, payloadPaths_eq]
    unfold listedPaths
    rw [List.map_cons, List.map_append, List.map_singleton]
    rfl
  have hperm : (Dict.keys (writtenContents tools terminator m data)).Perm
      ((payloadPaths m.version).map bundleMember ++ [provenanceName] ++ [checksumsName]) := by
    rw [hkeys]
    exact (List.perm_append_singleton _ _).symm
  rw [List.append_assoc] at hperm
  exact ⟨fun k hk => hperm.mem_iff.mp hk, fun k hk => hperm.mem_iff.mpr hk⟩

theorem checkChecksums_written (h : isVersion m.version = true) :
    checkChecksums tools (writtenContents tools terminator m data)
      ((payloadPaths m.version).map
        (containedRecord tools (writtenContents tools terminator m data) m.version)) = .ok () := by
  have hsafe : ∀ path ∈ checksumPaths m.version, SafePath path := fun path hpath =>
    safePath_of_version h (mem_listedPaths_of_covered hpath)
  have hparse := @parseChecksums_written tools terminator
    (fun path => tools.sha256 (coveredData tools m data path)) _
    (fun path hpath => (hsafe path hpath).valid) (fun path hpath => (hsafe path hpath).unbroken)
    (checksumPaths_sorted m.version) (checksumPaths_ne_nil m.version)
  have hread : Dict.getD (writtenContents tools terminator m data) checksumsName [] =
      writtenChecksums terminator (fun path => tools.sha256 (coveredData tools m data path))
        (checksumPaths m.version) := @dataAt_of_get? _ checksumsPath _ (get?_checksums h)
  have hkeys : HasKeys (pathChecksums (fun path => tools.sha256 (coveredData tools m data path))
      (checksumPaths m.version)) (((payloadPaths m.version).map (containedRecord tools
        (writtenContents tools terminator m data) m.version)).map PayloadRecord.path ++
          [provenancePath]) := by
    apply hasKeys_of_keys_eq
    unfold pathChecksums Dict.keys checksumPaths
    rw [List.map_map, List.map_map]
    exact (List.map_id _).trans (congrArg (· ++ [provenancePath]) (List.map_id _).symm)
  unfold checkChecksums
  rw [hread, hparse, ok_bind, require_of hkeys, ok_bind]
  apply forM_ok
  intro p hp
  obtain ⟨path, hpath, rfl⟩ := List.mem_map.mp hp
  have hsame : (tools.sha256 (dataAt (writtenContents tools terminator m data) path)).text =
      (tools.sha256 (coveredData tools m data path)).text := by rw [dataAt_covered h hpath]
  exact require_of hsame _

theorem renderTarGz_written (h : Written tools terminator m data size archive) :
    renderTarGz tools (writtenContents tools terminator m data) m.sourceDateEpoch =
      .ok archive := by
  have hsorted : Dict.sorted (writtenContents tools terminator m data) =
      writtenContents tools terminator m data :=
    Dict.sorted_eq_of_sorted (List.pairwise_map.mp
      ((sorted_writtenContents h.version).imp fun hlt => le_of_lt hlt))
  have hvalid : (writtenContents tools terminator m data).forM (fun p =>
      validateArchivePath tools p.1 "output bundle member") = .ok () :=
    forM_ok fun p hp => (safePath_of_mem h.version (List.mem_map_of_mem hp)).valid _
  unfold renderTarGz
  dsimp only
  rw [hsorted, hvalid, ok_bind, h.rendered]

/-- the verifier accepts the archive -/
theorem verified_written (h : Written tools terminator m data size archive) :
    Verified tools archive (writtenMembers tools terminator m data size)
      (writtenContents tools terminator m data)
      (provenanceDocument tools (writtenPayloads m data) m) m
      ((payloadPaths m.version).map
        (containedRecord tools (writtenContents tools terminator m data) m.version)) where
  size := h.length_le
  opened := openBundle_written h.version h.limits h.opened
  stated := by
    refine statedProvenance_written h.metadata (get?_provenance h.version) ?_ h.readable
    rw [get?_checksums h.version]
    rfl
  parsed := by
    rw [← @containedPayloads_written tools terminator _ _ h.version]
    refine parsePayloadRecords_written fun path hpath => ?_
    have hlisted := mem_listedPaths_of_covered (List.mem_append_left _ hpath)
    exact (safePath_of_version h.version hlisted).valid
  memberSet := by
    unfold checkMemberSet
    dsimp only
    rw [List.map_map]
    exact require_of (hasKeys_written) _
  metadata := by
    apply forM_ok
    intro member hmember
    obtain ⟨p, -, rfl⟩ := List.mem_map.mp hmember
    exact checkMemberMetadata_plain m.sourceDateEpoch p
  payloads := by
    apply forM_ok
    intro r hr
    obtain ⟨path, -, rfl⟩ := List.mem_map.mp hr
    exact checkPayload_iff.mpr ⟨rfl, rfl⟩
  checksums := checkChecksums_written h.version
  artifacts := (checkArtifacts_iff h.version).mpr h.artifacts
  rendered := renderTarGz_written h

/-- whose members are canonical exactly when the lines end in newlines -/
theorem canonical_written_iff (h : Written tools terminator m data size archive) :
    CanonicalMembers tools.text (writtenContents tools terminator m data) ↔
      terminator = .newline := by
  have hunbroken : ∀ path ∈ checksumPaths m.version, ∀ c ∈ path.toList, isLineBreak c = false :=
    fun path hpath => (safePath_of_version h.version (mem_listedPaths_of_covered hpath)).unbroken
  have hprovenance : Dict.getD (writtenContents tools terminator m data) provenanceName [] =
      writtenProvenance tools m data := dataAt_of_get? (get?_provenance h.version)
  have hchecksums : Dict.getD (writtenContents tools terminator m data) checksumsName [] =
      writtenChecksums terminator (fun path => tools.sha256 (coveredData tools m data path))
        (checksumPaths m.version) := dataAt_of_get? (get?_checksums h.version)
  have hiff := @canonicalChecksums_written_iff terminator
    (fun path => tools.sha256 (coveredData tools m data path)) _ hunbroken
    (checksumPaths_ne_nil m.version)
  constructor
  · intro hc
    have hwritten := hc.checksums
    rw [hchecksums] at hwritten
    exact hiff.mp hwritten
  · intro hterminator
    refine ⟨?_, ?_⟩
    · rw [hprovenance]
      exact canonicalProvenance_written _ m
    · rw [hchecksums]
      exact hiff.mpr hterminator

/-- the inputs that the archive states do not depend on the ends of the lines -/
theorem statedInputs_written (h : Written tools terminator m data size archive) :
    statedInputs tools archive = some (inputsOf data m) := by
  rw [statedInputs_of_verified (verified_written h)]
  exact congrArg some (inputsOf_congr fun path hpath => dataAt_payload h.version hpath)

end

end Release
end Dolores
