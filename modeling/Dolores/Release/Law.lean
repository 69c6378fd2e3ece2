import Dolores.Gate.RoundTrip
import Dolores.Release.Accepted

/-!
# Accepted bundles (`build_release_bundle.py`)

The verifier renders the contents of a bundle again, but it parses the provenance and the checksums
without comparing their bytes.  White space, the order of keys, repeated keys, escapes, and the ends
of lines may then differ from what the builder writes.

* `release_bundle_canonical_iff`   when an accepted bundle is the builder's, and when two accepted
                             bundles of the same inputs are the same;
* `returned_bundle_accepted`       lines of `SHA256SUMS` that end in carriage returns and newlines.
-/

namespace Dolores
namespace Release
open Except JsonText

/-- the verifier accepts a file with these bytes, whatever is expected of it -/
def Accepts (tools : Tools) (archive : Bytes) (v : BundleVerification) : Prop :=
  ∃ expected path name, verifyReleaseBundle tools expected ⟨path, name, .regular archive⟩ = .ok v

/-- the provenance and the checksums in the archive are written as the builder writes them -/
def CanonicalArchive (tools : Tools) (archive : Bytes) : Prop :=
  ∃ members contents, openBundle tools archive = .ok (members, contents) ∧
    CanonicalMembers tools.text contents

section
variable {tools : Tools} {archive : Bytes} {v : BundleVerification} {members : List TarMember}
  {contents : Contents} {document : Obj} {m : Metadata} {records : List PayloadRecord}

theorem Accepts.verified (h : Accepts tools archive v) :
    ∃ members contents document m records,
      Verified tools archive members contents document m records ∧
        v = verification tools archive contents document records := by
  obtain ⟨expected, path, name, hverify⟩ := h
  obtain ⟨members, contents, document, m, records, hv, -, hv'⟩ := verify_ok_iff.mp hverify
  exact ⟨members, contents, document, m, records, hv, hv'⟩

theorem checkExpected_of {expected : Expected} (hversion : ∀ v ∈ expected.version, m.version = v)
    (hepoch : ∀ e ∈ expected.sourceDateEpoch, m.sourceDateEpoch = e)
    (hengine : ∀ c ∈ expected.engineSourceCommit, m.engineSourceCommit = c)
    (hsubnet : ∀ c ∈ expected.subnetSourceCommit, m.subnetSourceCommit = c) :
    checkExpected tools expected m = .ok () := by
  unfold checkExpected
  rw [require_of hversion, ok_bind, require_of hepoch, ok_bind, require_of hengine, ok_bind,
    require_of hsubnet]

theorem accepts_of_verified
    (hv : Verified tools archive members contents document m records) :
    Accepts tools archive (verification tools archive contents document records) := by
  have hexpected : checkExpected tools {} m = .ok () :=
    checkExpected_of (fun _ h => absurd h (Option.not_mem_none _))
      (fun _ h => absurd h (Option.not_mem_none _)) (fun _ h => absurd h (Option.not_mem_none _))
      fun _ h => absurd h (Option.not_mem_none _)
  exact ⟨{}, "", "",
    verify_ok_iff.mpr ⟨members, contents, document, m, records, hv, hexpected, rfl⟩⟩

theorem canonicalArchive_iff (hv : Verified tools archive members contents document m records) :
    CanonicalArchive tools archive ↔ CanonicalMembers tools.text contents := by
  constructor
  · rintro ⟨members', contents', hopened, hcanonical⟩
    obtain ⟨-, rfl⟩ := Prod.mk.inj (Except.ok.inj (hopened.symm.trans hv.opened))
    exact hcanonical
  · exact fun hcanonical => ⟨members, contents, hv.opened, hcanonical⟩

/-- the builder makes the archive from the inputs that it states exactly when it is canonical -/
theorem releaseArchive_iff (hv : Verified tools archive members contents document m records) :
    releaseArchive tools (containedInputs contents m) = .ok archive ↔
      CanonicalArchive tools archive := by
  rw [releaseArchive_contained hv, assembleArchive_iff hv, canonicalArchive_iff hv]

theorem buildReleaseBundle_iff
    (hv : Verified tools archive members contents document m records) (temporary : String) :
    buildReleaseBundle tools (containedInputs contents m) temporary =
        .ok (archive, verification tools archive contents document records) ↔
      CanonicalArchive tools archive := by
  rw [← releaseArchive_iff hv]
  constructor
  · intro h
    obtain ⟨archive', harchive, h⟩ := bind_ok h
    obtain ⟨_, -, h⟩ := bind_ok h
    rw [← (Prod.mk.inj (Except.ok.inj h)).1]
    exact harchive
  · intro h
    have hexpected : checkExpected tools ⟨some m.version, some m.sourceDateEpoch,
        some m.engineSourceCommit, some m.subnetSourceCommit⟩ m = .ok () :=
      checkExpected_of (fun _ => Option.some.inj) (fun _ => Option.some.inj)
        (fun _ => Option.some.inj) fun _ => Option.some.inj
    have hverify := (@verify_ok_iff _ _ temporary temporary _ _).mpr
      ⟨members, contents, document, m, records, hv, hexpected, rfl⟩
    unfold buildReleaseBundle
    rw [h, ok_bind]
    show (verifyReleaseBundle tools ⟨some m.version, some m.sourceDateEpoch,
      some m.engineSourceCommit, some m.subnetSourceCommit⟩ _ >>= fun _ => _) = _
    rw [hverify]
    rfl

/-- accepted bundles are encodings of the inputs that they state -/
theorem isCanonical_archive_iff (h : Accepts tools archive v) :
    IsCanonical (statedInputs tools) (fun inputs => (releaseArchive tools inputs).toOption)
      archive ↔ CanonicalArchive tools archive := by
  obtain ⟨members, contents, document, m, records, hv, -⟩ := h.verified
  rw [isCanonical_iff (statedInputs_of_verified hv) rfl, ← releaseArchive_iff hv]
  cases releaseArchive tools (containedInputs contents m) with
  | ok archive' =>
    exact ⟨fun h => congrArg _ (Option.some.inj h), fun h => congrArg _ (Except.ok.inj h)⟩
  | error exc => exact iff_of_false (fun h => nomatch h) fun h => nomatch h

end

/-- When a bundle is accepted, the builder makes the same bytes from the files in it and the
metadata of its provenance exactly when the provenance and the checksums are canonical.  Another
accepted bundle of the same files and metadata is then the same, with the same digest, exactly when
it is canonical too. -/
theorem release_bundle_canonical_iff {tools : Tools} {archive : Bytes} {v : BundleVerification}
    (h : Accepts tools archive v) :
    ∃ inputs, statedInputs tools archive = some inputs ∧
      (releaseArchive tools inputs = .ok archive ↔ CanonicalArchive tools archive) ∧
      (∀ temporary, buildReleaseBundle tools inputs temporary = .ok (archive, v) ↔
        CanonicalArchive tools archive) ∧
      (CanonicalArchive tools archive → ∀ archive' v', Accepts tools archive' v' →
        statedInputs tools archive' = some inputs →
          (archive' = archive ∧ v'.bundleSha256 = v.bundleSha256 ↔
            CanonicalArchive tools archive')) := by
  obtain ⟨members, contents, document, m, records, hv, rfl⟩ := h.verified
  have hstated := statedInputs_of_verified hv
  refine ⟨containedInputs contents m, hstated, releaseArchive_iff hv, buildReleaseBundle_iff hv,
    ?_⟩
  intro hcanonical archive' v' h' hstated'
  have hsame := ((isCanonical_archive_iff h).mpr hcanonical).eq_iff (hstated.trans hstated'.symm)
  rw [isCanonical_archive_iff h'] at hsame
  obtain ⟨members', contents', document', m', records', -, rfl⟩ := h'.verified
  rw [← hsame]
  constructor
  · exact fun heq => heq.1.symm
  · rintro rfl
    exact ⟨rfl, rfl⟩

/-! ## a bundle whose lines of checksums end in carriage returns and newlines -/

def sampleMetadata : Metadata where
  version := "0.1.0"
  sourceDateEpoch := 1700000000
  engineSourceCommit := String.ofList (List.replicate 40 'a')
  subnetSourceCommit := String.ofList (List.replicate 40 'b')

/-- `to_wire` of the fixture -/
def sampleWire : Obj := WireSubmission.toDict {
  schemaVersion
  taskId := plainTask.taskId
  packageHash := "hash-task-1"
  package := wirePackage plainTask.canonicalDict
  family := "parser_roundtrip"
  declaredDifficulty := "0.5" }

def sampleWireJson : Bytes := encodeUtf8 (document Env.plain.text (.obj sampleWire))

def sampleEngineWheel : Bytes := [0x50, 0x4b, 1]
def sampleSubnetWheel : Bytes := [0x50, 0x4b, 2]
def sampleSdist : Bytes := [0x1f, 0x8b, 8, 0, 0x00, 0xf1, 0x53, 0x65, 2, 255]

def sampleFiles : Contents := [
  ("artifacts/" ++ engineWheelName sampleMetadata.version, sampleEngineWheel),
  ("artifacts/" ++ subnetWheelName sampleMetadata.version, sampleSubnetWheel),
  ("artifacts/" ++ subnetSdistName sampleMetadata.version, sampleSdist),
  (fixtureRoot ++ "/task.yaml", []),
  (fixtureRoot ++ "/wire.json", sampleWireJson)]

def sampleData (path : String) : Bytes := Dict.getD sampleFiles path []

def sampleArchive : Terminator → Bytes
  | .newline => [0x1f, 0x8b, 8, 0]
  | .returnNewline => [0x1f, 0x8b, 8, 1]

/-- the text and the digests, without archives -/
def plainTools : Tools where
  text := Env.plain.text
  limits _ := none
  lower := id
  sha256 data := if data = sampleArchive .returnNewline then
      ⟨String.ofList (List.replicate 64 '1'), by decide, by decide⟩
    else .zero
  openTar _ := .error (.archive "not a gzip file")
  openZip _ := .error (.archive "File is not a zip file")
  header _ _ := none
  engine := smallEngine
  installed := true
  loadTask _ := .ok plainTask
  declaredDifficulty _ := "0.5"
  render _ _ := .error (.valueError "")
  render_injective := by
    intro ms ms' e e' archive h
    exact nomatch h

def sampleContents (terminator : Terminator) : Contents :=
  writtenContents plainTools terminator sampleMetadata sampleData

/-- the sizes in the headers of the archive -/
def sampleSizes (terminator : Terminator) (name : String) : Nat :=
  let sizes : Dict String Nat := [
    (checksumsName, match terminator with
      | .newline => 653
      | .returnNewline => 659),
    (bundleMember ("artifacts/" ++ subnetSdistName sampleMetadata.version), 10),
    (bundleMember (fixtureRoot ++ "/task.yaml"), 0),
    (bundleMember (fixtureRoot ++ "/wire.json"), 232),
    (provenanceName, 1568)]
  -- the wheels
  Dict.getD sizes name 3

theorem sampleSizes_le (terminator : Terminator) (name : String) :
    sampleSizes terminator name ≤ 2000 := by
  unfold sampleSizes Dict.getD
  dsimp only
  generalize hsizes : ([(checksumsName, _), _, _, _, _] : Dict String Nat) = sizes
  have hall : ∀ p ∈ sizes, p.2 ≤ 2000 := by
    rw [← hsizes]
    cases terminator <;> simp only [List.forall_mem_cons] <;> decide
  cases hget : Dict.get? sizes name with
  | none => exact (by decide : 3 ≤ 2000)
  | some n => exact hall _ (Dict.mem_of_get? hget)

def sampleMembers (terminator : Terminator) : List TarMember :=
  writtenMembers plainTools terminator sampleMetadata sampleData (sampleSizes terminator)

/-- the archive of the contents with such lines -/
def sampleRender (ms : List (String × Bytes)) (epoch : Int) : Except Exn Bytes :=
  if ms = sampleContents .newline ∧ epoch = sampleMetadata.sourceDateEpoch then
    .ok (sampleArchive .newline)
  else if ms = sampleContents .returnNewline ∧ epoch = sampleMetadata.sourceDateEpoch then
    .ok (sampleArchive .returnNewline)
  else .error (.valueError "")

theorem sampleRender_ok {ms : List (String × Bytes)} {epoch : Int} {archive : Bytes}
    (h : sampleRender ms epoch = .ok archive) :
    ∃ terminator, ms = sampleContents terminator ∧ epoch = sampleMetadata.sourceDateEpoch ∧
      archive = sampleArchive terminator := by
  unfold sampleRender at h
  split at h
  · next hms => exact ⟨.newline, hms.1, hms.2, (Except.ok.inj h).symm⟩
  · split at h
    · next hms => exact ⟨.returnNewline, hms.1, hms.2, (Except.ok.inj h).symm⟩
    · exact nomatch h

theorem sampleArchive_injective {terminator terminator' : Terminator}
    (h : sampleArchive terminator = sampleArchive terminator') : terminator = terminator' := by
  cases terminator <;> cases terminator' <;> first | rfl | exact absurd h (by decide)

def sampleMetadataName : String := "dolores-0.1.0.dist-info" ++ "/" ++ "METADATA"

def samplePkgInfo : TarMember where
  name := "dolores_bittensor_subnet-" ++ sampleMetadata.version ++ "/" ++ "PKG-INFO"
  size := 0
  mtime := sampleMetadata.sourceDateEpoch
  content := .ok (some [])

/-- a wheel whose metadata is all of it -/
def sampleZip (data : Bytes) : ZipArchive where
  infos := [{ filename := sampleMetadataName, fileSize := data.length }]
  testzip := .ok none
  read _ := .ok data

def sampleTools : Tools :=
  { plainTools with
    openTar := fun data =>
      if data = sampleArchive .newline then .ok (sampleMembers .newline)
      else if data = sampleArchive .returnNewline then .ok (sampleMembers .returnNewline)
      else if data = sampleSdist then
        .ok [samplePkgInfo]
      else .error (.archive "not a gzip file")
    openZip := fun data => .ok (sampleZip data)
    header := fun data field =>
      if field = "Name" then
        some (if data = sampleEngineWheel then engineDistribution else subnetDistribution)
      else some sampleMetadata.version
    render := sampleRender
    render_injective := by
      intro ms ms' e e' archive h h'
      obtain ⟨terminator, hms, he, harchive⟩ := sampleRender_ok h
      obtain ⟨terminator', hms', he', harchive'⟩ := sampleRender_ok h'
      obtain rfl := sampleArchive_injective (harchive.symm.trans harchive')
      exact ⟨hms.trans hms'.symm, he.trans he'.symm⟩ }

theorem sampleContents_eq (terminator : Terminator) :
    writtenContents sampleTools terminator sampleMetadata sampleData =
      sampleContents terminator := rfl

theorem validMetadata_sample : ValidMetadata sampleMetadata where
  version := by decide
  epoch := by decide
  engineCommit := by decide
  subnetCommit := by decide

/-- the checksums differ -/
theorem sampleContents_ne : sampleContents .returnNewline ≠ sampleContents .newline := by
  intro hsame
  have hversion : isVersion sampleMetadata.version = true := validMetadata_sample.version
  have hget := congrArg (fun contents : Contents => Dict.get? contents checksumsName) hsame
  unfold sampleContents at hget
  rw [get?_checksums hversion, get?_checksums hversion] at hget
  have hunbroken : ∀ path ∈ checksumPaths sampleMetadata.version, ∀ c ∈ path.toList,
      isLineBreak c = false := fun path hpath =>
    (safePath_of_version hversion (mem_listedPaths_of_covered hpath)).unbroken
  have hne := checksumPaths_ne_nil sampleMetadata.version
  have hcanonical := (@canonicalChecksums_written_iff .newline
    (fun path => plainTools.sha256 (coveredData plainTools sampleMetadata sampleData path))
    _ hunbroken hne).mpr rfl
  rw [← Option.some.inj hget] at hcanonical
  exact nomatch (canonicalChecksums_written_iff hunbroken hne).mp hcanonical

theorem sampleRender_sample (terminator : Terminator) :
    sampleRender (sampleContents terminator) sampleMetadata.sourceDateEpoch =
      .ok (sampleArchive terminator) := by
  unfold sampleRender
  cases terminator with
  | newline => exact if_pos ⟨rfl, rfl⟩
  | returnNewline => rw [if_neg fun h => sampleContents_ne h.1, if_pos ⟨rfl, rfl⟩]

theorem dataAt_sample (terminator : Terminator) {path : String} {data : Bytes}
    (h : (path, data) ∈ sampleFiles) :
    dataAt (writtenContents sampleTools terminator sampleMetadata sampleData) path = data := by
  have hkeys : Dict.keys sampleFiles = Dict.keys (listedRoles sampleMetadata.version) := rfl
  have hpath : path ∈ payloadPaths sampleMetadata.version := by
    rw [payloadPaths_eq, ← hkeys]
    exact List.mem_map_of_mem (f := Prod.fst) h
  have hnodup : (Dict.keys sampleFiles).Nodup := by
    rw [hkeys]
    exact nodup_listedRoles _
  rw [dataAt_payload validMetadata_sample.version hpath]
  unfold sampleData Dict.getD
  rw [Dict.get?_of_mem hnodup h]
  rfl

theorem printable_sampleWire : Printable Env.plain.text (.obj sampleWire) := by
  have hpackage : Printable Env.plain.text (.obj (wirePackage plainTask.canonicalDict)) := by
    have hpackage : wirePackage plainTask.canonicalDict = [("task_id", .str "task-1"),
        ("author_tests", .obj [(plainTest.1, .str plainTest.2)])] := rfl
    have htests : Printable Env.plain.text (.obj [(plainTest.1, .str plainTest.2)]) :=
      printable_obj (List.nodup_singleton _) (List.forall_mem_singleton.mpr (printable_str _))
    rw [hpackage]
    refine printable_obj (by decide) ?_
    simp only [List.forall_mem_cons, printable_str, true_and]
    exact ⟨htests, fun p hp => absurd hp List.not_mem_nil⟩
  refine printable_obj (by decide) ?_
  unfold sampleWire WireSubmission.toDict
  simp only [List.forall_mem_cons, printable_str, hpackage, true_and]
  exact fun p hp => absurd hp List.not_mem_nil

theorem fixture_sample : validateFixtureSemantics sampleTools [] sampleWireJson = .ok () := by
  have hread : readJson Env.plain.text sampleWireJson = some (.obj (Obj.canon sampleWire)) := by
    unfold readJson sampleWireJson
    rw [decodeUtf8_encodeUtf8, Option.bind_some, loads_document printable_sampleWire,
      Json.canon_obj']
  have hload : loadsBytes sampleTools "honest fixture wire.json is invalid" sampleWireJson =
      .ok (.obj (Obj.canon sampleWire)) := loadsBytes_of_read hread fun _ _ => rfl
  have htoWire : toWire sampleTools.text sampleTools.engine sampleTools.declaredDifficulty plainTask
      maxPackageBytes = .ok sampleWire := by
    unfold toWire
    dsimp only
    rw [if_neg (by decide +kernel)]
    rfl
  have htask : sampleTools.loadTask [] = .ok plainTask := rfl
  have hwire : expectedWire sampleTools [] = .ok sampleWire := by
    unfold expectedWire
    rw [htask, ok_bind, htoWire]
  have hsame : pyEq (.obj (Obj.canon sampleWire)) (.obj sampleWire) = true := by decide +kernel
  have hinstalled : sampleTools.installed = true := rfl
  unfold validateFixtureSemantics
  rw [require_of hinstalled, ok_bind, hload, ok_bind]
  dsimp only
  rw [hwire, ok_bind]
  exact require_of hsame _

theorem metadata_sample {data : Bytes} {label distribution : String}
    (hname : sampleTools.header data "Name" = some distribution)
    (hcanonical : canonicalDistribution sampleTools distribution = distribution) :
    validateDistributionMetadata sampleTools data label distribution sampleMetadata.version =
      .ok () := by
  have hversion : sampleTools.header data "Version" = some sampleMetadata.version := rfl
  have hdistribution : (sampleTools.header data "Name").map (canonicalDistribution sampleTools) =
      some distribution := by
    rw [hname, Option.map_some, hcanonical]
  unfold validateDistributionMetadata
  dsimp only
  rw [require_of hdistribution, ok_bind, require_of hversion]

theorem canonicalDistribution_of_joined {distribution : String}
    (h : joinSeparators false distribution.toList = distribution.toList) :
    canonicalDistribution sampleTools distribution = distribution := by
  unfold canonicalDistribution
  rw [h, String.ofList_toList]
  rfl

theorem canonical_engineDistribution :
    canonicalDistribution sampleTools engineDistribution = engineDistribution :=
  canonicalDistribution_of_joined (by unfold engineDistribution; simp; decide)

theorem canonical_subnetDistribution :
    canonicalDistribution sampleTools subnetDistribution = subnetDistribution :=
  canonicalDistribution_of_joined (by unfold subnetDistribution; simp; decide)

theorem wheel_sample {data : Bytes} {label distribution : String}
    (hlength : data.length ≤ maxArchiveMemberBytes)
    (hname : sampleTools.header data "Name" = some distribution)
    (hcanonical : canonicalDistribution sampleTools distribution = distribution) :
    validateWheelBytes sampleTools data label distribution sampleMetadata.version = .ok () := by
  have hopen : ∀ invalid, reading invalid (sampleTools.openZip data) = .ok (sampleZip data) :=
    fun _ => rfl
  have htest : ∀ invalid, reading invalid (sampleZip data).testzip = .ok none := fun _ => rfl
  have hread : ∀ invalid name, reading invalid ((sampleZip data).read name) = .ok data :=
    fun _ _ => rfl
  have hnames : (sampleZip data).infos.map ZipInfo.filename = [sampleMetadataName] := rfl
  have hsuffix : isMetadataName sampleMetadataName = true := by
    unfold isMetadataName sampleMetadataName
    simp
    decide
  have hone : ([sampleMetadataName].filter isMetadataName).length = 1 := by
    rw [List.filter_singleton, hsuffix]
    rfl
  have hsafe : SafePath sampleMetadataName :=
    SafePath.join (SafeName.path ⟨by simp; decide, 'd', _, rfl, by decide⟩)
      (SafeName.path ⟨by simp; decide, 'M', _, rfl, by decide⟩)
  have hinfos : checkWheelInfos sampleTools label 0 (sampleZip data).infos = .ok () := by
    have hsize : 0 + data.length ≤ maxArchiveTotalBytes := by
      rw [Nat.zero_add]
      exact le_trans hlength (by decide)
    show checkWheelInfos sampleTools label 0
      [{ filename := sampleMetadataName, fileSize := data.length }] = _
    have htype : ({ filename := sampleMetadataName, fileSize := data.length } : ZipInfo).fileType =
        0 := by
      show 0 / 2 ^ 16 % 2 ^ 16 / 2 ^ 12 = 0
      decide
    rw [checkWheelInfos, hsafe.valid, ok_bind, require_of hlength, ok_bind, require_of hsize,
      ok_bind, htype, require_of (by decide), ok_bind, require_of (by decide)]
    rfl
  unfold validateWheelBytes
  dsimp only
  rw [require_of hlength, ok_bind, hopen, ok_bind, hnames, require_of (List.nodup_singleton _),
    ok_bind, hinfos, ok_bind, htest, ok_bind, require_of rfl, ok_bind, require_of hone, ok_bind,
    hread, ok_bind]
  exact metadata_sample hname hcanonical

theorem sdist_sample (label : String) :
    validateSdistBytes sampleTools sampleSdist label subnetDistribution sampleMetadata.version
      sampleMetadata.sourceDateEpoch = .ok () := by
  have hopen : ∀ invalid, reading invalid (sampleTools.openTar sampleSdist) = .ok [samplePkgInfo] :=
    fun _ => rfl
  have hroot : SafeName ("dolores_bittensor_subnet-" ++ sampleMetadata.version) :=
    safeName_subnet.append (isVersion_chars validMetadata_sample.version)
  have hsafe : SafePath samplePkgInfo.name :=
    hroot.path.join (SafeName.path ⟨by simp; decide, 'P', _, rfl, by decide⟩)
  have hhead : (parts samplePkgInfo.name).head? =
      some ("dolores_bittensor_subnet-" ++ sampleMetadata.version).toList := by
    unfold samplePkgInfo
    rw [parts_join, hroot.parts_eq]
    rfl
  have hmembers : checkSdistMembers sampleTools
      ("dolores_bittensor_subnet-" ++ sampleMetadata.version) sampleMetadata.sourceDateEpoch 0 [samplePkgInfo] = .ok () := by
    have hkind : samplePkgInfo.isFile = true ∨ samplePkgInfo.isDir = true := .inl rfl
    have hmtime : samplePkgInfo.mtime = sampleMetadata.sourceDateEpoch := rfl
    have howner : samplePkgInfo.rootOwned = true := rfl
    rw [checkSdistMembers, hsafe.valid, ok_bind, require_of hkind, ok_bind,
      require_of (by decide), ok_bind, require_of (by decide), ok_bind, require_of hmtime, ok_bind,
      require_of howner, ok_bind, require_of (by decide), ok_bind, require_of hhead]
    rfl
  have hsorted : [samplePkgInfo].map TarMember.name =
      ([samplePkgInfo].map TarMember.name).insertionSort (· ≤ ·) := rfl
  have hnodup : ([samplePkgInfo].map TarMember.name).Nodup := List.nodup_singleton _
  have hname : samplePkgInfo.name =
      "dolores_bittensor_subnet-" ++ sampleMetadata.version ++ "/PKG-INFO" := String.append_assoc
  have hfilter : ([samplePkgInfo].filter fun member => member.name =
      "dolores_bittensor_subnet-" ++ sampleMetadata.version ++ "/PKG-INFO") = [samplePkgInfo] := by
    rw [List.filter_singleton, decide_eq_true hname]
    rfl
  have hisFile : samplePkgInfo.isFile = true := rfl
  have hread : ∀ invalid, readTarMember sampleTools invalid samplePkgInfo = .ok [] := fun _ => rfl
  have hmetadata := @metadata_sample [] label _ rfl canonical_subnetDistribution
  unfold validateSdistBytes
  dsimp only
  rw [require_of (by decide), ok_bind, require_of (by decide), ok_bind, require_of (by decide),
    ok_bind, hopen, ok_bind, require_of hsorted, ok_bind,
    require_of hnodup, ok_bind, hmembers, ok_bind, hfilter]
  dsimp only
  rw [require_of hisFile, ok_bind, hread, ok_bind]
  exact hmetadata

theorem artifacts_sample (terminator : Terminator) : ArtifactsChecked sampleTools
    (writtenContents sampleTools terminator sampleMetadata sampleData) sampleMetadata := by
  have hdata : ∀ p ∈ sampleFiles,
      dataAt (writtenContents sampleTools terminator sampleMetadata sampleData) p.1 = p.2 :=
    fun p hp => dataAt_sample terminator hp
  simp only [sampleFiles, List.forall_mem_cons] at hdata
  obtain ⟨hengine, hsubnet, hsdist, htask, hwire, -⟩ := hdata
  have hjoin : "artifacts/" = "artifacts" ++ "/" := rfl
  rw [hjoin] at hengine hsubnet hsdist
  have hengineWheel := @wheel_sample sampleEngineWheel
    (engineWheelName sampleMetadata.version) engineDistribution
    (by decide) rfl canonical_engineDistribution
  have hsubnetWheel := @wheel_sample sampleSubnetWheel
    (subnetWheelName sampleMetadata.version) subnetDistribution
    (by decide) rfl canonical_subnetDistribution
  have hsubnetSdist := sdist_sample (subnetSdistName sampleMetadata.version)
  have hfixture := fixture_sample
  rw [← hengine] at hengineWheel
  rw [← hsubnet] at hsubnetWheel
  rw [← hsdist] at hsubnetSdist
  rw [← htask, ← hwire] at hfixture
  exact ⟨hengineWheel, hsubnetWheel, hsubnetSdist, hfixture⟩

theorem written_sample (terminator : Terminator) : Written sampleTools terminator sampleMetadata
    sampleData (sampleSizes terminator) (sampleArchive terminator) where
  metadata := validMetadata_sample
  readable := fun _ _ => rfl
  limits := withinLimits_of_le (sampleSizes_le terminator) (by decide)
  length_le := by cases terminator <;> decide
  opened := by cases terminator <;> rfl
  artifacts := artifacts_sample terminator
  rendered := by
    have hrender : sampleTools.render = sampleRender := rfl
    rw [hrender, sampleContents_eq, sampleRender_sample]

theorem canonicalArchive_sample_iff (terminator : Terminator) :
    CanonicalArchive sampleTools (sampleArchive terminator) ↔ terminator = .newline := by
  have h := written_sample terminator
  rw [canonicalArchive_iff (verified_written h), canonical_written_iff h]

theorem release_bundle_canonical_sample : ∃ v,
    Accepts sampleTools (sampleArchive .newline) v ∧
      ∃ inputs, releaseArchive sampleTools inputs = .ok (sampleArchive .newline) ∧
        ∀ temporary, buildReleaseBundle sampleTools inputs temporary =
          .ok (sampleArchive .newline, v) := by
  have haccepts := accepts_of_verified (verified_written (written_sample .newline))
  obtain ⟨inputs, -, hrelease, hbuild, -⟩ := release_bundle_canonical_iff haccepts
  have hcanonical := (canonicalArchive_sample_iff .newline).mpr rfl
  exact ⟨_, haccepts, inputs, hrelease.mpr hcanonical, fun temporary =>
    (hbuild temporary).mpr hcanonical⟩

/-- the verifier accepts both archives, they state the same inputs, and from them the builder makes
the other archive -/
theorem returned_bundle_accepted : ∃ v v' inputs,
    Accepts sampleTools (sampleArchive .returnNewline) v ∧
    Accepts sampleTools (sampleArchive .newline) v' ∧
    statedInputs sampleTools (sampleArchive .returnNewline) = some inputs ∧
    statedInputs sampleTools (sampleArchive .newline) = some inputs ∧
    releaseArchive sampleTools inputs = .ok (sampleArchive .newline) ∧
    sampleArchive .returnNewline ≠ sampleArchive .newline ∧
    v.bundleSha256 ≠ v'.bundleSha256 := by
  have hreturned := written_sample .returnNewline
  have hnewline := written_sample .newline
  have hstated := statedInputs_written hnewline
  have hrelease : releaseArchive sampleTools (inputsOf sampleData sampleMetadata) =
      .ok (sampleArchive .newline) := by
    have hiff := releaseArchive_iff (verified_written hnewline)
    have hcontained := (statedInputs_of_verified (verified_written hnewline)).symm.trans hstated
    rw [Option.some.inj hcontained] at hiff
    exact hiff.mpr ((canonicalArchive_sample_iff .newline).mpr rfl)
  exact ⟨_, _, _, accepts_of_verified (verified_written hreturned),
    accepts_of_verified (verified_written hnewline), statedInputs_written hreturned, hstated,
    hrelease, by decide, by decide⟩

end Release
end Dolores
