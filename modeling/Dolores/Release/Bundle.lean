import Dolores.Release.Checks

/-!
# Release bundles (`build_release_bundle.py`)

`releaseArchive` is `build_release_bundle` up to the archive, `verifyReleaseBundle` the verifier,
and `buildReleaseBundle` the builder with the verification of what it has built.  The place of the
output file and its replacement are left out.
-/

namespace Dolores
namespace Release
open JsonText

def bundleRoot : String := "release-bundle"
def provenancePath : String := "provenance.json"
def checksumsPath : String := "SHA256SUMS"
def fixtureRoot : String := "examples/tasks/honest_example"
def provenanceSchema : String := "dolores-release-bundle-provenance-v1"
def builderId : String := "scripts/build_release_bundle.py"
def fixtureNames : List String := ["task.yaml", "wire.json"]

def engineDistribution : String := "dolores-autocurricula"
def subnetDistribution : String := "dolores-bittensor-subnet"

def engineWheelName (version : String) : String :=
  "dolores_autocurricula-" ++ version ++ "-py3-none-any.whl"

def subnetWheelName (version : String) : String :=
  "dolores_bittensor_subnet-" ++ version ++ "-py3-none-any.whl"

def subnetSdistName (version : String) : String :=
  "dolores_bittensor_subnet-" ++ version ++ ".tar.gz"

/-- `(BUNDLE_ROOT / path).as_posix()` -/
def bundleMember (path : String) : String := joinPath bundleRoot path

def provenanceName : String := bundleMember provenancePath
def checksumsName : String := bundleMember checksumsPath

/-- the bytes of the members by name -/
abbrev Contents : Type := Dict String Bytes

structure Payload where
  path : String
  role : String
  data : Bytes

/-- the stated metadata -/
structure Metadata where
  version : String
  sourceDateEpoch : Int
  engineSourceCommit : String
  subnetSourceCommit : String

/-! ## writing -/

section
variable (tools : Tools)

def payloadRecord (p : Payload) : Obj := [
  ("path", .str p.path),
  ("role", .str p.role),
  ("sha256", .str (tools.sha256 p.data).text),
  ("size", .int p.data.length)]

def sourceRecord (commit distribution version : String) : Obj := [
  ("commit", .str commit),
  ("distribution", .str distribution),
  ("version", .str version)]

/-- the document of `_provenance_bytes` -/
def provenanceDocument (payloads : List Payload) (m : Metadata) : Obj := [
  ("builder", .str builderId),
  ("payloads", .arr (payloads.map fun p => .obj (payloadRecord tools p))),
  ("schema_version", .str provenanceSchema),
  ("source_date_epoch", .int m.sourceDateEpoch),
  ("sources", .obj [
    ("engine", .obj (sourceRecord m.engineSourceCommit engineDistribution m.version)),
    ("subnet", .obj (sourceRecord m.subnetSourceCommit subnetDistribution m.version))]),
  ("version", .str m.version)]

/-- `_provenance_bytes` -/
def provenanceBytes (payloads : List Payload) (m : Metadata) : Bytes :=
  encodeUtf8 (document tools.text (.obj (provenanceDocument tools payloads m)))

def sortedByPath (payloads : List Payload) : List Payload :=
  payloads.insertionSort fun p q => p.path ≤ q.path

def checksumText (digest path : String) : List Char := (digest ++ "  " ++ path).toList

/-- `_checksums_bytes` -/
def checksumsBytes (payloads : List Payload) : Bytes :=
  let lines := (sortedByPath payloads).map fun p =>
    checksumText (tools.sha256 p.data).text p.path
  encodeUtf8 (['\n'].intercalate lines ++ ['\n'])

/-- `_render_tar_gz` -/
def renderTarGz (members : Contents) (epoch : Int) : Except ReleaseError Bytes := do
  let sorted := Dict.sorted members
  sorted.forM fun p => validateArchivePath tools p.1 "output bundle member"
  match tools.render sorted epoch with
  | .ok archive => .ok archive
  | .error exc => .error (.raised exc)

end

/-! ## building -/

inductive FixtureDir where
  | missing
  | notDirectory
  | entries (files : List InputFile)

structure Inputs where
  engineWheel : InputFile
  subnetWheel : InputFile
  subnetSdist : InputFile
  fixtureDir : FixtureDir
  metadata : Metadata

section
variable (tools : Tools)

/-- an artifact under its expected name -/
def loadArtifact (label : String) (file : InputFile) (expectedName role : String) :
    Except ReleaseError Payload := do
  let data ← requireRegularFile file label
  require (file.name = expectedName) (label ++ " must be named " ++
    tools.text.reprStr expectedName ++ ", received " ++ tools.text.reprStr file.name)
  .ok ⟨joinPath "artifacts" expectedName, role, data⟩

/-- `_load_fixture_payloads` -/
def loadFixturePayloads (dir : FixtureDir) : Except ReleaseError (List Payload) :=
  match dir with
  | .missing => .error (.bundleError "honest fixture directory does not exist")
  | .notDirectory =>
    .error (.bundleError "honest fixture path must be a real directory, not a symlink")
  | .entries files => do
    let entries := files.insertionSort fun p q => p.name ≤ q.name
    require (entries.map InputFile.name = fixtureNames)
      "honest fixture must contain exactly ['task.yaml', 'wire.json']"
    let payloads ← entries.mapM fun entry => do
      let data ← requireRegularFile entry ("honest fixture " ++ entry.name)
      .ok ⟨joinPath fixtureRoot entry.name, "honest_fixture", data⟩
    match payloads with
    | [taskYaml, wireJson] => do
      validateFixtureSemantics tools taskYaml.data wireJson.data
      .ok payloads
    | _ => .error (.raised (.keyError "task.yaml"))

/-- the members of the bundle of these payloads -/
def bundleMembers (payloads : List Payload) (provenance checksums : Bytes) : Contents :=
  Dict.ofPairs (payloads.map (fun p => (bundleMember p.path, p.data)) ++
    [(provenanceName, provenance), (checksumsName, checksums)])

/-- the archive of these payloads -/
def assembleArchive (payloads : List Payload) (m : Metadata) : Except ReleaseError Bytes :=
  let payloads := sortedByPath payloads
  let provenance := provenanceBytes tools payloads m
  let checksums := checksumsBytes tools (payloads ++ [⟨provenancePath, "provenance", provenance⟩])
  renderTarGz tools (bundleMembers payloads provenance checksums) m.sourceDateEpoch

/-- `build_release_bundle` up to the archive -/
def releaseArchive (inputs : Inputs) : Except ReleaseError Bytes := do
  let m := inputs.metadata
  validateVersion tools m.version
  validateSourceDateEpoch m.sourceDateEpoch
  validateCommit m.engineSourceCommit "engine source commit"
  validateCommit m.subnetSourceCommit "subnet source commit"
  let engineWheel ← loadArtifact tools "engine wheel" inputs.engineWheel
    (engineWheelName m.version) "engine_wheel"
  let subnetWheel ← loadArtifact tools "subnet wheel" inputs.subnetWheel
    (subnetWheelName m.version) "subnet_wheel"
  let subnetSdist ← loadArtifact tools "subnet source distribution" inputs.subnetSdist
    (subnetSdistName m.version) "subnet_sdist"
  validateWheelBytes tools engineWheel.data inputs.engineWheel.name engineDistribution m.version
  validateWheelBytes tools subnetWheel.data inputs.subnetWheel.name subnetDistribution m.version
  validateSdistBytes tools subnetSdist.data inputs.subnetSdist.name subnetDistribution m.version
    m.sourceDateEpoch
  let fixture ← loadFixturePayloads tools inputs.fixtureDir
  assembleArchive tools ([engineWheel, subnetWheel, subnetSdist] ++ fixture) m

end

/-! ## reading -/

section
variable (tools : Tools)

/-- the loop over the members of a bundle, `total` bytes of them before -/
def checkBundleMembers : Nat → List TarMember → Except ReleaseError Unit
  | _, [] => .ok ()
  | total, member :: members => do
    let shown := tools.text.reprStr member.name
    validateArchivePath tools member.name "bundle member"
    require (member.isFile = true) ("bundle member must be a regular file: " ++ shown)
    require (member.size ≤ maxArchiveMemberBytes)
      ("bundle member exceeds the size limit: " ++ shown)
    require (total + member.size ≤ maxArchiveTotalBytes)
      "bundle exceeds the uncompressed size limit"
    checkBundleMembers (total + member.size) members

def invalidBundle : String := "invalid release bundle"

/-- the members of the archive and their bytes -/
def openBundle (archive : Bytes) : Except ReleaseError (List TarMember × Contents) := do
  let members ← reading invalidBundle (tools.openTar archive)
  let names := members.map TarMember.name
  require (names = names.insertionSort (· ≤ ·)) "bundle members are not lexicographically sorted"
  require names.Nodup "bundle contains duplicate member paths"
  checkBundleMembers tools 0 members
  let contents ← members.mapM fun member => do
    let data ← readTarMember tools invalidBundle member
    .ok (member.name, data)
  .ok (members, Dict.ofPairs contents)

/-- `set(value) == keys` -/
def HasKeys {V : Type} (o : Dict String V) (keys : List String) : Prop :=
  (∀ k ∈ Dict.keys o, k ∈ keys) ∧ ∀ k ∈ keys, k ∈ Dict.keys o

instance {V : Type} (o : Dict String V) (keys : List String) : Decidable (HasKeys o keys) :=
  inferInstanceAs (Decidable (_ ∧ _))

def provenanceKeys : List String :=
  ["builder", "payloads", "schema_version", "source_date_epoch", "sources", "version"]

/-- `_parse_provenance` -/
def parseProvenance (data : Bytes) : Except ReleaseError Obj := do
  let document ← loadsBytes tools "invalid provenance JSON" data
  match document with
  | .obj document => do
    require (HasKeys document provenanceKeys) "provenance JSON has unexpected or missing fields"
    require ((Obj.get document "schema_version").eqStr provenanceSchema = true)
      "unsupported provenance schema"
    require ((Obj.get document "builder").eqStr builderId = true)
      "unexpected provenance builder identifier"
    .ok document
  | _ => .error (.bundleError "provenance JSON must be an object")

/-- `_require_json_string` -/
def requireJsonString (document : Obj) (key : String) : Except ReleaseError String :=
  match document.get key with
  | .str s => .ok s
  | _ => .error (.bundleError
      ("provenance field " ++ tools.text.reprStr key ++ " must be a string"))

/-- `_require_json_integer` -/
def requireJsonInteger (document : Obj) (key : String) : Except ReleaseError Int :=
  match document.get key with
  | .int i => .ok i
  | _ => .error (.bundleError
      ("provenance field " ++ tools.text.reprStr key ++ " must be an integer"))

def sourceKeys : List String := ["commit", "distribution", "version"]

/-- `_parse_source` -/
def parseSource (value : Json) (label distribution version : String) :
    Except ReleaseError String :=
  match value with
  | .obj source => do
    require (HasKeys source sourceKeys) ("invalid " ++ label ++ " provenance source")
    require ((Obj.get source "distribution").eqStr distribution = true ∧
        (Obj.get source "version").eqStr version = true)
      ("unexpected " ++ label ++ " distribution provenance")
    match Obj.get source "commit" with
    | .str commit => do
      validateCommit commit (label ++ " source commit")
      .ok commit
    | _ => .error (.bundleError ("invalid " ++ label ++ " source commit"))
  | _ => .error (.bundleError ("invalid " ++ label ++ " provenance source"))

/-- the document and the metadata that it states -/
def statedProvenance (contents : Contents) : Except ReleaseError (Obj × Metadata) := do
  require (Dict.contains contents provenanceName = true ∧
      Dict.contains contents checksumsName = true)
    "bundle is missing provenance.json or SHA256SUMS"
  let provenance ← parseProvenance tools (Dict.getD contents provenanceName [])
  let version ← requireJsonString tools provenance "version"
  let sourceDateEpoch ← requireJsonInteger tools provenance "source_date_epoch"
  validateVersion tools version
  validateSourceDateEpoch sourceDateEpoch
  match Obj.get provenance "sources" with
  | .obj sources => do
    require (HasKeys sources ["engine", "subnet"])
      "provenance sources must contain exactly engine and subnet"
    let engineCommit ← parseSource (Obj.get sources "engine") "engine" engineDistribution version
    let subnetCommit ← parseSource (Obj.get sources "subnet") "subnet" subnetDistribution version
    .ok (provenance, ⟨version, sourceDateEpoch, engineCommit, subnetCommit⟩)
  | _ => .error (.bundleError "provenance sources must contain exactly engine and subnet")

/-- a record of the provenance that was checked -/
structure PayloadRecord where
  path : String
  role : String
  sha256 : String
  size : Int

/-- the payloads of a version and their roles -/
def expectedRoles (version : String) : Dict String String := Dict.ofPairs [
  ("artifacts/" ++ engineWheelName version, "engine_wheel"),
  ("artifacts/" ++ subnetWheelName version, "subnet_wheel"),
  ("artifacts/" ++ subnetSdistName version, "subnet_sdist"),
  ("examples/tasks/honest_example/task.yaml", "honest_fixture"),
  ("examples/tasks/honest_example/wire.json", "honest_fixture")]

def payloadKeys : List String := ["path", "role", "sha256", "size"]

/-- one round of the loop of `_parse_payload_records` -/
def parsePayloadRecord (roles : Dict String String) (value : Json) :
    Except ReleaseError PayloadRecord :=
  match value with
  | .obj record => do
    require (HasKeys record payloadKeys) "invalid provenance payload record"
    match Obj.get record "path" with
    | .str path => do
      let shown := tools.text.reprStr path
      validateArchivePath tools path "provenance payload"
      require ((Dict.get? roles path).any (Obj.get record "role").eqStr = true)
        ("unexpected payload path or role: " ++ shown)
      match Obj.get record "sha256", Obj.get record "size" with
      | .str digest, .int size => do
        require (isHex 64 digest = true) ("invalid payload SHA-256 for " ++ shown)
        require (0 ≤ size) ("invalid payload size for " ++ shown)
        .ok ⟨path, (Dict.getD roles path ""), digest, size⟩
      | .str digest, _ => do
        require (isHex 64 digest = true) ("invalid payload SHA-256 for " ++ shown)
        .error (.bundleError ("invalid payload size for " ++ shown))
      | _, _ => .error (.bundleError ("invalid payload SHA-256 for " ++ shown))
    | _ => .error (.bundleError "payload path must be a string")
  | _ => .error (.bundleError "invalid provenance payload record")

/-- `_parse_payload_records` -/
def parsePayloadRecords (provenance : Obj) (version : String) :
    Except ReleaseError (List PayloadRecord) :=
  match Obj.get provenance "payloads" with
  | .arr values => do
    let roles := expectedRoles version
    let records ← values.mapM (parsePayloadRecord tools roles)
    require (records.map PayloadRecord.path = (Dict.keys roles).insertionSort (· ≤ ·))
      "provenance payload records are not the exact sorted payload set"
    .ok records
  | _ => .error (.bundleError "provenance payloads must be a list")

/-- `re.fullmatch(r"([0-9a-f]{64})  (.+)", line).groups()` -/
def matchChecksum (line : List Char) : Option (String × String) :=
  let digest := line.take 64
  let path := line.drop 66
  if digest.length = 64 ∧ digest.all isHexDigit = true ∧ (line.drop 64).take 2 = [' ', ' '] ∧
      path ≠ [] ∧ '\n' ∉ path then
    some (String.ofList digest, String.ofList path)
  else none

/-- one round of the loop of `_parse_checksums` -/
def addChecksum (records : Dict String String) (line : List Char) :
    Except ReleaseError (Dict String String) :=
  match matchChecksum line with
  | none => .error (.bundleError
      ("invalid SHA256SUMS line: " ++ tools.text.reprStr (String.ofList line)))
  | some (digest, path) => do
    validateArchivePath tools path "SHA256SUMS path"
    require (Dict.contains records path = false)
      ("duplicate SHA256SUMS path: " ++ tools.text.reprStr path)
    .ok (Dict.set records path digest)

/-- `_parse_checksums` -/
def parseChecksums (data : Bytes) : Except ReleaseError (Dict String String) :=
  match decodeUtf8 data with
  | none => .error (.bundleError "SHA256SUMS must be UTF-8")
  | some text => do
    require (endsInNewline text = true) "SHA256SUMS must end with a newline"
    let records ← (splitLines text []).foldlM (addChecksum tools) []
    require (Dict.keys records = (Dict.keys records).insertionSort (· ≤ ·))
      "SHA256SUMS paths are not sorted"
    .ok records

end

/-! ## verifying -/

/-- what the caller expects the metadata to be -/
structure Expected where
  version : Option String := none
  sourceDateEpoch : Option Int := none
  engineSourceCommit : Option String := none
  subnetSourceCommit : Option String := none

structure BundleVerification where
  bundleSha256 : String
  memberCount : Nat
  payloadCount : Nat
  provenance : Obj

section
variable (tools : Tools)

def checkExpected (expected : Expected) (m : Metadata) : Except ReleaseError Unit := do
  require (∀ v ∈ expected.version, m.version = v) ("bundle version " ++
    tools.text.reprStr m.version ++ " does not equal " ++
    ((expected.version.map tools.text.reprStr).getD ""))
  require (∀ e ∈ expected.sourceDateEpoch, m.sourceDateEpoch = e)
    "bundle SOURCE_DATE_EPOCH does not equal the expected value"
  require (∀ c ∈ expected.engineSourceCommit, m.engineSourceCommit = c)
    "engine source commit does not equal the expected value"
  require (∀ c ∈ expected.subnetSourceCommit, m.subnetSourceCommit = c)
    "subnet source commit does not equal the expected value"

/-- `set(contents) == expected_members` -/
def checkMemberSet (contents : Contents) (records : List PayloadRecord) :
    Except ReleaseError Unit :=
  let expected := records.map (fun r => bundleMember r.path) ++ [provenanceName, checksumsName]
  let shown (names : List String) : String :=
    tools.text.reprContainer (.arr ((names.insertionSort (· ≤ ·)).map .str))
  require (HasKeys contents expected)
    ("bundle member set mismatch; unexpected=" ++
      shown ((Dict.keys contents).filter fun k => k ∉ expected) ++ ", missing=" ++
      shown (expected.dedup.filter fun k => k ∉ Dict.keys contents))

def checkMemberMetadata (epoch : Int) (member : TarMember) : Except ReleaseError Unit := do
  let shown := tools.text.reprStr member.name
  require (member.mtime = epoch) ("unexpected mtime for " ++ shown)
  require (member.rootOwned = true) ("unexpected ownership metadata for " ++ shown)
  require (member.mode = 0o644) ("unexpected mode for " ++ shown)

def checkPayload (contents : Contents) (record : PayloadRecord) : Except ReleaseError Unit := do
  let data := Dict.getD contents (bundleMember record.path) []
  require ((data.length : Int) = record.size)
    ("payload size mismatch for " ++ tools.text.reprStr record.path)
  require ((tools.sha256 data).text = record.sha256)
    ("payload hash mismatch for " ++ tools.text.reprStr record.path)

/-- the checksums cover the payloads and the provenance, and agree with them -/
def checkChecksums (contents : Contents) (records : List PayloadRecord) :
    Except ReleaseError Unit := do
  let checksums ← parseChecksums tools (Dict.getD contents checksumsName [])
  require (HasKeys checksums (records.map PayloadRecord.path ++ [provenancePath]))
    "SHA256SUMS does not cover exactly the payloads and provenance"
  checksums.forM fun p =>
    require ((tools.sha256 (Dict.getD contents (bundleMember p.1) [])).text = p.2)
      ("SHA256SUMS mismatch for " ++ tools.text.reprStr p.1)

/-- the artifacts and the fixture of the bundle -/
def checkArtifacts (contents : Contents) (m : Metadata) : Except ReleaseError Unit := do
  let artifactsRoot := joinPath bundleRoot "artifacts"
  let fixtureRoot := joinPath bundleRoot fixtureRoot
  let data (root name : String) : Bytes := Dict.getD contents (joinPath root name) []
  validateWheelBytes tools (data artifactsRoot (engineWheelName m.version))
    (engineWheelName m.version) engineDistribution m.version
  validateWheelBytes tools (data artifactsRoot (subnetWheelName m.version))
    (subnetWheelName m.version) subnetDistribution m.version
  validateSdistBytes tools (data artifactsRoot (subnetSdistName m.version))
    (subnetSdistName m.version) subnetDistribution m.version m.sourceDateEpoch
  validateFixtureSemantics tools (data fixtureRoot "task.yaml") (data fixtureRoot "wire.json")

/-- `verify_release_bundle` -/
def verifyReleaseBundle (expected : Expected) (bundle : InputFile) :
    Except ReleaseError BundleVerification := do
  let archive ← requireRegularFile bundle "release bundle"
  require (archive.length ≤ maxBundleBytes) "release bundle exceeds the compressed size limit"
  let (members, contents) ← openBundle tools archive
  let (provenance, m) ← statedProvenance tools contents
  checkExpected tools expected m
  let records ← parsePayloadRecords tools provenance m.version
  checkMemberSet tools contents records
  members.forM (checkMemberMetadata tools m.sourceDateEpoch)
  records.forM (checkPayload tools contents)
  checkChecksums tools contents records
  checkArtifacts tools contents m
  let canonicalArchive ← renderTarGz tools contents m.sourceDateEpoch
  require (archive = canonicalArchive) "bundle bytes are not in the canonical release encoding"
  .ok ⟨(tools.sha256 archive).text, contents.length, records.length, provenance⟩

/-- `build_release_bundle`: the archive, and the verification of the `temporary` file with it -/
def buildReleaseBundle (inputs : Inputs) (temporary : String) :
    Except ReleaseError (Bytes × BundleVerification) := do
  let archive ← releaseArchive tools inputs
  let m := inputs.metadata
  let verification ← verifyReleaseBundle tools ⟨some m.version, some m.sourceDateEpoch,
    some m.engineSourceCommit, some m.subnetSourceCommit⟩ ⟨temporary, temporary, .regular archive⟩
  .ok (archive, verification)

end

end Release
end Dolores
