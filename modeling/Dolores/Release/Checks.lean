import Dolores.Epoch.LogFile
import Dolores.Gate.Packaging
import Dolores.Panel.Impl

/-!
# The checks of a release bundle (`build_release_bundle.py`)

The checks that the builder and the verifier share: paths, versions, commits, the epoch, wheels,
the source distribution and the honest fixture.  `Tools` holds what the script calls: the readers
of archives, the parser of a metadata header, SHA-256, the engine, and the writer of an archive.
-/

namespace Dolores
namespace Release

/-! ## errors -/

inductive ReleaseError where
  | bundleError (msg : String)
  /-- any other exception -/
  | raised (exc : Exn)

/-- what a reader of archives raises -/
inductive ReadFault where
  /-- a `TarError`, a `BadZipFile` or an `OSError` -/
  | archive (msg : String)
  | other (exc : Exn)

/-- the handler around the reading of an archive -/
def ReadFault.toError (invalid : String) : ReadFault → ReleaseError
  | .archive msg => .bundleError (invalid ++ ": " ++ msg)
  | .other exc => .raised exc

def reading {α : Type} (invalid : String) : Except ReadFault α → Except ReleaseError α
  | .ok a => .ok a
  | .error fault => .error (fault.toError invalid)

/-- `if not c: raise BundleError(msg)` -/
def require (c : Prop) [Decidable c] (msg : String) : Except ReleaseError Unit :=
  if c then .ok () else .error (.bundleError msg)

theorem require_ok {c : Prop} [Decidable c] {msg : String} {u : Unit} :
    require c msg = .ok u ↔ c := by
  unfold require
  split
  · next h => exact iff_of_true rfl h
  · next h => exact iff_of_false (fun h => nomatch h) h

theorem require_of {c : Prop} [Decidable c] (h : c) (msg : String) : require c msg = .ok () :=
  require_ok.mpr h

theorem reading_ok {α : Type} {invalid : String} {x : Except ReadFault α} {a : α} :
    reading invalid x = .ok a ↔ x = .ok a := by
  cases x with
  | ok b => rw [reading, Except.ok.injEq, Except.ok.injEq]
  | error fault => exact iff_of_false (fun h => nomatch h) fun h => nomatch h

/-! ## archives -/

/-- a `TarInfo` and what `extractfile` gives for it -/
structure TarMember where
  name : String
  isFile : Bool := true
  isDir : Bool := false
  size : Nat
  mtime : Int
  mode : Nat := 0o644
  uid : Nat := 0
  gid : Nat := 0
  uname : String := ""
  gname : String := ""
  content : Except ReadFault (Option Bytes)

structure ZipInfo where
  filename : String
  fileSize : Nat
  externalAttr : Nat := 0

structure ZipArchive where
  infos : List ZipInfo
  /-- the first member that is corrupt -/
  testzip : Except ReadFault (Option String)
  read : String → Except ReadFault Bytes

structure Tools where
  text : PyText
  limits : List Char → Option JsonRefusal
  lower : String → String
  sha256 : Bytes → HexDigest
  openTar : Bytes → Except ReadFault (List TarMember)
  openZip : Bytes → Except ReadFault ZipArchive
  /-- the value of a field of a parsed metadata header -/
  header : Bytes → String → Option String
  engine : Engine
  /-- the pinned engine and subnet distributions can be imported -/
  installed : Bool
  /-- `TaskPackage.load` of a directory with this `task.yaml` -/
  loadTask : Bytes → Except Exn TaskPackage
  declaredDifficulty : TaskPackage → String
  /-- the compressed archive of these members, in this order -/
  render : List (String × Bytes) → Int → Except Exn Bytes
  render_injective : ∀ {ms ms' : List (String × Bytes)} {e e' : Int} {archive : Bytes},
    render ms e = .ok archive → render ms' e' = .ok archive → ms = ms' ∧ e = e'

def maxBundleBytes : Nat := 256 * 1024 * 1024
def maxArchiveMemberBytes : Nat := 128 * 1024 * 1024
def maxArchiveTotalBytes : Nat := 512 * 1024 * 1024

/-! ## paths -/

def parts (value : String) : List (List Char) := value.toList.splitOn '/'

/-- `PurePosixPath(value).as_posix()` -/
def posixPath (value : String) : String :=
  let root := if "///".toList.isPrefixOf value.toList then "/"
    else if "//".toList.isPrefixOf value.toList then "//"
    else if "/".toList.isPrefixOf value.toList then "/" else ""
  let named := (parts value).filter fun part => part ≠ [] ∧ part ≠ ['.']
  let path := root ++ String.ofList (['/'].intercalate named)
  if path = "" then "." else path

def isAbsolute (value : String) : Bool := "/".toList.isPrefixOf value.toList

/-- `(PurePosixPath(base) / value).as_posix()` -/
def joinPath (base value : String) : String :=
  if isAbsolute value then posixPath value else posixPath (base ++ "/" ++ value)

def isControl (c : Char) : Bool := c.toNat < 32 || c.toNat == 127

section
variable (tools : Tools)

/-- `_validate_archive_path` -/
def validateArchivePath (value label : String) : Except ReleaseError Unit := do
  require (value ≠ "" ∧ '\\' ∉ value.toList ∧ value.toList.any isControl = false)
    ("invalid " ++ label ++ " path: " ++ tools.text.reprStr value)
  require (isAbsolute value = false ∧ (∀ part ∈ parts value, part ∉ [[], ['.'], ['.', '.']]) ∧
      value = posixPath value)
    ("unsafe " ++ label ++ " path: " ++ tools.text.reprStr value)

/-! ## versions, commits, the epoch -/

def isAsciiAlnum (c : Char) : Bool :=
  (48 ≤ c.toNat && c.toNat ≤ 57) || (65 ≤ c.toNat && c.toNat ≤ 90) ||
    (97 ≤ c.toNat && c.toNat ≤ 122)

/-- `VERSION_RE.fullmatch(value)` -/
def isVersion (value : String) : Bool :=
  match value.toList with
  | [] => false
  | c :: cs => isAsciiAlnum c && cs.all fun c => isAsciiAlnum c || "._+-".toList.contains c

def validateVersion (value : String) : Except ReleaseError Unit :=
  require (isVersion value = true) ("invalid release version: " ++ tools.text.reprStr value)

/-- `n` characters of a lowercase hexadecimal number -/
def isHex (n : Nat) (value : String) : Bool := value.length == n && value.toList.all isHexDigit

def validateCommit (value label : String) : Except ReleaseError Unit :=
  require (isHex 40 value = true) (label ++ " must be a lowercase 40-character Git object ID")

def validateSourceDateEpoch (value : Int) : Except ReleaseError Unit :=
  require (0 ≤ value ∧ value ≤ 2 ^ 31 - 1)
    "SOURCE_DATE_EPOCH must be an integer from 0 through 2147483647"

/-! ## distributions -/

def isSeparator (c : Char) : Bool := "-_.".toList.contains c

/-- `re.sub(r"[-_.]+", "-", value)`; `after` says that the last character was a separator -/
def joinSeparators : Bool → List Char → List Char
  | _, [] => []
  | after, c :: cs =>
    if isSeparator c then (if after then [] else ['-']) ++ joinSeparators true cs
    else c :: joinSeparators false cs

/-- `_canonical_distribution` -/
def canonicalDistribution (value : String) : String :=
  tools.lower (String.ofList (joinSeparators false value.toList))

/-- `_validate_distribution_metadata` -/
def validateDistributionMetadata (metadata : Bytes) (label expectedDistribution
    expectedVersion : String) : Except ReleaseError Unit := do
  let shown (field : Option String) : String := (field.map tools.text.reprStr).getD "None"
  let name := tools.header metadata "Name"
  let version := tools.header metadata "Version"
  require (name.map (canonicalDistribution tools) = some expectedDistribution)
    ("unexpected distribution name in " ++ tools.text.reprStr label ++ ": " ++ shown name)
  require (version = some expectedVersion)
    ("unexpected version in " ++ tools.text.reprStr label ++ ": " ++ shown version)

/-- `stat.S_IFMT(external_attr >> 16)` -/
def ZipInfo.fileType (info : ZipInfo) : Nat := info.externalAttr / 2 ^ 16 % 2 ^ 16 / 2 ^ 12

/-- the loop over the members of a wheel, `total` bytes of them before -/
def checkWheelInfos (label : String) : Nat → List ZipInfo → Except ReleaseError Unit
  | _, [] => .ok ()
  | total, info :: infos => do
    let shown := tools.text.reprStr info.filename
    validateArchivePath tools info.filename ("wheel " ++ label)
    require (info.fileSize ≤ maxArchiveMemberBytes)
      ("wheel member exceeds the size limit: " ++ shown)
    require (total + info.fileSize ≤ maxArchiveTotalBytes)
      ("wheel exceeds the uncompressed size limit: " ++ tools.text.reprStr label)
    require (info.fileType ≠ 0o12) ("wheel contains a symlink: " ++ shown)
    require (info.fileType ∈ [0, 0o10, 0o4])
      ("wheel contains an unsupported member type: " ++ shown)
    checkWheelInfos label (total + info.fileSize) infos

def isMetadataName (name : String) : Bool :=
  ".dist-info/METADATA".toList.isSuffixOf name.toList

/-- `_validate_wheel_bytes` -/
def validateWheelBytes (data : Bytes) (label expectedDistribution expectedVersion : String) :
    Except ReleaseError Unit := do
  let shown := tools.text.reprStr label
  require (data.length ≤ maxArchiveMemberBytes)
    ("wheel exceeds the compressed size limit: " ++ shown)
  let invalid := "invalid wheel " ++ shown
  let archive ← reading invalid (tools.openZip data)
  let names := archive.infos.map ZipInfo.filename
  require names.Nodup ("wheel contains duplicate paths: " ++ shown)
  checkWheelInfos tools label 0 archive.infos
  let corrupt ← reading invalid archive.testzip
  require (corrupt = none)
    ("wheel CRC check failed for " ++ tools.text.reprStr (corrupt.getD ""))
  let metadataNames := names.filter isMetadataName
  require (metadataNames.length = 1) "wheel must contain exactly one dist-info/METADATA"
  let metadata ← reading invalid (archive.read (metadataNames.headD ""))
  validateDistributionMetadata tools metadata label expectedDistribution expectedVersion

/-- `_read_tar_member` -/
def readTarMember (invalid : String) (member : TarMember) : Except ReleaseError Bytes := do
  let content ← reading invalid member.content
  match content with
  | some data => .ok data
  | none => .error (.bundleError ("could not read tar member: " ++
      tools.text.reprStr member.name))

def TarMember.rootOwned (member : TarMember) : Bool :=
  member.uid == 0 && member.gid == 0 && member.uname == "" && member.gname == ""

/-- the loop over the members of a source distribution, `total` bytes of them before -/
def checkSdistMembers (expectedRoot : String) (epoch : Int) :
    Nat → List TarMember → Except ReleaseError Unit
  | _, [] => .ok ()
  | total, member :: members => do
    let shown := tools.text.reprStr member.name
    let executable := member.mode &&& 0o111 ≠ 0
    validateArchivePath tools member.name "source distribution member"
    require (member.isFile = true ∨ member.isDir = true)
      ("source distribution contains a link or special file: " ++ shown)
    require (member.size ≤ maxArchiveMemberBytes)
      ("source distribution member exceeds the size limit: " ++ shown)
    require (total + member.size ≤ maxArchiveTotalBytes)
      "source distribution exceeds the uncompressed size limit"
    require (member.mtime = epoch)
      ("source distribution member has a non-release mtime: " ++ shown)
    require (member.rootOwned = true)
      ("source distribution member has host ownership: " ++ shown)
    require (member.mode = if member.isDir ∨ executable then 0o755 else 0o644)
      ("source distribution member has a noncanonical mode: " ++ shown)
    require ((parts member.name).head? = some expectedRoot.toList)
      ("source distribution member escapes expected root: " ++ shown)
    checkSdistMembers expectedRoot epoch (total + member.size) members

/-- `int.from_bytes(data, byteorder="little")` -/
def littleEndian (data : Bytes) : Nat := data.foldr (fun b n => b.toNat + 256 * n) 0

/-- `_validate_sdist_bytes` -/
def validateSdistBytes (data : Bytes) (label expectedDistribution expectedVersion : String)
    (epoch : Int) : Except ReleaseError Unit := do
  let shown := tools.text.reprStr label
  require (data.length ≤ maxArchiveMemberBytes)
    ("source distribution exceeds the compressed size limit: " ++ shown)
  require (10 ≤ data.length ∧ data.take 3 = [0x1f, 0x8b, 0x08])
    ("invalid gzip header in source distribution: " ++ shown)
  require ((littleEndian ((data.drop 4).take 4) : Int) = epoch)
    "source distribution gzip mtime is not the release epoch"
  let expectedRoot := "dolores_bittensor_subnet-" ++ expectedVersion
  let invalid := "invalid source distribution " ++ shown
  let members ← reading invalid (tools.openTar data)
  let names := members.map TarMember.name
  require (names = names.insertionSort (· ≤ ·)) "source distribution members are not sorted"
  require names.Nodup "source distribution contains duplicate paths"
  checkSdistMembers tools expectedRoot epoch 0 members
  let metadataMembers := members.filter fun member => member.name = expectedRoot ++ "/PKG-INFO"
  match metadataMembers with
  | [member] => do
    require (member.isFile = true) "source distribution must contain one top-level PKG-INFO"
    let metadata ← readTarMember tools invalid member
    validateDistributionMetadata tools metadata label expectedDistribution expectedVersion
  | _ => .error (.bundleError "source distribution must contain one top-level PKG-INFO")

end

/-! ## the honest fixture -/

mutual
/-- `a == b` for values of `json.loads` -/
def pyEq : Json → Json → Bool
  | .arr xs, .arr ys => pyEqItems xs ys
  | .obj fs, .obj gs => fs.length == gs.length && pyEqFields fs gs
  | a, b => a.sameKey b

def pyEqItems : List Json → List Json → Bool
  | [], [] => true
  | x :: xs, y :: ys => pyEq x y && pyEqItems xs ys
  | _, _ => false

/-- every field has an equal one in `gs` -/
def pyEqFields : List (String × Json) → Obj → Bool
  | [], _ => true
  | (k, x) :: fs, gs => (Dict.get? gs k).any (pyEq x) && pyEqFields fs gs
end

section
variable (tools : Tools)

/-- `json.loads(data.decode("utf-8"))`, whose two errors become a `BundleError` -/
def loadsBytes (invalid : String) (data : Bytes) : Except ReleaseError Json :=
  match decodeUtf8 data with
  | none => .error (.bundleError (invalid ++ ": invalid utf-8"))
  | some cs =>
    match loadJson tools.limits tools.text cs with
    | .ok j => .ok j
    | .error (.jsonDecodeError msg) => .error (.bundleError (invalid ++ ": " ++ msg))
    | .error exc => .error (.raised exc)

/-- `to_wire(TaskPackage.load(root))` -/
def expectedWire (taskYaml : Bytes) : Except ReleaseError Obj :=
  match tools.loadTask taskYaml >>= fun task =>
    toWire tools.text tools.engine tools.declaredDifficulty task maxPackageBytes with
  | .ok wire => .ok wire
  | .error exc =>
    if exc.isException then
      .error (.bundleError ("honest fixture task.yaml is invalid: " ++ exc.str))
    else .error (.raised exc)

/-- `_validate_fixture_semantics` -/
def validateFixtureSemantics (taskYaml wireJson : Bytes) : Except ReleaseError Unit := do
  require (tools.installed = true)
    "fixture validation requires the pinned engine and subnet distributions"
  let actual ← loadsBytes tools "honest fixture wire.json is invalid" wireJson
  match actual with
  | .obj actual => do
    let expected ← expectedWire tools taskYaml
    require (pyEq (.obj actual) (.obj expected) = true)
      "honest fixture wire.json does not equal the pinned conversion of task.yaml"
  | _ => .error (.bundleError "honest fixture wire.json must contain a JSON object")

end

/-! ## files -/

/-- what `lstat` finds -/
inductive FileNode where
  | missing
  | special
  | regular (data : Bytes)

/-- a path as text, its last part, and what is there -/
structure InputFile where
  path : String
  name : String
  node : FileNode

/-- `_require_regular_file`, and the bytes of the file -/
def requireRegularFile (file : InputFile) (label : String) : Except ReleaseError Bytes :=
  match file.node with
  | .missing => .error (.bundleError (label ++ " does not exist: " ++ file.path))
  | .special => .error (.bundleError
      (label ++ " must be a regular file, not a symlink: " ++ file.path))
  | .regular data => .ok data

end Release
end Dolores
