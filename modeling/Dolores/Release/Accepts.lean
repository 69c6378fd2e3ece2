import Dolores.Holdout.Probes
import Dolores.Py.JsonKeys
import Dolores.Release.Bundle

/-!
# What the verifier accepts (`build_release_bundle.py`)

One inversion lemma for each parser of the verifier, and what they say together.

* `parsePayloadRecord_ok`, `parsePayloadRecords_ok`   the records of the payloads;
* `statedProvenance_ok`     the document and the metadata it states;
* `parseChecksums_ok`       the lines of `SHA256SUMS`;
* `Verified`                the checks of the verifier, one field for each;
* `verify_ok_iff`           the verifier accepts exactly when they pass.
-/

namespace Dolores
namespace Release
open Except JsonText

variable {tools : Tools}

/-! ## records -/

/-- an object of this value has these fields, and the record was made from them -/
structure Records (roles : Dict String String) (value : Json) (r : PayloadRecord) : Prop where
  fields : ∃ record, value = .obj record ∧ HasKeys record payloadKeys ∧
    Obj.get record "path" = .str r.path ∧ Obj.get record "role" = .str r.role ∧
    Obj.get record "sha256" = .str r.sha256 ∧ Obj.get record "size" = .int r.size
  role : Dict.get? roles r.path = some r.role

theorem parsePayloadRecord_ok {roles : Dict String String} {value : Json} {r : PayloadRecord}
    (h : parsePayloadRecord tools roles value = .ok r) : Records roles value r := by
  unfold parsePayloadRecord at h
  cases value with
  | obj record =>
    obtain ⟨_, hkeys, h⟩ := bind_ok h
    cases hpath : Obj.get record "path" with
    | str path =>
      rw [hpath] at h
      obtain ⟨_, -, h⟩ := bind_ok h
      obtain ⟨_, hrole, h⟩ := bind_ok h
      rw [require_ok] at hkeys hrole
      obtain ⟨role, hget, hrole⟩ := (Option.any_eq_true _ _).mp hrole
      split at h
      · next digest size hdigest hsize =>
        obtain ⟨_, -, h⟩ := bind_ok h
        obtain ⟨_, -, h⟩ := bind_ok h
        rw [← Except.ok.inj h]
        have hrole' : Dict.getD roles path "" = role := by
          unfold Dict.getD
          rw [hget]
          rfl
        refine ⟨⟨record, rfl, hkeys, hpath, ?_, hdigest, hsize⟩, ?_⟩
        · rw [hrole']
          exact Json.eqStr_iff.mp hrole
        · rw [hrole']
          exact hget
      · obtain ⟨_, -, h⟩ := bind_ok h
        exact nomatch h
      · exact nomatch h
    | _ =>
      rw [hpath] at h
      exact nomatch h
  | _ => exact nomatch h

theorem parsePayloadRecords_ok {provenance : Obj} {version : String}
    {records : List PayloadRecord}
    (h : parsePayloadRecords tools provenance version = .ok records) :
    ∃ values, Obj.get provenance "payloads" = .arr values ∧
      List.Forall₂ (Records (expectedRoles version)) values records ∧
      records.map PayloadRecord.path =
        (Dict.keys (expectedRoles version)).insertionSort (· ≤ ·) := by
  unfold parsePayloadRecords at h
  cases hvalues : Obj.get provenance "payloads" with
  | arr values =>
    rw [hvalues] at h
    obtain ⟨records', hmap, h⟩ := bind_ok h
    obtain ⟨_, hpaths, h⟩ := bind_ok h
    rw [require_ok] at hpaths
    rw [← Except.ok.inj h]
    exact ⟨values, rfl, (forall₂_of_mapM hmap).imp fun _ _ => parsePayloadRecord_ok, hpaths⟩
  | _ =>
    rw [hvalues] at h
    exact nomatch h

/-! ## the provenance -/

/-- the bytes are JSON text of a value -/
def readJson (T : PyText) (data : Bytes) : Option Json := (decodeUtf8 data).bind (loads T)

theorem loadsBytes_ok {invalid : String} {data : Bytes} {j : Json}
    (h : loadsBytes tools invalid data = .ok j) : readJson tools.text data = some j := by
  unfold loadsBytes at h
  unfold readJson
  cases hdecode : decodeUtf8 data with
  | none =>
    rw [hdecode] at h
    exact nomatch h
  | some cs =>
    rw [hdecode] at h
    dsimp only at h
    unfold loadJson at h
    cases hlimits : tools.limits cs with
    | some refusal =>
      rw [hlimits] at h
      cases refusal <;> exact nomatch h
    | none =>
      rw [hlimits] at h
      dsimp only at h
      cases hloads : loads tools.text cs with
      | none =>
        rw [hloads] at h
        exact nomatch h
      | some j' =>
        rw [hloads] at h
        rw [Option.bind_some, hloads, Except.ok.inj h]

theorem parseProvenance_ok {data : Bytes} {document : Obj}
    (h : parseProvenance tools data = .ok document) :
    readJson tools.text data = some (.obj document) ∧ HasKeys document provenanceKeys ∧
      Obj.get document "schema_version" = .str provenanceSchema ∧
      Obj.get document "builder" = .str builderId := by
  obtain ⟨j, hload, h⟩ := bind_ok h
  cases j with
  | obj document' =>
    obtain ⟨_, hkeys, h⟩ := bind_ok h
    obtain ⟨_, hschema, h⟩ := bind_ok h
    obtain ⟨_, hbuilder, h⟩ := bind_ok h
    rw [require_ok] at hkeys hschema hbuilder
    rw [← Except.ok.inj h]
    exact ⟨loadsBytes_ok hload, hkeys, Json.eqStr_iff.mp hschema, Json.eqStr_iff.mp hbuilder⟩
  | _ => exact nomatch h

theorem requireJsonString_ok {document : Obj} {key s : String}
    (h : requireJsonString tools document key = .ok s) : document.get key = .str s := by
  unfold requireJsonString at h
  split at h
  · next hget => rw [hget, Except.ok.inj h]
  · exact nomatch h

theorem requireJsonInteger_ok {document : Obj} {key : String} {i : Int}
    (h : requireJsonInteger tools document key = .ok i) : document.get key = .int i := by
  unfold requireJsonInteger at h
  split at h
  · next hget => rw [hget, Except.ok.inj h]
  · exact nomatch h

/-- the value is the record of this source -/
def StatesSource (value : Json) (commit distribution version : String) : Prop :=
  ∃ source, value = .obj source ∧ HasKeys source sourceKeys ∧
    Obj.get source "commit" = .str commit ∧ Obj.get source "distribution" = .str distribution ∧
    Obj.get source "version" = .str version

theorem parseSource_ok {value : Json} {label distribution version commit : String}
    (h : parseSource value label distribution version = .ok commit) :
    StatesSource value commit distribution version ∧
      validateCommit commit (label ++ " source commit") = .ok () := by
  unfold parseSource at h
  cases value with
  | obj source =>
    obtain ⟨_, hkeys, h⟩ := bind_ok h
    obtain ⟨_, hsame, h⟩ := bind_ok h
    rw [require_ok] at hkeys hsame
    cases hcommit : Obj.get source "commit" with
    | str commit' =>
      rw [hcommit] at h
      obtain ⟨_, hvalid, h⟩ := bind_ok h
      rw [← Except.ok.inj h]
      exact ⟨⟨source, rfl, hkeys, hcommit, Json.eqStr_iff.mp hsame.1, Json.eqStr_iff.mp hsame.2⟩,
        hvalid⟩
    | _ =>
      rw [hcommit] at h
      exact nomatch h
  | _ => exact nomatch h

/-- the document states this metadata -/
structure States (tools : Tools) (document : Obj) (m : Metadata) : Prop where
  keys : HasKeys document provenanceKeys
  schema : Obj.get document "schema_version" = .str provenanceSchema
  builder : Obj.get document "builder" = .str builderId
  version : Obj.get document "version" = .str m.version
  sourceDateEpoch : Obj.get document "source_date_epoch" = .int m.sourceDateEpoch
  sources : ∃ sources, Obj.get document "sources" = .obj sources ∧
    HasKeys sources ["engine", "subnet"] ∧
    StatesSource (Obj.get sources "engine") m.engineSourceCommit engineDistribution m.version ∧
    StatesSource (Obj.get sources "subnet") m.subnetSourceCommit subnetDistribution m.version
  versionValid : validateVersion tools m.version = .ok ()
  epochValid : validateSourceDateEpoch m.sourceDateEpoch = .ok ()
  engineValid : validateCommit m.engineSourceCommit "engine source commit" = .ok ()
  subnetValid : validateCommit m.subnetSourceCommit "subnet source commit" = .ok ()

theorem statedProvenance_ok {contents : Contents} {document : Obj} {m : Metadata}
    (h : statedProvenance tools contents = .ok (document, m)) :
    ∃ raw checksums, Dict.get? contents provenanceName = some raw ∧
      Dict.get? contents checksumsName = some checksums ∧
      readJson tools.text raw = some (.obj document) ∧ States tools document m := by
  obtain ⟨_, hpresent, h⟩ := bind_ok h
  obtain ⟨document', hparse, h⟩ := bind_ok h
  obtain ⟨version, hversion, h⟩ := bind_ok h
  obtain ⟨epoch, hepoch, h⟩ := bind_ok h
  obtain ⟨_, hversionValid, h⟩ := bind_ok h
  obtain ⟨_, hepochValid, h⟩ := bind_ok h
  rw [require_ok] at hpresent
  obtain ⟨raw, hraw⟩ := Option.isSome_iff_exists.mp hpresent.1
  obtain ⟨checksums, hchecksums⟩ := Option.isSome_iff_exists.mp hpresent.2
  unfold Dict.getD at hparse
  rw [hraw, Option.getD_some] at hparse
  obtain ⟨hread, hkeys, hschema, hbuilder⟩ := parseProvenance_ok hparse
  cases hsources : Obj.get document' "sources" with
  | obj sources =>
    rw [hsources] at h
    obtain ⟨_, hsourceKeys, h⟩ := bind_ok h
    obtain ⟨engineCommit, hengine, h⟩ := bind_ok h
    obtain ⟨subnetCommit, hsubnet, h⟩ := bind_ok h
    rw [require_ok] at hsourceKeys
    obtain ⟨hengine, hengineValid⟩ := parseSource_ok hengine
    obtain ⟨hsubnet, hsubnetValid⟩ := parseSource_ok hsubnet
    obtain ⟨hdocument, hm⟩ := Prod.mk.inj (Except.ok.inj h)
    rw [← hdocument, ← hm]
    exact ⟨raw, checksums, hraw, hchecksums, hread,
      { keys := hkeys, schema := hschema, builder := hbuilder
        version := requireJsonString_ok hversion
        sourceDateEpoch := requireJsonInteger_ok hepoch
        sources := ⟨sources, hsources, hsourceKeys, hengine, hsubnet⟩
        versionValid := hversionValid, epochValid := hepochValid
        engineValid := hengineValid, subnetValid := hsubnetValid }⟩
  | _ =>
    rw [hsources] at h
    exact nomatch h

/-! ## the checksums -/

theorem matchChecksum_eq {line : List Char} {digest path : String}
    (h : matchChecksum line = some (digest, path)) : line = checksumText digest path := by
  unfold matchChecksum at h
  dsimp only at h
  split at h
  · next hline =>
    obtain ⟨hdigest, hpath⟩ := Prod.mk.inj (Option.some.inj h)
    have hsplit : line = line.take 64 ++ ((line.drop 64).take 2 ++ line.drop 66) := by
      have hdrop : (line.drop 64).drop 2 = line.drop 66 := by rw [List.drop_drop]
      rw [← hdrop, List.take_append_drop, List.take_append_drop]
    rw [hline.2.2.1] at hsplit
    unfold checksumText
    have hline' : (String.ofList (line.take 64) ++ "  " ++ String.ofList (line.drop 66)).toList =
        line.take 64 ++ ([' ', ' '] ++ line.drop 66) := by
      rw [String.toList_append, String.toList_append, String.toList_ofList, List.append_assoc,
        String.toList_ofList (l := line.drop 66)]
      rfl
    rw [← hdigest, ← hpath, hline']
    exact hsplit
  · exact nomatch h

/-- the lines in the order of the records -/
def checksumLines (checksums : Dict String String) : List (List Char) :=
  checksums.map fun p => checksumText p.2 p.1

theorem addChecksum_ok {records records' : Dict String String} {line : List Char}
    (h : addChecksum tools records line = .ok records') :
    ∃ digest path, line = checksumText digest path ∧ path ∉ Dict.keys records ∧
      records' = records ++ [(path, digest)] := by
  unfold addChecksum at h
  cases hmatch : matchChecksum line with
  | none =>
    rw [hmatch] at h
    exact nomatch h
  | some p =>
    obtain ⟨digest, path⟩ := p
    rw [hmatch] at h
    obtain ⟨_, -, h⟩ := bind_ok h
    obtain ⟨_, hnew, h⟩ := bind_ok h
    rw [require_ok] at hnew
    have hpath : path ∉ Dict.keys records := by
      intro hmem
      have hsome := Dict.get?_isSome_iff.mpr hmem
      rw [show (Dict.get? records path).isSome = false from hnew] at hsome
      exact Bool.false_ne_true hsome
    refine ⟨digest, path, matchChecksum_eq hmatch, hpath, ?_⟩
    rw [← Except.ok.inj h]
    exact Dict.set_of_not_mem hpath digest

theorem parseChecksums_ok {data : Bytes} {checksums : Dict String String}
    (h : parseChecksums tools data = .ok checksums) :
    ∃ text, decodeUtf8 data = some text ∧ endsInNewline text = true ∧
      splitLines text [] = checksumLines checksums ∧ (Dict.keys checksums).Nodup ∧
      Dict.keys checksums = (Dict.keys checksums).insertionSort (· ≤ ·) := by
  unfold parseChecksums at h
  cases hdecode : decodeUtf8 data with
  | none =>
    rw [hdecode] at h
    exact nomatch h
  | some text =>
    rw [hdecode] at h
    obtain ⟨_, hends, h⟩ := bind_ok h
    obtain ⟨records, hfold, h⟩ := bind_ok h
    obtain ⟨_, hsorted, h⟩ := bind_ok h
    rw [require_ok] at hends hsorted
    rw [← Except.ok.inj h]
    -- the lines read so far are those of the records so far
    have hinv : splitLines text [] = checksumLines records ∧ (Dict.keys records).Nodup := by
      apply foldlM_invariant
        (fun lines records => lines = checksumLines records ∧ (Dict.keys records).Nodup)
        ?_ (show [] = checksumLines [] ∧ _ from ⟨rfl, List.nodup_nil⟩) hfold
      intro done records line records' hinv hadd
      obtain ⟨digest, path, hline, hnew, hrecords⟩ := addChecksum_ok hadd
      rw [hrecords, hline, hinv.1]
      constructor
      · unfold checksumLines
        rw [List.map_append]
        rfl
      · rw [← Dict.set_of_not_mem hnew digest]
        exact Dict.nodup_set hinv.2 path digest
    exact ⟨text, rfl, hends, hinv.1, hinv.2, hsorted⟩

theorem checkChecksums_ok {contents : Contents} {records : List PayloadRecord}
    (h : checkChecksums tools contents records = .ok ()) :
    ∃ checksums, parseChecksums tools (Dict.getD contents checksumsName []) = .ok checksums ∧
      HasKeys checksums (records.map PayloadRecord.path ++ [provenancePath]) ∧
      ∀ p ∈ checksums, p.2 =
        (tools.sha256 (Dict.getD contents (bundleMember p.1) [])).text := by
  obtain ⟨checksums, hparse, h⟩ := bind_ok h
  obtain ⟨_, hkeys, h⟩ := bind_ok h
  rw [require_ok] at hkeys
  refine ⟨checksums, hparse, hkeys, fun p hp => ?_⟩
  have hsame := of_forM_ok h p hp
  rw [require_ok] at hsame
  exact hsame.symm

/-! ## the members -/

theorem openBundle_ok {archive : Bytes} {members : List TarMember} {contents : Contents}
    (h : openBundle tools archive = .ok (members, contents)) : (Dict.keys contents).Nodup := by
  obtain ⟨members', -, h⟩ := bind_ok h
  obtain ⟨_, -, h⟩ := bind_ok h
  obtain ⟨_, -, h⟩ := bind_ok h
  obtain ⟨_, -, h⟩ := bind_ok h
  obtain ⟨pairs, -, h⟩ := bind_ok h
  rw [← (Prod.mk.inj (Except.ok.inj h)).2]
  exact Dict.nodup_ofPairs pairs

theorem checkPayload_iff {contents : Contents} {r : PayloadRecord} :
    checkPayload tools contents r = .ok () ↔
      r.size = (Dict.getD contents (bundleMember r.path) []).length ∧
        r.sha256 = (tools.sha256 (Dict.getD contents (bundleMember r.path) [])).text := by
  constructor
  · intro h
    obtain ⟨_, hsize, h⟩ := bind_ok h
    rw [require_ok] at hsize h
    exact ⟨hsize.symm, h.symm⟩
  · intro h
    unfold checkPayload
    dsimp only
    rw [require_of h.1.symm, ok_bind]
    exact require_of h.2.symm _

/-! ## the verifier -/

/-- the checks of the verifier, but for what the caller expects -/
structure Verified (tools : Tools) (archive : Bytes) (members : List TarMember)
    (contents : Contents) (document : Obj) (m : Metadata) (records : List PayloadRecord) :
    Prop where
  size : archive.length ≤ maxBundleBytes
  opened : openBundle tools archive = .ok (members, contents)
  stated : statedProvenance tools contents = .ok (document, m)
  parsed : parsePayloadRecords tools document m.version = .ok records
  memberSet : checkMemberSet tools contents records = .ok ()
  metadata : members.forM (checkMemberMetadata tools m.sourceDateEpoch) = .ok ()
  payloads : records.forM (checkPayload tools contents) = .ok ()
  checksums : checkChecksums tools contents records = .ok ()
  artifacts : checkArtifacts tools contents m = .ok ()
  rendered : renderTarGz tools contents m.sourceDateEpoch = .ok archive

def verification (tools : Tools) (archive : Bytes) (contents : Contents) (document : Obj)
    (records : List PayloadRecord) : BundleVerification :=
  ⟨(tools.sha256 archive).text, contents.length, records.length, document⟩

theorem verify_ok_iff {expected : Expected} {path name : String} {archive : Bytes}
    {v : BundleVerification} :
    verifyReleaseBundle tools expected ⟨path, name, .regular archive⟩ = .ok v ↔
      ∃ members contents document m records,
        Verified tools archive members contents document m records ∧
          checkExpected tools expected m = .ok () ∧
          v = verification tools archive contents document records := by
  constructor
  · intro h
    obtain ⟨archive', harchive, h⟩ := bind_ok h
    obtain rfl : archive = archive' := Except.ok.inj harchive
    obtain ⟨_, hsize, h⟩ := bind_ok h
    obtain ⟨⟨members, contents⟩, hopened, h⟩ := bind_ok h
    obtain ⟨⟨document, m⟩, hstated, h⟩ := bind_ok h
    obtain ⟨_, hexpected, h⟩ := bind_ok h
    obtain ⟨records, hrecords, h⟩ := bind_ok h
    obtain ⟨_, hset, h⟩ := bind_ok h
    obtain ⟨_, hmetadata, h⟩ := bind_ok h
    obtain ⟨_, hpayloads, h⟩ := bind_ok h
    obtain ⟨_, hchecksums, h⟩ := bind_ok h
    obtain ⟨_, hartifacts, h⟩ := bind_ok h
    obtain ⟨canonical, hrendered, h⟩ := bind_ok h
    obtain ⟨_, hsame, h⟩ := bind_ok h
    rw [require_ok] at hsize hsame
    rw [← hsame] at hrendered
    exact ⟨members, contents, document, m, records,
      { size := hsize, opened := hopened, stated := hstated, parsed := hrecords
        memberSet := hset, metadata := hmetadata, payloads := hpayloads
        checksums := hchecksums, artifacts := hartifacts, rendered := hrendered },
      hexpected, (Except.ok.inj h).symm⟩
  · rintro ⟨members, contents, document, m, records, hv, hexpected, rfl⟩
    unfold verifyReleaseBundle requireRegularFile
    rw [ok_bind, require_of hv.size, ok_bind, hv.opened, ok_bind]
    dsimp only
    rw [hv.stated, ok_bind]
    dsimp only
    rw [hexpected, ok_bind, hv.parsed, ok_bind, hv.memberSet, ok_bind, hv.metadata, ok_bind,
      hv.payloads, ok_bind, hv.checksums, ok_bind, hv.artifacts, ok_bind, hv.rendered, ok_bind,
      require_of rfl, ok_bind]
    rfl

end Release
end Dolores
