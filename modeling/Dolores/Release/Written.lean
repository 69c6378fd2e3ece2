import Dolores.Release.Canonical

/-!
# Written members are read back (`build_release_bundle.py`)

The parsers of the verifier on the builder's provenance, and on the builder's lines of checksums,
whatever ends the lines.

* `splitLines_terminated`    lines are split at newlines and at carriage returns with newlines;
* `parseChecksums_written`   the written checksums are read back;
* `statedProvenance_written`, `parsePayloadRecords_written`   so is the written provenance.
-/

namespace Dolores
namespace Release
open Except JsonText

variable {tools : Tools}

/-! ## the checksums -/

/-- what ends a line -/
inductive Terminator where
  | newline
  | returnNewline

def Terminator.text : Terminator → List Char
  | .newline => ['\n']
  | .returnNewline => ['\r', '\n']

/-- the lines, each with its end -/
def terminated (terminator : Terminator) (lines : List (List Char)) : List Char :=
  lines.flatMap fun line => line ++ terminator.text

theorem splitLines_line (terminator : Terminator) {line : List Char}
    (h : ∀ c ∈ line, isLineBreak c = false) (before rest : List Char) :
    splitLines (line ++ terminator.text ++ rest) before =
      (before.reverse ++ line) :: splitLines rest [] := by
  induction line generalizing before with
  | nil =>
    rw [List.nil_append, List.append_nil]
    cases terminator with
    | newline =>
      show splitLines ('\n' :: rest) before = _
      conv_lhs => unfold splitLines
      rw [if_pos (by decide)]
      cases rest with
      | nil => rfl
      | cons c rest => exact if_neg fun hc => absurd hc.1 (by decide)
    | returnNewline =>
      show splitLines ('\r' :: '\n' :: rest) before = _
      conv_lhs => unfold splitLines
      rw [if_pos (by decide)]
      exact if_pos (by decide)
  | cons c line ih =>
    obtain ⟨hc, hline⟩ := List.forall_mem_cons.mp h
    have hsplit : splitLines (c :: line ++ terminator.text ++ rest) before =
        splitLines (line ++ terminator.text ++ rest) (c :: before) := by
      rw [List.cons_append, List.cons_append]
      conv_lhs => unfold splitLines
      rw [hc]
      exact if_neg Bool.false_ne_true
    rw [hsplit, ih hline, List.reverse_cons, List.append_assoc]
    rfl

theorem splitLines_terminated (terminator : Terminator) {lines : List (List Char)}
    (h : ∀ line ∈ lines, ∀ c ∈ line, isLineBreak c = false) :
    splitLines (terminated terminator lines) [] = lines := by
  induction lines with
  | nil => rfl
  | cons line lines ih =>
    obtain ⟨hline, hlines⟩ := List.forall_mem_cons.mp h
    unfold terminated at ih ⊢
    rw [List.flatMap_cons, splitLines_line terminator hline, ih hlines]
    rfl

theorem endsInNewline_terminated (terminator : Terminator) {lines : List (List Char)}
    (h : lines ≠ []) : endsInNewline (terminated terminator lines) = true := by
  have hlast : ∀ init : List Char, (init ++ terminator.text).getLast? = some '\n' := by
    intro init
    rw [List.getLast?_append]
    cases terminator <;> rfl
  obtain ⟨init, line, rfl⟩ := List.eq_nil_or_concat' lines |>.resolve_left h
  rw [endsInNewline_iff]
  unfold terminated
  rw [List.flatMap_append, List.flatMap_singleton, ← List.append_assoc]
  exact hlast _

theorem matchChecksum_text (digest : HexDigest) {path : String} (h : path ≠ "")
    (hbreak : '\n' ∉ path.toList) :
    matchChecksum (checksumText digest.text path) = some (digest.text, path) := by
  have hlength : digest.text.toList.length = 64 := digest.length_eq
  have htext : checksumText digest.text path =
      digest.text.toList ++ (' ' :: ' ' :: path.toList) := by
    unfold checksumText
    rw [String.toList_append, String.toList_append, List.append_assoc]
    rfl
  have htake : (checksumText digest.text path).take 64 = digest.text.toList := by
    rw [htext, ← hlength]
    exact List.take_left
  have hdrop : (checksumText digest.text path).drop 64 = ' ' :: ' ' :: path.toList := by
    rw [htext, ← hlength]
    exact List.drop_left
  have hrest : (checksumText digest.text path).drop 66 = path.toList := by
    have htwo : (checksumText digest.text path).drop 66 =
        ((checksumText digest.text path).drop 64).drop 2 := by rw [List.drop_drop]
    rw [htwo, hdrop]
    rfl
  unfold matchChecksum
  dsimp only
  rw [htake, hdrop, hrest, if_pos ⟨hlength, digest.hex, rfl, fun hnil =>
    h (String.toList_eq_nil_iff.mp hnil), hbreak⟩, String.ofList_toList, String.ofList_toList]

/-- the checksums of these paths -/
def pathChecksums (digest : String → HexDigest) (paths : List String) : Dict String String :=
  paths.map fun path => (path, (digest path).text)

def writtenChecksums (terminator : Terminator) (digest : String → HexDigest)
    (paths : List String) : Bytes :=
  encodeUtf8 (terminated terminator (checksumLines (pathChecksums digest paths)))

theorem foldlM_addChecksum {digest : String → HexDigest} {done paths : List String}
    (hvalid : ∀ path ∈ paths, ValidPath tools path) (hnodup : (done ++ paths).Nodup) :
    (checksumLines (pathChecksums digest paths)).foldlM (addChecksum tools)
      (pathChecksums digest done) = .ok (pathChecksums digest (done ++ paths)) := by
  induction paths generalizing done with
  | nil => rw [List.append_nil]; rfl
  | cons path paths ih =>
    obtain ⟨hpath, hpaths⟩ := List.forall_mem_cons.mp hvalid
    obtain ⟨hne, hcontrol⟩ := hpath.spec
    have hsplit : done ++ path :: paths = (done ++ [path]) ++ paths := by
      rw [List.append_assoc]
      rfl
    have hkeys : Dict.keys (pathChecksums digest done) = done := by
      unfold pathChecksums Dict.keys
      rw [List.map_map]
      exact List.map_id done
    have hnew : path ∉ Dict.keys (pathChecksums digest done) := by
      rw [hkeys]
      exact fun hmem => (List.nodup_append.mp hnodup).2.2 path hmem path List.mem_cons_self rfl
    have habsent : Dict.contains (pathChecksums digest done) path = false := by
      cases hc : Dict.contains (pathChecksums digest done) path with
      | false => rfl
      | true => exact absurd (Dict.get?_isSome_iff.mp hc) hnew
    have hbreak : '\n' ∉ path.toList := fun hmem => absurd (hcontrol _ hmem) (by decide)
    have hadd : addChecksum tools (pathChecksums digest done)
        (checksumText (digest path).text path) = .ok (pathChecksums digest (done ++ [path])) := by
      unfold addChecksum
      rw [matchChecksum_text (digest path) hne hbreak]
      dsimp only
      rw [hpath, ok_bind, require_of habsent, ok_bind, Dict.set_of_not_mem hnew]
      unfold pathChecksums
      rw [List.map_append]
      rfl
    show (addChecksum tools _ (checksumText (digest path).text path) >>= fun records =>
      (checksumLines (pathChecksums digest paths)).foldlM (addChecksum tools) records) = _
    rw [hadd, ok_bind, hsplit, ih hpaths (by rwa [← hsplit])]

theorem checksumPaths_ne_nil (version : String) : checksumPaths version ≠ [] :=
  List.append_ne_nil_of_right_ne_nil _ (List.cons_ne_nil _ _)

theorem checksumLines_unbroken {digest : String → HexDigest} {paths : List String}
    (hbreaks : ∀ path ∈ paths, ∀ c ∈ path.toList, isLineBreak c = false) :
    ∀ line ∈ checksumLines (pathChecksums digest paths), ∀ c ∈ line, isLineBreak c = false := by
  intro line hline c hc
  unfold checksumLines pathChecksums at hline
  rw [List.map_map] at hline
  obtain ⟨path, hpath, rfl⟩ := List.mem_map.mp hline
  change c ∈ ((digest path).text ++ "  " ++ path).toList at hc
  rw [String.toList_append, String.toList_append, List.mem_append, List.mem_append] at hc
  rcases hc with (hc | hc) | hc
  · have hhex := List.all_eq_true.mp (digest path).hex c hc
    have hmem : c ∈ "0123456789abcdef".toList := List.contains_iff_mem.mp hhex
    have hall : "0123456789abcdef".toList.all (fun c => !isLineBreak c) = true := by decide
    exact (Bool.not_eq_true' _).mp (List.all_eq_true.mp hall c hmem)
  · have hall : "  ".toList.all (fun c => !isLineBreak c) = true := by decide
    exact (Bool.not_eq_true' _).mp (List.all_eq_true.mp hall c hc)
  · exact hbreaks path hpath c hc

/-- written checksums are read back, whatever ends their lines -/
theorem parseChecksums_written (terminator : Terminator) {digest : String → HexDigest}
    {paths : List String} (hvalid : ∀ path ∈ paths, ValidPath tools path)
    (hbreaks : ∀ path ∈ paths, ∀ c ∈ path.toList, isLineBreak c = false)
    (hsorted : paths.Pairwise (· < ·)) (hne : paths ≠ []) :
    parseChecksums tools (writtenChecksums terminator digest paths) =
      .ok (pathChecksums digest paths) := by
  have hlinesNe : checksumLines (pathChecksums digest paths) ≠ [] := by
    unfold checksumLines pathChecksums
    rw [List.map_map]
    exact fun h => hne (List.map_eq_nil_iff.mp h)
  have hfold := @foldlM_addChecksum tools digest [] _ hvalid
    (by rw [List.nil_append]; exact hsorted.imp fun h => ne_of_lt h)
  have hkeys : Dict.keys (pathChecksums digest paths) = paths := by
    unfold pathChecksums Dict.keys
    rw [List.map_map]
    exact List.map_id paths
  have hinsert : Dict.keys (pathChecksums digest paths) =
      (Dict.keys (pathChecksums digest paths)).insertionSort (· ≤ ·) := by
    rw [hkeys]
    exact (List.Pairwise.insertionSort_eq (hsorted.imp fun h => le_of_lt h)).symm
  unfold parseChecksums writtenChecksums
  rw [decodeUtf8_encodeUtf8]
  dsimp only
  rw [require_of (endsInNewline_terminated terminator hlinesNe), ok_bind,
    splitLines_terminated terminator (checksumLines_unbroken hbreaks)]
  change ((checksumLines (pathChecksums digest paths)).foldlM (addChecksum tools)
    (pathChecksums digest []) >>= _) = _
  rw [hfold, ok_bind, List.nil_append, require_of hinsert]
  rfl

/-! ## the provenance -/

theorem canon_obj_of_sorted {o : Obj} (hsorted : (Dict.keys o).Pairwise (· ≤ ·))
    (hvalues : ∀ p ∈ o, p.2.canon = p.2) : Json.canon (.obj o) = .obj o := by
  have hmap : Dict.mapValues Json.canon o = o := by
    refine (List.map_congr_left fun p hp => ?_).trans (List.map_id o)
    rw [hvalues p hp]
    rfl
  rw [Json.canon_obj']
  unfold Obj.canon
  rw [hmap]
  exact congrArg Json.obj (Dict.sorted_eq_of_sorted (List.pairwise_map.mp hsorted))

theorem printable_obj {T : PyText} {o : Obj} (hnodup : (Dict.keys o).Nodup)
    (hvalues : ∀ p ∈ o, Printable T p.2) : Printable T (.obj o) := by
  rw [Printable]
  exact ⟨hnodup, printableFields_iff.mpr hvalues⟩

/-- a document whose keys are sorted, and whose values can be printed -/
structure Plain (T : PyText) (j : Json) : Prop where
  canon : j.canon = j
  printable : Printable T j

theorem plain_str (T : PyText) (s : String) : Plain T (.str s) :=
  ⟨Json.canon_str s, printable_str s⟩

theorem plain_int (T : PyText) (i : Int) : Plain T (.int i) := ⟨Json.canon_int i, printable_int i⟩

theorem plain_arr {T : PyText} {xs : List Json} (h : ∀ x ∈ xs, Plain T x) : Plain T (.arr xs) where
  canon := by
    rw [Json.canon, Json.canonList_eq]
    have hcanon : xs.map Json.canon = xs :=
      (List.map_congr_left fun x hx => (h x hx).canon).trans (List.map_id xs)
    rw [hcanon]
  printable := by
    rw [Printable]
    exact printableItems_iff.mpr fun x hx => (h x hx).printable

theorem plain_obj {T : PyText} {o : Obj} (hsorted : (Dict.keys o).Pairwise (· < ·))
    (h : ∀ p ∈ o, Plain T p.2) : Plain T (.obj o) where
  canon := canon_obj_of_sorted (hsorted.imp fun hlt => le_of_lt hlt) fun p hp => (h p hp).canon
  printable := printable_obj (hsorted.imp fun hlt => ne_of_lt hlt) fun p hp => (h p hp).printable

theorem plain_payloadRecord (T : PyText) (p : Payload) :
    Plain T (.obj (payloadRecord tools p)) := by
  refine plain_obj ?_ ?_
  · show List.Pairwise (· < ·) payloadKeys
    decide
  · unfold payloadRecord
    simp only [List.forall_mem_cons, plain_str, plain_int, true_and]
    exact fun p hp => absurd hp List.not_mem_nil

theorem plain_sourceRecord (T : PyText) (commit distribution version : String) :
    Plain T (.obj (sourceRecord commit distribution version)) := by
  refine plain_obj ?_ ?_
  · show List.Pairwise (· < ·) sourceKeys
    decide
  · unfold sourceRecord
    simp only [List.forall_mem_cons, plain_str, true_and]
    exact fun p hp => absurd hp List.not_mem_nil

theorem plain_provenanceDocument (T : PyText) (payloads : List Payload) (m : Metadata) :
    Plain T (.obj (provenanceDocument tools payloads m)) := by
  have hpayloads : Plain T (.arr (payloads.map fun p => .obj (payloadRecord tools p))) := by
    refine plain_arr fun x hx => ?_
    obtain ⟨p, -, rfl⟩ := List.mem_map.mp hx
    exact plain_payloadRecord T p
  have hsources : Plain T (.obj [
      ("engine", .obj (sourceRecord m.engineSourceCommit engineDistribution m.version)),
      ("subnet", .obj (sourceRecord m.subnetSourceCommit subnetDistribution m.version))]) := by
    refine plain_obj ?_ ?_
    · show List.Pairwise (· < ·) ["engine", "subnet"]
      decide
    · simp only [List.forall_mem_cons, plain_sourceRecord, true_and]
      exact fun p hp => absurd hp List.not_mem_nil
  refine plain_obj ?_ ?_
  · show List.Pairwise (· < ·) provenanceKeys
    decide
  · unfold provenanceDocument
    simp only [List.forall_mem_cons, plain_str, plain_int, hpayloads, hsources, true_and]
    exact fun p hp => absurd hp List.not_mem_nil

theorem readJson_provenanceBytes (payloads : List Payload) (m : Metadata) :
    readJson tools.text (provenanceBytes tools payloads m) =
      some (.obj (provenanceDocument tools payloads m)) := by
  have hplain := @plain_provenanceDocument tools tools.text payloads m
  unfold readJson provenanceBytes
  rw [decodeUtf8_encodeUtf8, Option.bind_some, loads_document hplain.printable, hplain.canon]

/-- the interpreter reads the text of the provenance -/
def Unlimited (tools : Tools) (data : Bytes) : Prop :=
  ∀ text, decodeUtf8 data = some text → tools.limits text = none

theorem loadsBytes_of_read {invalid : String} {data : Bytes} {j : Json}
    (hread : readJson tools.text data = some j) (h : Unlimited tools data) :
    loadsBytes tools invalid data = .ok j := by
  obtain ⟨text, hdecode, hloads⟩ := Option.bind_eq_some_iff.mp hread
  unfold loadsBytes
  rw [hdecode]
  dsimp only
  unfold loadJson
  rw [h text hdecode]
  dsimp only
  rw [hloads]

/-- the checks of the builder on the metadata -/
structure ValidMetadata (m : Metadata) : Prop where
  version : isVersion m.version = true
  epoch : 0 ≤ m.sourceDateEpoch ∧ m.sourceDateEpoch ≤ 2 ^ 31 - 1
  engineCommit : isHex 40 m.engineSourceCommit = true
  subnetCommit : isHex 40 m.subnetSourceCommit = true

theorem parseSource_written {commit : String} (label distribution version : String)
    (h : isHex 40 commit = true) :
    parseSource (.obj (sourceRecord commit distribution version)) label distribution version =
      .ok commit := by
  have hcommit : validateCommit commit (label ++ " source commit") = .ok () := require_of h _
  have hkeys : HasKeys (sourceRecord commit distribution version) sourceKeys :=
    hasKeys_of_keys_eq rfl
  unfold parseSource
  dsimp only
  rw [require_of hkeys, ok_bind,
    require_of ⟨Json.eqStr_str distribution, Json.eqStr_str version⟩, ok_bind]
  show (validateCommit commit (label ++ " source commit") >>= fun _ => Except.ok commit) = _
  rw [hcommit]
  rfl

/-- the metadata of a written provenance is read back -/
theorem statedProvenance_written {contents : Contents} {payloads : List Payload} {m : Metadata}
    (hm : ValidMetadata m)
    (hprovenance : Dict.get? contents provenanceName = some (provenanceBytes tools payloads m))
    (hchecksums : (Dict.get? contents checksumsName).isSome)
    (hlimits : Unlimited tools (provenanceBytes tools payloads m)) :
    statedProvenance tools contents = .ok (provenanceDocument tools payloads m, m) := by
  have hpresent : Dict.contains contents provenanceName = true ∧
      Dict.contains contents checksumsName = true := by
    refine ⟨?_, hchecksums⟩
    unfold Dict.contains
    rw [hprovenance]
    rfl
  have hraw : Dict.getD contents provenanceName [] = provenanceBytes tools payloads m := by
    unfold Dict.getD
    rw [hprovenance]
    rfl
  have hparse : parseProvenance tools (provenanceBytes tools payloads m) =
      .ok (provenanceDocument tools payloads m) := by
    have hkeys : HasKeys (provenanceDocument tools payloads m) provenanceKeys :=
      hasKeys_of_keys_eq rfl
    have hschema : (Obj.get (provenanceDocument tools payloads m) "schema_version").eqStr
        provenanceSchema = true := Json.eqStr_str provenanceSchema
    have hbuilder : (Obj.get (provenanceDocument tools payloads m) "builder").eqStr builderId =
        true := Json.eqStr_str builderId
    unfold parseProvenance
    rw [loadsBytes_of_read (readJson_provenanceBytes payloads m) hlimits, ok_bind]
    dsimp only
    rw [require_of hkeys, ok_bind, require_of hschema, ok_bind, require_of hbuilder]
    rfl
  have hversion : validateVersion tools m.version = .ok () := require_of hm.version _
  have hepoch : validateSourceDateEpoch m.sourceDateEpoch = .ok () := require_of hm.epoch _
  unfold statedProvenance
  rw [require_of hpresent, ok_bind, hraw, hparse, ok_bind]
  show (validateVersion tools m.version >>= fun _ => validateSourceDateEpoch m.sourceDateEpoch >>=
    fun _ => _) = _
  rw [hversion, ok_bind, hepoch, ok_bind]
  show (require _ _ >>= fun _ =>
    parseSource (.obj (sourceRecord m.engineSourceCommit engineDistribution m.version)) "engine"
      engineDistribution m.version >>= fun _ =>
    parseSource (.obj (sourceRecord m.subnetSourceCommit subnetDistribution m.version)) "subnet"
      subnetDistribution m.version >>= fun _ => _) = _
  rw [require_of (@hasKeys_of_keys_eq _ _ ["engine", "subnet"] rfl), ok_bind,
    parseSource_written _ _ _ hm.engineCommit, ok_bind, parseSource_written _ _ _ hm.subnetCommit]
  rfl

/-- a written record is read back -/
theorem parsePayloadRecord_written {roles : Dict String String} {p : Payload}
    (hpath : ValidPath tools p.path) (hrole : Dict.get? roles p.path = some p.role) :
    parsePayloadRecord tools roles (.obj (payloadRecord tools p)) =
      .ok ⟨p.path, p.role, (tools.sha256 p.data).text, p.data.length⟩ := by
  have hknown : (Dict.get? roles p.path).any (Json.eqStr (.str p.role)) = true := by
    rw [hrole]
    exact Json.eqStr_str p.role
  have hdigest : isHex 64 (tools.sha256 p.data).text = true := by
    unfold isHex
    rw [(tools.sha256 p.data).length_eq, (tools.sha256 p.data).hex]
    rfl
  have hsize : (0 : Int) ≤ p.data.length := Int.natCast_nonneg _
  have hgetD : Dict.getD roles p.path "" = p.role := by
    unfold Dict.getD
    rw [hrole]
    rfl
  have hkeys : HasKeys (payloadRecord tools p) payloadKeys := hasKeys_of_keys_eq rfl
  unfold parsePayloadRecord
  dsimp only
  rw [require_of hkeys, ok_bind]
  show (validateArchivePath tools p.path "provenance payload" >>= fun _ =>
    require ((Dict.get? roles p.path).any (Json.eqStr (.str p.role)) = true) _ >>= fun _ =>
    require (isHex 64 (tools.sha256 p.data).text = true) _ >>= fun _ =>
    require ((0 : Int) ≤ p.data.length) _ >>= fun _ => Except.ok
      (⟨p.path, Dict.getD roles p.path "", (tools.sha256 p.data).text, p.data.length⟩ :
        PayloadRecord)) = _
  rw [hpath, ok_bind, require_of hknown, ok_bind, require_of hdigest, ok_bind, require_of hsize,
    ok_bind, hgetD]

theorem parsePayloadRecords_written {contents : Contents} {m : Metadata}
    (hpaths : ∀ path ∈ payloadPaths m.version, ValidPath tools path) :
    parsePayloadRecords tools
        (provenanceDocument tools (containedPayloads contents m.version) m) m.version =
      .ok ((payloadPaths m.version).map (containedRecord tools contents m.version)) := by
  have hrecord : ∀ path ∈ payloadPaths m.version,
      parsePayloadRecord tools (expectedRoles m.version)
        (.obj (payloadRecord tools (containedPayload contents m.version path))) =
          .ok (containedRecord tools contents m.version path) := by
    intro path hpath
    have hmem : path ∈ Dict.keys (expectedRoles m.version) := by
      rw [payloadPaths_eq, ← expectedRoles_eq] at hpath
      exact hpath
    obtain ⟨role, hrole⟩ := Option.isSome_iff_exists.mp (Dict.get?_isSome_iff.mpr hmem)
    have hgetD : Dict.getD (expectedRoles m.version) path "" = role := by
      unfold Dict.getD
      rw [hrole]
      rfl
    unfold containedPayload containedRecord
    rw [hgetD]
    exact parsePayloadRecord_written (p := ⟨path, role, dataAt contents path⟩)
      (hpaths path hpath) hrole
  have hmap : ((containedPayloads contents m.version).map
      fun p => Json.obj (payloadRecord tools p)).mapM
        (parsePayloadRecord tools (expectedRoles m.version)) =
      .ok ((payloadPaths m.version).map (containedRecord tools contents m.version)) := by
    unfold containedPayloads
    rw [List.map_map, List.mapM_map]
    exact mapM_ok (containedRecord tools contents m.version) hrecord
  have hsame : ((payloadPaths m.version).map (containedRecord tools contents m.version)).map
      PayloadRecord.path = (Dict.keys (expectedRoles m.version)).insertionSort (· ≤ ·) := by
    rw [List.map_map]
    exact List.map_id _
  unfold parsePayloadRecords
  show (((containedPayloads contents m.version).map
    fun p => Json.obj (payloadRecord tools p)).mapM _ >>= _) = _
  rw [hmap, ok_bind, require_of hsame]
  rfl

/-! ## canonical members -/

theorem canonicalProvenance_written (payloads : List Payload) (m : Metadata) :
    CanonicalProvenance tools.text (provenanceBytes tools payloads m) :=
  isCanonical_of_write rfl (readJson_provenanceBytes payloads m)

/-- the lines contain no line breaks but their ends -/
theorem canonicalChecksums_written_iff {terminator : Terminator} {digest : String → HexDigest}
    {paths : List String} (hbreaks : ∀ path ∈ paths, ∀ c ∈ path.toList, isLineBreak c = false)
    (hne : paths ≠ []) :
    CanonicalChecksums (writtenChecksums terminator digest paths) ↔ terminator = .newline := by
  unfold CanonicalChecksums writtenChecksums
  rw [decodeUtf8_encodeUtf8]
  constructor
  · intro h
    cases terminator with
    | newline => rfl
    | returnNewline =>
      obtain ⟨path, paths, rfl⟩ := List.exists_cons_of_ne_nil hne
      have hmem : '\r' ∈ terminated .returnNewline
          (checksumLines (pathChecksums digest (path :: paths))) :=
        List.mem_append_left _ (List.mem_append_right _ List.mem_cons_self)
      exact absurd (h _ rfl '\r' hmem (by decide)) (by decide)
  · rintro rfl text htext c hc hbreak
    obtain rfl := Option.some.inj htext
    obtain ⟨line, hline, hc⟩ := List.mem_flatMap.mp hc
    rcases List.mem_append.mp hc with hc | hc
    · rw [checksumLines_unbroken hbreaks line hline c hc] at hbreak
      exact nomatch hbreak
    · exact List.mem_singleton.mp hc

end Release
end Dolores
