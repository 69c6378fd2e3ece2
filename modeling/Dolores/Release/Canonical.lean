import Dolores.Lib.Canonical
import Dolores.Release.Accepts
import Dolores.Release.Paths

/-!
# Canonical bundles (`build_release_bundle.py`)

The verifier renders the members that it read again, so that an accepted archive is what the
builder assembles exactly when the builder would write the same members.  The payloads are the
same by definition; the provenance and the checksums are parsed.

* `canon_document`           the document of the provenance is the builder's, but for its order;
* `canonicalProvenance_iff`  it is written as the builder writes it exactly when it is canonical;
* `checksums_lines`          the lines of the checksums are the builder's;
* `assembleArchive_iff`      the builder assembles the archive exactly when both members are
                             canonical;
* `releaseArchive_contained`   the checks of the builder are among those of the verifier.
-/

namespace Dolores
namespace Release
open Except JsonText

variable {tools : Tools}

/-! ## the inputs that a bundle states -/

/-- the bytes of the payload at a path -/
def dataAt (contents : Contents) (path : String) : Bytes :=
  Dict.getD contents (bundleMember path) []

theorem dataAt_of_get? {contents : Contents} {path : String} {data : Bytes}
    (h : Dict.get? contents (bundleMember path) = some data) : dataAt contents path = data := by
  unfold dataAt Dict.getD
  rw [h]
  exact Option.getD_some

/-- the payload files with these bytes, and the metadata -/
def inputsOf (data : String → Bytes) (m : Metadata) : Inputs :=
  let file (directory name : String) : InputFile :=
    ⟨name, name, .regular (data (directory ++ "/" ++ name))⟩
  { engineWheel := file "artifacts" (engineWheelName m.version)
    subnetWheel := file "artifacts" (subnetWheelName m.version)
    subnetSdist := file "artifacts" (subnetSdistName m.version)
    fixtureDir := .entries (fixtureNames.map (file fixtureRoot))
    metadata := m }

/-- the payload files of a bundle -/
def containedInputs (contents : Contents) (m : Metadata) : Inputs := inputsOf (dataAt contents) m

/-- they are the files at the paths of the payloads -/
theorem inputsOf_congr {data data' : String → Bytes} {m : Metadata}
    (h : ∀ path ∈ payloadPaths m.version, data path = data' path) :
    inputsOf data m = inputsOf data' m := by
  rw [payloadPaths_eq] at h
  simp only [listedRoles, Dict.keys, List.map_cons, List.map_nil, List.forall_mem_cons] at h
  obtain ⟨hengine, hsubnet, hsdist, htask, hwire, -⟩ := h
  have htask' : data (fixtureRoot ++ "/" ++ "task.yaml") =
      data' (fixtureRoot ++ "/" ++ "task.yaml") := by
    rw [String.append_assoc]
    exact htask
  have hwire' : data (fixtureRoot ++ "/" ++ "wire.json") =
      data' (fixtureRoot ++ "/" ++ "wire.json") := by
    rw [String.append_assoc]
    exact hwire
  unfold inputsOf fixtureNames
  dsimp only
  rw [List.map_cons, List.map_cons, List.map_nil, List.map_cons, List.map_cons, List.map_nil,
    show "artifacts" ++ "/" = "artifacts/" from rfl, hengine, hsubnet, hsdist, htask', hwire']

/-- the five payload files contained in an archive, and the metadata of its provenance -/
def statedInputs (tools : Tools) (archive : Bytes) : Option Inputs :=
  match openBundle tools archive with
  | .error _ => none
  | .ok (_, contents) =>
    match statedProvenance tools contents with
    | .error _ => none
    | .ok (_, m) => some (containedInputs contents m)

/-- the text of the provenance is `json.dumps(json.loads(text), indent=2, sort_keys=True) + "\n"` -/
def CanonicalProvenance (T : PyText) (data : Bytes) : Prop :=
  IsCanonical (readJson T) (fun j => some (encodeUtf8 (document T j))) data

/-- every line break of the checksums is a newline -/
def CanonicalChecksums (data : Bytes) : Prop :=
  ∀ text, decodeUtf8 data = some text → ∀ c ∈ text, isLineBreak c = true → c = '\n'

/-- both members that the verifier parses are written as the builder writes them -/
structure CanonicalMembers (T : PyText) (contents : Contents) : Prop where
  provenance : CanonicalProvenance T (Dict.getD contents provenanceName [])
  checksums : CanonicalChecksums (Dict.getD contents checksumsName [])

/-! ## the document -/

theorem hasKeys_of_keys_eq {V : Type} {o : Dict String V} {keys : List String}
    (h : Dict.keys o = keys) : HasKeys o keys :=
  ⟨fun _ hk => h ▸ hk, fun _ hk => h ▸ hk⟩

/-- objects of the same fields are sorted alike -/
theorem canon_eq_of_hasKeys {o o' : Obj} {keys : List String} (hn : (Dict.keys o).Nodup)
    (hn' : (Dict.keys o').Nodup) (h : HasKeys o keys) (h' : HasKeys o' keys)
    (hget : ∀ k ∈ keys, (Obj.get o k).canon = (Obj.get o' k).canon) :
    Json.canon (.obj o) = Json.canon (.obj o') := by
  rw [Json.canon_obj', Json.canon_obj']
  congr 1
  apply Dict.sorted_eq_of_perm
  · refine Dict.perm_of_get? ?_ ?_ fun k => ?_
    · rwa [Dict.keys_mapValues]
    · rwa [Dict.keys_mapValues]
    · rw [Dict.get?_mapValues, Dict.get?_mapValues]
      by_cases hk : k ∈ keys
      · obtain ⟨x, hx⟩ := Option.isSome_iff_exists.mp (Dict.get?_isSome_iff.mpr (h.2 k hk))
        obtain ⟨x', hx'⟩ := Option.isSome_iff_exists.mp (Dict.get?_isSome_iff.mpr (h'.2 k hk))
        have hsame := hget k hk
        unfold Obj.get at hsame
        rw [hx, hx'] at hsame
        rw [hx, hx']
        exact congrArg some hsame
      · have hnone : ∀ {o : Obj}, HasKeys o keys → Dict.get? o k = none := by
          intro o ho
          rw [← Option.not_isSome_iff_eq_none, Dict.get?_isSome_iff]
          exact fun hmem => hk (ho.1 k hmem)
        rw [hnone h, hnone h']
  · rwa [Dict.keys_mapValues]

/-- the record as the builder writes it -/
def PayloadRecord.toDict (r : PayloadRecord) : Obj := [
  ("path", .str r.path),
  ("role", .str r.role),
  ("sha256", .str r.sha256),
  ("size", .int r.size)]

theorem canon_record {roles : Dict String String} {value : Json} {r : PayloadRecord}
    (h : Records roles value r) (hd : DistinctKeys value) :
    value.canon = Json.canon (.obj r.toDict) := by
  obtain ⟨record, hvalue, hkeys, hpath, hrole, hsha, hsize⟩ := h.fields
  rw [hvalue] at hd ⊢
  refine canon_eq_of_hasKeys (distinctKeys_obj.mp hd).1 ?_ hkeys (hasKeys_of_keys_eq rfl) ?_
  · show List.Nodup payloadKeys
    decide
  · intro k hk
    simp only [payloadKeys, List.mem_cons, List.not_mem_nil, or_false] at hk
    rcases hk with rfl | rfl | rfl | rfl
    · rw [hpath]; rfl
    · rw [hrole]; rfl
    · rw [hsha]; rfl
    · rw [hsize]; rfl

theorem canonList_records {roles : Dict String String} {values : List Json}
    {records : List PayloadRecord} (h : List.Forall₂ (Records roles) values records)
    (hd : ∀ value ∈ values, DistinctKeys value) :
    Json.canonList values = Json.canonList (records.map fun r => .obj r.toDict) := by
  induction h with
  | nil => rfl
  | cons hr hrs ih =>
    obtain ⟨hvalue, hvalues⟩ := List.forall_mem_cons.mp hd
    rw [List.map_cons, Json.canonList, Json.canonList, canon_record hr hvalue, ih hvalues]

theorem canon_source {value : Json} {commit distribution version : String}
    (h : StatesSource value commit distribution version) (hd : DistinctKeys value) :
    value.canon = Json.canon (.obj (sourceRecord commit distribution version)) := by
  obtain ⟨source, hvalue, hkeys, hcommit, hdistribution, hversion⟩ := h
  rw [hvalue] at hd ⊢
  refine canon_eq_of_hasKeys (distinctKeys_obj.mp hd).1 ?_ hkeys (hasKeys_of_keys_eq rfl) ?_
  · show List.Nodup sourceKeys
    decide
  · intro k hk
    simp only [sourceKeys, List.mem_cons, List.not_mem_nil, or_false] at hk
    rcases hk with rfl | rfl | rfl
    · rw [hcommit]; rfl
    · rw [hdistribution]; rfl
    · rw [hversion]; rfl

theorem distinctKeys_get {o : Obj} (h : DistinctKeys (.obj o)) (k : String) :
    DistinctKeys (Obj.get o k) := by
  unfold Obj.get
  cases hk : Dict.get? o k with
  | none => simp [DistinctKeys]
  | some j => exact h.get hk

/-- the document of an accepted provenance is the builder's, but for the order of its keys -/
theorem canon_document {document : Obj} {m : Metadata} {payloads : List Payload}
    {values : List Json} (h : States tools document m) (hd : DistinctKeys (.obj document))
    (hvalues : Obj.get document "payloads" = .arr values)
    (hcanon : Json.canonList values =
      Json.canonList (payloads.map fun p => .obj (payloadRecord tools p))) :
    Json.canon (.obj document) = Json.canon (.obj (provenanceDocument tools payloads m)) := by
  obtain ⟨sources, hsources, hsourceKeys, hengine, hsubnet⟩ := h.sources
  have hsourcesDistinct : DistinctKeys (.obj sources) := hsources ▸ distinctKeys_get hd "sources"
  refine canon_eq_of_hasKeys (distinctKeys_obj.mp hd).1 ?_ h.keys (hasKeys_of_keys_eq rfl) ?_
  · show List.Nodup provenanceKeys
    decide
  · intro k hk
    simp only [provenanceKeys, List.mem_cons, List.not_mem_nil, or_false] at hk
    rcases hk with rfl | rfl | rfl | rfl | rfl | rfl
    · rw [h.builder]; rfl
    · have hpayloads : Obj.get (provenanceDocument tools payloads m) "payloads" =
          .arr (payloads.map fun p => .obj (payloadRecord tools p)) := rfl
      rw [hvalues, hpayloads, Json.canon, Json.canon, hcanon]
    · rw [h.schema]; rfl
    · rw [h.sourceDateEpoch]; rfl
    · rw [hsources]
      refine canon_eq_of_hasKeys (distinctKeys_obj.mp hsourcesDistinct).1 ?_ hsourceKeys
        (hasKeys_of_keys_eq rfl) ?_
      · show List.Nodup ["engine", "subnet"]
        decide
      · intro k hk
        simp only [List.mem_cons, List.not_mem_nil, or_false] at hk
        rcases hk with rfl | rfl
        · exact canon_source hengine (distinctKeys_get hsourcesDistinct _)
        · exact canon_source hsubnet (distinctKeys_get hsourcesDistinct _)
    · rw [h.version]; rfl

/-! ## the lines of the checksums -/

theorem splitLines_ne_nil {text line : List Char} (h : text ≠ []) : splitLines text line ≠ [] := by
  intro hnil
  have hmap := map_terminatedLines text line
  rw [hnil, List.map_eq_nil_iff] at hmap
  have hrejoined := rejoined_terminatedLines text line
  rw [hmap] at hrejoined
  exact h (List.append_eq_nil_iff.mp hrejoined.symm).2

/-- lines that end in newlines are restored by joining them with newlines -/
theorem join_splitLines {text : List Char} (line : List Char)
    (hbreaks : ∀ c ∈ text, isLineBreak c = true → c = '\n') (hlast : text.getLast? = some '\n') :
    newlineText.intercalate (splitLines text line) ++ newlineText = line.reverse ++ text := by
  induction text generalizing line with
  | nil => exact nomatch hlast
  | cons c cs ih =>
    have hrest : ∀ c' ∈ cs, isLineBreak c' = true → c' = '\n' :=
      fun c' hc' => hbreaks c' (List.mem_cons_of_mem c hc')
    by_cases hc : isLineBreak c = true
    · obtain rfl := hbreaks c List.mem_cons_self hc
      cases cs with
      | nil =>
        have hjoin : newlineText.intercalate (splitLines ['\n'] line) = line.reverse := by
          unfold splitLines
          rw [if_pos hc]
          exact List.append_nil _
        rw [hjoin]
        rfl
      | cons c' cs =>
        have hsplit : splitLines ('\n' :: c' :: cs) line =
            line.reverse :: splitLines (c' :: cs) [] := by
          conv_lhs => unfold splitLines
          rw [if_pos hc]
          exact if_neg fun h => absurd h.1 (by decide)
        have hjoin := ih [] hrest hlast
        obtain ⟨l, lines, hlines⟩ :=
          List.exists_cons_of_ne_nil (@splitLines_ne_nil _ [] (List.cons_ne_nil c' cs))
        rw [hlines] at hjoin
        rw [hsplit, hlines, intercalate_cons_cons, List.append_assoc, hjoin, List.append_assoc]
        rfl
    · cases cs with
      | nil =>
        obtain rfl := Option.some.inj hlast
        exact absurd rfl hc
      | cons c' cs =>
        have hsplit : splitLines (c :: c' :: cs) line = splitLines (c' :: cs) (c :: line) := by
          conv_lhs => unfold splitLines
          exact if_neg hc
        rw [hsplit, ih (c :: line) hrest hlast, List.reverse_cons, List.append_assoc]
        rfl

theorem mem_intercalate {lines : List (List Char)} {c : Char}
    (h : c ∈ newlineText.intercalate lines) : c = '\n' ∨ ∃ l ∈ lines, c ∈ l := by
  induction lines with
  | nil => exact absurd h List.not_mem_nil
  | cons l lines ih =>
    cases lines with
    | nil =>
      have hjoin : newlineText.intercalate [l] = l := List.append_nil l
      exact .inr ⟨l, List.mem_cons_self, hjoin ▸ h⟩
    | cons m lines =>
      rw [intercalate_cons_cons, List.mem_append, List.mem_append] at h
      rcases h with (h | h) | h
      · exact .inr ⟨l, List.mem_cons_self, h⟩
      · exact .inl (List.mem_singleton.mp h)
      · rcases ih h with h | ⟨l', hl', hc⟩
        · exact .inl h
        · exact .inr ⟨l', List.mem_cons_of_mem l hl', hc⟩

/-- the checksums are the joined lines exactly when every line break is a newline -/
theorem canonicalChecksums_iff {data : Bytes} {text : List Char}
    (hdecode : decodeUtf8 data = some text) (hends : endsInNewline text = true) :
    CanonicalChecksums data ↔
      encodeUtf8 (newlineText.intercalate (splitLines text []) ++ newlineText) = data := by
  have hlast : text.getLast? = some '\n' := (endsInNewline_iff text).mp hends
  constructor
  · intro h
    rw [join_splitLines [] (h text hdecode) hlast]
    exact encodeUtf8_of_decode hdecode
  · intro h text' hdecode' c hc hbreak
    obtain rfl := Option.some.inj (hdecode.symm.trans hdecode')
    rw [← encodeUtf8_of_decode hdecode] at h
    rw [← encodeUtf8_injective h, List.mem_append] at hc
    rcases hc with hc | hc
    · rcases mem_intercalate hc with hc | ⟨l, hl, hcl⟩
      · exact hc
      · rw [← map_terminatedLines] at hl
        obtain ⟨p, hp, rfl⟩ := List.mem_map.mp hl
        have hended := (wellEnded_terminatedLines text [] fun _ hc =>
          absurd hc List.not_mem_nil).1 p hp
        rw [hended.text c hcl] at hbreak
        exact nomatch hbreak
    · exact List.mem_singleton.mp hc

/-! ## the payloads of an accepted bundle -/

def containedPayload (contents : Contents) (version path : String) : Payload :=
  ⟨path, Dict.getD (expectedRoles version) path "", dataAt contents path⟩

/-- the record that the builder writes for the payload at a path -/
def containedRecord (tools : Tools) (contents : Contents) (version path : String) :
    PayloadRecord :=
  ⟨path, Dict.getD (expectedRoles version) path "", (tools.sha256 (dataAt contents path)).text,
    (dataAt contents path).length⟩

/-- the payloads in the order of their paths -/
def containedPayloads (contents : Contents) (version : String) : List Payload :=
  (payloadPaths version).map (containedPayload contents version)

theorem sortedByPath_map {f : String → Payload} (hf : ∀ path, (f path).path = path)
    (paths : List String) :
    sortedByPath (paths.map f) = (paths.insertionSort (· ≤ ·)).map f := by
  unfold sortedByPath
  refine (List.map_insertionSort (· ≤ ·) _ f paths fun a _ b _ => ?_).symm
  rw [hf, hf]

theorem sortedByPath_contained (contents : Contents) (version : String) :
    sortedByPath (containedPayloads contents version) = containedPayloads contents version := by
  unfold containedPayloads
  rw [sortedByPath_map fun _ => rfl]
  exact congrArg (List.map _) (List.Pairwise.insertionSort_eq (List.pairwise_insertionSort _ _))

theorem forall_right_of_forall₂ {α β : Type} {R : α → β → Prop} {P : β → Prop} {l : List α}
    {l' : List β} (h : List.Forall₂ R l l') (hR : ∀ a b, R a b → P b) : ∀ b ∈ l', P b := by
  induction h with
  | nil => exact fun b hb => absurd hb List.not_mem_nil
  | cons hab _ ih => exact List.forall_mem_cons.mpr ⟨hR _ _ hab, ih⟩

section
variable {archive : Bytes} {members : List TarMember} {contents : Contents} {document : Obj}
  {m : Metadata} {records : List PayloadRecord}

theorem records_eq (hv : Verified tools archive members contents document m records) :
    records = (payloadPaths m.version).map (containedRecord tools contents m.version) := by
  obtain ⟨values, -, hall, hpaths⟩ := parsePayloadRecords_ok hv.parsed
  have hrole := forall_right_of_forall₂ hall fun _ _ h => h.role
  have hrecord : ∀ r ∈ records, r = containedRecord tools contents m.version r.path := by
    intro r hr
    obtain ⟨hsize, hsha⟩ := checkPayload_iff.mp (of_forM_ok hv.payloads r hr)
    have hgetD : Dict.getD (expectedRoles m.version) r.path "" = r.role := by
      unfold Dict.getD
      rw [hrole r hr]
      rfl
    unfold containedRecord dataAt
    rw [hgetD, ← hsha, ← hsize]
  unfold payloadPaths
  rw [← hpaths, List.map_map]
  exact (List.map_id records).symm.trans (List.map_congr_left hrecord)

theorem paths_eq (hv : Verified tools archive members contents document m records) :
    records.map PayloadRecord.path = payloadPaths m.version := by
  obtain ⟨_, -, -, hpaths⟩ := parsePayloadRecords_ok hv.parsed
  exact hpaths

/-- the provenance is canonical exactly when it is what the builder writes -/
theorem canonicalProvenance_iff
    (hv : Verified tools archive members contents document m records) :
    CanonicalProvenance tools.text (dataAt contents provenancePath) ↔
      provenanceBytes tools (containedPayloads contents m.version) m =
        dataAt contents provenancePath := by
  obtain ⟨raw, _, hraw, -, hread, hstates⟩ := statedProvenance_ok hv.stated
  have hdata : dataAt contents provenancePath = raw := dataAt_of_get? hraw
  have hdistinct : DistinctKeys (.obj document) := by
    obtain ⟨text, -, hloads⟩ := Option.bind_eq_some_iff.mp hread
    exact distinctKeys_loads hloads
  obtain ⟨values, hvalues, hall, -⟩ := parsePayloadRecords_ok hv.parsed
  have hvaluesDistinct : ∀ value ∈ values, DistinctKeys value :=
    distinctKeys_arr.mp (hvalues ▸ distinctKeys_get hdistinct "payloads")
  have hlist := canonList_records hall hvaluesDistinct
  rw [records_eq hv, List.map_map] at hlist
  have hcanon := @canon_document _ _ _ (containedPayloads contents m.version) _ hstates
    hdistinct hvalues (by rw [hlist, containedPayloads, List.map_map]; rfl)
  have hwrite : provenanceBytes tools (containedPayloads contents m.version) m =
      encodeUtf8 (JsonText.document tools.text (.obj document)) := by
    unfold provenanceBytes JsonText.document
    rw [hcanon]
  rw [hdata]
  unfold CanonicalProvenance
  rw [isCanonical_iff hread (congrArg some hwrite)]
  exact Option.some_inj

/-! ### the checksums -/

theorem checksums_lines (hv : Verified tools archive members contents document m records) :
    ∃ text, decodeUtf8 (dataAt contents checksumsPath) = some text ∧ endsInNewline text = true ∧
      splitLines text [] = (checksumPaths m.version).map fun path =>
        checksumText (tools.sha256 (dataAt contents path)).text path := by
  obtain ⟨checksums, hparse, hkeys, hsame⟩ := checkChecksums_ok hv.checksums
  obtain ⟨text, hdecode, hends, hlines, hnodup, hsorted⟩ := parseChecksums_ok hparse
  rw [paths_eq hv] at hkeys
  have hall := checksumPaths_sorted m.version
  have hperm : (Dict.keys checksums).Perm (checksumPaths m.version) :=
    (List.perm_ext_iff_of_nodup hnodup (hall.imp fun h => ne_of_lt h)).mpr
      fun path => ⟨hkeys.1 path, hkeys.2 path⟩
  have hpaths : Dict.keys checksums = checksumPaths m.version := by
    have hids : ((Dict.keys checksums).map id).Nodup := (List.map_id _).symm ▸ hnodup
    rw [hsorted]
    exact (Dict.insertionSort_eq_of_perm id hperm hids).trans
      (List.Pairwise.insertionSort_eq (hall.imp fun h => le_of_lt h))
  refine ⟨text, hdecode, hends, ?_⟩
  rw [hlines, ← hpaths]
  unfold checksumLines Dict.keys
  rw [List.map_map]
  refine List.map_congr_left fun p hp => ?_
  rw [hsame p hp]
  rfl

/-- once the provenance is the builder's, the checksums are canonical exactly when they are -/
theorem canonicalChecksums_iff_eq
    (hv : Verified tools archive members contents document m records)
    (hprovenance : provenanceBytes tools (containedPayloads contents m.version) m =
      dataAt contents provenancePath) :
    CanonicalChecksums (dataAt contents checksumsPath) ↔
      checksumsBytes tools (containedPayloads contents m.version ++ [⟨provenancePath, "provenance",
        provenanceBytes tools (containedPayloads contents m.version) m⟩]) =
          dataAt contents checksumsPath := by
  obtain ⟨text, hdecode, hends, hlines⟩ := checksums_lines hv
  let payload (path : String) : Payload :=
    if path = provenancePath then ⟨path, "provenance", dataAt contents path⟩
    else containedPayload contents m.version path
  have hpath : ∀ path, (payload path).path = path := by
    intro path
    dsimp only [payload]
    split <;> rfl
  have hdata : ∀ path, (payload path).data = dataAt contents path := by
    intro path
    dsimp only [payload]
    split <;> rfl
  have hpayloads : containedPayloads contents m.version ++ [⟨provenancePath, "provenance",
      dataAt contents provenancePath⟩] =
        (checksumPaths m.version).map payload := by
    have hprovenancePayload : payload provenancePath =
        ⟨provenancePath, "provenance", dataAt contents provenancePath⟩ := if_pos rfl
    have hothers : (payloadPaths m.version).map payload =
        containedPayloads contents m.version := by
      refine List.map_congr_left fun path hmem => ?_
      have hne : path ≠ provenancePath := by
        intro heq
        rw [heq] at hmem
        exact provenancePath_not_mem m.version hmem
      exact if_neg hne
    unfold checksumPaths
    rw [List.map_append, List.map_singleton, hprovenancePayload, hothers]
  have hsorted : (checksumPaths m.version).insertionSort (· ≤ ·) = checksumPaths m.version :=
    List.Pairwise.insertionSort_eq ((checksumPaths_sorted m.version).imp fun h => le_of_lt h)
  rw [canonicalChecksums_iff hdecode hends, hlines, hprovenance, hpayloads]
  unfold checksumsBytes
  dsimp only
  rw [sortedByPath_map hpath, hsorted, List.map_map]
  have hline : ((fun p : Payload => checksumText (tools.sha256 p.data).text p.path) ∘ payload) =
      fun path => checksumText (tools.sha256 (dataAt contents path)).text path := by
    funext path
    show checksumText (tools.sha256 (payload path).data).text (payload path).path = _
    rw [hdata, hpath]
  rw [hline]
  rfl

/-! ### the members -/

theorem provenanceName_ne : provenanceName ≠ checksumsName := by
  unfold provenanceName checksumsName bundleMember
  rw [joinPath_of_named safePath_bundleRoot.named safePath_provenance.named,
    joinPath_of_named safePath_bundleRoot.named safePath_checksums.named]
  intro h
  exact absurd ((String.append_right_inj _).mp h) (by decide)

theorem get?_bundleMembers (payloads : List Payload) (provenance checksums : Bytes) :
    Dict.get? (bundleMembers payloads provenance checksums) provenanceName = some provenance ∧
      Dict.get? (bundleMembers payloads provenance checksums) checksumsName = some checksums := by
  have hget : ∀ name, Dict.get? (bundleMembers payloads provenance checksums) name =
      Dict.get? ((checksumsName, checksums) :: (provenanceName, provenance) ::
        (payloads.map fun p => (bundleMember p.path, p.data)).reverse) name := by
    intro name
    unfold bundleMembers Dict.ofPairs
    rw [Dict.foldl_set_get?, Dict.get?_nil, Option.or_none, List.reverse_append]
    rfl
  rw [hget, hget, Dict.get?_cons, if_neg provenanceName_ne, Dict.get?_cons, if_pos rfl,
    Dict.get?_cons, if_pos rfl]
  exact ⟨rfl, rfl⟩

/-- the builder's members are those of the bundle once the two that it writes are -/
theorem sorted_bundleMembers (hv : Verified tools archive members contents document m records) :
    Dict.sorted (bundleMembers (containedPayloads contents m.version)
      (dataAt contents provenancePath) (dataAt contents checksumsPath)) =
        Dict.sorted contents := by
  have hset : HasKeys contents ((payloadPaths m.version).map bundleMember ++
      [provenanceName, checksumsName]) := by
    have hmembers := hv.memberSet
    unfold checkMemberSet at hmembers
    rw [require_ok] at hmembers
    rw [← paths_eq hv, List.map_map]
    exact hmembers
  have hpairs : bundleMembers (containedPayloads contents m.version)
      (dataAt contents provenancePath) (dataAt contents checksumsPath) =
        Dict.ofPairs (((payloadPaths m.version).map bundleMember ++
          [provenanceName, checksumsName]).map fun name => (name, Dict.getD contents name [])) := by
    unfold bundleMembers containedPayloads
    rw [List.map_append, List.map_map, List.map_map]
    rfl
  have hnodup := openBundle_ok hv.opened
  rw [hpairs]
  refine Dict.sorted_eq_of_perm (Dict.perm_of_get? (Dict.nodup_ofPairs _) hnodup fun name => ?_)
    (Dict.nodup_ofPairs _)
  rw [Dict.ofPairs_map, Dict.get?_map_keys]
  by_cases hname : name ∈ Dict.keys contents
  · obtain ⟨data, hdata⟩ := Option.isSome_iff_exists.mp (Dict.get?_isSome_iff.mpr hname)
    rw [if_pos (Dict.mem_firstAppearances.mpr (hset.1 name hname)), hdata]
    unfold Dict.getD
    rw [hdata]
    rfl
  · rw [if_neg fun h => hname (hset.2 name (Dict.mem_firstAppearances.mp h)), eq_comm,
      ← Option.not_isSome_iff_eq_none, Dict.get?_isSome_iff]
    exact hname

theorem renderTarGz_ok {ms : Contents} {epoch : Int}
    (h : renderTarGz tools ms epoch = .ok archive) :
    tools.render (Dict.sorted ms) epoch = .ok archive := by
  obtain ⟨_, -, h⟩ := bind_ok h
  cases hrender : tools.render (Dict.sorted ms) epoch with
  | ok archive' =>
    rw [hrender] at h
    rw [Except.ok.inj h]
  | error exc =>
    rw [hrender] at h
    exact nomatch h

theorem renderTarGz_congr {ms ms' : Contents} (h : Dict.sorted ms = Dict.sorted ms')
    (epoch : Int) : renderTarGz tools ms epoch = renderTarGz tools ms' epoch := by
  unfold renderTarGz
  dsimp only
  rw [h]

/-- the builder assembles the archive of an accepted bundle from its payloads exactly when the
provenance and the checksums in it are canonical -/
theorem assembleArchive_iff (hv : Verified tools archive members contents document m records) :
    assembleArchive tools (containedPayloads contents m.version) m = .ok archive ↔
      CanonicalMembers tools.text contents := by
  obtain ⟨raw, sums, hraw, hsums, -, -⟩ := statedProvenance_ok hv.stated
  have hprovenance := canonicalProvenance_iff hv
  unfold assembleArchive
  dsimp only
  rw [sortedByPath_contained]
  constructor
  · intro h
    obtain ⟨hmembers, -⟩ :=
      tools.render_injective (renderTarGz_ok h) (renderTarGz_ok hv.rendered)
    have hsame := fun name => congrArg (fun d : Contents => Dict.get? d name) hmembers
    simp only [Dict.get?_sorted] at hsame
    have hgets := get?_bundleMembers (containedPayloads contents m.version)
      (provenanceBytes tools (containedPayloads contents m.version) m)
      (checksumsBytes tools (containedPayloads contents m.version ++ [⟨provenancePath,
        "provenance", provenanceBytes tools (containedPayloads contents m.version) m⟩]))
    have hraw' : provenanceBytes tools (containedPayloads contents m.version) m =
        dataAt contents provenancePath :=
      (dataAt_of_get? ((hsame provenanceName).symm.trans hgets.1)).symm
    have hsums' := (dataAt_of_get? ((hsame checksumsName).symm.trans hgets.2)).symm
    exact ⟨hprovenance.mpr hraw', (canonicalChecksums_iff_eq hv hraw').mpr hsums'⟩
  · intro h
    have hraw' := hprovenance.mp h.provenance
    have hsums' := (canonicalChecksums_iff_eq hv hraw').mp h.checksums
    rw [hsums', hraw', renderTarGz_congr (sorted_bundleMembers hv)]
    exact hv.rendered

/-! ## the builder on the inputs of an accepted bundle -/

theorem statedInputs_of_verified
    (hv : Verified tools archive members contents document m records) :
    statedInputs tools archive = some (containedInputs contents m) := by
  unfold statedInputs
  rw [hv.opened]
  dsimp only
  rw [hv.stated]


theorem containedPayload_of_mem {version path role : String}
    (h : (path, role) ∈ listedRoles version) :
    containedPayload contents version path = ⟨path, role, dataAt contents path⟩ := by
  unfold containedPayload Dict.getD
  rw [expectedRoles_eq, Dict.get?_of_mem (nodup_listedRoles version) h]
  rfl

/-- the builder's payloads, as it loads them, are sorted to those of the bundle -/
theorem sortedByPath_listed (contents : Contents) (version : String) :
    sortedByPath ((listedRoles version).map fun p => ⟨p.1, p.2, dataAt contents p.1⟩) =
      containedPayloads contents version := by
  have hlisted : ((listedRoles version).map fun p => (⟨p.1, p.2, dataAt contents p.1⟩ : Payload)) =
      (Dict.keys (expectedRoles version)).map (containedPayload contents version) := by
    rw [expectedRoles_eq, Dict.keys, List.map_map]
    exact List.map_congr_left fun p hp => (containedPayload_of_mem hp).symm
  rw [hlisted, sortedByPath_map fun _ => rfl]
  rfl

theorem loadArtifact_contained (label name role : String) :
    loadArtifact tools label
      ⟨name, name, .regular (dataAt contents ("artifacts" ++ "/" ++ name))⟩ name role =
        .ok ⟨joinPath "artifacts" name, role, dataAt contents ("artifacts" ++ "/" ++ name)⟩ := by
  unfold loadArtifact requireRegularFile
  rw [ok_bind, require_of rfl]
  rfl

/-- a payload is where the verifier looks for it -/
theorem dataAt_joined {directory name : String} (h : Named directory) (h' : Named name) :
    Dict.getD contents (joinPath (joinPath bundleRoot directory) name) [] =
      dataAt contents (directory ++ "/" ++ name) := by
  unfold dataAt bundleMember
  rw [joinPath_joinPath safePath_bundleRoot.named h h']

theorem loadFixturePayloads_contained
    (h : validateFixtureSemantics tools (dataAt contents (fixtureRoot ++ "/task.yaml"))
      (dataAt contents (fixtureRoot ++ "/wire.json")) = .ok ()) :
    loadFixturePayloads tools (containedInputs contents m).fixtureDir =
      .ok [⟨fixtureRoot ++ "/task.yaml", "honest_fixture",
          dataAt contents (fixtureRoot ++ "/task.yaml")⟩,
        ⟨fixtureRoot ++ "/wire.json", "honest_fixture",
          dataAt contents (fixtureRoot ++ "/wire.json")⟩] := by
  let file (name : String) : InputFile :=
    ⟨name, name, .regular (dataAt contents (fixtureRoot ++ "/" ++ name))⟩
  let payload (name : String) : Payload :=
    ⟨fixtureRoot ++ name, "honest_fixture", dataAt contents (fixtureRoot ++ name)⟩
  have hsorted : ([file "task.yaml", file "wire.json"].insertionSort
      fun p q => p.name ≤ q.name) = [file "task.yaml", file "wire.json"] := by
    apply List.Pairwise.insertionSort_eq
    rw [List.pairwise_pair]
    show "task.yaml" ≤ "wire.json"
    decide
  have hnames : [file "task.yaml", file "wire.json"].map InputFile.name = fixtureNames := rfl
  have hload : ∀ name, Named name →
      (requireRegularFile (file name) ("honest fixture " ++ (file name).name) >>= fun data =>
        Except.ok (⟨joinPath fixtureRoot (file name).name, "honest_fixture", data⟩ : Payload)) =
          .ok (payload ("/" ++ name)) := by
    intro name hname
    show Except.ok (⟨joinPath fixtureRoot name, "honest_fixture", _⟩ : Payload) = _
    rw [joinPath_of_named safePath_fixtureRoot.named hname, String.append_assoc]
  show loadFixturePayloads tools (.entries [file "task.yaml", file "wire.json"]) = _
  unfold loadFixturePayloads
  dsimp only
  rw [hsorted, require_of hnames, ok_bind, List.mapM_cons, hload _ safePath_taskYaml.named,
    ok_bind, List.mapM_cons, hload _ safePath_wireJson.named, ok_bind, List.mapM_nil]
  show (validateFixtureSemantics tools (payload "/task.yaml").data (payload "/wire.json").data >>=
    fun _ => Except.ok [payload "/task.yaml", payload "/wire.json"]) = _
  rw [h]
  rfl

/-- the checks of the artifacts and of the fixture, on the payloads at their paths -/
structure ArtifactsChecked (tools : Tools) (contents : Contents) (m : Metadata) : Prop where
  engineWheel : validateWheelBytes tools
    (dataAt contents ("artifacts" ++ "/" ++ engineWheelName m.version))
    (engineWheelName m.version) engineDistribution m.version = .ok ()
  subnetWheel : validateWheelBytes tools
    (dataAt contents ("artifacts" ++ "/" ++ subnetWheelName m.version))
    (subnetWheelName m.version) subnetDistribution m.version = .ok ()
  subnetSdist : validateSdistBytes tools
    (dataAt contents ("artifacts" ++ "/" ++ subnetSdistName m.version))
    (subnetSdistName m.version) subnetDistribution m.version m.sourceDateEpoch = .ok ()
  fixture : validateFixtureSemantics tools (dataAt contents (fixtureRoot ++ "/task.yaml"))
    (dataAt contents (fixtureRoot ++ "/wire.json")) = .ok ()

theorem checkArtifacts_iff (h : isVersion m.version = true) :
    checkArtifacts tools contents m = .ok () ↔ ArtifactsChecked tools contents m := by
  unfold checkArtifacts
  dsimp only
  rw [dataAt_joined safePath_artifacts.named (safeName_engineWheel h).path.named,
    dataAt_joined safePath_artifacts.named (safeName_subnetWheel h).path.named,
    dataAt_joined safePath_artifacts.named (safeName_subnetSdist h).path.named,
    dataAt_joined safePath_fixtureRoot.named safePath_taskYaml.named,
    dataAt_joined safePath_fixtureRoot.named safePath_wireJson.named]
  constructor
  · intro h
    obtain ⟨_, hengine, h⟩ := bind_ok h
    obtain ⟨_, hsubnet, h⟩ := bind_ok h
    obtain ⟨_, hsdist, hfixture⟩ := bind_ok h
    exact ⟨hengine, hsubnet, hsdist, hfixture⟩
  · intro h
    rw [h.engineWheel, ok_bind, h.subnetWheel, ok_bind, h.subnetSdist, ok_bind]
    exact h.fixture

/-- the checks of the builder are among those of the verifier -/
theorem releaseArchive_contained
    (hv : Verified tools archive members contents document m records) :
    releaseArchive tools (containedInputs contents m) =
      assembleArchive tools (containedPayloads contents m.version) m := by
  obtain ⟨_, _, -, -, -, hstates⟩ := statedProvenance_ok hv.stated
  have hversion : isVersion m.version = true := require_ok.mp hstates.versionValid
  have hchecked := (checkArtifacts_iff hversion).mp hv.artifacts
  have hfixture := loadFixturePayloads_contained (m := m) hchecked.fixture
  unfold releaseArchive
  dsimp only [containedInputs, inputsOf] at hfixture ⊢
  rw [hstates.versionValid, ok_bind, hstates.epochValid, ok_bind, hstates.engineValid, ok_bind,
    hstates.subnetValid, ok_bind, loadArtifact_contained, ok_bind, loadArtifact_contained, ok_bind,
    loadArtifact_contained, ok_bind]
  dsimp only
  rw [hchecked.engineWheel, ok_bind, hchecked.subnetWheel, ok_bind, hchecked.subnetSdist, ok_bind,
    hfixture, ok_bind,
    joinPath_of_named safePath_artifacts.named (safeName_engineWheel hversion).path.named,
    joinPath_of_named safePath_artifacts.named (safeName_subnetWheel hversion).path.named,
    joinPath_of_named safePath_artifacts.named (safeName_subnetSdist hversion).path.named]
  have hsorted := (sortedByPath_listed contents m.version).trans
    (sortedByPath_contained contents m.version).symm
  unfold assembleArchive
  dsimp only
  rw [← hsorted]
  rfl

end

end Release
end Dolores
