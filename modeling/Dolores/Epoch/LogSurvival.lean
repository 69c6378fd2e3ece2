import Dolores.Epoch.LogFile
import Dolores.Py.JsonAscii

/-!
# The submission log after any crashes

A session repairs the log and appends records; the last append may be cut off at any byte.

* `loadsLine_recordBytes`, `loadsLine_cut`: the bytes of a record, and of a part of it.
* `Holds`: the file holds the bytes of complete records, then a part of one more.
* `session_holds`, `runSessions_holds`: a session keeps that, and so does a run of sessions.
-/

namespace Dolores
namespace LogFile
open JsonText

section
variable (T : PyText)

/-- a record `json.dumps` writes: distinct keys, and floats whose text reads back -/
def Writable (record : Obj) : Prop := Printable T (.obj record)

/-! ## sessions -/

/-- the records a process appends, and the last append with the bytes of it that were written -/
structure Session where
  records : List Obj
  cut : Option (Obj × Nat)

/-- one process: the repair, the appends, and the append it is cut off in -/
def session (file : Option Bytes) (s : Session) : Except Exn (Option Bytes) := do
  let repaired ← repairJsonlTail T file
  let appended := s.records.foldl (appendJsonlFsync T) repaired.2
  match s.cut with
  | none => return appended
  | some (payload, count) => return some (appended.getD [] ++ (lineBytes T payload).take count)

def runSessions (file : Option Bytes) (sessions : List Session) : Except Exn (Option Bytes) :=
  sessions.foldlM (session T) file

/-- the records of a session whose JSON text was completely written -/
def Session.written (s : Session) : List Obj :=
  s.records ++ match s.cut with
    | none => []
    | some (payload, count) => if (recordBytes T payload).length ≤ count then [payload] else []

/-- every record of the session can be written -/
def Session.Writable (s : Session) : Prop :=
  (∀ record ∈ s.records, LogFile.Writable T record) ∧
    ∀ payload count, s.cut = some (payload, count) → LogFile.Writable T payload

end

/-! ## the bytes of a record -/

section
variable {T : PyText}

theorem asciiText_gap : AsciiText [' '] := by
  apply asciiText_of_all
  decide

theorem blank_gap : ∀ c ∈ [' '], isBlank c = true := by
  apply List.all_eq_true.mp
  decide

theorem printable_record {record : Obj} (h : Writable T record) :
    Printable T (.obj record.canon) := by
  rw [← Json.canon_obj']
  exact printable_canon _ h

theorem recordBytes_eq {record : Obj} (h : Writable T record) :
    recordBytes T record = (text T [' '] (.obj record.canon)).map asciiByte := by
  unfold recordBytes
  rw [Json.canon_obj']
  exact encodeUtf8_ascii fun c hc => (text_ascii asciiText_gap _ (printable_record h) c hc).2

theorem newline_not_mem {record : Obj} (h : Writable T record) :
    newline ∉ recordBytes T record := by
  rw [recordBytes_eq h]
  intro hmem
  obtain ⟨c, hc, hbyte⟩ := List.mem_map.mp hmem
  have hbounds := text_ascii asciiText_gap _ (printable_record h) c hc
  have hnat := congrArg UInt8.toNat hbyte
  unfold asciiByte at hnat
  rw [UInt32.toNat_toUInt8] at hnat
  have hval : c.val.toNat = c.toNat := rfl
  have hten : newline.toNat = 10 := rfl
  omega

/-- the first bytes of a record decode to the first characters of its text -/
theorem decode_take {record : Obj} (h : Writable T record) (count : Nat) :
    decodeUtf8 ((recordBytes T record).take count) =
      some ((text T [' '] (.obj record.canon)).take count) := by
  have hascii : ∀ c ∈ (text T [' '] (.obj record.canon)).take count, c.toNat < 128 := by
    intro c hc
    exact (text_ascii asciiText_gap _ (printable_record h) c (List.mem_of_mem_take hc)).2
  rw [recordBytes_eq h, ← List.map_take, ← encodeUtf8_ascii hascii, decodeUtf8_encodeUtf8]

theorem loadsLine_recordBytes {record : Obj} (h : Writable T record) :
    loadsLine T (recordBytes T record) = some (.obj record.canon) := by
  have hdecode := decode_take h (text T [' '] (.obj record.canon)).length
  have hlength : (recordBytes T record).length = (text T [' '] (.obj record.canon)).length := by
    rw [recordBytes_eq h, List.length_map]
  rw [List.take_length, ← hlength, List.take_length] at hdecode
  unfold loadsLine
  rw [hdecode]
  exact loads_text blank_gap (printable_record h)

/-- a part of a record is not a JSON text -/
theorem loadsLine_cut {record : Obj} (h : Writable T record) {count : Nat}
    (hcount : count < (recordBytes T record).length) :
    loadsLine T ((recordBytes T record).take count) = none := by
  rw [recordBytes_eq h, List.length_map] at hcount
  unfold loadsLine
  rw [decode_take h]
  refine loads_prefix blank_gap (printable_record h) (List.take_append_drop count _) ?_
  intro hnil
  have hlength := congrArg List.length hnil
  rw [List.length_drop, List.length_nil] at hlength
  omega

/-! ## what a file holds -/

variable (T) in
/-- the bytes of complete records -/
def recordLines (records : List Obj) : Bytes := terminate (records.map (recordBytes T))

variable (T) in
/-- the file holds the records, terminated, and a part of one more, which is among the records
that are read if it is complete -/
inductive Holds : Option Bytes → List Obj → Prop
  | absent : Holds none []
  | closed (records : List Obj) (h : ∀ record ∈ records, Writable T record) :
      Holds (some (recordLines T records)) records
  | torn (records : List Obj) (payload : Obj) (count : Nat)
      (h : ∀ record ∈ records, Writable T record) (hpayload : Writable T payload)
      (hpos : 0 < count) (hcount : count < (recordBytes T payload).length) :
      Holds (some (recordLines T records ++ (recordBytes T payload).take count)) records
  | unterminated (records : List Obj) (payload : Obj)
      (h : ∀ record ∈ records, Writable T record) (hpayload : Writable T payload) :
      Holds (some (recordLines T records ++ recordBytes T payload)) (records ++ [payload])

theorem newline_not_mem_lines {records : List Obj} (h : ∀ record ∈ records, Writable T record) :
    ∀ line ∈ records.map (recordBytes T), newline ∉ line := by
  intro line hline
  obtain ⟨record, hrecord, heq⟩ := List.mem_map.mp hline
  rw [← heq]
  exact newline_not_mem (h record hrecord)

theorem classify_records {records : List Obj} (h : ∀ record ∈ records, Writable T record) :
    (records.map (recordBytes T)).map (classify T) =
      (records.map Obj.canon).map fun row => Line.value (.obj row) := by
  rw [List.map_map, List.map_map]
  refine List.map_congr_left fun record hrecord => ?_
  exact classify_of_loads (loadsLine_recordBytes (h record hrecord))

theorem toOption_ok {α : Type} {x : Except Exn α} {a : α} (h : x.toOption = some a) :
    x = .ok a := by
  cases x with
  | error e => exact nomatch h
  | ok b => rw [Option.some.inj h]

theorem reads_closed {records : List Obj} (h : ∀ record ∈ records, Writable T record) :
    readJsonlToleratingTornFinal T (recordLines T records) = .ok (records.map Obj.canon) := by
  have hlog := logOf_closed (T := T) (newline_not_mem_lines h)
  rw [classify_records h] at hlog
  apply toOption_ok
  unfold recordLines
  rw [readJsonl_logOf, hlog]
  unfold readJsonl
  rw [foldlM_readLine_rows]
  rfl

theorem reads_torn {records : List Obj} (h : ∀ record ∈ records, Writable T record) {tail : Bytes}
    (htail : newline ∉ tail) (hne : tail ≠ []) (hload : loadsLine T tail = none) :
    readJsonlToleratingTornFinal T (recordLines T records ++ tail) =
      .ok (records.map Obj.canon) := by
  have hlog := logOf_lines (T := T) (newline_not_mem_lines h) htail
  have hopen : ¬ tail.isEmpty = true := by
    rw [List.isEmpty_iff]
    exact hne
  rw [if_neg hopen, classify_records h] at hlog
  apply toOption_ok
  unfold recordLines
  rw [readJsonl_logOf, hlog]
  unfold readJsonl
  rw [foldlM_readLine_rows, Except.ok_bind]
  by_cases hspace : tail.all isSpaceByte = true
  · rw [classify_blank hspace]
    rfl
  · rw [classify_bad hspace hload]
    rfl

theorem reads_unterminated {records : List Obj} (h : ∀ record ∈ records, Writable T record)
    {payload : Obj} (hpayload : Writable T payload) :
    readJsonlToleratingTornFinal T (recordLines T records ++ recordBytes T payload) =
      .ok ((records ++ [payload]).map Obj.canon) := by
  have hlog := logOf_lines (T := T) (newline_not_mem_lines h) (newline_not_mem hpayload)
  have hload := loadsLine_recordBytes hpayload
  have hopen : ¬ (recordBytes T payload).isEmpty = true := by
    intro hempty
    rw [List.isEmpty_iff.mp hempty] at hload
    exact nomatch hload
  rw [if_neg hopen, classify_records h, classify_of_loads hload] at hlog
  apply toOption_ok
  unfold recordLines
  rw [readJsonl_logOf, hlog]
  unfold readJsonl
  rw [foldlM_readLine_rows, List.map_append]
  rfl

/-! ## repair -/

theorem readLines_records {records : List Obj} (h : ∀ record ∈ records, Writable T record) :
    readLines T true 1 (records.map (recordBytes T)) [] = .ok (records.map Obj.canon) := by
  apply toOption_ok
  rw [readLines_terminated, classify_records h, foldlM_readLine_rows]
  rfl

/-- the repair leaves the records that are read, all terminated -/
theorem repairJsonlTail_holds {file : Option Bytes} {records : List Obj}
    (h : Holds T file records) :
    ∃ changed, repairJsonlTail T file = .ok (changed, file.map fun _ => recordLines T records) := by
  cases h with
  | absent => exact ⟨false, rfl⟩
  | closed _ h =>
    refine ⟨false, ?_⟩
    have hread := reads_closed h
    unfold recordLines at hread ⊢
    rw [repairJsonlTail_closed, hread]
    rfl
  | torn _ payload count h hpayload hpos hcount =>
    refine ⟨true, ?_⟩
    have htail : newline ∉ (recordBytes T payload).take count :=
      fun hmem => newline_not_mem hpayload (List.mem_of_mem_take hmem)
    have hne : (recordBytes T payload).take count ≠ [] := by
      intro hnil
      have hlength := congrArg List.length hnil
      rw [List.length_take, List.length_nil] at hlength
      omega
    unfold recordLines
    rw [repairJsonlTail_open (newline_not_mem_lines h) htail hne, readLines_records h,
      Except.ok_bind, loadsLine_cut hpayload hcount]
    rfl
  | unterminated records payload h hpayload =>
    refine ⟨true, ?_⟩
    have hload := loadsLine_recordBytes hpayload
    have hne : recordBytes T payload ≠ [] := by
      intro hnil
      rw [hnil] at hload
      exact nomatch hload
    unfold recordLines
    rw [repairJsonlTail_open (newline_not_mem_lines h) (newline_not_mem hpayload) hne,
      readLines_records h, Except.ok_bind, hload, List.map_append, List.map_singleton,
      terminate_concat]
    rfl

/-- the reader reads the same before and after the repair -/
theorem reads_holds {raw : Bytes} {records : List Obj} (h : Holds T (some raw) records) :
    readJsonlToleratingTornFinal T raw = .ok (records.map Obj.canon) ∧
      readJsonlToleratingTornFinal T (recordLines T records) = .ok (records.map Obj.canon) := by
  cases h with
  | closed _ h => exact ⟨reads_closed h, reads_closed h⟩
  | torn _ payload count h hpayload hpos hcount =>
    have hne : (recordBytes T payload).take count ≠ [] := by
      intro hnil
      have hlength := congrArg List.length hnil
      rw [List.length_take, List.length_nil] at hlength
      omega
    refine ⟨reads_torn h ?_ hne (loadsLine_cut hpayload hcount), reads_closed h⟩
    exact fun hmem => newline_not_mem hpayload (List.mem_of_mem_take hmem)
  | unterminated records payload h hpayload =>
    refine ⟨reads_unterminated h hpayload, reads_closed ?_⟩
    intro record hrecord
    obtain hrecord | hrecord := List.mem_append.mp hrecord
    · exact h record hrecord
    · rw [List.mem_singleton.mp hrecord]
      exact hpayload

/-! ## sessions -/

variable (T) in
/-- a file without an open part -/
def Closed (file : Option Bytes) (records : List Obj) : Prop :=
  file.getD [] = recordLines T records ∧ (file = none → records = []) ∧
    ∀ record ∈ records, Writable T record

theorem Holds.writable {file : Option Bytes} {records : List Obj} (h : Holds T file records) :
    ∀ record ∈ records, Writable T record := by
  cases h with
  | absent => exact fun _ h => absurd h List.not_mem_nil
  | closed _ h => exact h
  | torn _ _ _ h => exact h
  | unterminated records payload h hpayload =>
    intro record hrecord
    obtain hrecord | hrecord := List.mem_append.mp hrecord
    · exact h record hrecord
    · rw [List.mem_singleton.mp hrecord]
      exact hpayload

theorem Closed.holds {file : Option Bytes} {records : List Obj} (h : Closed T file records) :
    Holds T file records := by
  obtain ⟨hbytes, hnone, hwritable⟩ := h
  cases file with
  | none =>
    rw [hnone rfl]
    exact .absent
  | some raw =>
    have hraw : raw = recordLines T records := hbytes
    rw [hraw]
    exact .closed records hwritable

theorem recordLines_concat (records : List Obj) (payload : Obj) :
    recordLines T (records ++ [payload]) = recordLines T records ++ lineBytes T payload := by
  unfold recordLines lineBytes
  rw [List.map_append, List.map_singleton, terminate_concat, List.append_assoc]

theorem writable_concat {records : List Obj} (h : ∀ record ∈ records, Writable T record)
    {payload : Obj} (hpayload : Writable T payload) :
    ∀ record ∈ records ++ [payload], Writable T record := by
  intro record hrecord
  obtain hrecord | hrecord := List.mem_append.mp hrecord
  · exact h record hrecord
  · rw [List.mem_singleton.mp hrecord]
    exact hpayload

theorem Closed.append {file : Option Bytes} {records : List Obj} (h : Closed T file records)
    {payload : Obj} (hpayload : Writable T payload) :
    Closed T (appendJsonlFsync T file payload) (records ++ [payload]) := by
  obtain ⟨hbytes, -, hwritable⟩ := h
  refine ⟨?_, fun hnone => (nomatch hnone), writable_concat hwritable hpayload⟩
  show file.getD [] ++ lineBytes T payload = _
  rw [hbytes, recordLines_concat]

theorem Closed.appends {new : List Obj} (hnew : ∀ record ∈ new, Writable T record)
    {file : Option Bytes} {records : List Obj} (h : Closed T file records) :
    Closed T (new.foldl (appendJsonlFsync T) file) (records ++ new) := by
  induction new generalizing file records with
  | nil =>
    rw [List.append_nil]
    exact h
  | cons payload new ih =>
    have hstep := h.append (hnew payload List.mem_cons_self)
    have hrest := ih (fun r hr => hnew r (List.mem_cons_of_mem _ hr)) hstep
    rw [List.append_assoc] at hrest
    exact hrest

/-- an append that is cut off at any byte -/
theorem Closed.cut {file : Option Bytes} {records : List Obj} (h : Closed T file records)
    {payload : Obj} (hpayload : Writable T payload) (count : Nat) :
    Holds T (some (file.getD [] ++ (lineBytes T payload).take count))
      (records ++ if (recordBytes T payload).length ≤ count then [payload] else []) := by
  obtain ⟨hbytes, -, hwritable⟩ := h
  rw [hbytes]
  by_cases hcomplete : (recordBytes T payload).length ≤ count
  · rw [if_pos hcomplete]
    obtain hlt | heq := Nat.lt_or_eq_of_le hcomplete
    · have hwhole : (lineBytes T payload).take count = lineBytes T payload := by
        apply List.take_of_length_le
        unfold lineBytes
        rw [List.length_append]
        exact hlt
      rw [hwhole, ← recordLines_concat]
      exact .closed _ (writable_concat hwritable hpayload)
    · have htext : (lineBytes T payload).take count = recordBytes T payload := by
        rw [← heq]
        exact List.take_left
      rw [htext]
      exact .unterminated records payload hwritable hpayload
  · have hlt : count < (recordBytes T payload).length := Nat.lt_of_not_le hcomplete
    have hpart : (lineBytes T payload).take count = (recordBytes T payload).take count :=
      List.take_append_of_le_length (Nat.le_of_lt hlt)
    rw [if_neg hcomplete, List.append_nil, hpart]
    obtain hzero | hpos := Nat.eq_zero_or_pos count
    · rw [hzero, List.take_zero, List.append_nil]
      exact .closed records hwritable
    · exact .torn records payload count hwritable hpayload hpos hlt

/-- a session adds the records it wrote completely -/
theorem session_holds {file : Option Bytes} {records : List Obj} (h : Holds T file records)
    {s : Session} (hs : s.Writable T) :
    ∃ file', session T file s = .ok file' ∧ Holds T file' (records ++ s.written T) := by
  obtain ⟨changed, hrepair⟩ := repairJsonlTail_holds h
  have hclosed : Closed T (file.map fun _ => recordLines T records) records := by
    refine ⟨?_, ?_, h.writable⟩
    · cases h with
      | absent => rfl
      | closed | torn | unterminated => rfl
    · intro hnone
      cases h with
      | absent => rfl
      | closed | torn | unterminated => exact nomatch hnone
  have happends := hclosed.appends hs.1
  unfold session Session.written
  rw [hrepair, Except.ok_bind]
  cases hcut : s.cut with
  | none =>
    refine ⟨_, rfl, ?_⟩
    rw [List.append_nil]
    exact happends.holds
  | some p =>
    obtain ⟨payload, count⟩ := p
    refine ⟨_, rfl, ?_⟩
    rw [← List.append_assoc]
    exact happends.cut (hs.2 payload count hcut) count

/-- a run of sessions adds the records they wrote completely, in order -/
theorem runSessions_holds {sessions : List Session} (hsessions : ∀ s ∈ sessions, s.Writable T)
    {file : Option Bytes} {records : List Obj} (h : Holds T file records) :
    ∃ file', runSessions T file sessions = .ok file' ∧
      Holds T file' (records ++ sessions.flatMap (Session.written T)) := by
  induction sessions generalizing file records with
  | nil =>
    refine ⟨file, rfl, ?_⟩
    rw [List.flatMap_nil, List.append_nil]
    exact h
  | cons s sessions ih =>
    obtain ⟨file₁, hstep, hholds⟩ := session_holds h (hsessions s List.mem_cons_self)
    obtain ⟨file', hrun, hlast⟩ := ih (fun t ht => hsessions t (List.mem_cons_of_mem _ ht)) hholds
    refine ⟨file', ?_, ?_⟩
    · unfold runSessions
      rw [List.foldlM_cons, hstep]
      exact hrun
    · rw [List.flatMap_cons, ← List.append_assoc]
      exact hlast

/-! ## the log after any crashes -/

/-- After any sessions the repair succeeds, and leaves one terminated line for each record whose
text was completely written; the reader returns these records, before the repair and after it.
A file that no append has created holds no record. -/
theorem submissionLog_survives_crashes (sessions : List Session)
    (hsessions : ∀ s ∈ sessions, s.Writable T) :
    ∃ file changed repaired, runSessions T none sessions = .ok file ∧
      repairJsonlTail T file = .ok (changed, repaired) ∧
      match file, repaired with
      | none, none => sessions.flatMap (Session.written T) = []
      | some raw, some raw' =>
        let records := sessions.flatMap (Session.written T)
        let lines := records.map (recordBytes T)
        raw' = (lines.flatMap fun line => line ++ [newline]) ∧
          (∀ line ∈ lines, newline ∉ line) ∧
          readJsonlToleratingTornFinal T raw = .ok (records.map Obj.canon) ∧
          readJsonlToleratingTornFinal T raw' = .ok (records.map Obj.canon)
      | _, _ => False := by
  obtain ⟨file, hrun, hholds⟩ := runSessions_holds hsessions (Holds.absent (T := T))
  rw [List.nil_append] at hholds
  obtain ⟨changed, hrepair⟩ := repairJsonlTail_holds hholds
  refine ⟨file, changed, _, hrun, hrepair, ?_⟩
  cases file with
  | none =>
    generalize sessions.flatMap (Session.written T) = records at hholds
    cases hholds
    rfl
  | some raw =>
    obtain ⟨hbefore, hafter⟩ := reads_holds hholds
    exact ⟨rfl, newline_not_mem_lines hholds.writable, hbefore, hafter⟩

end

/-- two sessions: one cut off inside its second record, one just before its newline -/
def sampleSessions : List Session :=
  [{ records := [[("epoch_id", .int 1)]], cut := some ([("epoch_id", .int 2)], 12) },
    { records := [], cut := some ([("note", .str "ok"), ("epoch_id", .float (.fin (1 / 2)))], 31) }]

def sampleText : PyText where
  reprFloat q := if q = 1 / 2 then "0.5" else "0.0"
  reprContainer _ := ""
  reprStr s := s
  parseFloat s := if s = "0.5" then some (1 / 2) else some 0

theorem submissionLog_survives_crashes_sample :
    ∃ file changed repaired, runSessions sampleText none sampleSessions = .ok file ∧
      repairJsonlTail sampleText file = .ok (changed, repaired) ∧
      match file, repaired with
      | none, none => sampleSessions.flatMap (Session.written sampleText) = []
      | some raw, some raw' =>
        let records := sampleSessions.flatMap (Session.written sampleText)
        let lines := records.map (recordBytes sampleText)
        raw' = (lines.flatMap fun line => line ++ [newline]) ∧
          (∀ line ∈ lines, newline ∉ line) ∧
          readJsonlToleratingTornFinal sampleText raw = .ok (records.map Obj.canon) ∧
          readJsonlToleratingTornFinal sampleText raw' = .ok (records.map Obj.canon)
      | _, _ => False := by
  refine submissionLog_survives_crashes sampleSessions ?_
  have hint : ∀ i, Writable sampleText [("epoch_id", .int i)] := by
    intro i
    simp [Writable, Printable, PrintableFields, Dict.keys]
  have hfloat : number sampleText (sampleText.reprFloat (1 / 2)).toList =
      some (.float (.fin (1 / 2)), []) := by
    rw [show sampleText.reprFloat (1 / 2) = "0.5" from if_pos rfl]
    rfl
  have hnote : Writable sampleText [("note", .str "ok"), ("epoch_id", .float (.fin (1 / 2)))] := by
    simp [Writable, Printable, PrintableFields, Dict.keys] at hfloat ⊢
    exact hfloat
  intro s hs
  obtain heq | hs := List.mem_cons.mp hs
  · rw [heq]
    refine ⟨?_, ?_⟩
    · intro record hrecord
      rw [List.mem_singleton.mp hrecord]
      exact hint 1
    · intro payload count hcut
      obtain ⟨hpayload, -⟩ := Prod.mk.inj (Option.some.inj hcut)
      rw [← hpayload]
      exact hint 2
  · rw [List.mem_singleton.mp hs]
    refine ⟨fun _ h => absurd h List.not_mem_nil, ?_⟩
    intro payload count hcut
    obtain ⟨hpayload, -⟩ := Prod.mk.inj (Option.some.inj hcut)
    rw [← hpayload]
    exact hnote

end LogFile
end Dolores
