import Mathlib.Data.List.DropRight
import Dolores.Epoch.Jsonl
import Dolores.Py.JsonRoundTrip

/-!
# The bytes of the submission log (`epoch.py`, `atomic.py`)

`LogFile.readJsonl` and `LogFile.repairJsonlTail` work on the bytes of the file.  `logOf` splits
them into the lines of a `Log`, and the functions on bytes do what those on a `Log` do
(`readJsonl_logOf`, `repairJsonlTail_logOf`).
-/

namespace Dolores

/-! ## bytes -/

/-- `bytes.decode("utf-8")` -/
def decodeUtf8 (raw : Bytes) : Option (List Char) :=
  raw.toByteArray.utf8Decode?.map Array.toList

/-- `str.encode("utf-8")` -/
def encodeUtf8 (cs : List Char) : Bytes := cs.flatMap String.utf8EncodeChar

theorem decodeUtf8_encodeUtf8 (cs : List Char) : decodeUtf8 (encodeUtf8 cs) = some cs := by
  have hdecode := List.utf8Decode?_utf8Encode (l := cs)
  unfold decodeUtf8 encodeUtf8
  unfold List.utf8Encode at hdecode
  rw [hdecode]
  rfl

/-- bytes that are decoded are the encoding of their text -/
theorem encodeUtf8_of_decode {data : Bytes} {text : List Char}
    (h : decodeUtf8 data = some text) : encodeUtf8 text = data := by
  unfold decodeUtf8 at h
  obtain ⟨chars, hchars, rfl⟩ := Option.map_eq_some_iff.mp h
  have hsome : data.toByteArray.utf8Decode?.isSome := by
    rw [hchars]
    rfl
  have hencode := ByteArray.utf8Encode_get_utf8Decode? (h := hsome)
  simp only [hchars, Option.get_some] at hencode
  unfold List.utf8Encode at hencode
  unfold encodeUtf8
  exact List.toByteArray_inj.mp hencode

theorem encodeUtf8_injective {cs ds : List Char} (h : encodeUtf8 cs = encodeUtf8 ds) :
    cs = ds := by
  have hdecode := decodeUtf8_encodeUtf8 cs
  rw [h, decodeUtf8_encodeUtf8] at hdecode
  exact (Option.some.inj hdecode).symm

/-- the byte of an ASCII character -/
def asciiByte (c : Char) : UInt8 := c.val.toUInt8

theorem encodeUtf8_ascii {cs : List Char} (h : ∀ c ∈ cs, c.toNat < 128) :
    encodeUtf8 cs = cs.map asciiByte := by
  induction cs with
  | nil => rfl
  | cons c cs ih =>
    have hc : c.toNat < 128 := h c List.mem_cons_self
    have hsize : c.utf8Size = 1 := by
      unfold Char.utf8Size
      rw [if_pos]
      rw [UInt32.le_iff_toNat_le]
      exact Nat.le_of_lt_succ hc
    have hcs := ih fun d hd => h d (List.mem_cons_of_mem _ hd)
    unfold encodeUtf8 at hcs ⊢
    rw [List.flatMap_cons, hcs, String.utf8EncodeChar_eq_singleton hsize]
    rfl

theorem asciiByte_ofNat {b : UInt8} (h : b.toNat < 128) :
    asciiByte (Char.ofNat b.toNat) = b := by
  have hvalid : b.toNat.isValidChar := .inl (by omega)
  have hval : (Char.ofNatAux b.toNat hvalid).val.toNat = b.toNat := rfl
  unfold asciiByte Char.ofNat
  rw [dif_pos hvalid]
  apply UInt8.toNat_inj.mp
  rw [UInt32.toNat_toUInt8, hval]
  exact Nat.mod_eq_of_lt (by omega)

theorem toNat_ofNat_ascii {n : Nat} (h : n < 128) : (Char.ofNat n).toNat = n := by
  have hvalid : n.isValidChar := .inl (by omega)
  unfold Char.ofNat
  rw [dif_pos hvalid]
  rfl

/-- ASCII bytes are decoded one by one -/
theorem decodeUtf8_ascii {raw : Bytes} (h : ∀ b ∈ raw, b.toNat < 128) :
    decodeUtf8 raw = some (raw.map fun b => Char.ofNat b.toNat) := by
  have hascii : ∀ c ∈ raw.map (fun b => Char.ofNat b.toNat), c.toNat < 128 := by
    intro c hc
    obtain ⟨b, hb, heq⟩ := List.mem_map.mp hc
    rw [← heq, toNat_ofNat_ascii (h b hb)]
    exact h b hb
  have hraw : encodeUtf8 (raw.map fun b => Char.ofNat b.toNat) = raw := by
    rw [encodeUtf8_ascii hascii, List.map_map]
    refine List.map_congr_left (fun b hb => ?_) |>.trans (List.map_id raw)
    exact asciiByte_ofNat (h b hb)
  have hdecode := decodeUtf8_encodeUtf8 (raw.map fun b => Char.ofNat b.toNat)
  rwa [hraw] at hdecode

/-- the white space of `bytes.strip` -/
def isSpaceByte (b : UInt8) : Bool := b == 32 || (9 ≤ b && b ≤ 13)

def newline : UInt8 := 10

namespace LogFile

section
variable (T : PyText)

/-- `json.loads(raw_line.decode("utf-8"))` -/
def loadsLine (raw : Bytes) : Option Json := (decodeUtf8 raw).bind (JsonText.loads T)

def endsWithNewline (raw : Bytes) : Bool := raw.getLast? == some newline

/-! ## reading -/

/-- the loop over the lines from the `index`-th one -/
def readLines (terminated : Bool) : Nat → List Bytes → List Obj → Except Exn (List Obj)
  | _, [], rows => .ok rows
  | index, line :: lines, rows =>
    if line.all isSpaceByte then readLines terminated (index + 1) lines rows
    else match loadsLine T line with
      | none =>
        if !terminated && lines.isEmpty then .ok rows
        else .error (.valueError s!"corrupt JSONL record at line {index}")
      | some (.obj row) => readLines terminated (index + 1) lines (rows ++ [row])
      | some _ => .error (.valueError s!"JSONL record at line {index} must be an object")

/-- `read_jsonl_tolerating_torn_final` -/
def readJsonlToleratingTornFinal (raw : Bytes) : Except Exn (List Obj) :=
  let terminated := endsWithNewline raw
  let lines := raw.splitOn newline
  readLines T terminated 1 (if terminated then lines.dropLast else lines) []

/-! ## repair -/

/-- `repair_jsonl_tail`: whether the file is rewritten, and what it is afterwards -/
def repairJsonlTail (file : Option Bytes) : Except Exn (Bool × Option Bytes) :=
  match file with
  | none => .ok (false, none)
  | some raw => do
    if raw.isEmpty || endsWithNewline raw then
      let _ ← readJsonlToleratingTornFinal T raw
      return (false, some raw)
    let pre := raw.rdropWhile (· != newline)
    let tail := raw.rtakeWhile (· != newline)
    -- every line of the prefix is terminated: the same loop, whose rows are not used
    let _ ← readLines T true 1 (pre.splitOn newline).dropLast []
    match loadsLine T tail with
    | none => return (true, some pre)
    | some (.obj _) => return (true, some (raw ++ [newline]))
    | some _ => .error (.valueError "unterminated JSONL final record must be an object")

/-! ## appending -/

/-- `json.dumps(payload, sort_keys=True).encode("utf-8")` -/
def recordBytes (payload : Obj) : Bytes :=
  encodeUtf8 (JsonText.text T [' '] (Json.canon (.obj payload)))

/-- the bytes `append_jsonl_fsync` hands to `_write_all` -/
def lineBytes (payload : Obj) : Bytes := recordBytes T payload ++ [newline]

def appendJsonlFsync (file : Option Bytes) (payload : Obj) : Option Bytes :=
  some (file.getD [] ++ lineBytes T payload)

end

/-! ## the lines of a file -/

/-- the bytes of terminated lines -/
def terminate (lines : List Bytes) : Bytes := lines.flatMap fun line => line ++ [newline]

theorem terminate_cons (line : Bytes) (lines : List Bytes) :
    terminate (line :: lines) = line ++ newline :: terminate lines := by
  unfold terminate
  rw [List.flatMap_cons, List.append_assoc, List.singleton_append]

theorem terminate_append (lines more : List Bytes) :
    terminate (lines ++ more) = terminate lines ++ terminate more := List.flatMap_append

theorem terminate_concat (lines : List Bytes) (line : Bytes) :
    terminate (lines ++ [line]) = terminate lines ++ line ++ [newline] := by
  rw [terminate_append, terminate_cons, List.append_assoc]
  rfl

section
variable {lines : List Bytes} {tail : Bytes}

theorem splitOn_terminate (hlines : ∀ line ∈ lines, newline ∉ line) (htail : newline ∉ tail) :
    (terminate lines ++ tail).splitOn newline = lines ++ [tail] := by
  induction lines with
  | nil => exact List.splitOn_eq_singleton htail
  | cons line lines ih =>
    have hrest := ih fun l hl => hlines l (List.mem_cons_of_mem _ hl)
    rw [terminate_cons, List.append_assoc, List.cons_append,
      List.splitOn_append_cons_self_of_not_mem (hlines line List.mem_cons_self), hrest]
    rfl

theorem splitOn_closed (hlines : ∀ line ∈ lines, newline ∉ line) :
    (terminate lines).splitOn newline = lines ++ [[]] := by
  have hsplit := @splitOn_terminate lines [] hlines List.not_mem_nil
  rwa [List.append_nil] at hsplit

/-- every file is a sequence of terminated lines and an open part -/
theorem exists_lines (raw : Bytes) :
    ∃ lines tail, (∀ line ∈ lines, newline ∉ line) ∧ newline ∉ tail ∧
      raw = terminate lines ++ tail := by
  induction raw with
  | nil => exact ⟨[], [], fun _ h => absurd h List.not_mem_nil, List.not_mem_nil, rfl⟩
  | cons b raw ih =>
    obtain ⟨lines, tail, hlines, htail, hraw⟩ := ih
    by_cases hb : b = newline
    · refine ⟨[] :: lines, tail, ?_, htail, ?_⟩
      · intro line hline
        obtain hnil | hline := List.mem_cons.mp hline
        · rw [hnil]
          exact List.not_mem_nil
        · exact hlines line hline
      · rw [terminate_cons, hraw, hb]
        rfl
    · have hcons : ∀ line : Bytes, newline ∉ line → newline ∉ b :: line := by
        intro line hline hmem
        obtain heq | hmem := List.mem_cons.mp hmem
        · exact hb heq.symm
        · exact hline hmem
      cases lines with
      | nil =>
        refine ⟨[], b :: tail, fun _ h => absurd h List.not_mem_nil, hcons tail htail, ?_⟩
        rw [hraw]
        rfl
      | cons line lines =>
        refine ⟨(b :: line) :: lines, tail, ?_, htail, ?_⟩
        · intro l hl
          obtain heq | hl := List.mem_cons.mp hl
          · rw [heq]
            exact hcons line (hlines line List.mem_cons_self)
          · exact hlines l (List.mem_cons_of_mem _ hl)
        · rw [hraw, terminate_cons, terminate_cons]
          rfl

theorem getLast?_terminate (h : lines ≠ []) : (terminate lines).getLast? = some newline := by
  obtain ⟨front, last, hlines⟩ := List.eq_nil_or_concat lines |>.resolve_left h
  rw [hlines, List.concat_eq_append, terminate_concat]
  exact List.getLast?_concat

theorem getLast?_ne_newline (h : newline ∉ tail) : tail.getLast? ≠ some newline := by
  intro hlast
  exact h (List.mem_of_getLast? hlast)

theorem endsWithNewline_iff (htail : newline ∉ tail) :
    endsWithNewline (terminate lines ++ tail) = true ↔ tail = [] ∧ lines ≠ [] := by
  unfold endsWithNewline
  rw [beq_iff_eq]
  cases tail with
  | nil =>
    rw [List.append_nil]
    refine ⟨fun h => ⟨rfl, ?_⟩, fun h => getLast?_terminate h.2⟩
    intro hnil
    rw [hnil] at h
    exact nomatch h
  | cons b tail =>
    rw [List.getLast?_append_cons]
    exact ⟨fun h => absurd h (getLast?_ne_newline htail), fun h => nomatch h.1⟩

theorem rdropWhile_terminate (htail : newline ∉ tail) :
    (terminate lines ++ tail).rdropWhile (· != newline) = terminate lines := by
  have hall : ∀ b ∈ tail.reverse, (b != newline) = true := by
    intro b hb
    rw [bne_iff_ne]
    intro heq
    rw [heq, List.mem_reverse] at hb
    exact htail hb
  have hself : (terminate lines).rdropWhile (· != newline) = terminate lines := by
    rw [List.rdropWhile_eq_self_iff]
    intro hne
    have hlines : lines ≠ [] := by
      intro hnil
      rw [hnil] at hne
      exact hne rfl
    have hlast := getLast?_terminate hlines
    rw [List.getLast?_eq_some_getLast hne] at hlast
    rw [Option.some.inj hlast]
    decide
  unfold List.rdropWhile at hself ⊢
  rw [List.reverse_append, List.dropWhile_append_of_pos hall]
  exact hself

theorem rtakeWhile_terminate (htail : newline ∉ tail) :
    (terminate lines ++ tail).rtakeWhile (· != newline) = tail := by
  have hwhole := List.rdropWhile_append_rtakeWhile (p := (· != newline))
    (l := terminate lines ++ tail)
  rw [rdropWhile_terminate htail] at hwhole
  exact List.append_cancel_left hwhole

end

/-! ## what the lines stand for -/

section
variable (T : PyText)

def classify (line : Bytes) : Line :=
  if line.all isSpaceByte then .blank
  else match loadsLine T line with
    | none => .bad
    | some j => .value j

/-- the log that the bytes of a file hold -/
def logOf (raw : Bytes) : Log where
  lines := (((raw.rdropWhile (· != newline)).splitOn newline).dropLast).map (classify T)
  tail :=
    let tail := raw.rtakeWhile (· != newline)
    if tail.isEmpty then none else some (classify T tail)

/-- an unterminated last line that is not JSON ends the reading -/
def readTail (rows : List Obj) : Line → Except Exn (List Obj)
  | .bad => .ok rows
  | line => readLine rows line

variable {T}

theorem classify_blank {line : Bytes} (h : line.all isSpaceByte = true) :
    classify T line = .blank := if_pos h

theorem classify_bad {line : Bytes} (h : ¬ line.all isSpaceByte = true)
    (hread : loadsLine T line = none) : classify T line = .bad := by
  unfold classify
  rw [if_neg h, hread]

theorem classify_value {line : Bytes} {j : Json} (h : ¬ line.all isSpaceByte = true)
    (hread : loadsLine T line = some j) : classify T line = .value j := by
  unfold classify
  rw [if_neg h, hread]

/-- a line that ends in a newline -/
theorem readLines_cons {terminated : Bool} {line : Bytes} {lines : List Bytes}
    (h : terminated = true ∨ lines ≠ []) (index : Nat) (rows : List Obj) :
    (readLines T terminated index (line :: lines) rows).toOption =
      (readLine rows (classify T line)).toOption.bind fun rows =>
        (readLines T terminated (index + 1) lines rows).toOption := by
  rw [readLines]
  by_cases hspace : line.all isSpaceByte = true
  · rw [if_pos hspace, classify_blank hspace]
    rfl
  · rw [if_neg hspace]
    cases hread : loadsLine T line with
    | none =>
      have hnot : ¬ (!terminated && lines.isEmpty) = true := by
        rw [Bool.and_eq_true, Bool.not_eq_true', List.isEmpty_iff]
        obtain hterminated | hne := h
        · rw [hterminated]
          exact fun hand => nomatch hand.1
        · exact fun hand => hne hand.2
      rw [classify_bad hspace hread]
      dsimp only
      rw [if_neg hnot]
      rfl
    | some j =>
      rw [classify_value hspace hread]
      cases j <;> rfl

theorem readLines_terminated (lines : List Bytes) (index : Nat) (rows : List Obj) :
    (readLines T true index lines rows).toOption =
      ((lines.map (classify T)).foldlM readLine rows).toOption := by
  induction lines generalizing index rows with
  | nil => rfl
  | cons line lines ih =>
    rw [List.map_cons, List.foldlM_cons, Except.toOption_bind, readLines_cons (.inl rfl)]
    congr 1
    funext rows
    exact ih _ _

theorem readLines_last (last : Bytes) (index : Nat) (rows : List Obj) :
    (readLines T false index [last] rows).toOption =
      (readTail rows (classify T last)).toOption := by
  rw [readLines]
  by_cases hspace : last.all isSpaceByte = true
  · rw [if_pos hspace, classify_blank hspace]
    rfl
  · rw [if_neg hspace]
    cases hread : loadsLine T last with
    | none =>
      rw [classify_bad hspace hread]
      rfl
    | some j =>
      rw [classify_value hspace hread]
      cases j <;> rfl

theorem readLines_open (lines : List Bytes) (last : Bytes) (index : Nat) (rows : List Obj) :
    (readLines T false index (lines ++ [last]) rows).toOption =
      ((lines.map (classify T)).foldlM readLine rows >>= fun rows =>
        readTail rows (classify T last)).toOption := by
  induction lines generalizing index rows with
  | nil => exact readLines_last last index rows
  | cons line lines ih =>
    have hne : lines ++ [last] ≠ [] := List.append_ne_nil_of_right_ne_nil _ (List.cons_ne_nil _ _)
    rw [List.cons_append, readLines_cons (.inr hne), List.map_cons, List.foldlM_cons, bind_assoc,
      Except.toOption_bind]
    congr 1
    funext rows
    exact ih _ _

/-! ## the files of terminated lines and an open part -/

section
variable {lines : List Bytes} {tail : Bytes}

theorem logOf_lines (hlines : ∀ line ∈ lines, newline ∉ line) (htail : newline ∉ tail) :
    logOf T (terminate lines ++ tail) =
      { lines := lines.map (classify T)
        tail := if tail.isEmpty then none else some (classify T tail) } := by
  unfold logOf
  rw [rdropWhile_terminate htail, rtakeWhile_terminate htail, splitOn_closed hlines,
    List.dropLast_concat]

theorem logOf_closed (hlines : ∀ line ∈ lines, newline ∉ line) :
    logOf T (terminate lines) = { lines := lines.map (classify T) } := by
  have hlog := @logOf_lines T lines [] hlines List.not_mem_nil
  rwa [List.append_nil] at hlog

/-- the reader on bytes and the reader on a log agree -/
theorem readJsonl_lines (hlines : ∀ line ∈ lines, newline ∉ line) (htail : newline ∉ tail) :
    (readJsonlToleratingTornFinal T (terminate lines ++ tail)).toOption =
      (readJsonl (logOf T (terminate lines ++ tail))).toOption := by
  have hends := @endsWithNewline_iff lines tail htail
  rw [logOf_lines hlines htail]
  unfold readJsonlToleratingTornFinal readJsonl
  dsimp only
  rw [splitOn_terminate hlines htail]
  cases tail with
  | nil =>
    have hnone : ((lines.map (classify T)).foldlM readLine [] >>= fun rows => Except.ok rows) =
        (lines.map (classify T)).foldlM readLine [] := Except.bind_ok_self _
    cases lines with
    | nil => rfl
    | cons line lines =>
      have hterminated : endsWithNewline (terminate (line :: lines) ++ []) = true :=
        hends.mpr ⟨rfl, List.cons_ne_nil _ _⟩
      rw [hterminated, if_pos rfl, List.dropLast_concat, readLines_terminated]
      exact congrArg Except.toOption hnone.symm
  | cons b tail =>
    have hopen : endsWithNewline (terminate lines ++ b :: tail) = false := by
      rw [Bool.eq_false_iff]
      intro hterminated
      exact nomatch (hends.mp hterminated).1
    rw [hopen, if_neg Bool.false_ne_true, readLines_open]
    have htail : ¬ (b :: tail).isEmpty = true := Bool.false_ne_true
    rw [if_neg htail]
    congr 2
    funext rows
    cases classify T (b :: tail) <;> rfl

end

/-- `read_jsonl_tolerating_torn_final` reads the log that the bytes hold -/
theorem readJsonl_logOf (raw : Bytes) :
    (readJsonlToleratingTornFinal T raw).toOption = (readJsonl (logOf T raw)).toOption := by
  obtain ⟨lines, tail, hlines, htail, hraw⟩ := exists_lines raw
  rw [hraw]
  exact readJsonl_lines hlines htail

/-! ## repair -/

/-- white space is not a JSON text -/
theorem loadsLine_blank {line : Bytes} (h : line.all isSpaceByte = true) :
    loadsLine T line = none := by
  have hspace : ∀ b ∈ line, b.toNat = 32 ∨ 9 ≤ b.toNat ∧ b.toNat ≤ 13 := by
    intro b hb
    have hb' := List.all_eq_true.mp h b hb
    unfold isSpaceByte at hb'
    rw [Bool.or_eq_true, Bool.and_eq_true, beq_iff_eq, decide_eq_true_iff, decide_eq_true_iff,
      UInt8.le_iff_toNat_le, UInt8.le_iff_toNat_le] at hb'
    exact hb'.imp_left fun heq => by rw [heq]; rfl
  have hascii : ∀ b ∈ line, b.toNat < 128 := fun b hb => by have := hspace b hb; omega
  unfold loadsLine
  rw [decodeUtf8_ascii hascii, Option.bind_some]
  unfold JsonText.loads
  cases hskip : JsonText.skip (line.map fun b => Char.ofNat b.toNat) with
  | nil =>
    cases (line.map fun b => Char.ofNat b.toNat).length <;> rfl
  | cons c cs =>
    -- the first character that is left is a vertical tab or a form feed
    have hmem : c ∈ line.map fun b => Char.ofNat b.toNat := by
      have hsuffix := List.dropWhile_suffix (l := line.map fun b => Char.ofNat b.toNat)
        JsonText.isBlank
      apply hsuffix.subset
      have hdrop : List.dropWhile JsonText.isBlank (line.map fun b => Char.ofNat b.toNat) =
          c :: cs := hskip
      rw [hdrop]
      exact List.mem_cons_self
    have hblank : JsonText.isBlank c = false := by
      have hhead := List.head?_dropWhile_not JsonText.isBlank
        (line.map fun b => Char.ofNat b.toNat)
      have hdrop : List.dropWhile JsonText.isBlank (line.map fun b => Char.ofNat b.toNat) =
          c :: cs := hskip
      rw [hdrop] at hhead
      exact hhead
    obtain ⟨b, hb, heq⟩ := List.mem_map.mp hmem
    have hnat := toNat_ofNat_ascii (hascii b hb)
    rw [heq] at hnat
    have hcases : c.toNat = 11 ∨ c.toNat = 12 := by
      unfold JsonText.isBlank at hblank
      simp only [Bool.or_eq_false_iff, beq_eq_false_iff_ne] at hblank
      have := hspace b hb
      omega
    have hchar : c = Char.ofNat 11 ∨ c = Char.ofNat 12 :=
      hcases.imp (fun h => (Char.ofNat_toNat c).symm.trans (congrArg Char.ofNat h))
        fun h => (Char.ofNat_toNat c).symm.trans (congrArg Char.ofNat h)
    cases (line.map fun b => Char.ofNat b.toNat).length with
    | zero => rfl
    | succ n => obtain hc | hc := hchar <;> rw [hc] <;> rfl

section
variable {lines : List Bytes} {tail : Bytes}

theorem repairJsonlTail_closed :
    repairJsonlTail T (some (terminate lines)) =
      (readJsonlToleratingTornFinal T (terminate lines) >>= fun _ =>
        .ok (false, some (terminate lines))) := by
  have hclosed : ((terminate lines).isEmpty || endsWithNewline (terminate lines)) = true := by
    cases lines with
    | nil => rfl
    | cons line lines =>
      have hends := @endsWithNewline_iff (line :: lines) [] List.not_mem_nil
      rw [List.append_nil] at hends
      rw [hends.mpr ⟨rfl, List.cons_ne_nil _ _⟩, Bool.or_true]
  unfold repairJsonlTail
  dsimp only
  rw [if_pos hclosed]
  rfl

theorem repairJsonlTail_open (hlines : ∀ line ∈ lines, newline ∉ line) (htail : newline ∉ tail)
    (hne : tail ≠ []) :
    repairJsonlTail T (some (terminate lines ++ tail)) =
      (readLines T true 1 lines [] >>= fun _ =>
        match loadsLine T tail with
        | none => .ok (true, some (terminate lines))
        | some (.obj _) => .ok (true, some (terminate lines ++ tail ++ [newline]))
        | some _ => .error (.valueError "unterminated JSONL final record must be an object")) := by
  have hopen : ¬ ((terminate lines ++ tail).isEmpty ||
      endsWithNewline (terminate lines ++ tail)) = true := by
    rw [Bool.or_eq_true, List.isEmpty_iff, endsWithNewline_iff htail]
    intro h
    obtain hnil | hends := h
    · exact hne (List.append_eq_nil_iff.mp hnil).2
    · exact hne hends.1
  unfold repairJsonlTail
  dsimp only
  rw [if_neg hopen, rdropWhile_terminate htail, rtakeWhile_terminate htail, splitOn_closed hlines,
    List.dropLast_concat]
  rfl

theorem classify_of_loads {line : Bytes} {j : Json} (h : loadsLine T line = some j) :
    classify T line = .value j := by
  refine classify_value ?_ h
  intro hblank
  rw [loadsLine_blank hblank] at h
  exact nomatch h

/-- the repair on bytes and the repair on a log agree -/
theorem repairJsonlTail_lines (hlines : ∀ line ∈ lines, newline ∉ line) (htail : newline ∉ tail) :
    (repairJsonlTail T (some (terminate lines ++ tail))).toOption.map
        (fun p => (p.1, p.2.map (logOf T))) =
      (repairedLog (logOf T (terminate lines ++ tail))).toOption.map
        fun log => ((logOf T (terminate lines ++ tail)).tail.isSome, some log) := by
  have hlog := logOf_lines (T := T) hlines htail
  have hclosedLog := logOf_closed (T := T) hlines
  cases tail with
  | nil =>
    rw [List.append_nil] at hlog ⊢
    rw [repairJsonlTail_closed, Except.toOption_bind, readJsonl_logOf, hlog]
    unfold readJsonl repairedLog
    cases (lines.map (classify T)).foldlM readLine [] with
    | error e => rfl
    | ok rows =>
      show some (false, some (logOf T (terminate lines))) = _
      rw [hlog]
      rfl
  | cons b tail =>
    have hread := readLines_terminated (T := T) lines 1 []
    rw [repairJsonlTail_open hlines htail (List.cons_ne_nil _ _), Except.toOption_bind, hread, hlog]
    unfold repairedLog
    rw [Except.toOption_bind]
    cases (lines.map (classify T)).foldlM readLine [] with
    | error e => rfl
    | ok rows =>
      show Option.map _ (Except.toOption _) = _
      cases hload : loadsLine T (b :: tail) with
      | none =>
        have hdropped : classify T (b :: tail) = .blank ∨ classify T (b :: tail) = .bad := by
          by_cases hspace : (b :: tail).all isSpaceByte = true
          · exact .inl (classify_blank hspace)
          · exact .inr (classify_bad hspace hload)
        show some (true, some (logOf T (terminate lines))) = _
        rw [hclosedLog]
        obtain h | h := hdropped <;> rw [h] <;> rfl
      | some j =>
        have hclass := classify_of_loads hload
        rw [hclass]
        cases j with
        | obj row =>
          have hall : ∀ line ∈ lines ++ [b :: tail], newline ∉ line := by
            intro line hline
            obtain hline | hline := List.mem_append.mp hline
            · exact hlines line hline
            · rw [List.mem_singleton.mp hline]
              exact htail
          have hkept := logOf_closed (T := T) hall
          rw [terminate_concat, List.map_append, List.map_singleton, hclass] at hkept
          show some (true, some (logOf T (terminate lines ++ (b :: tail) ++ [newline]))) = _
          rw [hkept]
          rfl
        | null => rfl
        | bool b => rfl
        | int i => rfl
        | float x => rfl
        | str s => rfl
        | arr xs => rfl

end

/-- `repair_jsonl_tail` repairs the log that the bytes hold -/
theorem repairJsonlTail_logOf (raw : Bytes) :
    (repairJsonlTail T (some raw)).toOption.map (fun p => (p.1, p.2.map (logOf T))) =
      (repairedLog (logOf T raw)).toOption.map
        fun log => ((logOf T raw).tail.isSome, some log) := by
  obtain ⟨lines, tail, hlines, htail, hraw⟩ := exists_lines raw
  rw [hraw]
  exact repairJsonlTail_lines hlines htail

end

end LogFile
end Dolores
