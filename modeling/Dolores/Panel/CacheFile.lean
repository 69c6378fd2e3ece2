import Dolores.Panel.Impl
import Dolores.Holdout.Impl
import Dolores.Epoch.LogSurvival

/-!
# The bytes of the panel cache (`panel.py`)

`_load_cache` reads the whole file as text and parses it line by line; `_cache_store` appends one
record with a buffered write.

* `readLines_eq`            the lines of a file of printable lines and an open part;
* `foldlM_entries`          the cache that complete records give;
* `foldlM_unreadable`       a line that is not JSON makes every load fail.
-/

namespace Dolores
open Crash Except

namespace CacheFile
open JsonText LogFile

/-! ## loading -/

/-- the white space of `str.strip()` -/
def isStrSpace (c : Char) : Bool :=
  (9 ≤ c.toNat && c.toNat ≤ 13) || (28 ≤ c.toNat && c.toNat ≤ 32) ||
    [133, 160, 5760, 8232, 8233, 8239, 8287, 12288].contains c.toNat ||
    (8192 ≤ c.toNat && c.toNat ≤ 8202)

/-- the newlines of a file that is read as text -/
def universalNewlines : List Char → List Char
  | [] => []
  | c :: cs =>
    if c.toNat = 13 then
      match cs with
      | [] => ['\n']
      | c' :: cs' =>
        if c'.toNat = 10 then '\n' :: universalNewlines cs'
        else '\n' :: universalNewlines (c' :: cs')
    else c :: universalNewlines cs

/-- `path.read_text(encoding="utf-8").splitlines()` -/
def readLines (raw : Bytes) : Except Exn (List (List Char)) :=
  match decodeUtf8 raw with
  | none => .error (.unicodeDecodeError "invalid utf-8")
  | some cs => .ok (splitLines (universalNewlines cs) [])

section
variable (T : PyText)

/-- one line of `_load_cache` -/
def loadLine (digest : String) (cache : List (Json × Obj)) (line : List Char) :
    Except Exn (List (Json × Obj)) :=
  if line.all isStrSpace then .ok cache
  else
    match loads T line with
    | none => .error (.jsonDecodeError "Expecting value")
    | some j => loadCacheLine digest cache (.value j)

/-- `_load_cache` -/
def loadCacheFile (digest : String) (file : Option Bytes) : Except Exn (List (Json × Obj)) :=
  match file with
  | none => .ok []
  | some raw => do
    let lines ← readLines raw
    lines.foldlM (loadLine T digest) []

end

/-- `PanelSession.__init__`: the gates, and then the cache -/
def openPanelSession (env : Env) (cfg : SubnetConfig) (file : Option Bytes) :
    Except Exn PanelSession := do
  let session ← newPanelSession env cfg none
  match session.digest with
  | none => .ok session
  | some digest => do
    let cache ← loadCacheFile env.text digest file
    .ok { session with cache }

/-! ## storing -/

/-- a record of the cache -/
structure Entry where
  taskHash : String
  digest : String
  cleanSolveRate : ℚ
  rows : List Obj

section
variable (T : PyText)

/-- the record of `_cache_store` -/
def Entry.record (e : Entry) : Obj := [
  ("task_hash", .str e.taskHash),
  ("panel_digest", .str e.digest),
  ("clean_solve_rate", .num e.cleanSolveRate),
  ("rows", .arr ((e.rows.filter (genuineRow T)).map (pickKeys deterministicRowKeys)))]

/-- the results of a panel on one task -/
structure LiveResult where
  taskHash : String
  rows : List Obj

/-- what `record` stores of a live result -/
def LiveResult.stored (A : FloatOps) (digest : String) (r : LiveResult) : Option Entry :=
  if r.rows = [] then none
  else
    match cleanSolveRateFromRows A T r.rows with
    | none => none
    | some rate =>
      if r.taskHash = "" then none
      else some { taskHash := r.taskHash, digest, cleanSolveRate := rate, rows := r.rows }

/-- the append of `_cache_store`, when it completes -/
def append (file : Option Bytes) (e : Entry) : Option Bytes :=
  some (file.getD [] ++ lineBytes T (e.record T))

/-- the append, when only this many bytes of it are written -/
def appendCut (file : Option Bytes) (e : Entry) (count : Nat) : Option Bytes :=
  some (file.getD [] ++ (lineBytes T (e.record T)).take count)

end

/-- `record` of a live result appends the record of its entry, and nothing else -/
theorem record_stores (env : Env) (A : FloatOps) {s : PanelSession} {digest : String}
    (hactive : s.active = true) (hdigest : s.digest = some digest) (taskId : String)
    (r : LiveResult) (cachedRate : Json) :
    ∃ entry : Obj, s.record env A .live taskId (.str r.taskHash) r.rows cachedRate =
      match r.stored env.text A digest with
      | none => pure { s with entries := s.entries ++ [entry] }
      | some e =>
        appendPanelCacheLine env (.obj (e.record env.text)) >>= fun _ =>
          pure { s with entries := s.entries ++ [entry]
                        cache := (.str e.taskHash, e.record env.text) :: s.cache } := by
  unfold PanelSession.record LiveResult.stored
  rw [if_neg (by rw [hactive]; decide)]
  by_cases hrows : r.rows = []
  · rw [if_neg (fun h => h.2 hrows), if_pos hrows, if_neg (by decide), if_neg (by decide)]
    exact ⟨_, rfl⟩
  · rw [if_pos ⟨rfl, hrows⟩, if_neg hrows]
    cases hrate : cleanSolveRateFromRows A env.text r.rows with
    | none => exact ⟨_, rfl⟩
    | some rate =>
      dsimp only
      by_cases hhash : r.taskHash = ""
      · rw [if_pos hhash, if_neg (by rw [hhash]; decide)]
        exact ⟨_, rfl⟩
      · have htruthy : (Json.str r.taskHash).truthy = true := bne_iff_ne.mpr hhash
        rw [if_neg hhash, if_pos htruthy]
        have hhashable : ¬ (Json.str r.taskHash).hashable = false := fun h => nomatch h
        unfold cacheStore
        dsimp only
        rw [if_neg hhashable, hdigest, bind_assoc]
        exact ⟨_, rfl⟩

/-! ## the lines of a file -/

theorem isLineBreak_of_ascii {c : Char} (h : 32 ≤ c.toNat ∧ c.toNat < 128) :
    isLineBreak c = false := by
  unfold isLineBreak
  simp only [List.contains_cons, List.contains_nil, Bool.or_false, Bool.or_eq_false_iff,
    beq_eq_false_iff_ne]
  omega

theorem splitLines_line {line : List Char} (h : AsciiText line) (rest seen : List Char) :
    splitLines (line ++ '\n' :: rest) seen = (seen.reverse ++ line) :: splitLines rest [] := by
  induction line generalizing seen with
  | nil =>
    rw [List.nil_append, List.append_nil]
    conv_lhs => unfold splitLines
    rw [if_pos (by decide)]
    cases rest with
    | nil => rfl
    | cons c rest =>
      dsimp only
      rw [if_neg (fun hc => absurd hc.1 (by decide))]
  | cons c line ih =>
    have hc := isLineBreak_of_ascii (h c List.mem_cons_self)
    rw [List.cons_append]
    conv_lhs => unfold splitLines
    rw [hc, if_neg Bool.false_ne_true, ih fun d hd => h d (List.mem_cons_of_mem c hd)]
    rw [List.reverse_cons, List.append_assoc, List.singleton_append]

theorem splitLines_open {line : List Char} (h : AsciiText line) (seen : List Char) :
    splitLines line seen =
      if (seen.reverse ++ line).isEmpty then [] else [seen.reverse ++ line] := by
  induction line generalizing seen with
  | nil =>
    rw [List.append_nil]
    cases seen with
    | nil => rfl
    | cons c seen =>
      rw [if_neg]
      · rfl
      · intro hempty
        have hnil := List.isEmpty_iff.mp hempty
        rw [List.reverse_eq_nil_iff] at hnil
        exact nomatch hnil
  | cons c line ih =>
    have hc := isLineBreak_of_ascii (h c List.mem_cons_self)
    conv_lhs => unfold splitLines
    rw [hc, if_neg Bool.false_ne_true, ih fun d hd => h d (List.mem_cons_of_mem c hd),
      List.reverse_cons, List.append_assoc, List.singleton_append]

/-- the text of terminated lines and an open part -/
def fileText (lines : List (List Char)) (tail : List Char) : List Char :=
  lines.flatMap (fun line => line ++ ['\n']) ++ tail

theorem fileText_cons (line : List Char) (lines : List (List Char)) (tail : List Char) :
    fileText (line :: lines) tail = line ++ '\n' :: fileText lines tail := by
  unfold fileText
  rw [List.flatMap_cons, List.append_assoc, List.append_assoc, List.singleton_append]

section
variable {lines : List (List Char)} {tail : List Char}

theorem splitLines_fileText (hlines : ∀ line ∈ lines, AsciiText line) (htail : AsciiText tail) :
    splitLines (fileText lines tail) [] = lines ++ if tail.isEmpty then [] else [tail] := by
  induction lines with
  | nil => exact splitLines_open htail []
  | cons line lines ih =>
    rw [fileText_cons, splitLines_line (hlines line List.mem_cons_self),
      ih fun l hl => hlines l (List.mem_cons_of_mem line hl)]
    rfl

theorem fileText_bounds (hlines : ∀ line ∈ lines, AsciiText line) (htail : AsciiText tail) :
    ∀ c ∈ fileText lines tail, c.toNat < 128 ∧ c.toNat ≠ 13 := by
  have hascii : ∀ cs : List Char, AsciiText cs → ∀ c ∈ cs, c.toNat < 128 ∧ c.toNat ≠ 13 := by
    intro cs hcs c hc
    have hbounds := hcs c hc
    omega
  intro c hc
  rcases List.mem_append.mp hc with hc | hc
  · obtain ⟨line, hline, hc⟩ := List.mem_flatMap.mp hc
    rcases List.mem_append.mp hc with hc | hc
    · exact hascii line (hlines line hline) c hc
    · rw [List.mem_singleton.mp hc]
      decide
  · exact hascii tail htail c hc

theorem universalNewlines_eq {cs : List Char} (h : ∀ c ∈ cs, c.toNat ≠ 13) :
    universalNewlines cs = cs := by
  induction cs with
  | nil => rfl
  | cons c cs ih =>
    unfold universalNewlines
    rw [if_neg (h c List.mem_cons_self), ih fun d hd => h d (List.mem_cons_of_mem c hd)]

theorem readLines_eq (hlines : ∀ line ∈ lines, AsciiText line) (htail : AsciiText tail) :
    readLines ((fileText lines tail).map asciiByte) =
      .ok (lines ++ if tail.isEmpty then [] else [tail]) := by
  have hbounds := fileText_bounds hlines htail
  have hdecode := decodeUtf8_encodeUtf8 (fileText lines tail)
  rw [encodeUtf8_ascii fun c hc => (hbounds c hc).1] at hdecode
  unfold readLines
  rw [hdecode]
  dsimp only
  rw [universalNewlines_eq fun c hc => (hbounds c hc).2, splitLines_fileText hlines htail]

end

/-! ## the lines of records -/

section
variable {T : PyText}

/-- the text of a record -/
def Entry.text (T : PyText) (e : Entry) : List Char :=
  JsonText.text T [' '] (.obj (e.record T).canon)

/-- the record can be written and read back -/
def Entry.Writable (T : PyText) (e : Entry) : Prop := LogFile.Writable T (e.record T)

theorem printable_pickKeys {row : Obj}
    (h : ∀ key ∈ deterministicRowKeys, Printable T (row.get key)) :
    Printable T (pickKeys deterministicRowKeys row) := by
  have hkeys : Dict.keys (deterministicRowKeys.map fun key => (key, row.get key)) =
      deterministicRowKeys := rfl
  unfold pickKeys
  rw [Printable, hkeys, printableFields_iff]
  refine ⟨by decide, ?_⟩
  intro p hp
  obtain ⟨key, hkey, heq⟩ := List.mem_map.mp hp
  rw [← heq]
  exact h key hkey

/-- the record can be written if its rate and the values of its rows can -/
theorem writable_entry {e : Entry} (hrate : Printable T (.num e.cleanSolveRate))
    (hrows : ∀ row ∈ e.rows, ∀ key ∈ deterministicRowKeys, Printable T (row.get key)) :
    e.Writable T := by
  have hitems : PrintableItems T
      ((e.rows.filter (genuineRow T)).map (pickKeys deterministicRowKeys)) := by
    apply printableItems_iff.mpr
    intro x hx
    obtain ⟨row, hrow, heq⟩ := List.mem_map.mp hx
    rw [← heq]
    exact printable_pickKeys (hrows row (List.mem_of_mem_filter hrow))
  have hkeys : Dict.keys (e.record T) =
    ["task_hash", "panel_digest", "clean_solve_rate", "rows"] := rfl
  unfold Entry.Writable LogFile.Writable
  rw [Printable, hkeys]
  unfold Entry.record
  refine ⟨by decide, ?_⟩
  simp only [PrintableFields, Printable]
  exact ⟨trivial, trivial, hrate, hitems, trivial⟩

theorem ascii_text {e : Entry} (h : e.Writable T) : AsciiText (e.text T) :=
  text_ascii asciiText_gap _ (printable_record h)

theorem text_cons (T : PyText) (e : Entry) : ∃ more, e.text T = '\x7b' :: more := by
  unfold Entry.text
  rw [JsonText.text]
  exact ⟨_, rfl⟩

/-- a line that begins like a record is not blank -/
theorem not_blank_of_brace {more : List Char} : ¬ ('\x7b' :: more).all isStrSpace = true := by
  intro h
  rw [List.all_cons, Bool.and_eq_true] at h
  exact absurd h.1 (by decide)

/-- what a session with the digest keeps of a record -/
def Entry.cached (T : PyText) (e : Entry) : Json × Obj := (.str e.taskHash, (e.record T).canon)

theorem loadLine_text {e : Entry} (h : e.Writable T) (digest : String)
    (cache : List (Json × Obj)) :
    loadLine T digest cache (e.text T) =
      .ok (if e.digest = digest then e.cached T :: cache else cache) := by
  obtain ⟨more, hmore⟩ := text_cons T e
  have hblank : ¬ (e.text T).all isStrSpace = true := by
    rw [hmore]
    exact not_blank_of_brace
  have hload : loads T (e.text T) = some (.obj (e.record T).canon) :=
    loads_text blank_gap (printable_record h)
  have hdigest : Obj.get (e.record T).canon "panel_digest" = .str e.digest := by
    rw [Obj.get_canon]
    exact Json.canon_str _
  have hhash : Dict.get? (e.record T).canon "task_hash" = some (.str e.taskHash) := by
    rw [Obj.get?_canon]
    show some (Json.canon (.str e.taskHash)) = _
    rw [Json.canon_str]
  unfold loadLine
  rw [if_neg hblank, hload]
  dsimp only
  unfold loadCacheLine
  dsimp only
  rw [hdigest, hhash]
  by_cases he : e.digest = digest
  · have hsame : (Json.str e.digest).eqStr digest = true := beq_iff_eq.mpr he
    rw [if_pos he, hsame, if_neg (by decide)]
    rfl
  · have hdiff : (Json.str e.digest).eqStr digest = false := beq_eq_false_iff_ne.mpr he
    rw [if_neg he, if_pos hdiff]

/-- the cache that complete records give -/
def loaded (T : PyText) (digest : String) (entries : List Entry) : List (Json × Obj) :=
  ((entries.filter fun e => e.digest = digest).map (Entry.cached T)).reverse

theorem foldlM_entries {entries : List Entry} (h : ∀ e ∈ entries, e.Writable T) (digest : String)
    (cache : List (Json × Obj)) :
    (entries.map (Entry.text T)).foldlM (loadLine T digest) cache =
      .ok (loaded T digest entries ++ cache) := by
  induction entries generalizing cache with
  | nil => rfl
  | cons e entries ih =>
    rw [List.map_cons, List.foldlM_cons, loadLine_text (h e List.mem_cons_self), ok_bind,
      ih fun e' he' => h e' (List.mem_cons_of_mem e he')]
    unfold loaded
    rw [List.filter_cons]
    by_cases he : e.digest = digest
    · rw [if_pos he, if_pos (by simpa using he), List.map_cons, List.reverse_cons,
        List.append_assoc, List.singleton_append]
    · rw [if_neg he, if_neg (by simpa using he)]

/-- a line that no load gets past -/
def Unreadable (T : PyText) (line : List Char) : Prop :=
  ¬ line.all isStrSpace = true ∧ loads T line = none

theorem foldlM_unreadable {lines : List (List Char)} (h : ∃ line ∈ lines, Unreadable T line)
    (digest : String) (cache : List (Json × Obj)) :
    ∃ e, lines.foldlM (loadLine T digest) cache = .error e := by
  induction lines generalizing cache with
  | nil =>
    obtain ⟨line, hline, _⟩ := h
    exact (List.not_mem_nil hline).elim
  | cons line lines ih =>
    rw [List.foldlM_cons]
    cases hstep : loadLine T digest cache line with
    | error e => exact ⟨e, rfl⟩
    | ok cache' =>
      rw [ok_bind]
      apply ih
      obtain ⟨bad, hbad, hblank, hload⟩ := h
      rcases List.mem_cons.mp hbad with he | hmem
      · unfold loadLine at hstep
        rw [← he, if_neg hblank, hload] at hstep
        exact nomatch hstep
      · exact ⟨bad, hmem, hblank, hload⟩

end

end CacheFile
end Dolores
