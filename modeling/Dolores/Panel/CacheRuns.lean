import Dolores.Panel.CacheFile

/-!
# The panel cache after any crashes

A calibrate session loads the cache and appends to it; the last append may be cut off at any byte.

* `wp_records`                         the appends of a session are those of `record`;
* `Closed`, `Unterminated`, `Broken`   what the file may hold after a session;
* `survives_closed`                    what a run of sessions does from each of them;
* `cache_survives_iff`                 every later session starts and finds the latest rates exactly
                                       when no append is cut off inside its record, and none that
                                       lacks its newline is followed by another.
-/

namespace Dolores
open Crash Except

namespace CacheFile
open JsonText LogFile

/-! ## sessions -/

/-- a session under one panel configuration: its live results, and the one whose append is cut off
with the bytes of it that are written -/
structure CalibrateSession where
  digest : String
  results : List LiveResult
  cut : Option (LiveResult × Nat)

section
variable (T : PyText) (A : FloatOps)

/-- the appends that complete -/
def CalibrateSession.entries (s : CalibrateSession) : List Entry :=
  s.results.filterMap (LiveResult.stored T A s.digest)

def CalibrateSession.cutEntry (s : CalibrateSession) : Option (Entry × Nat) :=
  s.cut.bind fun p => (p.1.stored T A s.digest).map fun e => (e, p.2)

/-- the file after the appends -/
def CalibrateSession.appended (s : CalibrateSession) (file : Option Bytes) : Option Bytes :=
  let file := (s.entries T A).foldl (append T) file
  match s.cutEntry T A with
  | none => file
  | some (e, count) => appendCut T file e count

/-- one session: the construction, and the appends -/
def runSession (file : Option Bytes) (s : CalibrateSession) : Except Exn (Option Bytes) := do
  let _ ← loadCacheFile T s.digest file
  .ok (s.appended T A file)

def runSessions (file : Option Bytes) (sessions : List CalibrateSession) :
    Except Exn (Option Bytes) := sessions.foldlM (runSession T A) file

/-- the records whose text was completely written -/
def CalibrateSession.written (s : CalibrateSession) : List Entry :=
  s.entries T A ++ match s.cutEntry T A with
    | none => []
    | some (e, count) => if (e.text T).length ≤ count then [e] else []

/-- every record of the session can be written and read back -/
def CalibrateSession.Writable (s : CalibrateSession) : Prop :=
  (∀ e ∈ s.entries T A, e.Writable T) ∧ ∀ e count, s.cutEntry T A = some (e, count) → e.Writable T

/-- nothing is written -/
def CalibrateSession.Quiet (s : CalibrateSession) : Prop :=
  s.entries T A = [] ∧ ∀ e count, s.cutEntry T A = some (e, count) → count = 0

/-- An append that is cut off wrote nothing or everything, or all but its newline and nothing is
written later. -/
def TidyCuts : List CalibrateSession → Prop
  | [] => True
  | s :: later => (∀ e count, s.cutEntry T A = some (e, count) → count = 0 ∨
        (e.text T).length < count ∨ count = (e.text T).length ∧ ∀ t ∈ later, t.Quiet T A) ∧
      TidyCuts later

end

/-- the cache of the world, with the records of these entries appended -/
def logged (T : PyText) (cache : Option Log) (entries : List Entry) : Option Log :=
  entries.foldl (fun cache e => some ((cache.getD {}).append (Json.canon (.obj (e.record T))))) cache

/-- **The calls of `record` make the appends of a session**, one for each live result that is
stored, in their order. -/
theorem wp_records {env : Env} {A : FloatOps} {digest : String}
    (results : List (String × LiveResult × Json)) {s : PanelSession} {w : World}
    (hactive : s.active = true) (hdigest : s.digest = some digest) :
    wp (results.foldlM (fun s r =>
        s.record env A .live r.1 (.str r.2.1.taskHash) r.2.1.rows r.2.2) s)
      (Post.onReturn fun _ w' => w'.panelCache = logged env.text w.panelCache
        (results.filterMap fun r => r.2.1.stored env.text A digest)) w := by
  induction results generalizing s w with
  | nil => rfl
  | cons r results ih =>
    rw [List.foldlM_cons]
    obtain ⟨entry, hrecord⟩ := record_stores env A hactive hdigest r.1 r.2.1 r.2.2
    rw [hrecord, List.filterMap_cons]
    cases r.2.1.stored env.text A digest with
    | none => exact ih hactive hdigest
    | some e =>
      dsimp only
      rw [bind_assoc, wp_bind]
      exact wp_effectful (ih hactive hdigest) (fun _ => trivial) (fun _ => trivial) trivial trivial

/-! ## what a session finds -/

/-- the rate of the latest record for the hash under the digest -/
def latestRate (entries : List Entry) (digest hash : String) : Option ℚ :=
  (entries.reverse.find? fun e => decide (e.digest = digest) && decide (e.taskHash = hash)).map
    (·.cleanSolveRate)

/-- Every session that passes its gates starts, and finds the latest rates. -/
def Serves (T : PyText) (file : Option Bytes) (entries : List Entry) : Prop :=
  ∀ (env : Env) (cfg : SubnetConfig) (gated : PanelSession) (digest : String), env.text = T →
    newPanelSession env cfg none = .ok gated → gated.digest = some digest →
    ∃ session, openPanelSession env cfg file = .ok session ∧ ∀ hash,
      session.cachedSolveRate (.str hash) = .ok (.ofOption .num (latestRate entries digest hash))

section
variable {T : PyText}

theorem get_cleanSolveRate (e : Entry) :
    Obj.get (e.record T).canon "clean_solve_rate" = .num e.cleanSolveRate := by
  rw [Obj.get_canon]
  exact Json.canon_num _

theorem cachedSolveRate_loaded {s : PanelSession} {digest : String} {entries : List Entry}
    (hactive : s.active = true) (hdigest : s.digest = some digest)
    (hcache : s.cache = loaded T digest entries) (hhashes : ∀ e ∈ entries, e.taskHash ≠ "")
    (hash : String) :
    s.cachedSolveRate (.str hash) = .ok (.ofOption .num (latestRate entries digest hash)) := by
  have hfind : s.cache.find? (fun entry => entry.1.sameKey (.str hash)) =
      (entries.reverse.find? fun e => decide (e.digest = digest) && decide (e.taskHash = hash)).map
        (Entry.cached T) := by
    rw [hcache]
    unfold loaded
    rw [← List.map_reverse, ← List.filter_reverse, List.find?_map, List.find?_filter]
    congr 2
    funext e
    show decide (decide (e.digest = digest) = true ∧ (e.taskHash == hash) = true) = _
    rw [Bool.decide_and, Bool.decide_eq_true, Bool.decide_eq_true, beq_eq_decide]
  unfold PanelSession.cachedSolveRate latestRate
  rw [hactive, hdigest]
  by_cases hempty : hash = ""
  · have hskip : (!true || !(Json.str hash).truthy || (some digest).isNone) = true := by
      rw [hempty]
      rfl
    rw [if_pos hskip]
    have hnone : (entries.reverse.find? fun e =>
        decide (e.digest = digest) && decide (e.taskHash = hash)) = none := by
      apply List.find?_eq_none.mpr
      intro e he
      rw [Bool.and_eq_true, decide_eq_true_eq, decide_eq_true_eq, hempty]
      exact fun h => hhashes e (List.mem_reverse.mp he) h.2
    rw [hnone]
    rfl
  · have hkeep : ¬ (!true || !(Json.str hash).truthy || (some digest).isNone) = true := by
      rw [show (Json.str hash).truthy = true from bne_iff_ne.mpr hempty]
      exact Bool.false_ne_true
    have hhashable : ¬ (Json.str hash).hashable = false := fun h => nomatch h
    rw [if_neg hkeep, if_neg hhashable, hfind]
    cases hlatest : entries.reverse.find? fun e =>
        decide (e.digest = digest) && decide (e.taskHash = hash) with
    | none => rfl
    | some e =>
      show Except.ok (Obj.get (e.record T).canon "clean_solve_rate") = _
      rw [get_cleanSolveRate]
      rfl

theorem newPanelSession_active {env : Env} {cfg : SubnetConfig} {s : PanelSession}
    {digest : String} (h : newPanelSession env cfg none = .ok s)
    (hdigest : s.digest = some digest) :
    s.active = true := by
  unfold newPanelSession at h
  dsimp only at h
  split at h
  · rw [← Except.ok.inj h] at hdigest
    exact nomatch hdigest
  · next hmode =>
    split at h
    · exact nomatch h
    · obtain ⟨specs, _, h⟩ := bind_ok h
      obtain ⟨_, _, h⟩ := bind_ok h
      obtain ⟨cache, _, h⟩ := bind_ok h
      rw [← Except.ok.inj h]
      exact beq_iff_eq.mpr (not_not.mp hmode)

theorem serves_of_load {file : Option Bytes} {entries : List Entry}
    (hload : ∀ digest, loadCacheFile T digest file = .ok (loaded T digest entries))
    (hhashes : ∀ e ∈ entries, e.taskHash ≠ "") : Serves T file entries := by
  intro env cfg gated digest htext hgated hdigest
  have hactive := newPanelSession_active hgated hdigest
  have hrates := @cachedSolveRate_loaded T { gated with cache := loaded T digest entries } digest
    entries hactive hdigest rfl hhashes
  refine ⟨{ gated with cache := loaded T digest entries }, ?_, hrates⟩
  unfold openPanelSession
  rw [hgated, ok_bind, hdigest]
  dsimp only
  rw [htext, hload, ok_bind]

/-- a configuration that needs no spend gates -/
def dryRunEnv (T : PyText) : Env :=
  { Env.plain with text := T, panelFile := some { digest := HexDigest.zero, solvers := .ok [] } }

def dryRunConfig : SubnetConfig := { panelMode := .calibrate, panelDryRun := true }

theorem not_serves_of_error {file : Option Bytes} {entries : List Entry}
    (h : ∀ digest, ∃ e, loadCacheFile T digest file = .error e) : ¬ Serves T file entries := by
  intro hserves
  obtain ⟨session, hopen, _⟩ := hserves (dryRunEnv T) dryRunConfig _ _ rfl rfl rfl
  obtain ⟨e, he⟩ := h HexDigest.zero.text
  have herror : openPanelSession (dryRunEnv T) dryRunConfig file = .error e := by
    show (loadCacheFile T HexDigest.zero.text file >>= _) = _
    rw [he]
    rfl
  rw [herror] at hopen
  exact nomatch hopen

/-! ## what a file holds -/

/-- the file holds these lines, and then an open part -/
structure Holds (file : Option Bytes) (lines : List (List Char)) (tail : List Char) : Prop where
  bytes : file.getD [] = (fileText lines tail).map asciiByte
  lines : ∀ line ∈ lines, AsciiText line
  tail : AsciiText tail

variable (T) in
/-- a record that `record` appends -/
def Storable (e : Entry) : Prop := e.Writable T ∧ e.taskHash ≠ ""

variable (T) in
/-- the lines of complete records -/
def texts (entries : List Entry) : List (List Char) := entries.map (Entry.text T)

variable (T) in
/-- complete records, all terminated -/
def Closed (file : Option Bytes) (entries : List Entry) : Prop :=
  Holds file (texts T entries) [] ∧ ∀ e ∈ entries, Storable T e

variable (T) in
/-- complete records, the last one without its newline -/
def Unterminated (file : Option Bytes) (entries : List Entry) (last : Entry) : Prop :=
  Holds file (texts T entries) (last.text T) ∧ ∀ e ∈ entries ++ [last], Storable T e

variable (T) in
/-- some line is not JSON -/
def Broken (file : Option Bytes) : Prop :=
  ∃ lines tail, Holds file lines tail ∧ ∃ line ∈ lines ++ [tail], Unreadable T line

theorem Holds.load {file : Option Bytes} {lines : List (List Char)} {tail : List Char}
    (h : Holds file lines tail) (digest : String) :
    loadCacheFile T digest file =
      (lines ++ if tail.isEmpty then [] else [tail]).foldlM (loadLine T digest) [] := by
  unfold loadCacheFile
  cases file with
  | none =>
    have hempty : (fileText lines tail).map asciiByte = [] := h.bytes.symm
    have htext := List.map_eq_nil_iff.mp hempty
    cases lines with
    | nil =>
      have htail : tail = [] := htext
      rw [htail]
      rfl
    | cons line lines =>
      rw [fileText_cons] at htext
      exact absurd htext (List.append_ne_nil_of_right_ne_nil _ (List.cons_ne_nil _ _))
  | some raw =>
    have hraw : raw = (fileText lines tail).map asciiByte := h.bytes
    dsimp only
    rw [hraw, readLines_eq h.lines h.tail, ok_bind]

theorem fileText_append (lines : List (List Char)) (tail more : List Char) :
    fileText lines tail ++ more = fileText lines (tail ++ more) := List.append_assoc _ _ _

theorem fileText_concat (lines : List (List Char)) (tail : List Char) :
    fileText (lines ++ [tail]) [] = fileText lines (tail ++ ['\n']) := by
  unfold fileText
  rw [List.flatMap_append, List.flatMap_singleton, List.append_nil]

theorem lineBytes_record {e : Entry} (h : e.Writable T) :
    lineBytes T (e.record T) = (e.text T ++ ['\n']).map asciiByte := by
  unfold lineBytes
  rw [recordBytes_eq h, List.map_append]
  rfl

section
variable {file : Option Bytes} {lines : List (List Char)} {tail : List Char} {e : Entry}

/-- an append ends the open part -/
theorem Holds.append (h : Holds file lines tail) (he : e.Writable T) :
    Holds (append T file e) (lines ++ [tail ++ e.text T]) [] where
  bytes := by
    show file.getD [] ++ lineBytes T (e.record T) = _
    rw [h.bytes, lineBytes_record he, ← List.map_append, fileText_append, fileText_concat,
      List.append_assoc]
  lines := by
    intro line hline
    rcases List.mem_append.mp hline with hline | hline
    · exact h.lines line hline
    · rw [List.mem_singleton.mp hline]
      exact h.tail.append (ascii_text he)
  tail := asciiText_nil

/-- an append that is cut off inside the record, or just before the newline -/
theorem Holds.cut (h : Holds file lines tail) (he : e.Writable T) {count : Nat}
    (hcount : count ≤ (e.text T).length) :
    Holds (appendCut T file e count) lines (tail ++ (e.text T).take count) where
  bytes := by
    show file.getD [] ++ (lineBytes T (e.record T)).take count = _
    rw [h.bytes, lineBytes_record he, ← List.map_take, List.take_append_of_le_length hcount,
      ← List.map_append, fileText_append]
  lines := h.lines
  tail := h.tail.append fun c hc => ascii_text he c (List.mem_of_mem_take hc)

/-- every byte was written -/
theorem appendCut_whole (file : Option Bytes) (he : e.Writable T) {count : Nat}
    (hcount : (e.text T).length < count) : appendCut T file e count = append T file e := by
  have hlength : (lineBytes T (e.record T)).length ≤ count := by
    rw [lineBytes_record he, List.length_map, List.length_append]
    exact hcount
  unfold appendCut append
  rw [List.take_of_length_le hlength]

theorem Holds.appends {new : List Entry} (hnew : ∀ e ∈ new, e.Writable T)
    (h : Holds file lines []) :
      Holds (new.foldl (CacheFile.append T) file) (lines ++ texts T new) [] := by
  induction new generalizing file lines with
  | nil =>
    unfold texts
    rw [List.map_nil, List.append_nil]
    exact h
  | cons e new ih =>
    have hstep := h.append (hnew e List.mem_cons_self)
    have hrest := ih (fun e' he' => hnew e' (List.mem_cons_of_mem e he')) hstep
    rw [List.append_assoc] at hrest
    exact hrest

end

/-! ## lines that are not JSON -/

theorem unreadable_take {e : Entry} (h : e.Writable T) {count : Nat} (hpos : 0 < count)
    (hcount : count < (e.text T).length) : Unreadable T ((e.text T).take count) := by
  constructor
  · obtain ⟨more, hmore⟩ := text_cons T e
    obtain ⟨n, hn⟩ := Nat.exists_eq_succ_of_ne_zero (Nat.ne_of_gt hpos)
    rw [hmore, hn, List.take_succ_cons]
    exact not_blank_of_brace
  · refine loads_prefix blank_gap (printable_record h) (List.take_append_drop count _) ?_
    intro hnil
    have hlength := congrArg List.length hnil
    rw [List.length_drop, List.length_nil] at hlength
    unfold Entry.text at hcount hlength
    omega

/-- a record that goes on is not JSON -/
theorem unreadable_more {e : Entry} (h : e.Writable T) (more : List Char) :
    Unreadable T (e.text T ++ '\x7b' :: more) := by
  constructor
  · obtain ⟨rest, hrest⟩ := text_cons T e
    rw [hrest]
    exact not_blank_of_brace
  · have hvalue := value_text blank_gap (.obj (e.record T).canon) (printable_record h)
      (e.text T ++ '\x7b' :: more).length ('\x7b' :: more)
      (by rw [List.length_append]; exact Nat.le_add_right _ _) (.inr rfl)
    have hstart : skip (e.text T ++ '\x7b' :: more) = e.text T ++ '\x7b' :: more :=
      ((starts_text [' '] (printable_record h)).append _).skip_eq
    have hleft : skip ('\x7b' :: more) = '\x7b' :: more := skip_cons (by decide) more
    unfold loads
    rw [hstart]
    unfold Entry.text at hvalue ⊢
    rw [hvalue]
    dsimp only
    rw [hleft]
    rfl

/-! ## a run of sessions -/

section
variable {A : FloatOps} {file : Option Bytes} {entries : List Entry} {e : Entry}

theorem stored_hash {digest : String} {r : LiveResult} (h : r.stored T A digest = some e) :
    e.taskHash ≠ "" := by
  unfold LiveResult.stored at h
  split at h
  · exact nomatch h
  · split at h
    · exact nomatch h
    · split at h
      · exact nomatch h
      · next hhash =>
        rw [← Option.some.inj h]
        exact hhash

theorem storable_entries {s : CalibrateSession} (h : s.Writable T A) :
    ∀ e ∈ s.entries T A, Storable T e := by
  intro e he
  refine ⟨h.1 e he, ?_⟩
  obtain ⟨r, _, hr⟩ := List.mem_filterMap.mp he
  exact stored_hash hr

theorem storable_cut {s : CalibrateSession} (h : s.Writable T A) {count : Nat}
    (hcut : s.cutEntry T A = some (e, count)) : Storable T e := by
  refine ⟨h.2 e count hcut, ?_⟩
  unfold CalibrateSession.cutEntry at hcut
  obtain ⟨p, _, hp⟩ := Option.bind_eq_some_iff.mp hcut
  obtain ⟨e', hstored, heq⟩ := Option.map_eq_some_iff.mp hp
  rw [← (Prod.mk.inj heq).1]
  exact stored_hash hstored

theorem storable_append {more : List Entry} (h : ∀ e ∈ entries, Storable T e)
    (hmore : ∀ e ∈ more, Storable T e) : ∀ e ∈ entries ++ more, Storable T e := by
  intro e he
  rcases List.mem_append.mp he with he | he
  · exact h e he
  · exact hmore e he

theorem text_ne_nil (e : Entry) : ¬ (e.text T).isEmpty = true := by
  obtain ⟨more, hmore⟩ := text_cons T e
  rw [hmore]
  exact fun h => nomatch h

theorem foldlM_texts (h : ∀ e ∈ entries, Storable T e) (digest : String) :
    (texts T entries).foldlM (loadLine T digest) [] = .ok (loaded T digest entries) := by
  unfold texts
  rw [foldlM_entries fun e he => (h e he).1, List.append_nil]

theorem Closed.load (h : Closed T file entries) (digest : String) :
    loadCacheFile T digest file = .ok (loaded T digest entries) := by
  rw [h.1.load, List.isEmpty_nil, if_pos rfl, List.append_nil, foldlM_texts h.2]

theorem Closed.serves (h : Closed T file entries) : Serves T file entries :=
  serves_of_load h.load fun e he => (h.2 e he).2

theorem Unterminated.load (h : Unterminated T file entries e) (digest : String) :
    loadCacheFile T digest file = .ok (loaded T digest (entries ++ [e])) := by
  have htexts : texts T entries ++ [e.text T] = texts T (entries ++ [e]) := by
    unfold texts
    rw [List.map_append, List.map_singleton]
  rw [h.1.load, if_neg (text_ne_nil e), htexts, foldlM_texts h.2]

theorem Unterminated.serves (h : Unterminated T file entries e) :
    Serves T file (entries ++ [e]) :=
  serves_of_load h.load fun e' he' => (h.2 e' he').2

theorem Broken.load (h : Broken T file) (digest : String) :
    ∃ e, loadCacheFile T digest file = .error e := by
  obtain ⟨lines, tail, hfile, line, hline, hbad⟩ := h
  rw [hfile.load]
  apply foldlM_unreadable
  refine ⟨line, ?_, hbad⟩
  rcases List.mem_append.mp hline with hline | hline
  · exact List.mem_append_left _ hline
  · have hne : ¬ tail.isEmpty = true := by
      intro hempty
      rw [List.mem_singleton.mp hline, List.isEmpty_iff.mp hempty] at hbad
      exact hbad.1 rfl
    rw [if_neg hne]
    exact List.mem_append_right _ hline

theorem Closed.appends (h : Closed T file entries) {new : List Entry}
    (hnew : ∀ e ∈ new, Storable T e) : Closed T (new.foldl (append T) file) (entries ++ new) := by
  have happends := h.1.appends fun e he => (hnew e he).1
  refine ⟨?_, storable_append h.2 hnew⟩
  unfold texts at happends ⊢
  rw [List.map_append]
  exact happends

theorem Closed.append (h : Closed T file entries) (he : Storable T e) :
    Closed T (append T file e) (entries ++ [e]) :=
  h.appends (List.forall_mem_singleton.mpr he)

/-- an append that wrote no byte -/
theorem Closed.cut_zero (h : Closed T file entries) : Closed T (appendCut T file e 0) entries := by
  refine ⟨⟨?_, h.1.lines, h.1.tail⟩, h.2⟩
  show file.getD [] ++ [] = _
  rw [List.append_nil, h.1.bytes]

theorem Closed.cut_inside (h : Closed T file entries) (he : Storable T e) {count : Nat}
    (hpos : 0 < count) (hcount : count < (e.text T).length) :
    Broken T (appendCut T file e count) := by
  have hcut := h.1.cut he.1 (Nat.le_of_lt hcount)
  exact ⟨_, _, hcut, _, List.mem_append_right _ (List.mem_singleton_self _),
    unreadable_take he.1 hpos hcount⟩

theorem Closed.cut_newline (h : Closed T file entries) (he : Storable T e) :
    Unterminated T (appendCut T file e (e.text T).length) entries e := by
  have hcut := h.1.cut he.1 (Nat.le_refl _)
  rw [List.take_length] at hcut
  exact ⟨hcut, storable_append h.2 (List.forall_mem_singleton.mpr he)⟩

/-- whatever follows an unterminated record makes its line unreadable -/
theorem Unterminated.append_broken (h : Unterminated T file entries e) {e' : Entry}
    (he' : Storable T e') {new : List Entry} (hnew : ∀ d ∈ new, Storable T d) :
    ∃ lines, Holds (new.foldl (CacheFile.append T) (CacheFile.append T file e')) lines [] ∧
      ∃ line ∈ lines, Unreadable T line := by
  obtain ⟨more, hmore⟩ := text_cons T e'
  have hlast := h.2 e (List.mem_append_right _ (List.mem_singleton_self _))
  have hbad := unreadable_more hlast.1 more
  rw [← hmore] at hbad
  refine ⟨_, (h.1.append he'.1).appends fun d hd => (hnew d hd).1, _, ?_, hbad⟩
  exact List.mem_append_left _ (List.mem_append_right _ (List.mem_singleton_self _))

theorem Unterminated.cut_broken (h : Unterminated T file entries e) {e' : Entry}
    (he' : Storable T e') {count : Nat} (hpos : 0 < count) :
    Broken T (appendCut T file e' count) := by
  by_cases hcount : (e'.text T).length < count
  · obtain ⟨lines, hfile, line, hline, hbad⟩ := h.append_broken he' (List.forall_mem_nil _)
    rw [appendCut_whole file he'.1 hcount]
    exact ⟨lines, [], hfile, line, List.mem_append_left _ hline, hbad⟩
  · have hcut := h.1.cut he'.1 (Nat.le_of_not_lt hcount)
    have hlast := h.2 e (List.mem_append_right _ (List.mem_singleton_self _))
    obtain ⟨more, hmore⟩ := text_cons T e'
    obtain ⟨n, hn⟩ := Nat.exists_eq_succ_of_ne_zero (Nat.ne_of_gt hpos)
    refine ⟨_, _, hcut, _, List.mem_append_right _ (List.mem_singleton_self _), ?_⟩
    rw [hmore, hn, List.take_succ_cons]
    exact unreadable_more hlast.1 _

/-- lines that no load gets past stay -/
theorem broken_cut {lines : List (List Char)} (hfile : Holds file lines [])
    (hbad : ∃ line ∈ lines, Unreadable T line) (he : e.Writable T) (count : Nat) :
    Broken T (appendCut T file e count) := by
  obtain ⟨line, hline, hbad⟩ := hbad
  by_cases hcount : (e.text T).length < count
  · rw [appendCut_whole file he hcount]
    exact ⟨_, _, hfile.append he, line,
      List.mem_append_left _ (List.mem_append_left _ hline), hbad⟩
  · exact ⟨_, _, hfile.cut he (Nat.le_of_not_lt hcount), line, List.mem_append_left _ hline, hbad⟩

/-! ### one session -/

theorem written_quiet {s : CalibrateSession} (h : s.Quiet T A) : s.written T A = [] := by
  unfold CalibrateSession.written
  rw [h.1, List.nil_append]
  cases hcut : s.cutEntry T A with
  | none => rfl
  | some p =>
    obtain ⟨e, count⟩ := p
    have hshort : ¬ (e.text T).length ≤ count := by
      rw [h.2 e count hcut, Nat.le_zero, List.length_eq_zero_iff]
      exact fun hnil => text_ne_nil e (List.isEmpty_iff.mpr hnil)
    exact if_neg hshort

theorem Unterminated.quiet (h : Unterminated T file entries e) {s : CalibrateSession}
    (hs : s.Quiet T A) : Unterminated T (s.appended T A file) entries e := by
  unfold CalibrateSession.appended
  rw [hs.1]
  cases hcut : s.cutEntry T A with
  | none => exact h
  | some p =>
    obtain ⟨e', count⟩ := p
    refine ⟨⟨?_, h.1.lines, h.1.tail⟩, h.2⟩
    show file.getD [] ++ (lineBytes T (e'.record T)).take count = _
    rw [hs.2 e' count hcut, List.take_zero, List.append_nil, h.1.bytes]

theorem Unterminated.not_quiet (h : Unterminated T file entries e) {s : CalibrateSession}
    (hwritable : s.Writable T A) (hs : ¬ s.Quiet T A) : Broken T (s.appended T A file) := by
  have hstorable := storable_entries hwritable
  unfold CalibrateSession.appended
  cases hentries : s.entries T A with
  | nil =>
    cases hcut : s.cutEntry T A with
    | none =>
      refine absurd ⟨hentries, ?_⟩ hs
      intro e' count hsome
      rw [hcut] at hsome
      exact nomatch hsome
    | some p =>
      obtain ⟨e', count⟩ := p
      have hpos : 0 < count := by
        apply Nat.pos_of_ne_zero
        intro hzero
        refine hs ⟨hentries, fun d n hd => ?_⟩
        rw [hcut] at hd
        rw [← (Prod.mk.inj (Option.some.inj hd)).2, hzero]
      exact h.cut_broken (storable_cut hwritable hcut) hpos
  | cons e' new =>
    rw [hentries] at hstorable
    obtain ⟨lines, hfile, hbad⟩ := h.append_broken (hstorable e' List.mem_cons_self)
      fun d hd => hstorable d (List.mem_cons_of_mem e' hd)
    cases hcut : s.cutEntry T A with
    | none =>
      obtain ⟨line, hline, hbad⟩ := hbad
      exact ⟨lines, [], hfile, line, List.mem_append_left _ hline, hbad⟩
    | some p => exact broken_cut hfile hbad (storable_cut hwritable hcut).1 p.2

/-! ### all sessions -/

variable (T A) in
/-- the sessions all start, and after them the latest of all complete records are found -/
def Survives (file : Option Bytes) (past : List Entry) (sessions : List CalibrateSession) : Prop :=
  ∃ file', runSessions T A file sessions = .ok file' ∧
    Serves T file' (past ++ sessions.flatMap (CalibrateSession.written T A))

theorem survives_nil (past : List Entry) :
    Survives T A file past [] ↔ Serves T file past := by
  unfold Survives
  rw [List.flatMap_nil, List.append_nil]
  constructor
  · rintro ⟨file', hrun, hserves⟩
    have heq : file = file' := Except.ok.inj hrun
    rw [heq]
    exact hserves
  · intro hserves
    exact ⟨file, rfl, hserves⟩

theorem survives_cons {s : CalibrateSession} {cache : List (Json × Obj)}
    (hload : loadCacheFile T s.digest file = .ok cache) (past : List Entry)
    (later : List CalibrateSession) :
    Survives T A file past (s :: later) ↔
      Survives T A (s.appended T A file) (past ++ s.written T A) later := by
  unfold Survives runSessions
  have hstep : runSession T A file s = .ok (s.appended T A file) := by
    unfold runSession
    rw [hload, ok_bind]
  rw [List.foldlM_cons, hstep, ok_bind, List.flatMap_cons, List.append_assoc]

theorem not_survives_broken (h : Broken T file) (past : List Entry)
    (sessions : List CalibrateSession) : ¬ Survives T A file past sessions := by
  cases sessions with
  | nil =>
    rw [survives_nil]
    exact not_serves_of_error h.load
  | cons s later =>
    rintro ⟨file', hrun, _⟩
    obtain ⟨e, he⟩ := h.load s.digest
    have hstep : runSession T A file s = .error e := by
      unfold runSession
      rw [he]
      rfl
    unfold runSessions at hrun
    rw [List.foldlM_cons, hstep] at hrun
    exact nomatch hrun

theorem survives_unterminated {sessions : List CalibrateSession}
    (hwritable : ∀ s ∈ sessions, s.Writable T A) (h : Unterminated T file entries e) :
    Survives T A file (entries ++ [e]) sessions ↔ ∀ s ∈ sessions, s.Quiet T A := by
  induction sessions generalizing file with
  | nil =>
    rw [survives_nil]
    exact iff_of_true h.serves (List.forall_mem_nil _)
  | cons s later ih =>
    have hlater := fun t ht => hwritable t (List.mem_cons_of_mem s ht)
    rw [survives_cons (h.load s.digest), List.forall_mem_cons]
    by_cases hquiet : s.Quiet T A
    · rw [written_quiet hquiet, List.append_nil, ih hlater (h.quiet hquiet)]
      exact (and_iff_right hquiet).symm
    · have hbroken := h.not_quiet (hwritable s List.mem_cons_self) hquiet
      exact iff_of_false (not_survives_broken hbroken _ later) fun hall => hquiet hall.1

theorem tidyCuts_of_quiet {sessions : List CalibrateSession} (h : ∀ s ∈ sessions, s.Quiet T A) :
    TidyCuts T A sessions := by
  induction sessions with
  | nil => exact trivial
  | cons s later ih =>
    refine ⟨?_, ih fun t ht => h t (List.mem_cons_of_mem s ht)⟩
    intro e count hcut
    exact .inl ((h s List.mem_cons_self).2 e count hcut)

/-- no append of the session is cut off, or the cut wrote nothing or everything -/
theorem Closed.session {s : CalibrateSession} (h : Closed T file entries)
    (hwritable : s.Writable T A)
    (hcut : ∀ e count, s.cutEntry T A = some (e, count) → count = 0 ∨ (e.text T).length < count) :
    Closed T (s.appended T A file) (entries ++ s.written T A) := by
  have happends := h.appends (storable_entries hwritable)
  unfold CalibrateSession.appended CalibrateSession.written
  rw [← List.append_assoc]
  cases hsome : s.cutEntry T A with
  | none =>
    rw [List.append_nil]
    exact happends
  | some p =>
    obtain ⟨e, count⟩ := p
    have hstorable := storable_cut hwritable hsome
    dsimp only
    rcases hcut e count hsome with hzero | hwhole
    · have hshort : ¬ (e.text T).length ≤ 0 := by
        rw [Nat.le_zero, List.length_eq_zero_iff]
        exact fun hnil => text_ne_nil e (List.isEmpty_iff.mpr hnil)
      rw [hzero, if_neg hshort, List.append_nil]
      exact happends.cut_zero
    · rw [appendCut_whole _ hstorable.1 hwhole, if_pos (Nat.le_of_lt hwhole)]
      exact happends.append hstorable

theorem survives_closed {sessions : List CalibrateSession}
    (hwritable : ∀ s ∈ sessions, s.Writable T A) (h : Closed T file entries) :
    Survives T A file entries sessions ↔ TidyCuts T A sessions := by
  induction sessions generalizing file entries with
  | nil =>
    rw [survives_nil]
    exact iff_of_true h.serves trivial
  | cons s later ih =>
    have hs := hwritable s List.mem_cons_self
    have hlater := fun t ht => hwritable t (List.mem_cons_of_mem s ht)
    rw [survives_cons (h.load s.digest), TidyCuts]
    by_cases hclean : ∀ e count, s.cutEntry T A = some (e, count) →
        count = 0 ∨ (e.text T).length < count
    · have htidy : ∀ e count, s.cutEntry T A = some (e, count) → count = 0 ∨
          (e.text T).length < count ∨
            count = (e.text T).length ∧ ∀ t ∈ later, t.Quiet T A := by
        intro e count hcut
        rcases hclean e count hcut with hzero | hwhole
        · exact .inl hzero
        · exact .inr (.inl hwhole)
      rw [ih hlater (h.session hs hclean)]
      exact (and_iff_right htidy).symm
    · obtain ⟨e, count, hcut, hzero, hwhole⟩ : ∃ e count, s.cutEntry T A = some (e, count) ∧
          count ≠ 0 ∧ ¬ (e.text T).length < count := by
        by_contra hnone
        refine hclean fun e count hcut => ?_
        by_contra hnot
        rw [not_or] at hnot
        exact hnone ⟨e, count, hcut, hnot⟩
      have hstorable := storable_cut hs hcut
      have happends := h.appends (storable_entries hs)
      have happended : s.appended T A file =
          appendCut T ((s.entries T A).foldl (append T) file) e count := by
        unfold CalibrateSession.appended
        rw [hcut]
      rw [happended]
      by_cases hend : count = (e.text T).length
      · -- only the newline is missing
        have hwritten : entries ++ s.written T A = entries ++ s.entries T A ++ [e] := by
          unfold CalibrateSession.written
          rw [hcut, ← List.append_assoc]
          dsimp only
          rw [if_pos (Nat.le_of_eq hend.symm)]
        have hopen := happends.cut_newline hstorable
        rw [hwritten, hend, survives_unterminated hlater hopen]
        constructor
        · intro hquiet
          refine ⟨?_, tidyCuts_of_quiet hquiet⟩
          intro e' count' hcut'
          rw [hcut] at hcut'
          obtain ⟨he, hcount⟩ := Prod.mk.inj (Option.some.inj hcut')
          rw [← he, ← hcount]
          exact .inr (.inr ⟨hend, hquiet⟩)
        · intro htidy
          rcases htidy.1 e count hcut with h0 | hlt | ⟨_, hquiet⟩
          · exact absurd h0 hzero
          · exact absurd hlt hwhole
          · exact hquiet
      · have hinside : count < (e.text T).length :=
          Nat.lt_of_le_of_ne (Nat.le_of_not_lt hwhole) hend
        have hbroken := happends.cut_inside hstorable (Nat.pos_of_ne_zero hzero) hinside
        refine iff_of_false (not_survives_broken hbroken _ later) ?_
        intro htidy
        rcases htidy.1 e count hcut with h0 | hlt | ⟨heq, _⟩
        · exact hzero h0
        · exact hwhole hlt
        · exact hend heq

end

/-! ## the cache after any crashes -/

theorem closed_none (T : PyText) : Closed T none [] :=
  ⟨⟨rfl, List.forall_mem_nil _, asciiText_nil⟩, List.forall_mem_nil _⟩

/-- Every session starts, and after them the latest rate of each task under the configuration is
found, exactly when no append is cut off inside its record, and none that lacks only its newline is
followed by another. -/
theorem cache_survives_iff (T : PyText) (A : FloatOps) (sessions : List CalibrateSession)
    (hwritable : ∀ s ∈ sessions, s.Writable T A) :
    (∃ file, runSessions T A none sessions = .ok file ∧
      Serves T file (sessions.flatMap (CalibrateSession.written T A))) ↔ TidyCuts T A sessions := by
  have hsurvives := survives_closed hwritable (closed_none T)
  unfold Survives at hsurvives
  rw [List.nil_append] at hsurvives
  exact hsurvives

/-- a task that one of two attempts solves -/
def sampleResult : LiveResult where
  taskHash := "h"
  rows := [[("passed", .bool true)], [("passed", .bool false)]]

def sampleEntry : Entry where
  taskHash := "h"
  digest := "d"
  cleanSolveRate := 1 / 2
  rows := sampleResult.rows

theorem stored_sample : sampleResult.stored LogFile.sampleText exactOps "d" = some sampleEntry := by
  have hrate : cleanSolveRateFromRows exactOps LogFile.sampleText sampleResult.rows =
      some (1 / 2) := by
    decide +kernel
  unfold LiveResult.stored
  rw [hrate]
  rfl

theorem writable_sampleEntry : sampleEntry.Writable LogFile.sampleText := by
  apply writable_entry
  · show number LogFile.sampleText (LogFile.sampleText.reprFloat (1 / 2)).toList =
      some (.float (.fin (1 / 2)), [])
    rw [show LogFile.sampleText.reprFloat (1 / 2) = "0.5" from if_pos rfl]
    rfl
  · intro row hrow key _
    have hget : ∀ b, Printable LogFile.sampleText (Obj.get [("passed", .bool b)] key) := by
      intro b
      unfold Obj.get
      by_cases hkey : "passed" = key
      · rw [← hkey]
        exact trivial
      · have hne : (key == "passed") = false := beq_eq_false_iff_ne.mpr (Ne.symm hkey)
        rw [Dict.get?, List.lookup_cons, hne]
        exact trivial
    rcases List.mem_cons.mp hrow with h | h
    · rw [h]
      exact hget true
    · rw [List.mem_singleton.mp h]
      exact hget false

/-- one session: a complete record, and one that is cut off after this many bytes -/
def sampleSession (count : Nat) : CalibrateSession where
  digest := "d"
  results := [sampleResult]
  cut := some (sampleResult, count)

theorem cutEntry_sample (count : Nat) :
    (sampleSession count).cutEntry LogFile.sampleText exactOps = some (sampleEntry, count) :=
  congrArg (Option.map fun e => (e, count)) stored_sample

theorem writable_sampleSession (count : Nat) :
    (sampleSession count).Writable LogFile.sampleText exactOps := by
  constructor
  · intro e he
    obtain ⟨r, hr, hstored⟩ := List.mem_filterMap.mp he
    rw [List.mem_singleton.mp hr] at hstored
    rw [← Option.some.inj (stored_sample.symm.trans hstored)]
    exact writable_sampleEntry
  · intro e n hcut
    rw [cutEntry_sample] at hcut
    rw [← (Prod.mk.inj (Option.some.inj hcut)).1]
    exact writable_sampleEntry

/-- the first record is complete and the second lacks its newline -/
theorem cache_survives_sample :
    ∃ file, runSessions LogFile.sampleText exactOps none [sampleSession 297] = .ok file ∧
      Serves LogFile.sampleText file
        ([sampleSession 297].flatMap (CalibrateSession.written LogFile.sampleText exactOps)) := by
  have hlength : (sampleEntry.text LogFile.sampleText).length = 297 := by decide +kernel
  apply (cache_survives_iff LogFile.sampleText exactOps [sampleSession 297] ?_).mpr
  · refine ⟨?_, trivial⟩
    intro e count hcut
    rw [cutEntry_sample] at hcut
    obtain ⟨he, hcount⟩ := Prod.mk.inj (Option.some.inj hcut)
    rw [← he, ← hcount, hlength]
    exact .inr (.inr ⟨rfl, List.forall_mem_nil _⟩)
  · exact List.forall_mem_singleton.mpr (writable_sampleSession 297)

/-- An append that is cut off inside its record: no later session under any configuration starts,
and the complete record before it is lost with it. -/
theorem torn_record_blocks_sessions :
    ¬ ∃ file, runSessions LogFile.sampleText exactOps none [sampleSession 12] = .ok file ∧
      Serves LogFile.sampleText file
        ([sampleSession 12].flatMap (CalibrateSession.written LogFile.sampleText exactOps)) := by
  have hlength : (sampleEntry.text LogFile.sampleText).length = 297 := by decide +kernel
  intro hsurvives
  have htidy := (survives_closed (List.forall_mem_singleton.mpr (writable_sampleSession 12))
    (closed_none LogFile.sampleText)).mp hsurvives
  rcases htidy.1 sampleEntry 12 (cutEntry_sample 12) with h | h | ⟨h, _⟩
  · exact absurd h (by decide)
  · rw [hlength] at h
    exact absurd h (by decide)
  · rw [hlength] at h
    exact absurd h (by decide)

end

end CacheFile
end Dolores
