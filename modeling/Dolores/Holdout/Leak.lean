import Dolores.Lib.MarkScan
import Dolores.Panel.CacheFile

/-!
# The leak detector (`evidence_contains_active_material`)

The detector searches the text of the record for a quoted key that contains a forbidden word.  The
text is followed with the scanner of `MarkScan`: between strings it stands in punctuation, words
and numbers, which contain no forbidden word; a string leaves the run of its last plain characters.

* `feed_quoted`         what a string does to the scanner;
* `feed_text`           what the text of a value does: each key is found if it shows the word;
* `leak_detector_iff`   the detector is right about a record exactly when no key contains a
                        forbidden word, or some key shows one.
-/

namespace Dolores
open JsonText MarkScan
open CacheFile (isStrSpace)

/-! ## the detector -/

/-- `str.lower`; an ASCII text at the end is lowered character by character, whatever precedes it -/
structure StrLower where
  lower : List Char → List Char
  ascii : ∀ cs, (∀ c ∈ cs, c.toNat < 128) → lower cs = cs.map Char.toLower
  ascii_suffix : ∀ cs ds, (∀ d ∈ ds, d.toNat < 128) → ds.map Char.toLower <:+ lower (cs ++ ds)

/-- the quote, the backslash and the colon -/
def jsonMarks : Alphabet Char where
  mark := '"'
  escape := '\\'
  colon := ':'
  blank := isStrSpace
  mark_ne_escape := by decide
  colon_ne_mark := by decide
  colon_ne_escape := by decide
  not_blank_mark := by decide
  not_blank_escape := by decide
  not_blank_colon := by decide

/-- `re.search(rf'"[^"\\]*{name}[^"\\]*"\s*:', serialized)` -/
def searchKey (name : String) (serialized : List Char) : Bool :=
  search jsonMarks (hasInfix name.toList) serialized

def forbiddenWords : List String := ["cases", "test_source", "holdout_task", "secret"]

def evidenceContainsActiveMaterial (L : StrLower) (T : PyText) (record : Obj) : Bool :=
  let serialized := L.lower (text T [' '] (Json.canon (.obj record)))
  forbiddenWords.any fun name => searchKey name serialized

/-! ## keys -/

mutual
/-- the keys of all dicts inside a value -/
def keysWithin : Json → List String
  | .arr xs => keysOfItems xs
  | .obj fs => keysOfMembers fs
  | .null => []
  | .bool _ => []
  | .int _ => []
  | .float _ => []
  | .str _ => []

def keysOfItems : List Json → List String
  | [] => []
  | x :: xs => keysWithin x ++ keysOfItems xs

def keysOfMembers : List (String × Json) → List String
  | [] => []
  | (k, x) :: fs => k :: keysWithin x ++ keysOfMembers fs
end

/-- some key, lower-cased, contains a forbidden word -/
def HasForbiddenKey (L : StrLower) (record : Obj) : Prop :=
  ∃ k ∈ keysWithin (.obj record), ∃ word ∈ forbiddenWords,
    hasInfix word.toList (L.lower k.toList) = true

/-- the JSON text has the character as it is -/
def unescaped (c : Char) : Bool := 32 ≤ c.toNat && c.toNat ≤ 126 && c ≠ '"' && c ≠ '\\'

/-- the characters after the last one that is escaped -/
def shownPart (key : List Char) : List Char := key.rtakeWhile unescaped

/-- the key shows the word: it is in the part after the last escaped character, and that character,
if there is one, is a quote -/
def Shows (word key : String) : Bool :=
  (key.toList.rdropWhile unescaped).getLast?.all (· == '"') &&
    hasInfix word.toList ((shownPart key.toList).map Char.toLower)

/-! ## infixes -/

theorem hasInfix_iff {pattern text : List Char} :
    hasInfix pattern text = true ↔ pattern <:+: text := by
  induction text with
  | nil =>
    rw [hasInfix, List.isEmpty_iff, List.infix_nil]
  | cons c text ih =>
    rw [hasInfix, Bool.or_eq_true, ih, List.isPrefixOf_iff_prefix, List.infix_cons_iff]

/-- the characters of the text outside the strings, lower-cased -/
def structuralChars : List Char := "0123456789+-.eatrufslniy[]\x7b\x7d,: ".toList

theorem plain_structural {c : Char} (h : c ∈ structuralChars) : jsonMarks.plain c = true := by
  have hall : structuralChars.all jsonMarks.plain = true := by decide
  exact List.all_eq_true.mp hall c h

theorem structural_of_all {cs : List Char}
    (h : cs.all (fun c => structuralChars.contains c.toLower) = true) :
    ∀ c ∈ cs, c.toLower ∈ structuralChars :=
  fun c hc => List.contains_iff_mem.mp (List.all_eq_true.mp h c hc)

theorem comma_structural : ',' ∈ structuralChars := by decide

theorem blank_structural : ' ' ∈ structuralChars := by decide

theorem bracket_structural : ']' ∈ structuralChars := by decide

theorem brace_structural : '\x7d' ∈ structuralChars := by decide

/-- the word has a character that does not occur outside the strings -/
def Foreign (word : String) : Prop := ∃ c ∈ word.toList, c ∉ structuralChars

theorem foreign_forbidden : ∀ word ∈ forbiddenWords, Foreign word := by
  intro word hword
  have hall : (forbiddenWords.all fun word =>
      word.toList.any fun c => !structuralChars.contains c) = true := by decide
  obtain ⟨c, hc, hnot⟩ := List.any_eq_true.mp (List.all_eq_true.mp hall word hword)
  refine ⟨c, hc, fun hmem => ?_⟩
  rw [List.contains_iff_mem.mpr hmem] at hnot
  exact Bool.false_ne_true hnot

theorem not_hit_structural {word : String} (hword : Foreign word) {run : List Char}
    (hrun : ∀ c ∈ run, c ∈ structuralChars) : hasInfix word.toList run = false := by
  obtain ⟨c, hc, hforeign⟩ := hword
  by_contra hhit
  have hinfix := hasInfix_iff.mp (Bool.eq_true_of_not_eq_false hhit)
  exact hforeign (hrun c (List.IsInfix.subset hinfix hc))

/-! ## the scanner between strings -/

section
variable {word : String} {s : State Char} {f : Bool}

/-- the scanner reads the text, lower-cased -/
def feed (word : String) (s : State Char) (cs : List Char) : State Char :=
  (cs.map Char.toLower).foldl (step jsonMarks (hasInfix word.toList)) s

theorem feed_append (cs ds : List Char) :
    feed word s (cs ++ ds) = feed word (feed word s cs) ds := by
  unfold feed
  rw [List.map_append, List.foldl_append]

theorem feed_cons (c : Char) (cs : List Char) : feed word s (c :: cs) =
    feed word (step jsonMarks (hasInfix word.toList) s c.toLower) cs := rfl

theorem feed_nil : feed word s [] = s := rfl

/-- the run holds characters from outside the strings only -/
structure Between (f : Bool) (s : State Char) : Prop where
  found : s.found = f
  run : ∀ run, s.run = some run → ∀ c ∈ run, c ∈ structuralChars

structure Ready (f : Bool) (s : State Char) : Prop extends Between f s where
  pending : s.pending = false

theorem Between.step (h : Between f s) {c : Char} (hc : c ∈ structuralChars) (hcolon : c ≠ ':')
    (hblank : isStrSpace c = false) :
    Ready f (step jsonMarks (hasInfix word.toList) s c) := by
  rw [step_plain (plain_structural hc)]
  refine ⟨⟨?_, ?_⟩, ?_⟩
  · show (s.found || (s.pending && c == ':')) = f
    rw [beq_false_of_ne hcolon, Bool.and_false, Bool.or_false, h.found]
  · intro run hrun
    obtain ⟨before, hbefore, heq⟩ := Option.map_eq_some_iff.mp hrun
    rw [← heq]
    exact List.forall_mem_cons.mpr ⟨hc, h.run before hbefore⟩
  · show (s.pending && isStrSpace c) = false
    rw [hblank, Bool.and_false]

theorem Ready.step (h : Ready f s) {c : Char} (hc : c ∈ structuralChars) :
    Ready f (step jsonMarks (hasInfix word.toList) s c) := by
  rw [step_plain (plain_structural hc)]
  refine ⟨⟨?_, ?_⟩, ?_⟩
  · show (s.found || (s.pending && c == ':')) = f
    rw [h.pending, Bool.false_and, Bool.or_false, h.found]
  · intro run hrun
    obtain ⟨before, hbefore, heq⟩ := Option.map_eq_some_iff.mp hrun
    rw [← heq]
    exact List.forall_mem_cons.mpr ⟨hc, h.run before hbefore⟩
  · show (s.pending && isStrSpace c) = false
    rw [h.pending, Bool.false_and]

theorem Ready.feed {cs : List Char} (h : Ready f s)
    (hcs : ∀ c ∈ cs, c.toLower ∈ structuralChars) : Ready f (feed word s cs) := by
  induction cs generalizing s with
  | nil => exact h
  | cons c cs ih =>
    obtain ⟨hc, hcs⟩ := List.forall_mem_cons.mp hcs
    exact ih (h.step hc) hcs

theorem structural_isNumberChar {c : Char} (h : isNumberChar c = true) :
    c.toLower ∈ structuralChars := by
  have hall : ∀ n < 128, isNumberChar (Char.ofNat n) = true →
      (Char.ofNat n).toLower ∈ structuralChars := by decide
  have hc := hall c.toNat (ascii_of_isNumberChar h).2
  rw [Char.ofNat_toNat] at hc
  exact hc h

/-! ## the scanner inside a string -/

/-- the run after one more character of a string -/
def nextRun (run : Option (List Char)) (c : Char) : Option (List Char) :=
  if c = '"' then some [] else if unescaped c then run.map (c.toLower :: ·) else none

/-- inside a string nothing is pending -/
def inside (f : Bool) (run : Option (List Char)) : State Char :=
  { found := f, pending := false, run }

theorem feed_hidden {cs : List Char} (hcs : ∀ c ∈ cs, c.toLower ≠ '"') :
    feed word (inside f none) cs = inside f none := by
  induction cs with
  | nil => rfl
  | cons c cs ih =>
    obtain ⟨hc, hcs⟩ := List.forall_mem_cons.mp hcs
    have hstep : step jsonMarks (hasInfix word.toList) (inside f none) c.toLower =
        inside f none := by
      have hmark : c.toLower ≠ jsonMarks.mark := hc
      unfold step
      rw [if_neg hmark]
      split
      · rfl
      · show State.mk (f || (false && _)) (false && _) none = inside f none
        rw [Bool.false_and, Bool.false_and, Bool.or_false]
        rfl
    rw [feed_cons, hstep]
    exact ih hcs

theorem unescaped_of_bounds {c : Char} (h : 32 ≤ c.toNat ∧ c.toNat ≤ 126) (hquote : c ≠ '"')
    (hback : c ≠ '\\') : unescaped c = true := by
  unfold unescaped
  simp only [Bool.and_eq_true, decide_eq_true_iff]
  exact ⟨⟨h, hquote⟩, hback⟩

theorem unescaped_bounds {c : Char} (h : unescaped c = true) :
    (32 ≤ c.toNat ∧ c.toNat ≤ 126) ∧ c ≠ '"' ∧ c ≠ '\\' := by
  unfold unescaped at h
  simp only [Bool.and_eq_true, decide_eq_true_iff] at h
  exact ⟨h.1.1, h.1.2, h.2⟩

theorem char_eq {c d : Char} (h : c.toNat = d.toNat) : c = d := Char.ext (UInt32.toNat_inj.mp h)

theorem escapeChar_unescaped {c : Char} (h : unescaped c = true) :
    (escapeChar c).toList = [c] := by
  obtain ⟨hbounds, hquote, hback⟩ := unescaped_bounds h
  have hquote' : c.toNat ≠ 34 := fun hc => hquote (char_eq (d := '"') hc)
  have hback' : c.toNat ≠ 92 := fun hc => hback (char_eq (d := '\\') hc)
  unfold escapeChar
  dsimp only
  rw [if_neg hquote', if_neg hback', if_neg (by omega), if_neg (by omega), if_neg (by omega),
    if_neg (by omega), if_neg (by omega), if_pos hbounds]
  exact String.toList_singleton c

theorem hexDigit_ne_quote (n : Nat) : (hexDigit (n % 16)).toLower ≠ '"' := by
  have hall : ∀ d < 16, (hexDigit d).toLower ≠ '"' := by decide
  exact hall (n % 16) (Nat.mod_lt n (by decide))

theorem escapeUnit_ne_quote (u : Nat) : ∀ c ∈ (escapeUnit u).toList, c.toLower ≠ '"' := by
  have hback : Char.toLower '\\' ≠ '"' := by decide
  have hletter : Char.toLower 'u' ≠ '"' := by decide
  rw [toList_escapeUnit]
  simp only [List.forall_mem_cons, List.not_mem_nil, false_implies, implies_true, and_true]
  exact ⟨hback, hletter, hexDigit_ne_quote _, hexDigit_ne_quote _, hexDigit_ne_quote _,
    hexDigit_ne_quote _⟩

/-- an escape other than that of a quote is a backslash and characters that are no quotes -/
theorem escapeChar_escaped {c : Char} (h : unescaped c = false) (hquote : c ≠ '"') :
    ∃ tail, (escapeChar c).toList = '\\' :: tail ∧ ∀ d ∈ tail, d.toLower ≠ '"' := by
  have hunit : ∀ u more, (∀ d ∈ more, d.toLower ≠ '"') →
      ∃ tail, (escapeUnit u).toList ++ more = '\\' :: tail ∧ ∀ d ∈ tail, d.toLower ≠ '"' := by
    intro u more hmore
    have hall := forall_append (escapeUnit_ne_quote u) hmore
    rw [toList_escapeUnit] at hall ⊢
    exact ⟨_, rfl, fun d hd => hall d (List.mem_cons_of_mem _ hd)⟩
  -- the only letter that is a quote stands for a quote
  have hletters : ∀ d ∈ escapeLetters, simpleEscape d = some 34 ∨ d.toLower ≠ '"' := by
    intro d hd
    have hall : (escapeLetters.all fun d =>
        decide (simpleEscape d = some 34 ∨ d.toLower ≠ '"')) = true := by decide
    exact of_decide_eq_true (List.all_eq_true.mp hall d hd)
  have hescaped := escapedAs_escapeChar c
  generalize (escapeChar c).toList = text at hescaped
  cases hescaped with
  | letter d hd hc =>
    refine ⟨[d], rfl, ?_⟩
    intro e he
    rw [List.mem_singleton.mp he]
    rcases hletters d hd with hmark | hother
    · have hself : c.toNat = 34 := Option.some.inj (hc.symm.trans hmark)
      exact absurd (char_eq (d := '"') hself) hquote
    · exact hother
  | plain hbounds _ hback =>
    have hne : c ≠ '\\' := fun heq => hback (congrArg Char.toNat heq)
    rw [unescaped_of_bounds hbounds hquote hne] at h
    exact nomatch h
  | unit _ =>
    have hall := hunit c.toNat [] fun d hd => absurd hd List.not_mem_nil
    rw [List.append_nil] at hall
    exact hall
  | pair _ => exact hunit _ _ (escapeUnit_ne_quote _)

theorem toLower_unescaped {c : Char} (h : unescaped c = true) :
    jsonMarks.plain c.toLower = true := by
  have hall : ∀ n < 127, unescaped (Char.ofNat n) = true →
      jsonMarks.plain (Char.ofNat n).toLower = true := by decide
  have hbounds := (unescaped_bounds h).1
  have hc := hall c.toNat (by omega)
  rw [Char.ofNat_toNat] at hc
  exact hc h

theorem feed_escapeChar (run : Option (List Char)) (c : Char) :
    feed word (inside f run) (escapeChar c).toList = inside f (nextRun run c) := by
  unfold nextRun
  by_cases hquote : c = '"'
  · rw [if_pos hquote, hquote]
    show feed word (inside f run) ['\\', '"'] = inside f (some [])
    rw [feed_cons, show Char.toLower '\\' = jsonMarks.escape from rfl, step_escape, feed_cons,
      show Char.toLower '"' = jsonMarks.mark from rfl, step_mark]
    rfl
  · rw [if_neg hquote]
    by_cases hplain : unescaped c = true
    · rw [if_pos hplain, escapeChar_unescaped hplain, feed_cons,
        step_plain (toLower_unescaped hplain)]
      show State.mk (f || (false && _)) (false && _) _ = _
      rw [Bool.false_and, Bool.false_and, Bool.or_false]
      rfl
    · obtain ⟨tail, hchars, htail⟩ := escapeChar_escaped (Bool.eq_false_iff.mpr hplain) hquote
      rw [if_neg hplain, hchars, feed_cons, show Char.toLower '\\' = jsonMarks.escape from rfl,
        step_escape]
      exact feed_hidden htail

theorem feed_escaped (chars : List Char) (run : Option (List Char)) :
    feed word (inside f run) (chars.flatMap fun c => (escapeChar c).toList) =
      inside f (chars.foldl nextRun run) := by
  induction chars generalizing run with
  | nil => rfl
  | cons c chars ih => rw [List.flatMap_cons, feed_append, feed_escapeChar, ih, List.foldl_cons]

/-- the run that is left at the end of a string -/
theorem foldl_nextRun (chars : List Char) : chars.foldl nextRun (some []) =
    if (chars.rdropWhile unescaped).getLast?.all (· == '"') then
      some ((shownPart chars).map Char.toLower).reverse
    else none := by
  unfold shownPart
  induction chars using List.reverseRecOn with
  | nil => rfl
  | append_singleton chars c ih =>
    rw [List.foldl_concat, ih]
    by_cases hplain : unescaped c = true
    · have hquote := (unescaped_bounds hplain).2.1
      rw [List.rdropWhile_concat_pos _ _ _ hplain, List.rtakeWhile_concat_pos _ _ _ hplain,
        List.map_append, List.map_singleton, List.reverse_append]
      unfold nextRun
      rw [if_neg hquote, if_pos hplain]
      split
      · rfl
      · rfl
    · rw [List.rdropWhile_concat_neg _ _ _ hplain, List.rtakeWhile_concat_neg _ _ _ hplain,
        List.getLast?_concat]
      unfold nextRun
      by_cases hquote : c = '"'
      · rw [if_pos hquote, hquote]
        rfl
      · rw [if_neg hquote, if_neg hplain]
        show none = if (c == '"') = true then _ else none
        rw [beq_false_of_ne hquote]
        rfl

/-- what a string does to the scanner -/
theorem feed_quoted (hword : Foreign word) (h : Between f s) (str : String) :
    feed word s (quoted str) = { found := f, pending := Shows word str, run := some [] } := by
  have hopen : step jsonMarks (hasInfix word.toList) s jsonMarks.mark = inside f (some []) := by
    have hquiet : (s.run.any fun run => hasInfix word.toList run.reverse) = false := by
      cases hrun : s.run with
      | none => rfl
      | some run =>
        refine not_hit_structural hword fun c hc => ?_
        exact h.run run hrun c (List.mem_reverse.mp hc)
    rw [step_mark, hquiet, h.found]
    rfl
  have hbody : feed word s ('"' :: str.toList.flatMap fun c => (escapeChar c).toList) =
      inside f (str.toList.foldl nextRun (some [])) := by
    rw [feed_cons, show Char.toLower '"' = jsonMarks.mark from rfl, hopen, feed_escaped]
  rw [quoted_eq, feed_append, hbody, feed_cons, show Char.toLower '"' = jsonMarks.mark from rfl,
    step_mark, foldl_nextRun, feed_nil]
  unfold Shows
  congr 1
  show Option.any _ (if _ then _ else _) = _
  split
  · rename_i hshown
    rw [hshown, Bool.true_and, Option.any_some, List.reverse_reverse]
  · rename_i hshown
    rw [Bool.eq_false_iff.mpr hshown, Bool.false_and]
    rfl

/-! ## the scanner over a value -/

theorem ready_key (hword : Foreign word) (h : Ready f s) (k : String) :
    Ready (f || Shows word k) (feed word s (quoted k ++ ':' :: [' '])) := by
  have hkey : Ready (f || Shows word k) (step jsonMarks (hasInfix word.toList)
      { found := f, pending := Shows word k, run := some [] } ':') := by
    rw [step_plain (by decide)]
    refine ⟨⟨?_, ?_⟩, ?_⟩
    · show (f || (Shows word k && ':' == ':')) = _
      rw [beq_self_eq_true, Bool.and_true]
    · intro run hrun
      rw [← Option.some.inj hrun]
      exact fun c hc => by
        rw [List.mem_singleton.mp hc]
        decide
    · show (Shows word k && isStrSpace ':') = false
      rw [show isStrSpace ':' = false by decide, Bool.and_false]
  rw [feed_append, feed_quoted hword h.toBetween, feed_cons]
  exact hkey.feed (structural_of_all (by decide))

/-- a word or a number -/
theorem between_scalar {cs : List Char} (h : Ready f s)
    (hcs : ∀ c ∈ cs, c.toLower ∈ structuralChars) : Between (f || false) (feed word s cs) := by
  rw [Bool.or_false]
  exact (h.feed hcs).toBetween

variable {T : PyText}

theorem structural_number {cs : List Char} {j : Json} (h : number T cs = some (j, [])) :
    ∀ c ∈ cs, c.toLower ∈ structuralChars :=
  fun c hc => structural_isNumberChar (isNumberChar_of_number h c hc)

mutual
/-- what the text of a value does to the scanner -/
theorem feed_text (hword : Foreign word) (j : Json) (hprint : Printable T j) {f : Bool}
    {s : State Char} (h : Ready f s) :
    Between (f || (keysWithin j).any (Shows word)) (feed word s (text T [' '] j)) := by
  cases j with
  | null =>
    rw [text, keysWithin]
    exact between_scalar h (structural_of_all (by decide))
  | bool b =>
    rw [text, keysWithin]
    cases b with
    | false => exact between_scalar h (structural_of_all (by decide))
    | true => exact between_scalar h (structural_of_all (by decide))
  | int i =>
    rw [text, keysWithin]
    exact between_scalar h (structural_number (T := T) (number_int i))
  | float x =>
    rw [keysWithin]
    cases x with
    | fin q =>
      rw [text]
      rw [Printable] at hprint
      exact between_scalar h (structural_number hprint)
    | nan =>
      rw [text]
      exact between_scalar h (structural_of_all (by decide))
    | posInf =>
      rw [text]
      exact between_scalar h (structural_of_all (by decide))
    | negInf =>
      rw [text]
      exact between_scalar h (structural_of_all (by decide))
  | str str =>
    rw [text, keysWithin, feed_quoted hword h.toBetween]
    refine ⟨(Bool.or_false f).symm, fun run hrun => ?_⟩
    rw [← Option.some.inj hrun]
    exact fun c hc => absurd hc List.not_mem_nil
  | arr xs =>
    rw [Printable] at hprint
    rw [text, keysWithin, feed_cons]
    exact (feed_textItems hword xs hprint (h.step (by decide))).toBetween
  | obj fs =>
    rw [Printable] at hprint
    rw [text, keysWithin, feed_cons]
    exact (feed_textMembers hword fs hprint.2 (h.step (by decide))).toBetween

theorem feed_textItems (hword : Foreign word) (xs : List Json) (hprint : PrintableItems T xs)
    {f : Bool} {s : State Char} (h : Ready f s) :
    Ready (f || (keysOfItems xs).any (Shows word)) (feed word s (textItems T [' '] xs)) := by
  cases xs with
  | nil =>
    rw [textItems, keysOfItems, List.any_nil, Bool.or_false]
    exact @Ready.step word _ _ h _ bracket_structural
  | cons x xs =>
    rw [PrintableItems] at hprint
    have hx := feed_text hword x hprint.1 h
    rw [keysOfItems, List.any_append, ← Bool.or_assoc]
    cases xs with
    | nil =>
      rw [textItems, keysOfItems, List.any_nil, Bool.or_false, feed_append]
      have hend := @Between.step word _ _ hx _ bracket_structural (by decide) (by decide)
      exact hend
    | cons y ys =>
      rw [textItems, feed_append, feed_append]
      have hcomma := @Between.step word _ _ hx _ comma_structural (by decide) (by decide)
      have hblank := @Ready.step word _ _ hcomma _ blank_structural
      exact feed_textItems hword (y :: ys) hprint.2 hblank

theorem feed_textMembers (hword : Foreign word) (fs : List (String × Json))
    (hprint : PrintableFields T fs) {f : Bool} {s : State Char} (h : Ready f s) :
    Ready (f || (keysOfMembers fs).any (Shows word)) (feed word s (textMembers T [' '] fs)) := by
  cases fs with
  | nil =>
    rw [textMembers, keysOfMembers, List.any_nil, Bool.or_false]
    exact @Ready.step word _ _ h _ brace_structural
  | cons p fs =>
    obtain ⟨k, x⟩ := p
    rw [PrintableFields] at hprint
    have hx := feed_text hword x hprint.1 (ready_key hword h k)
    rw [← feed_append] at hx
    rw [keysOfMembers, List.cons_append, List.any_cons, List.any_append, ← Bool.or_assoc,
      ← Bool.or_assoc]
    cases fs with
    | nil =>
      rw [textMembers, keysOfMembers, List.any_nil, Bool.or_false, feed_append]
      have hend := @Between.step word _ _ hx _ brace_structural (by decide) (by decide)
      exact hend
    | cons p fs =>
      rw [textMembers, feed_append, feed_append]
      have hcomma := @Between.step word _ _ hx _ comma_structural (by decide) (by decide)
      have hblank := @Ready.step word _ _ hcomma _ blank_structural
      exact feed_textMembers hword (p :: fs) hprint.2 hblank
end

end

/-! ## the sorted record has the same keys -/

theorem mem_keysOfMembers_iff {fs : List (String × Json)} {k : String} :
    k ∈ keysOfMembers fs ↔ ∃ p ∈ fs, k = p.1 ∨ k ∈ keysWithin p.2 := by
  induction fs with
  | nil =>
    rw [keysOfMembers]
    simp
  | cons p fs ih =>
    obtain ⟨key, x⟩ := p
    rw [keysOfMembers, List.cons_append, List.mem_cons, List.mem_append, ih]
    simp only [List.mem_cons, exists_eq_or_imp, or_assoc]

theorem mem_keysOfMembers_perm {fs gs : List (String × Json)} (h : fs.Perm gs) (k : String) :
    k ∈ keysOfMembers fs ↔ k ∈ keysOfMembers gs := by
  rw [mem_keysOfMembers_iff, mem_keysOfMembers_iff]
  constructor
  · rintro ⟨p, hp, hk⟩
    exact ⟨p, h.mem_iff.mp hp, hk⟩
  · rintro ⟨p, hp, hk⟩
    exact ⟨p, h.mem_iff.mpr hp, hk⟩

mutual
theorem mem_keysWithin_canon (j : Json) (k : String) :
    k ∈ keysWithin j.canon ↔ k ∈ keysWithin j := by
  cases j with
  | null => rw [Json.canon_null]
  | bool b => rw [Json.canon_bool]
  | int i => rw [Json.canon_int]
  | float x => rw [Json.canon_float]
  | str str => rw [Json.canon_str]
  | arr xs =>
    rw [Json.canon, keysWithin, keysWithin]
    exact mem_keysOfItems_canon xs k
  | obj fs =>
    rw [Json.canon_obj, keysWithin, keysWithin, ← mem_keysOfMembers_canon fs k]
    exact mem_keysOfMembers_perm (Dict.sorted_perm _) k

theorem mem_keysOfItems_canon (xs : List Json) (k : String) :
    k ∈ keysOfItems (Json.canonList xs) ↔ k ∈ keysOfItems xs := by
  cases xs with
  | nil => rw [Json.canonList]
  | cons x xs =>
    rw [Json.canonList, keysOfItems, keysOfItems, List.mem_append, List.mem_append,
      mem_keysWithin_canon x k, mem_keysOfItems_canon xs k]

theorem mem_keysOfMembers_canon (fs : List (String × Json)) (k : String) :
    k ∈ keysOfMembers (Json.canonFields fs) ↔ k ∈ keysOfMembers fs := by
  cases fs with
  | nil => rw [Json.canonFields]
  | cons p fs =>
    obtain ⟨key, x⟩ := p
    rw [Json.canonFields, keysOfMembers, keysOfMembers, List.cons_append, List.cons_append,
      List.mem_cons, List.mem_cons, List.mem_append, List.mem_append, mem_keysWithin_canon x k,
      mem_keysOfMembers_canon fs k]
end

/-! ## the detector's law -/

section
variable {T : PyText} {record : Obj}

/-- the detector finds the keys that show a forbidden word -/
theorem evidenceContainsActiveMaterial_iff (L : StrLower) (h : Printable T (.obj record)) :
    evidenceContainsActiveMaterial L T record = true ↔
      ∃ k ∈ keysWithin (.obj record), ∃ word ∈ forbiddenWords, Shows word k = true := by
  have hprint := printable_canon (.obj record) h
  have hlower : L.lower (text T [' '] (Json.canon (.obj record))) =
      (text T [' '] (Json.canon (.obj record))).map Char.toLower :=
    L.ascii _ fun c hc => (text_ascii (asciiText_of_all (by decide)) _ hprint c hc).2
  have hsearch : ∀ word ∈ forbiddenWords,
      searchKey word (L.lower (text T [' '] (Json.canon (.obj record)))) =
        (keysWithin (Json.canon (.obj record))).any (Shows word) := by
    intro word hword
    have hstart : Ready false (start : State Char) := ⟨⟨rfl, fun _ hrun => nomatch hrun⟩, rfl⟩
    have hfed := (feed_text (foreign_forbidden word hword) _ hprint hstart).found
    rw [Bool.false_or] at hfed
    unfold searchKey
    rw [search_eq_scan, hlower]
    exact hfed
  unfold evidenceContainsActiveMaterial
  rw [List.any_eq_true]
  constructor
  · rintro ⟨word, hword, hfound⟩
    rw [hsearch word hword] at hfound
    obtain ⟨k, hk, hshows⟩ := List.any_eq_true.mp hfound
    exact ⟨k, (mem_keysWithin_canon _ k).mp hk, word, hword, hshows⟩
  · rintro ⟨k, hk, word, hword, hshows⟩
    refine ⟨word, hword, ?_⟩
    rw [hsearch word hword]
    exact List.any_eq_true.mpr ⟨k, (mem_keysWithin_canon _ k).mpr hk, hshows⟩

/-- a key that shows a word contains it -/
theorem hasInfix_of_shows (L : StrLower) {word key : String} (h : Shows word key = true) :
    hasInfix word.toList (L.lower key.toList) = true := by
  unfold Shows at h
  obtain ⟨-, hword⟩ := Bool.and_eq_true _ _ ▸ h
  have hascii : ∀ c ∈ shownPart key.toList, c.toNat < 128 := by
    intro c hc
    have hbounds := (unescaped_bounds (List.mem_rtakeWhile_imp hc)).1
    omega
  have hsuffix := L.ascii_suffix (key.toList.rdropWhile unescaped) _ hascii
  rw [shownPart, List.rdropWhile_append_rtakeWhile] at hsuffix
  exact hasInfix_iff.mpr ((hasInfix_iff.mp hword).trans hsuffix.isInfix)

/-- the detector agrees with the keys of the record exactly when no key contains a forbidden word,
or one of those that do shows it -/
theorem leak_detector_iff (L : StrLower) (h : Printable T (.obj record)) :
    (evidenceContainsActiveMaterial L T record = true ↔ HasForbiddenKey L record) ↔
      ¬ HasForbiddenKey L record ∨
        ∃ k ∈ keysWithin (.obj record), ∃ word ∈ forbiddenWords, Shows word k = true := by
  have hshown : (∃ k ∈ keysWithin (.obj record), ∃ word ∈ forbiddenWords,
      Shows word k = true) → HasForbiddenKey L record := by
    rintro ⟨k, hk, word, hword, hshows⟩
    exact ⟨k, hk, word, hword, hasInfix_of_shows L hshows⟩
  rw [evidenceContainsActiveMaterial_iff L h]
  constructor
  · intro hiff
    by_cases hforbidden : HasForbiddenKey L record
    · exact .inr (hiff.mpr hforbidden)
    · exact .inl hforbidden
  · rintro (hnone | hsome)
    · exact ⟨hshown, fun hforbidden => absurd hforbidden hnone⟩
    · exact iff_of_true hsome (hshown hsome)

end

/-- on ASCII texts `str.lower` is this -/
def asciiLower : StrLower where
  lower := List.map Char.toLower
  ascii _ _ := rfl
  ascii_suffix cs ds _ := by
    rw [List.map_append]
    exact List.suffix_append _ _

theorem leak_detector_sample : Printable Env.plain.text (.obj [("test_source", .null)]) ∧
    (evidenceContainsActiveMaterial asciiLower Env.plain.text [("test_source", .null)] = true ↔
      HasForbiddenKey asciiLower [("test_source", .null)]) := by
  have hprint : Printable Env.plain.text (.obj [("test_source", .null)]) := by
    rw [Printable]
    refine ⟨by decide, printableFields_iff.mpr ?_⟩
    simp only [List.forall_mem_cons, List.not_mem_nil, false_implies, implies_true, and_true]
    exact printable_null
  refine ⟨hprint, (leak_detector_iff asciiLower hprint).mpr (.inr ?_)⟩
  exact ⟨"test_source", by decide, "test_source", by decide, by decide⟩

/-- a key that ends in a newline is escaped after its word, and the detector misses it -/
theorem escaped_key_is_missed :
    ¬ ∀ (L : StrLower) (T : PyText) (record : Obj), Printable T (.obj record) →
      (evidenceContainsActiveMaterial L T record = true ↔ HasForbiddenKey L record) := by
  intro hlaw
  have hprint : Printable Env.plain.text (.obj [("secret\n", .null)]) := by
    rw [Printable]
    refine ⟨by decide, printableFields_iff.mpr ?_⟩
    simp only [List.forall_mem_cons, List.not_mem_nil, false_implies, implies_true, and_true]
    exact printable_null
  have hforbidden : HasForbiddenKey asciiLower [("secret\n", .null)] :=
    ⟨"secret\n", by decide, "secret", by decide, by decide⟩
  have hfound := (hlaw asciiLower Env.plain.text _ hprint).mpr hforbidden
  obtain ⟨k, hk, word, hword, hshows⟩ :=
    (evidenceContainsActiveMaterial_iff asciiLower hprint).mp hfound
  have hnone : ∀ k ∈ keysWithin (.obj [("secret\n", .null)]), ∀ word ∈ forbiddenWords,
      Shows word k = false := by decide
  rw [hnone k hk word hword] at hshows
  exact nomatch hshows

end Dolores
