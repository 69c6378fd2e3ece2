import Dolores.Holdout.Impl
import Dolores.Lib.Delimited

/-!
# The encodings of the private holdout (`_expected_format`, `_private_cases`)

The generated test writes a record with its own `_expected_format` and asks `parse_record` to
read it back.

* `expectedFormat_quoted`, `expectedFormat_escaped`   the generated function writes the records
  of `Delimited`;
* `privateCases_nonempty`   no generated case is the empty list;
* `holdout_encoding_decodable`   both variants are injective, some parser passes every generated
  test, and a dangling escape is no record.
-/

namespace Dolores

/-! ## the generated module -/

/-- `field.replace(SPECIAL, SPECIAL + SPECIAL)` -/
def doubled (special : Char) (field : String) : String :=
  String.ofList (field.toList.flatMap fun c => if c = special then [special, special] else [c])

def quotedPart (delimiter special : Char) (field : String) : String :=
  if delimiter ∈ field.toList ∨ special ∈ field.toList then
    let body := doubled special field
    String.singleton special ++ body ++ String.singleton special
  else field

/-- the loop over the characters of a field -/
def escapedPart (delimiter special : Char) (field : String) : String :=
  String.ofList (field.toList.foldl (fun encoded character =>
    let encoded :=
      if character = special ∨ character = delimiter then encoded ++ [special] else encoded
    encoded ++ [character]) [])

/-- `_expected_format(fields)`, as `expectedFormatLines` has it -/
def expectedFormat (archetype : String) (delimiter special : Char) (fields : List String) :
    String :=
  if archetype = "quoted_fields" then
    (String.singleton delimiter).intercalate (fields.map (quotedPart delimiter special))
  else
    (String.singleton delimiter).intercalate (fields.map (escapedPart delimiter special))

/-- `test_validator_private_round_trips` -/
def RoundTripTest (archetype : String) (delimiter special : Char) (cases : List (List String))
    (formatRecord : List String → String) (parseRecord : String → Except Exn (List String)) :
    Prop :=
  ∀ fields ∈ cases,
    let expected := expectedFormat archetype delimiter special fields
    formatRecord fields = expected ∧ parseRecord expected = .ok fields

/-- `test_validator_private_dangling_escape_contract` -/
def DanglingEscapeTest (special : Char) (parseRecord : String → Except Exn (List String)) : Prop :=
  ∃ message, parseRecord ("private" ++ String.singleton special) = .error (.valueError message)

/-! ## the private cases -/

/-- what `_private_cases` uses of `random.Random`, with the state passed on -/
structure Rng (σ : Type) where
  randint : Nat → Nat → σ → Nat × σ
  /-- the position of the item that `choice` picks -/
  choice : (size : Nat) → σ → Nat × σ
  shuffle : List (List String) → σ → List (List String) × σ
  le_randint : ∀ lo hi s, lo ≤ hi → lo ≤ (randint lo hi s).1
  randint_le : ∀ lo hi s, lo ≤ hi → (randint lo hi s).1 ≤ hi
  choice_lt : ∀ size s, 0 < size → (choice size s).1 < size
  shuffle_perm : ∀ cases s, (shuffle cases s).1.Perm cases

/-- the generator that always draws the least value -/
def leastRng : Rng Unit where
  randint lo _ s := (lo, s)
  choice _ s := (0, s)
  shuffle cases s := (cases, s)
  le_randint lo _ _ _ := Nat.le_refl lo
  randint_le _ _ _ h := h
  choice_lt _ _ h := h
  shuffle_perm cases _ := List.Perm.refl cases

/-- `[item() for _ in range(n)]` -/
def repeated {σ A : Type} (item : σ → A × σ) : Nat → σ → List A × σ
  | 0, s => ([], s)
  | n + 1, s =>
    let (a, s) := item s
    let (rest, s) := repeated item n s
    (a :: rest, s)

section
variable {σ : Type} (rng : Rng σ) (delimiter special : Char)

def caseAlphabet : List Char := "abcdefghijkmnpqrstuvwxyz23456789".toList

def pick {A : Type} (items : List A) (default : A) (s : σ) : A × σ :=
  let (i, s) := rng.choice items.length s
  (items.getD i default, s)

/-- `token()` -/
def caseToken (s : σ) : String × σ :=
  let (size, s) := rng.randint 2 10 s
  let (value, s) := repeated (pick rng caseAlphabet 'a') size s
  let insertions :=
    [[delimiter], [special], [delimiter, special], [special, special]]
  let (marker, s) := pick rng insertions [] s
  let (offset, s) := rng.randint 0 value.length s
  (String.ofList (value.take offset ++ marker ++ value.drop offset), s)

def fixedCases : List (List String) :=
  [[""],
    ["", String.ofList [delimiter], String.ofList [special], ""],
    [String.ofList [delimiter, special, delimiter]],
    [String.ofList [special, special], String.ofList [delimiter, delimiter]]]

def randomCase (s : σ) : List String × σ :=
  let (size, s) := rng.randint 1 6 s
  repeated (caseToken rng delimiter special) size s

def privateCases (s : σ) : List (List String) :=
  let (drawn, s) := repeated (randomCase rng delimiter special) 20 s
  (rng.shuffle (fixedCases delimiter special ++ drawn) s).1

end

example : (privateCases leastRng ',' '~' ()).length = 24 := by decide

/-! ## the generated function writes delimited records -/

section
variable {delimiter special : Char}

theorem toList_quotedPart (field : String) :
    (quotedPart delimiter special field).toList =
      Delimited.quotedField delimiter special field.toList := by
  unfold quotedPart Delimited.quotedField
  by_cases h : delimiter ∈ field.toList ∨ special ∈ field.toList
  · rw [if_pos h, if_pos h]
    show (String.singleton special ++ doubled special field ++ String.singleton special).toList = _
    rw [String.toList_append, String.toList_append, String.toList_singleton]
    unfold doubled
    rw [String.toList_ofList]
    rfl
  · rw [if_neg h, if_neg h]

/-- the loop appends what the field's symbols are written as, one after another -/
theorem escapedLoop_eq (field encoded : List Char) :
    field.foldl (fun encoded character =>
        (if character = special ∨ character = delimiter then encoded ++ [special] else encoded) ++
          [character]) encoded =
      encoded ++ Delimited.escapedField delimiter special field := by
  induction field generalizing encoded with
  | nil => exact (List.append_nil encoded).symm
  | cons c field ih =>
    rw [List.foldl_cons, ih, Delimited.escapedField_cons]
    by_cases hc : c = special ∨ c = delimiter
    · rw [if_pos hc, if_pos hc, List.append_assoc, List.append_assoc]
      rfl
    · rw [if_neg hc, if_neg hc, List.append_assoc]

theorem toList_escapedPart (field : String) :
    (escapedPart delimiter special field).toList =
      Delimited.escapedField delimiter special field.toList := by
  unfold escapedPart
  rw [String.toList_ofList]
  exact escapedLoop_eq field.toList []

/-- a joined record, as the list of its characters -/
theorem toList_joined {part : String → String} {encode : List Char → List Char}
    (hpart : ∀ field, (part field).toList = encode field.toList) (fields : List String) :
    ((String.singleton delimiter).intercalate (fields.map part)).toList =
      Delimited.record delimiter encode (fields.map String.toList) := by
  rw [String.toList_intercalate, String.toList_singleton, List.map_map]
  unfold Delimited.record
  rw [List.map_map]
  congr 1
  exact List.map_congr_left fun field _ => hpart field

theorem expectedFormat_quoted (fields : List String) :
    (expectedFormat "quoted_fields" delimiter special fields).toList =
      Delimited.record delimiter (Delimited.quotedField delimiter special)
        (fields.map String.toList) := by
  unfold expectedFormat
  rw [if_pos rfl]
  exact toList_joined toList_quotedPart fields

theorem expectedFormat_escaped {archetype : String} (h : archetype ≠ "quoted_fields")
    (fields : List String) :
    (expectedFormat archetype delimiter special fields).toList =
      Delimited.record delimiter (Delimited.escapedField delimiter special)
        (fields.map String.toList) := by
  unfold expectedFormat
  rw [if_neg h]
  exact toList_joined toList_escapedPart fields

end

/-! ## no generated case is empty -/

section
variable {σ : Type}

theorem length_repeated {A : Type} (item : σ → A × σ) (n : Nat) (s : σ) :
    (repeated item n s).1.length = n := by
  induction n generalizing s with
  | zero => rfl
  | succ n ih =>
    show ((item s).1 :: (repeated item n (item s).2).1).length = n + 1
    rw [List.length_cons, ih]

theorem forall_repeated {A : Type} {P : A → Prop} {item : σ → A × σ} (h : ∀ s, P (item s).1)
    (n : Nat) (s : σ) : ∀ a ∈ (repeated item n s).1, P a := by
  induction n generalizing s with
  | zero => exact fun _ hmem => absurd hmem List.not_mem_nil
  | succ n ih =>
    intro a hmem
    rcases List.mem_cons.mp hmem with rfl | hrest
    · exact h s
    · exact ih (item s).2 a hrest

variable (rng : Rng σ) (delimiter special : Char)

theorem randomCase_ne_nil (s : σ) : (randomCase rng delimiter special s).1 ≠ [] := by
  intro hnil
  have hlen := length_repeated (caseToken rng delimiter special) (rng.randint 1 6 s).1
    (rng.randint 1 6 s).2
  have hpos := rng.le_randint 1 6 s (by decide)
  have hzero : (randomCase rng delimiter special s).1.length = (rng.randint 1 6 s).1 := hlen
  rw [hnil, List.length_nil] at hzero
  omega

theorem privateCases_nonempty (s : σ) :
    ∀ fields ∈ privateCases rng delimiter special s, fields ≠ [] := by
  intro fields hmem
  have hperm := rng.shuffle_perm
    (fixedCases delimiter special ++ (repeated (randomCase rng delimiter special) 20 s).1)
    (repeated (randomCase rng delimiter special) 20 s).2
  rcases List.mem_append.mp (hperm.mem_iff.mp hmem) with hfixed | hdrawn
  · have hall : ∀ fields ∈ fixedCases delimiter special, fields ≠ [] := by
      unfold fixedCases
      simp
    exact hall fields hfixed
  · exact forall_repeated (P := fun fields => fields ≠ [])
      (randomCase_ne_nil rng delimiter special) 20 s fields hdrawn

end

/-! ## a parser for each variant -/

def readRecord : Option (List (List Char)) → Except Exn (List String)
  | some fields => .ok (fields.map String.ofList)
  | none => .error (.valueError "not a record")

def parseRecord (archetype : String) (delimiter special : Char) (text : String) :
    Except Exn (List String) :=
  if archetype = "quoted_fields" then
    readRecord (Delimited.parseQuoted delimiter special .start text.toList)
  else readRecord (Delimited.parseEscaped delimiter special (.field []) text.toList)

theorem readRecord_some (fields : List String) :
    readRecord (some (fields.map String.toList)) = .ok fields := by
  show Except.ok ((fields.map String.toList).map String.ofList) = Except.ok fields
  rw [List.map_map]
  congr 1
  conv_rhs => rw [← List.map_id fields]
  exact List.map_congr_left fun field _ => String.ofList_toList

section
variable {archetype : String} {delimiter special : Char} {fields : List String}

theorem map_toList_ne_nil (hne : fields ≠ []) : fields.map String.toList ≠ [] :=
  fun h => hne (List.map_eq_nil_iff.mp h)

theorem parseRecord_expectedFormat (hds : delimiter ≠ special) (hne : fields ≠ []) :
    parseRecord archetype delimiter special
      (expectedFormat archetype delimiter special fields) = .ok fields := by
  unfold parseRecord
  by_cases h : archetype = "quoted_fields"
  · rw [if_pos h, h, expectedFormat_quoted,
      Delimited.parseQuoted_record hds (map_toList_ne_nil hne)]
    exact readRecord_some fields
  · rw [if_neg h, expectedFormat_escaped h,
      Delimited.parseEscaped_record hds (map_toList_ne_nil hne)]
    exact readRecord_some fields

theorem expectedFormat_injective (hds : delimiter ≠ special) {fields' : List String}
    (hne : fields ≠ []) (hne' : fields' ≠ [])
    (h : expectedFormat archetype delimiter special fields =
      expectedFormat archetype delimiter special fields') : fields = fields' := by
  have hread := @parseRecord_expectedFormat archetype _ _ _ hds hne
  rw [h, parseRecord_expectedFormat hds hne'] at hread
  exact (Except.ok.inj hread).symm

theorem parseRecord_dangling (h : archetype ≠ "quoted_fields")
    (hd : delimiter ∉ "private".toList) (hs : special ∉ "private".toList) :
    parseRecord archetype delimiter special ("private" ++ String.singleton special) =
      .error (.valueError "not a record") := by
  unfold parseRecord
  rw [if_neg h, String.toList_append, String.toList_singleton,
    Delimited.parseEscaped_dangling hd hs]
  rfl

end

/-- what the generated test source relies on, for one delimiter and one special character -/
structure EncodingLaw (delimiter special : Char) : Prop where
  injective : ∀ (archetype : String) (fields fields' : List String), fields ≠ [] → fields' ≠ [] →
    expectedFormat archetype delimiter special fields =
      expectedFormat archetype delimiter special fields' → fields = fields'
  /-- some module passes every test that the source contains -/
  passes : ∀ (archetype : String) {σ : Type} (rng : Rng σ) (seed : σ),
    ∃ formatRecord parse,
      RoundTripTest archetype delimiter special (privateCases rng delimiter special seed)
        formatRecord parse ∧
      (archetype = "error_contract" →
        delimiter ∉ "private".toList → special ∉ "private".toList →
        DanglingEscapeTest special parse)
  dangling : ∀ archetype, archetype ≠ "quoted_fields" →
    delimiter ∉ "private".toList → special ∉ "private".toList →
    ∀ fields : List String, fields ≠ [] →
      expectedFormat archetype delimiter special fields ≠ "private" ++ String.singleton special

theorem holdout_encoding_decodable {delimiter special : Char} (hds : delimiter ≠ special) :
    EncodingLaw delimiter special where
  injective _ _ _ hne hne' h := expectedFormat_injective hds hne hne' h
  passes archetype _ rng seed := by
    refine ⟨expectedFormat archetype delimiter special, parseRecord archetype delimiter special,
      ?_, ?_⟩
    · intro fields hmem
      have hne := privateCases_nonempty rng delimiter special seed fields hmem
      exact ⟨rfl, parseRecord_expectedFormat hds hne⟩
    · intro harchetype hd hs
      have h : archetype ≠ "quoted_fields" := by
        rw [harchetype]
        decide
      exact ⟨_, parseRecord_dangling h hd hs⟩
  dangling archetype h hd hs fields hne := by
    -- the parser would read the record and refuse it
    intro hrecord
    have hread := @parseRecord_expectedFormat archetype _ _ _ hds hne
    rw [hrecord, parseRecord_dangling h hd hs] at hread
    exact nomatch hread

theorem holdout_encoding_decodable_sample : ',' ≠ '~' ∧ EncodingLaw ',' '~' :=
  ⟨by decide, holdout_encoding_decodable (by decide)⟩

end Dolores
