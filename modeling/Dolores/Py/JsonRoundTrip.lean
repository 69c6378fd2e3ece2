import Dolores.Py.JsonRead

/-!
# Printing and reading back

`value_layout`: the parser reads what the printer wrote, whatever the layout; `value_text` is the
case of one line.  With `value_carries` it follows that no proper prefix of a printed object is
read (`loads_prefix`) and that the text determines the value (`text_injective`).
-/

namespace Dolores
namespace JsonText

/-! ## strings -/

theorem hexVal_hexDigit {n : Nat} (h : n < 16) : hexVal (hexDigit n) = some n := by
  have hall : ∀ d < 16, hexVal (hexDigit d) = some d := by decide
  exact hall n h

/-- the units a character is written with -/
def charUnits (c : Char) : List Nat :=
  if c.toNat < 65536 then [c.toNat]
  else [55296 + (c.toNat - 65536) / 1024, 56320 + (c.toNat - 65536) % 1024]

theorem toList_escapeUnit (u : Nat) :
    (escapeUnit u).toList = ['\\', 'u', hexDigit (u / 4096 % 16), hexDigit (u / 256 % 16),
      hexDigit (u / 16 % 16), hexDigit (u % 16)] := by
  unfold escapeUnit
  rw [String.toList_append, String.toList_ofList, String.toList_ofList]
  rfl

theorem scanString_escapeUnit {u : Nat} (h : u < 65536) (cs : List Char) :
    scanString .plain ((escapeUnit u).toList ++ cs) =
      (scanString .plain cs).map fun p => (u :: p.1, p.2) := by
  have hval : ((u / 4096 % 16 * 16 + u / 256 % 16) * 16 + u / 16 % 16) * 16 + u % 16 = u := by omega
  rw [toList_escapeUnit, List.cons_append, scanString, if_neg (by decide), if_pos (by decide),
    List.cons_append, scanString, if_pos (by decide)]
  simp only [List.cons_append, List.nil_append, scanString,
    hexVal_hexDigit (Nat.mod_lt _ (by decide : 0 < 16)), Nat.zero_mul, Nat.zero_add]
  rw [hval]

theorem char_bounds (c : Char) : c.toNat < 55296 ∨ 57343 < c.toNat ∧ c.toNat < 1114112 := c.valid

/-- the letters of the escapes that are written with one -/
def escapeLetters : List Char := ['"', '\\', 'n', 'r', 't', 'b', 'f']

/-- how a character is written -/
inductive EscapedAs (c : Char) : List Char → Prop where
  | letter (d : Char) (hd : d ∈ escapeLetters) (h : simpleEscape d = some c.toNat) :
      EscapedAs c ['\\', d]
  | plain (h : 32 ≤ c.toNat ∧ c.toNat ≤ 126) (hquote : c.toNat ≠ 34) (hback : c.toNat ≠ 92) :
      EscapedAs c [c]
  | unit (h : c.toNat < 65536) : EscapedAs c (escapeUnit c.toNat).toList
  | pair (h : 65536 ≤ c.toNat) :
      EscapedAs c ((escapeUnit (55296 + (c.toNat - 65536) / 1024)).toList ++
        (escapeUnit (56320 + (c.toNat - 65536) % 1024)).toList)

theorem escapedAs_escapeChar (c : Char) : EscapedAs c (escapeChar c).toList := by
  have hletter : ∀ (d : Char) {u : Nat}, c.toNat = u → d ∈ escapeLetters →
      simpleEscape d = some u → EscapedAs c ['\\', d] := by
    intro d u hu hd h
    rw [← hu] at h
    exact .letter d hd h
  unfold escapeChar
  dsimp only
  by_cases h₁ : c.toNat = 34
  · rw [if_pos h₁]
    exact hletter '"' h₁ (by decide) (by decide)
  rw [if_neg h₁]
  by_cases h₂ : c.toNat = 92
  · rw [if_pos h₂]
    exact hletter '\\' h₂ (by decide) (by decide)
  rw [if_neg h₂]
  by_cases h₃ : c.toNat = 10
  · rw [if_pos h₃]
    exact hletter 'n' h₃ (by decide) (by decide)
  rw [if_neg h₃]
  by_cases h₄ : c.toNat = 13
  · rw [if_pos h₄]
    exact hletter 'r' h₄ (by decide) (by decide)
  rw [if_neg h₄]
  by_cases h₅ : c.toNat = 9
  · rw [if_pos h₅]
    exact hletter 't' h₅ (by decide) (by decide)
  rw [if_neg h₅]
  by_cases h₆ : c.toNat = 8
  · rw [if_pos h₆]
    exact hletter 'b' h₆ (by decide) (by decide)
  rw [if_neg h₆]
  by_cases h₇ : c.toNat = 12
  · rw [if_pos h₇]
    exact hletter 'f' h₇ (by decide) (by decide)
  rw [if_neg h₇]
  by_cases h₈ : 32 ≤ c.toNat ∧ c.toNat ≤ 126
  · rw [if_pos h₈, String.toList_singleton]
    exact .plain h₈ h₁ h₂
  rw [if_neg h₈]
  by_cases h₉ : c.toNat < 65536
  · rw [if_pos h₉]
    exact .unit h₉
  · rw [if_neg h₉, String.toList_append]
    exact .pair (Nat.le_of_not_lt h₉)

/-- a letter is not the mark of an escape by number, and stands for a small unit -/
theorem escapeLetters_spec {d : Char} (hd : d ∈ escapeLetters) :
    d.toNat ≠ 117 ∧ (32 ≤ d.toNat ∧ d.toNat < 128) ∧ ∀ u, simpleEscape d = some u → u < 128 := by
  have hall : (escapeLetters.all fun d => d.toNat ≠ 117 ∧ (32 ≤ d.toNat ∧ d.toNat < 128) ∧
      ((simpleEscape d).all (· < 128)) = true) = true := by decide
  obtain ⟨hunit, hascii, hsmall⟩ := of_decide_eq_true (List.all_eq_true.mp hall d hd)
  refine ⟨hunit, hascii, ?_⟩
  intro u hu
  rw [hu] at hsmall
  exact of_decide_eq_true hsmall

theorem scanString_escapeChar (c : Char) (cs : List Char) :
    scanString .plain ((escapeChar c).toList ++ cs) =
      (scanString .plain cs).map fun p => (charUnits c ++ p.1, p.2) := by
  have hbounds := char_bounds c
  have hsmall : c.toNat < 65536 → charUnits c = [c.toNat] := fun h => if_pos h
  have hescaped := escapedAs_escapeChar c
  generalize (escapeChar c).toList = text at hescaped
  cases hescaped with
  | letter d hd h =>
    obtain ⟨hunit, -, hlt⟩ := escapeLetters_spec hd
    have hc := hlt _ h
    rw [List.cons_append, List.singleton_append, scanString, if_neg (by decide),
      if_pos (by decide), scanString, if_neg hunit, h, hsmall (by omega)]
    rfl
  | plain h hquote hback =>
    rw [List.singleton_append, scanString, if_neg hquote, if_neg hback, if_neg (by omega),
      hsmall (by omega)]
    rfl
  | unit h =>
    rw [scanString_escapeUnit h, hsmall h]
    rfl
  | pair h =>
    have hunits : charUnits c = [55296 + (c.toNat - 65536) / 1024,
        56320 + (c.toNat - 65536) % 1024] := if_neg (Nat.not_lt.mpr h)
    rw [List.append_assoc, scanString_escapeUnit (by omega), scanString_escapeUnit (by omega),
      Option.map_map, hunits]
    rfl

theorem joinUnits_charUnits (c : Char) (us : List Nat) :
    joinUnits (charUnits c ++ us) = c :: joinUnits us := by
  have hbounds := char_bounds c
  unfold charUnits
  by_cases hsmall : c.toNat < 65536
  · rw [if_pos hsmall, List.singleton_append]
    have hhigh : isHigh c.toNat = false := by
      unfold isHigh
      rw [Bool.and_eq_false_iff, decide_eq_false_iff_not, decide_eq_false_iff_not]
      omega
    have hlow : isLow c.toNat = false := by
      unfold isLow
      rw [Bool.and_eq_false_iff, decide_eq_false_iff_not, decide_eq_false_iff_not]
      omega
    have hchar : unitChar c.toNat = c := by
      unfold unitChar
      rw [hhigh, hlow]
      exact Char.ofNat_toNat c
    cases us with
    | nil =>
      show [unitChar c.toNat] = [c]
      rw [hchar]
    | cons v us =>
      rw [joinUnits, hhigh, hchar]
      rfl
  · rw [if_neg hsmall]
    have hhigh : isHigh (55296 + (c.toNat - 65536) / 1024) = true := by
      unfold isHigh
      rw [Bool.and_eq_true, decide_eq_true_iff, decide_eq_true_iff]
      omega
    have hlow : isLow (56320 + (c.toNat - 65536) % 1024) = true := by
      unfold isLow
      rw [Bool.and_eq_true, decide_eq_true_iff, decide_eq_true_iff]
      omega
    have hval : 65536 + (55296 + (c.toNat - 65536) / 1024 - 55296) * 1024 +
        (56320 + (c.toNat - 65536) % 1024 - 56320) = c.toNat := by omega
    show joinUnits (_ :: _ :: us) = _
    rw [joinUnits, hhigh, hlow, hval, Char.ofNat_toNat]
    rfl

theorem scanString_escaped (chars rest : List Char) :
    scanString .plain ((chars.flatMap fun c => (escapeChar c).toList) ++ '"' :: rest) =
      some (chars.flatMap charUnits, rest) := by
  induction chars with
  | nil => rfl
  | cons c chars ih =>
    rw [List.flatMap_cons, List.append_assoc, scanString_escapeChar, ih]
    rfl

theorem joinUnits_flatMap (chars : List Char) : joinUnits (chars.flatMap charUnits) = chars := by
  induction chars with
  | nil => rfl
  | cons c chars ih => rw [List.flatMap_cons, joinUnits_charUnits, ih]

theorem quoted_eq (s : String) :
    quoted s = '"' :: (s.toList.flatMap fun c => (escapeChar c).toList) ++ ['"'] := by
  unfold quoted quote
  rw [String.toList_append, String.toList_append, String.toList_join, List.flatMap_map]
  rfl

/-- the scanner reads the quoted string -/
theorem string_quoted (s : String) (rest : List Char) :
    ∃ body, quoted s ++ rest = '"' :: body ∧ string body = some (s, rest) := by
  refine ⟨(s.toList.flatMap fun c => (escapeChar c).toList) ++ '"' :: rest, ?_, ?_⟩
  · rw [quoted_eq, List.cons_append, List.cons_append, List.append_assoc]
    rfl
  · unfold string
    rw [scanString_escaped]
    show some (String.ofList (joinUnits _), rest) = _
    rw [joinUnits_flatMap, String.ofList_toList]

/-! ## integers -/

theorem isNumberChar_of_isDigit {c : Char} (h : c.isDigit = true) : isNumberChar c = true := by
  unfold isNumberChar
  rw [h]
  rfl

theorem digit_bounds {c : Char} (h : c.isDigit = true) : 48 ≤ c.toNat ∧ c.toNat ≤ 57 := by
  unfold Char.isDigit at h
  rw [Bool.and_eq_true, decide_eq_true_iff, decide_eq_true_iff] at h
  exact ⟨UInt32.le_iff_toNat_le.mp h.1, UInt32.le_iff_toNat_le.mp h.2⟩

theorem digits_isDigit {n : Nat} {c : Char} (h : c ∈ Nat.toDigits 10 n) : c.isDigit = true :=
  Nat.isDigit_of_mem_toDigits (by decide) (by decide) h

/-- no leading zero -/
theorem digits_head {n : Nat} (h : 0 < n) :
    ∃ c cs, Nat.toDigits 10 n = c :: cs ∧ c.toNat ≠ 48 := by
  induction n using Nat.strongRecOn with
  | ind n ih =>
    by_cases hlt : n < 10
    · refine ⟨n.digitChar, [], Nat.toDigits_of_lt_base hlt, ?_⟩
      rw [Nat.toNat_digitChar_of_lt_ten hlt]
      omega
    · obtain ⟨c, cs, hdigits, hc⟩ := ih (n / 10) (by omega) (by omega)
      rw [Nat.toDigits_of_base_le (by decide) (by omega), hdigits]
      exact ⟨c, _, rfl, hc⟩

theorem natural_digits (n : Nat) :
    natural (Nat.toDigits 10 n) = some (Nat.toDigits 10 n, []) := by
  by_cases hzero : n = 0
  · rw [hzero, Nat.toDigits_zero]
    rfl
  · obtain ⟨c, cs, hdigits, hc⟩ := digits_head (Nat.pos_of_ne_zero hzero)
    have hall : ∀ d ∈ Nat.toDigits 10 n, d.isDigit = true := fun d hd => digits_isDigit hd
    have htake := List.takeWhile_eq_self_iff.mpr hall
    have hdrop := List.dropWhile_eq_nil_iff.mpr hall
    have hhead : c.isDigit = true := by
      apply hall
      rw [hdigits]
      exact List.mem_cons_self
    rw [hdigits] at htake hdrop ⊢
    show (if c.toNat = 48 then _ else if c.isDigit = true then _ else none) = _
    rw [if_neg hc, if_pos hhead, htake, hdrop]

theorem digits_ne_minus {n : Nat} {c : Char} (h : c ∈ Nat.toDigits 10 n) : c.toNat ≠ 45 := by
  have hbounds := digit_bounds (digits_isDigit h)
  omega

section
variable {T : PyText}

theorem numberOf_digits (n : Nat) :
    numberOf T (Nat.toDigits 10 n) = some (.int n, []) := by
  have hnatural := natural_digits n
  have hvalue := Nat.ofDigitChars_ten_toDigits (n := n)
  unfold numberOf integer
  cases hdigits : Nat.toDigits 10 n with
  | nil => exact absurd hdigits Nat.toDigits_ne_nil
  | cons c cs =>
    have hc : c.toNat ≠ 45 := by
      apply digits_ne_minus (n := n)
      rw [hdigits]
      exact List.mem_cons_self
    rw [hdigits] at hnatural hvalue
    dsimp only
    rw [if_neg hc, hnatural]
    show some (Json.int (intOf (c :: cs)), []) = _
    unfold intOf
    dsimp only
    rw [if_neg hc, hvalue]

theorem numberOf_minus (n : Nat) :
    numberOf T ('-' :: Nat.toDigits 10 n) = some (.int (-n), []) := by
  unfold numberOf integer
  dsimp only
  rw [if_pos (by decide), natural_digits]
  show some (Json.int (intOf ('-' :: Nat.toDigits 10 n)), []) = _
  unfold intOf
  dsimp only
  rw [if_pos (by decide), Nat.ofDigitChars_ten_toDigits]

/-- a text of number characters only -/
theorem number_run {run left : List Char} {j : Json}
    (hrun : ∀ c ∈ run, isNumberChar c = true) (hread : numberOf T run = some (j, left)) :
    number T run = some (j, left) := by
  have htake := List.takeWhile_eq_self_iff.mpr hrun
  have hdrop := List.dropWhile_eq_nil_iff.mpr hrun
  unfold number
  rw [htake, hdrop, hread]
  show some (j, left ++ []) = _
  rw [List.append_nil]

theorem number_int (i : Int) : number T (toString i).toList = some (.int i, []) := by
  rw [Int.toString_eq_repr, Int.repr_eq_if]
  have hdigit : ∀ n : Nat, ∀ c ∈ Nat.toDigits 10 n, isNumberChar c = true :=
    fun n c hc => isNumberChar_of_isDigit (digits_isDigit hc)
  split
  · rename_i hnonneg
    rw [Nat.toList_repr]
    have hread := numberOf_digits (T := T) i.toNat
    rw [Int.toNat_of_nonneg hnonneg] at hread
    exact number_run (hdigit _) hread
  · rename_i hneg
    rw [String.toList_append, Nat.toList_repr]
    have hrun : ∀ c ∈ '-' :: Nat.toDigits 10 (-i).toNat, isNumberChar c = true := by
      intro c hc
      obtain hminus | hc := List.mem_cons.mp hc
      · rw [hminus]
        rfl
      · exact hdigit _ c hc
    have hread := numberOf_minus (T := T) (-i).toNat
    rw [Int.toNat_of_nonneg (by omega), Int.neg_neg] at hread
    exact number_run hrun hread

end

/-! ## values -/

section
variable (T : PyText)

mutual
/-- the keys of each object are distinct, and `repr` of each float reads back -/
def Printable : Json → Prop
  | .float (.fin q) => number T (T.reprFloat q).toList = some (.float (.fin q), [])
  | .arr xs => PrintableItems xs
  | .obj fs => (Dict.keys fs).Nodup ∧ PrintableFields fs
  | _ => True

def PrintableItems : List Json → Prop
  | [] => True
  | x :: xs => Printable x ∧ PrintableItems xs

def PrintableFields : List (String × Json) → Prop
  | [] => True
  | (_, x) :: fs => Printable x ∧ PrintableFields fs
end

end

theorem isBlank_of_isDigit {c : Char} (h : c.isDigit = true) : isBlank c = false := by
  have hbounds := digit_bounds h
  unfold isBlank
  simp only [Bool.or_eq_false_iff, beq_eq_false_iff_ne]
  omega

/-- no blank and no closing bracket -/
def Starts (cs : List Char) : Prop :=
  ∃ c tail, cs = c :: tail ∧ isBlank c = false ∧ c.toNat ≠ 93 ∧ c.toNat ≠ 125

theorem Starts.append {cs : List Char} (h : Starts cs) (s : List Char) : Starts (cs ++ s) := by
  obtain ⟨c, tail, hcs, hc⟩ := h
  exact ⟨c, tail ++ s, by rw [hcs]; rfl, hc⟩

theorem Starts.skip_eq {cs : List Char} (h : Starts cs) : skip cs = cs := by
  obtain ⟨c, tail, hcs, hc, -⟩ := h
  rw [hcs]
  exact skip_cons hc tail

theorem starts_quoted (s : String) : Starts (quoted s) :=
  ⟨'"', _, quoted_eq s, by decide, by decide, by decide⟩

section
variable {T : PyText} {L : Layout} {depth : Nat} {gap : List Char}

theorem starts_number {cs rest : List Char} {j : Json} (h : number T cs = some (j, rest)) :
    Starts cs := by
  obtain ⟨c, tail, hcs, hc⟩ := number_head h
  refine ⟨c, tail, hcs, ?_⟩
  obtain hdigit | ⟨hminus, -⟩ := hc
  · have hbounds := digit_bounds hdigit
    exact ⟨isBlank_of_isDigit hdigit, by omega, by omega⟩
  · rw [hminus]
    exact ⟨by decide, by decide, by decide⟩

variable (L depth) in
theorem starts_layout {j : Json} (h : Printable T j) : Starts (layout T L depth j) := by
  cases j with
  | null => exact ⟨'n', _, by rw [layout, scalarText], by decide, by decide, by decide⟩
  | bool b =>
    cases b with
    | false => exact ⟨'f', _, by rw [layout, scalarText]; rfl, by decide, by decide, by decide⟩
    | true => exact ⟨'t', _, by rw [layout, scalarText]; rfl, by decide, by decide, by decide⟩
  | int i =>
    rw [layout, scalarText]
    exact starts_number (T := T) (number_int i)
  | float x =>
    rw [layout]
    cases x with
    | fin q =>
      rw [scalarText]
      rw [Printable] at h
      exact starts_number h
    | nan => exact ⟨'N', _, by rw [scalarText], by decide, by decide, by decide⟩
    | posInf => exact ⟨'I', _, by rw [scalarText], by decide, by decide, by decide⟩
    | negInf => exact ⟨'-', _, by rw [scalarText], by decide, by decide, by decide⟩
  | str s =>
    rw [layout, scalarText]
    exact starts_quoted s
  | arr xs => exact ⟨'[', _, by rw [layout]; rfl, by decide, by decide, by decide⟩
  | obj fs => exact ⟨'\x7b', _, by rw [layout]; rfl, by decide, by decide, by decide⟩

variable (L depth) in
theorem starts_layoutItems {x : Json} {xs : List Json} (h : PrintableItems T (x :: xs)) :
    Starts (layoutItems T L depth (x :: xs)) := by
  rw [PrintableItems] at h
  cases xs with
  | nil =>
    rw [layoutItems, List.append_assoc]
    exact (starts_layout L (depth + 1) h.1).append _
  | cons y xs =>
    rw [layoutItems, List.append_assoc]
    exact (starts_layout L (depth + 1) h.1).append _

variable (T L depth) in
theorem starts_layoutMembers (p : String × Json) (fs : List (String × Json)) :
    Starts (layoutMembers T L depth (p :: fs)) := by
  obtain ⟨k, x⟩ := p
  cases fs with
  | nil =>
    rw [layoutMembers]
    simp only [List.append_assoc]
    exact (starts_quoted k).append _
  | cons p fs =>
    rw [layoutMembers]
    simp only [List.append_assoc]
    exact (starts_quoted k).append _

theorem number_text {cs : List Char} {j : Json} (h : number T cs = some (j, []))
    {rest : List Char} (hrest : Open [] rest) : scalar T (cs ++ rest) = some (j, rest) :=
  scalar_carries cs.length cs j [] rest (scalar_number h) (Nat.le_refl _) hrest

theorem value_scalar {c : Char} {cs rest : List Char} {j : Json} (n : Nat)
    (hc : c.toNat ≠ 34 ∧ c.toNat ≠ 123 ∧ c.toNat ≠ 91)
    (h : scalar T (c :: cs) = some (j, rest)) : value T (n + 1) (c :: cs) = some (j, rest) := by
  rw [value, if_neg hc.1, if_neg hc.2.1, if_neg hc.2.2]
  exact h

theorem value_number {cs rest : List Char} {j : Json} (n : Nat)
    (h : number T cs = some (j, [])) (hrest : Open [] rest) :
    value T (n + 1) (cs ++ rest) = some (j, rest) := by
  have hscalar := number_text h hrest
  obtain ⟨c, tail, hcs, hc⟩ := number_head h
  rw [hcs, List.cons_append] at hscalar ⊢
  refine value_scalar n ?_ hscalar
  obtain hdigit | ⟨hminus, -⟩ := hc
  · have hbounds := digit_bounds hdigit
    omega
  · rw [hminus]
    decide

theorem pos_of_starts {cs : List Char} (h : Starts cs) : 0 < cs.length := by
  obtain ⟨c, tail, hcs, -⟩ := h
  rw [hcs]
  exact Nat.succ_pos _

theorem open_nil_cons {c : Char} (h : isNumberChar c = false) (rest : List Char) :
    Open [] (c :: rest) := by
  right
  show (!isNumberChar c) = true
  rw [h]
  rfl

theorem isNumberChar_of_isBlank {c : Char} (h : isBlank c = true) : isNumberChar c = false := by
  unfold isBlank at h
  simp only [Bool.or_eq_true, beq_iff_eq] at h
  have hdigit : c.isDigit = false := by
    by_contra hdigit
    have hbounds := digit_bounds (Bool.not_eq_false _ ▸ hdigit)
    omega
  unfold isNumberChar
  rw [hdigit, Bool.false_or]
  simp only [Bool.or_eq_false_iff, beq_eq_false_iff_ne]
  omega

/-- blanks, and then a character that is not part of a number -/
theorem open_blanks (hgap : ∀ c ∈ gap, isBlank c = true) {c : Char} (h : isNumberChar c = false)
    (rest : List Char) : Open [] (gap ++ c :: rest) := by
  cases gap with
  | nil => exact open_nil_cons h rest
  | cons d gap =>
    exact open_nil_cons (isNumberChar_of_isBlank (hgap d List.mem_cons_self)) _

section
variable {α : Type} {close : Nat} {p : List Char → Option (α × List Char)} {cs rest : List Char}
  {a : α} {c : Char}

theorem items_last {left : List Char} (hitem : p cs = some (a, left))
    (hskip : skip left = c :: rest) (hc : c.toNat = close) (k : Nat) :
    items close p (k + 1) cs = some ([a], rest) := by
  rw [items, hitem]
  dsimp only
  rw [hskip]
  dsimp only
  rw [if_pos hc]

theorem items_more (hitem : p cs = some (a, c :: rest)) (hc : c.toNat = 44) (hclose : close ≠ 44)
    (k : Nat) :
    items close p (k + 1) cs = (items close p k (skip rest)).map fun q => (a :: q.1, q.2) := by
  have hblank : isBlank c = false := by
    unfold isBlank
    rw [hc]
    rfl
  rw [items, hitem]
  dsimp only
  rw [skip_cons hblank]
  dsimp only
  rw [if_neg (hc ▸ hclose.symm), if_pos hc]

end

theorem member_text (hgap : ∀ c ∈ gap, isBlank c = true)
    {p : List Char → Option (Json × List Char)} (key : String) {j : Json} {body rest : List Char}
    (hbody : Starts body) (h : p (body ++ rest) = some (j, rest)) :
    member p (quoted key ++ ':' :: (gap ++ (body ++ rest))) = some ((key, j), rest) := by
  obtain ⟨chars, hchars, hstring⟩ := string_quoted key (':' :: (gap ++ (body ++ rest)))
  rw [hchars]
  unfold member
  dsimp only
  rw [if_pos (by decide), hstring]
  dsimp only
  rw [skip_cons (by decide)]
  dsimp only
  rw [if_pos (by decide), skip_blanks hgap, (hbody.append rest).skip_eq, h]
  rfl

/-- every gap of the layout is white space -/
structure Layout.Blank (L : Layout) : Prop where
  afterOpen : ∀ depth, ∀ c ∈ L.afterOpen depth, isBlank c = true
  afterComma : ∀ depth, ∀ c ∈ L.afterComma depth, isBlank c = true
  afterColon : ∀ c ∈ L.afterColon, isBlank c = true
  beforeClose : ∀ depth, ∀ c ∈ L.beforeClose depth, isBlank c = true

theorem Layout.Blank.opening (h : L.Blank) {α : Type} (depth : Nat) (xs : List α) :
    ∀ c ∈ opening L depth xs, isBlank c = true := by
  unfold JsonText.opening
  split
  · exact fun c hc => absurd hc List.not_mem_nil
  · exact h.afterOpen depth

/-- a closing bracket after its white space -/
theorem skip_close (h : L.Blank) (depth : Nat) {c : Char} (hc : isBlank c = false)
    (rest : List Char) : skip (L.beforeClose depth ++ c :: rest) = c :: rest := by
  rw [skip_blanks (h.beforeClose depth), skip_cons hc]

mutual
theorem value_layout (hL : L.Blank) (depth : Nat) (j : Json) (h : Printable T j) (n : Nat)
    (rest : List Char) (hn : (layout T L depth j).length ≤ n) (hrest : Open [] rest) :
    value T n (layout T L depth j ++ rest) = some (j, rest) := by
  have hpos := pos_of_starts (starts_layout L depth h)
  cases n with
  | zero => omega
  | succ n =>
    cases j with
    | null =>
      rw [layout, scalarText]
      exact value_scalar n (by decide) (scalar_null rest)
    | bool b =>
      rw [layout, scalarText]
      cases b with
      | false => exact value_scalar n (by decide) (scalar_false rest)
      | true => exact value_scalar n (by decide) (scalar_true rest)
    | int i =>
      rw [layout, scalarText]
      exact value_number n (number_int i) hrest
    | float x =>
      rw [layout]
      cases x with
      | fin q =>
        rw [scalarText]
        rw [Printable] at h
        exact value_number n h hrest
      | nan =>
        rw [scalarText]
        exact value_scalar n (by decide) (scalar_nan rest)
      | posInf =>
        rw [scalarText]
        exact value_scalar n (by decide) (scalar_posInf rest)
      | negInf =>
        rw [scalarText]
        exact value_scalar n (by decide) (scalar_negInf rest)
    | str s =>
      rw [layout, scalarText]
      obtain ⟨body, hbody, hstring⟩ := string_quoted s rest
      rw [hbody, value, if_pos (by decide), hstring]
      rfl
    | arr xs =>
      rw [layout, List.cons_append, List.length_cons, List.length_append] at hn
      rw [layout, List.cons_append, List.cons_append, value, if_neg (by decide),
        if_neg (by decide), if_pos (by decide), List.append_assoc]
      rw [Printable] at h
      have hseq : sequence 93 (value T n) n
          (opening L (depth + 1) xs ++ (layoutItems T L depth xs ++ rest)) = some (xs, rest) := by
        unfold sequence
        rw [skip_blanks (hL.opening (depth + 1) xs)]
        cases xs with
        | nil =>
          rw [layoutItems]
          rfl
        | cons x xs =>
          have hstarts := (starts_layoutItems L depth h).append rest
          rw [hstarts.skip_eq]
          obtain ⟨c, tail, hcs, -, hclose, -⟩ := hstarts
          have hitems := items_layout hL depth (x :: xs) (List.cons_ne_nil _ _) h n n rest
            (by omega) (by omega)
          rw [hcs] at hitems ⊢
          dsimp only
          rw [if_neg hclose, hitems]
      rw [hseq]
      rfl
    | obj fs =>
      rw [layout, List.cons_append, List.length_cons, List.length_append] at hn
      rw [layout, List.cons_append, List.cons_append, value, if_neg (by decide),
        if_pos (by decide), List.append_assoc]
      rw [Printable] at h
      have hseq : sequence 125 (member (value T n)) n
          (opening L (depth + 1) fs ++ (layoutMembers T L depth fs ++ rest)) =
            some (fs, rest) := by
        unfold sequence
        rw [skip_blanks (hL.opening (depth + 1) fs)]
        cases fs with
        | nil =>
          rw [layoutMembers]
          rfl
        | cons p fs =>
          have hstarts := (starts_layoutMembers T L depth p fs).append rest
          rw [hstarts.skip_eq]
          obtain ⟨c, tail, hcs, -, -, hclose⟩ := hstarts
          have hmembers := members_layout hL depth (p :: fs) (List.cons_ne_nil _ _) h.2 n n rest
            (by omega) (by omega)
          rw [hcs] at hmembers ⊢
          dsimp only
          rw [if_neg hclose, hmembers]
      rw [hseq]
      show some (Json.obj (Dict.ofPairs fs), rest) = _
      rw [Dict.ofPairs_of_nodup h.1]

theorem items_layout (hL : L.Blank) (depth : Nat) (xs : List Json) (hne : xs ≠ [])
    (h : PrintableItems T xs) (n k : Nat) (rest : List Char)
    (hn : (layoutItems T L depth xs).length ≤ n) (hk : (layoutItems T L depth xs).length ≤ k) :
    items 93 (value T n) k (layoutItems T L depth xs ++ rest) = some (xs, rest) := by
  cases xs with
  | nil => exact absurd rfl hne
  | cons x xs =>
    have hpos := pos_of_starts (starts_layoutItems L depth h)
    cases k with
    | zero => omega
    | succ k =>
      rw [PrintableItems] at h
      cases xs with
      | nil =>
        rw [layoutItems] at hn ⊢
        simp only [List.append_assoc, List.length_append, List.length_cons, List.cons_append,
          List.nil_append] at hn ⊢
        have hitem := value_layout hL (depth + 1) x h.1 n (L.beforeClose depth ++ ']' :: rest)
          (by omega) (open_blanks (hL.beforeClose depth) (by decide) rest)
        exact items_last hitem (skip_close hL depth (by decide) rest) (by decide) k
      | cons y xs =>
        rw [layoutItems] at hn hk ⊢
        simp only [List.append_assoc, List.length_append, List.length_cons, List.cons_append]
          at hn hk ⊢
        have hitem := value_layout hL (depth + 1) x h.1 n
          (',' :: (L.afterComma (depth + 1) ++ (layoutItems T L depth (y :: xs) ++ rest)))
          (by omega) (open_nil_cons (by decide) _)
        have hmore := items_layout hL depth (y :: xs) (List.cons_ne_nil _ _) h.2 n k rest
          (by omega) (by omega)
        have hskip := ((starts_layoutItems L depth h.2).append rest).skip_eq
        rw [items_more hitem (by decide) (by decide) k, skip_blanks (hL.afterComma (depth + 1)),
          hskip, hmore]
        rfl

theorem members_layout (hL : L.Blank) (depth : Nat) (fs : List (String × Json)) (hne : fs ≠ [])
    (h : PrintableFields T fs) (n k : Nat) (rest : List Char)
    (hn : (layoutMembers T L depth fs).length ≤ n)
    (hk : (layoutMembers T L depth fs).length ≤ k) :
    items 125 (member (value T n)) k (layoutMembers T L depth fs ++ rest) = some (fs, rest) := by
  cases fs with
  | nil => exact absurd rfl hne
  | cons p fs =>
    obtain ⟨key, x⟩ := p
    have hpos := pos_of_starts (starts_layoutMembers T L depth (key, x) fs)
    cases k with
    | zero => omega
    | succ k =>
      rw [PrintableFields] at h
      cases fs with
      | nil =>
        rw [layoutMembers] at hn ⊢
        simp only [List.append_assoc, List.length_append, List.length_cons, List.cons_append,
          List.nil_append] at hn ⊢
        have hval := value_layout hL (depth + 1) x h.1 n (L.beforeClose depth ++ '\x7d' :: rest)
          (by omega) (open_blanks (hL.beforeClose depth) (by decide) rest)
        have hitem := member_text hL.afterColon key (starts_layout L (depth + 1) h.1) hval
        exact items_last hitem (skip_close hL depth (by decide) rest) (by decide) k
      | cons p fs =>
        rw [layoutMembers] at hn hk ⊢
        simp only [List.append_assoc, List.length_append, List.length_cons, List.cons_append]
          at hn hk ⊢
        have hval := value_layout hL (depth + 1) x h.1 n
          (',' :: (L.afterComma (depth + 1) ++ (layoutMembers T L depth (p :: fs) ++ rest)))
          (by omega) (open_nil_cons (by decide) _)
        have hitem := member_text hL.afterColon key (starts_layout L (depth + 1) h.1) hval
        have hmore := members_layout hL depth (p :: fs) (List.cons_ne_nil _ _) h.2 n k rest
          (by omega) (by omega)
        have hskip := ((starts_layoutMembers T L depth p fs).append rest).skip_eq
        rw [items_more hitem (by decide) (by decide) k, skip_blanks (hL.afterComma (depth + 1)),
          hskip, hmore]
        rfl
end

/-! ### the layouts that are used -/

theorem blank_line (hgap : ∀ c ∈ gap, isBlank c = true) : (Layout.line gap).Blank where
  afterOpen _ _ hc := absurd hc List.not_mem_nil
  afterComma _ := hgap
  afterColon := hgap
  beforeClose _ _ hc := absurd hc List.not_mem_nil

theorem blank_newLine (depth : Nat) : ∀ c ∈ newLine depth, isBlank c = true := by
  intro c hc
  rcases List.mem_cons.mp hc with hline | hspace
  · rw [hline]
    decide
  · rw [List.eq_of_mem_replicate hspace]
    decide

theorem blank_indent : Layout.indent.Blank where
  afterOpen := blank_newLine
  afterComma := blank_newLine
  afterColon c hc := by
    rw [List.mem_singleton.mp hc]
    decide
  beforeClose := blank_newLine

theorem opening_line {α : Type} (xs : List α) : opening (Layout.line gap) depth xs = [] := by
  unfold opening
  split <;> rfl

variable (T gap) in
mutual
theorem text_eq_layout (depth : Nat) (j : Json) :
    text T gap j = layout T (Layout.line gap) depth j := by
  cases j with
  | null => rw [text, layout, scalarText]
  | bool b => rw [text, layout, scalarText]
  | int i => rw [text, layout, scalarText]
  | float x => cases x <;> rw [text, layout, scalarText]
  | str s => rw [text, layout, scalarText]
  | arr xs =>
    rw [text, layout, opening_line, textItems_eq_layout depth xs]
    rfl
  | obj fs =>
    rw [text, layout, opening_line, textMembers_eq_layout depth fs]
    rfl

theorem textItems_eq_layout (depth : Nat) (xs : List Json) :
    textItems T gap xs = layoutItems T (Layout.line gap) depth xs := by
  cases xs with
  | nil => rw [textItems, layoutItems]
  | cons x xs =>
    cases xs with
    | nil =>
      rw [textItems, layoutItems, text_eq_layout (depth + 1) x, List.append_assoc]
      rfl
    | cons y xs =>
      rw [textItems, layoutItems, text_eq_layout (depth + 1) x,
        textItems_eq_layout depth (y :: xs)]
      rfl

theorem textMembers_eq_layout (depth : Nat) (fs : List (String × Json)) :
    textMembers T gap fs = layoutMembers T (Layout.line gap) depth fs := by
  cases fs with
  | nil => rw [textMembers, layoutMembers]
  | cons p fs =>
    obtain ⟨k, x⟩ := p
    cases fs with
    | nil =>
      rw [textMembers, layoutMembers, text_eq_layout (depth + 1) x]
      show _ = quoted k ++ ':' :: gap ++ layout T (Layout.line gap) (depth + 1) x ++ [] ++ ['\x7d']
      rw [List.append_nil]
    | cons p fs =>
      rw [textMembers, layoutMembers, text_eq_layout (depth + 1) x,
        textMembers_eq_layout depth (p :: fs)]
      rfl
end

variable (gap) in
theorem starts_text {j : Json} (h : Printable T j) : Starts (text T gap j) := by
  rw [text_eq_layout T gap 0]
  exact starts_layout _ 0 h

theorem value_text (hgap : ∀ c ∈ gap, isBlank c = true) (j : Json) (h : Printable T j) (n : Nat)
    (rest : List Char) (hn : (text T gap j).length ≤ n) (hrest : Open [] rest) :
    value T n (text T gap j ++ rest) = some (j, rest) := by
  rw [text_eq_layout T gap 0] at hn ⊢
  exact value_layout (blank_line hgap) 0 j h n rest hn hrest

/-! ## whole texts -/

/-- `json.loads` reads what `json.dumps` wrote, with white space after it -/
theorem loads_layout (hL : L.Blank) (depth : Nat) {j : Json} (h : Printable T j)
    {blanks : List Char} (hblanks : ∀ c ∈ blanks, isBlank c = true) :
    loads T (layout T L depth j ++ blanks) = some j := by
  have hopen : Open [] blanks := by
    cases blanks with
    | nil => exact open_nil []
    | cons c blanks =>
      exact open_nil_cons (isNumberChar_of_isBlank (hblanks c List.mem_cons_self)) _
  have hfuel : (layout T L depth j).length ≤ (layout T L depth j ++ blanks).length := by
    rw [List.length_append]
    exact Nat.le_add_right _ _
  have hvalue := value_layout hL depth j h _ blanks hfuel hopen
  have hskip : skip blanks = [] := List.dropWhile_eq_nil_iff.mpr hblanks
  unfold loads
  rw [((starts_layout L depth h).append blanks).skip_eq, hvalue]
  dsimp only
  rw [hskip]
  rfl

/-- `json.loads` reads what `json.dumps` wrote on one line -/
theorem loads_text (hgap : ∀ c ∈ gap, isBlank c = true) {j : Json} (h : Printable T j) :
    loads T (text T gap j) = some j := by
  have hloads := @loads_layout T _ (blank_line hgap) 0 j h [] fun c hc =>
    absurd hc List.not_mem_nil
  rw [List.append_nil, ← text_eq_layout T gap 0] at hloads
  exact hloads

/-- no proper prefix of a printed object is a JSON text -/
theorem loads_prefix (hgap : ∀ c ∈ gap, isBlank c = true) {fs : Obj}
    (h : Printable T (.obj fs)) {cs more : List Char} (hcs : cs ++ more = text T gap (.obj fs))
    (hmore : more ≠ []) : loads T cs = none := by
  have hwhole := value_text hgap (.obj fs) h (text T gap (.obj fs)).length [] (Nat.le_refl _)
    (open_nil [])
  rw [List.append_nil, ← hcs] at hwhole
  rw [text] at hcs
  cases cs with
  | nil => rfl
  | cons c cs =>
    have hc : c = '\x7b' := by
      injection hcs
    have hskip : skip (c :: cs) = c :: cs := by
      rw [hc]
      exact skip_cons (by decide) cs
    unfold loads
    rw [hskip]
    cases hread : value T (c :: cs).length (c :: cs) with
    | none => rfl
    | some r =>
      obtain ⟨j, rest⟩ := r
      -- the object read in the prefix would be read in the whole text, leaving `more`
      have hfuel : (c :: cs).length ≤ (c :: cs ++ more).length + rest.length := by
        rw [List.length_append]
        omega
      have hcarries := value_object_carries (by rw [hc]; rfl) hread hfuel more
      rw [hcarries] at hwhole
      have hleft : rest ++ more = [] := (Prod.mk.inj (Option.some.inj hwhole)).2
      exact absurd (List.append_eq_nil_iff.mp hleft).2 hmore

/-- the text determines the value -/
theorem text_injective (hgap : ∀ c ∈ gap, isBlank c = true) {j j' : Json}
    (h : Printable T j) (h' : Printable T j') (htext : text T gap j = text T gap j') : j = j' := by
  have hread := loads_text hgap h
  rw [htext, loads_text hgap h'] at hread
  exact (Option.some.inj hread).symm

/-! ## the sorted form -/

theorem printableFields_iff {fs : List (String × Json)} :
    PrintableFields T fs ↔ ∀ p ∈ fs, Printable T p.2 := by
  induction fs with
  | nil =>
    rw [PrintableFields]
    exact ⟨fun _ p hp => absurd hp List.not_mem_nil, fun _ => trivial⟩
  | cons p fs ih =>
    obtain ⟨k, x⟩ := p
    rw [PrintableFields, ih, List.forall_mem_cons]

theorem printableItems_iff {xs : List Json} :
    PrintableItems T xs ↔ ∀ x ∈ xs, Printable T x := by
  induction xs with
  | nil =>
    rw [PrintableItems]
    exact ⟨fun _ x hx => absurd hx List.not_mem_nil, fun _ => trivial⟩
  | cons x xs ih => rw [PrintableItems, ih, List.forall_mem_cons]

theorem printable_null : Printable T .null := by simp [Printable]

theorem printable_int (i : Int) : Printable T (.int i) := by simp [Printable]

theorem printable_str (s : String) : Printable T (.str s) := by simp [Printable]

theorem printable_ofOption {α : Type} {f : α → Json} {o : Option α}
    (h : ∀ a, o = some a → Printable T (f a)) : Printable T (Json.ofOption f o) := by
  cases o with
  | none => exact printable_null
  | some a => exact h a rfl

theorem keys_canonFields (fs : Obj) : Dict.keys (Json.canonFields fs) = Dict.keys fs := by
  rw [Json.canonFields_eq]
  exact Dict.keys_mapValues _ _

mutual
/-- sorting the keys keeps a value printable -/
theorem printable_canon (j : Json) (h : Printable T j) : Printable T j.canon := by
  cases j with
  | null => rwa [Json.canon_null]
  | bool b => rwa [Json.canon_bool]
  | int i => rwa [Json.canon_int]
  | float x => rwa [Json.canon_float]
  | str s => rwa [Json.canon_str]
  | arr xs =>
    rw [Printable] at h
    rw [Json.canon, Printable]
    exact printable_canonList xs h
  | obj fs =>
    rw [Printable] at h
    rw [Json.canon, Printable]
    have hperm := Dict.sorted_perm (Json.canonFields fs)
    have hkeys : (Dict.keys (Dict.sorted (Json.canonFields fs))).Perm (Dict.keys fs) := by
      rw [← keys_canonFields fs]
      exact hperm.map _
    refine ⟨hkeys.nodup_iff.mpr h.1, printableFields_iff.mpr ?_⟩
    intro p hp
    exact printableFields_iff.mp (printable_canonFields fs h.2) p (hperm.mem_iff.mp hp)

theorem printable_canonList (xs : List Json) (h : PrintableItems T xs) :
    PrintableItems T (Json.canonList xs) := by
  cases xs with
  | nil => rwa [Json.canonList]
  | cons x xs =>
    rw [PrintableItems] at h
    rw [Json.canonList, PrintableItems]
    exact ⟨printable_canon x h.1, printable_canonList xs h.2⟩

theorem printable_canonFields (fs : List (String × Json)) (h : PrintableFields T fs) :
    PrintableFields T (Json.canonFields fs) := by
  cases fs with
  | nil => rwa [Json.canonFields]
  | cons p fs =>
    obtain ⟨k, x⟩ := p
    rw [PrintableFields] at h
    rw [Json.canonFields, PrintableFields]
    exact ⟨printable_canon x h.1, printable_canonFields fs h.2⟩
end

mutual
theorem toList_dumpsCompact (j : Json) : (dumpsCompact T j).toList = text T [] j := by
  cases j with
  | null => rw [dumpsCompact, text]; rfl
  | bool b => cases b <;> rw [dumpsCompact, text] <;> rfl
  | int i => rw [dumpsCompact, text]
  | float x =>
    cases x with
    | fin q => rw [dumpsCompact, text]
    | nan => rw [dumpsCompact, text]; rfl
    | posInf => rw [dumpsCompact, text]; rfl
    | negInf => rw [dumpsCompact, text]; rfl
  | str s => rw [dumpsCompact, text]; rfl
  | arr xs =>
    have hitems := toList_dumpsList xs
    rw [dumpsCompact, text, ← hitems]
    simp only [String.toList_append, String.toList_intercalate]
    rfl
  | obj fs =>
    have hfields := toList_dumpsFields fs
    rw [dumpsCompact, text, ← hfields]
    simp only [String.toList_append, String.toList_intercalate]
    rfl

theorem toList_dumpsList (xs : List Json) :
    ",".toList.intercalate ((dumpsList T xs).map String.toList) ++ [']'] = textItems T [] xs := by
  cases xs with
  | nil => rw [dumpsList, textItems]; rfl
  | cons x xs =>
    have hx := toList_dumpsCompact x
    cases xs with
    | nil =>
      rw [dumpsList, dumpsList, textItems, ← hx]
      simp only [List.map_cons, List.map_nil, List.intercalate_singleton]
    | cons y xs =>
      have hxs := toList_dumpsList (y :: xs)
      rw [dumpsList, textItems, ← hx, ← hxs]
      simp only [dumpsList, List.map_cons, List.intercalate_cons_cons, List.append_assoc]
      rfl

theorem toList_dumpsFields (fs : List (String × Json)) :
    ",".toList.intercalate ((dumpsFields T fs).map String.toList) ++ ['\x7d'] =
      textMembers T [] fs := by
  cases fs with
  | nil => rw [dumpsFields, textMembers]; rfl
  | cons p fs =>
    obtain ⟨k, x⟩ := p
    have hx := toList_dumpsCompact x
    cases fs with
    | nil =>
      rw [dumpsFields, dumpsFields, textMembers, ← hx]
      simp only [List.map_cons, List.map_nil, List.intercalate_singleton, String.toList_append,
        List.append_assoc]
      rfl
    | cons p fs =>
      have hfs := toList_dumpsFields (p :: fs)
      obtain ⟨k', y⟩ := p
      rw [dumpsFields, textMembers, ← hx, ← hfs]
      simp only [dumpsFields, List.map_cons, List.intercalate_cons_cons, String.toList_append,
        List.append_assoc]
      rfl
end

/-- `json.loads` reads a document back, with its keys sorted -/
theorem loads_document {j : Json} (h : Printable T j) : loads T (document T j) = some j.canon :=
  loads_layout blank_indent 0 (printable_canon j h) fun c hc => by
    rw [List.mem_singleton.mp hc]
    decide

/-- the canonical text determines a value up to the order of its keys -/
theorem canonicalJson_injective {j j' : Json} (h : Printable T j) (h' : Printable T j')
    (htext : canonicalJson T j = canonicalJson T j') : j.canon = j'.canon := by
  have hlist := congrArg String.toList htext
  unfold canonicalJson at hlist
  rw [toList_dumpsCompact, toList_dumpsCompact] at hlist
  have hgap : ∀ c ∈ ([] : List Char), isBlank c = true := fun c hc => absurd hc List.not_mem_nil
  exact text_injective hgap (printable_canon j h) (printable_canon j' h') hlist

end

end JsonText
end Dolores
