import Dolores.Py.JsonRoundTrip

/-!
# The characters of a printed value

`json.dumps` with `ensure_ascii` writes printable ASCII characters only, apart from the gaps of
its layout (`layout_within`); on one line it writes nothing else (`text_ascii`).
-/

namespace Dolores
namespace JsonText

def AsciiText (cs : List Char) : Prop := ∀ c ∈ cs, 32 ≤ c.toNat ∧ c.toNat < 128

theorem AsciiText.append {cs ds : List Char} (h : AsciiText cs) (h' : AsciiText ds) :
    AsciiText (cs ++ ds) := by
  intro c hc
  obtain hc | hc := List.mem_append.mp hc
  · exact h c hc
  · exact h' c hc

theorem AsciiText.cons {c : Char} {cs : List Char} (hc : 32 ≤ c.toNat ∧ c.toNat < 128)
    (h : AsciiText cs) : AsciiText (c :: cs) := by
  intro d hd
  obtain heq | hd := List.mem_cons.mp hd
  · rw [heq]
    exact hc
  · exact h d hd

theorem asciiText_of_all {cs : List Char}
    (h : (cs.all fun c => decide (32 ≤ c.toNat ∧ c.toNat < 128)) = true) : AsciiText cs :=
  fun c hc => of_decide_eq_true (List.all_eq_true.mp h c hc)

theorem asciiText_nil : AsciiText [] := fun _ h => absurd h List.not_mem_nil

theorem asciiText_hexDigit {n : Nat} (h : n < 16) :
    32 ≤ (hexDigit n).toNat ∧ (hexDigit n).toNat < 128 := by
  have hall : ∀ d < 16, 32 ≤ (hexDigit d).toNat ∧ (hexDigit d).toNat < 128 := by decide
  exact hall n h

theorem asciiText_escapeUnit (u : Nat) : AsciiText (escapeUnit u).toList := by
  have hdigit := fun k => asciiText_hexDigit (Nat.mod_lt k (by decide : 0 < 16))
  rw [toList_escapeUnit]
  refine .cons (by decide) (.cons (by decide) ?_)
  exact .cons (hdigit _) (.cons (hdigit _) (.cons (hdigit _) (.cons (hdigit _) asciiText_nil)))

theorem asciiText_escapeChar (c : Char) : AsciiText (escapeChar c).toList := by
  have hescaped := escapedAs_escapeChar c
  generalize (escapeChar c).toList = text at hescaped
  cases hescaped with
  | letter d hd _ => exact .cons (by decide) (.cons (escapeLetters_spec hd).2.1 asciiText_nil)
  | plain h _ _ => exact .cons (by omega) asciiText_nil
  | unit _ => exact asciiText_escapeUnit _
  | pair _ => exact (asciiText_escapeUnit _).append (asciiText_escapeUnit _)

theorem asciiText_quoted (s : String) : AsciiText (quoted s) := by
  rw [quoted_eq]
  refine (AsciiText.cons (by decide) ?_).append (.cons (by decide) asciiText_nil)
  intro c hc
  obtain ⟨d, -, hd⟩ := List.mem_flatMap.mp hc
  exact asciiText_escapeChar d c hd

theorem ascii_of_isNumberChar {c : Char} (h : isNumberChar c = true) :
    32 ≤ c.toNat ∧ c.toNat < 128 := by
  unfold isNumberChar at h
  simp only [Bool.or_eq_true, beq_iff_eq] at h
  obtain ((((hdigit | h) | h) | h) | h) | h := h
  · have hbounds := digit_bounds hdigit
    omega
  all_goals omega

section
variable {T : PyText} {gap : List Char}

/-- a text that is read as a number consists of number characters -/
theorem isNumberChar_of_number {cs : List Char} {j : Json} (h : number T cs = some (j, [])) :
    ∀ c ∈ cs, isNumberChar c = true := by
  unfold number at h
  obtain ⟨p, -, heq⟩ := Option.map_eq_some_iff.mp h
  have hrest : p.2 ++ cs.dropWhile isNumberChar = [] := (Prod.mk.inj heq).2
  have hwhole := List.takeWhile_append_dropWhile (p := isNumberChar) (l := cs)
  rw [(List.append_eq_nil_iff.mp hrest).2, List.append_nil] at hwhole
  intro c hc
  rw [← hwhole] at hc
  exact List.mem_takeWhile_imp hc

theorem asciiText_number {cs : List Char} {j : Json} (h : number T cs = some (j, [])) :
    AsciiText cs := fun c hc => ascii_of_isNumberChar (isNumberChar_of_number h c hc)

/-! ## layouts -/

section
variable {P : Char → Prop} {L : Layout}

/-- every printable ASCII character and every character of the gaps is allowed -/
structure Layout.Within (L : Layout) (P : Char → Prop) : Prop where
  ascii : ∀ c : Char, 32 ≤ c.toNat ∧ c.toNat < 128 → P c
  afterOpen : ∀ depth, ∀ c ∈ L.afterOpen depth, P c
  afterComma : ∀ depth, ∀ c ∈ L.afterComma depth, P c
  afterColon : ∀ c ∈ L.afterColon, P c
  beforeClose : ∀ depth, ∀ c ∈ L.beforeClose depth, P c

theorem forall_append {cs ds : List Char} (h : ∀ c ∈ cs, P c) (h' : ∀ c ∈ ds, P c) :
    ∀ c ∈ cs ++ ds, P c := by
  intro c hc
  obtain hc | hc := List.mem_append.mp hc
  · exact h c hc
  · exact h' c hc

theorem Layout.Within.asciiText (h : L.Within P) {cs : List Char} (hcs : AsciiText cs) :
    ∀ c ∈ cs, P c := fun c hc => h.ascii c (hcs c hc)

theorem Layout.Within.cons (h : L.Within P) {c : Char} (hc : 32 ≤ c.toNat ∧ c.toNat < 128)
    {cs : List Char} (hcs : ∀ c ∈ cs, P c) : ∀ d ∈ c :: cs, P d :=
  List.forall_mem_cons.mpr ⟨h.ascii c hc, hcs⟩

theorem Layout.Within.opening (h : L.Within P) {α : Type} (depth : Nat) (xs : List α) :
    ∀ c ∈ opening L depth xs, P c := by
  unfold JsonText.opening
  split
  · exact fun c hc => absurd hc List.not_mem_nil
  · exact h.afterOpen depth

theorem scalarText_ascii {j : Json} (h : Printable T j) : AsciiText (scalarText T j) := by
  cases j with
  | null => rw [scalarText]; exact asciiText_of_all (by decide)
  | bool b => rw [scalarText]; cases b <;> exact asciiText_of_all (by decide)
  | int i => rw [scalarText]; exact asciiText_number (T := T) (number_int i)
  | float x =>
    cases x with
    | fin q =>
      rw [scalarText]
      rw [Printable] at h
      exact asciiText_number h
    | nan => rw [scalarText]; exact asciiText_of_all (by decide)
    | posInf => rw [scalarText]; exact asciiText_of_all (by decide)
    | negInf => rw [scalarText]; exact asciiText_of_all (by decide)
  | str s => rw [scalarText]; exact asciiText_quoted s
  | arr xs => rw [scalarText]; exact asciiText_nil
  | obj fs => rw [scalarText]; exact asciiText_nil

mutual
theorem layout_within (hL : L.Within P) (depth : Nat) (j : Json) (h : Printable T j) :
    ∀ c ∈ layout T L depth j, P c := by
  cases j with
  | null => rw [layout]; exact hL.asciiText (scalarText_ascii h)
  | bool b => rw [layout]; exact hL.asciiText (scalarText_ascii h)
  | int i => rw [layout]; exact hL.asciiText (scalarText_ascii h)
  | float x => rw [layout]; exact hL.asciiText (scalarText_ascii h)
  | str s => rw [layout]; exact hL.asciiText (scalarText_ascii h)
  | arr xs =>
    rw [Printable] at h
    rw [layout]
    exact forall_append (hL.cons (by decide) (hL.opening (depth + 1) xs))
      (layoutItems_within hL depth xs h)
  | obj fs =>
    rw [Printable] at h
    rw [layout]
    exact forall_append (hL.cons (by decide) (hL.opening (depth + 1) fs))
      (layoutMembers_within hL depth fs h.2)

theorem layoutItems_within (hL : L.Within P) (depth : Nat) (xs : List Json)
    (h : PrintableItems T xs) : ∀ c ∈ layoutItems T L depth xs, P c := by
  cases xs with
  | nil => rw [layoutItems]; exact hL.asciiText (asciiText_of_all (by decide))
  | cons x xs =>
    rw [PrintableItems] at h
    have hx := layout_within hL (depth + 1) x h.1
    cases xs with
    | nil =>
      rw [layoutItems]
      exact forall_append (forall_append hx (hL.beforeClose depth))
        (hL.asciiText (asciiText_of_all (by decide)))
    | cons y xs =>
      have hxs := layoutItems_within hL depth (y :: xs) h.2
      rw [layoutItems]
      exact forall_append (forall_append hx (hL.cons (by decide) (hL.afterComma (depth + 1)))) hxs

theorem layoutMembers_within (hL : L.Within P) (depth : Nat) (fs : List (String × Json))
    (h : PrintableFields T fs) : ∀ c ∈ layoutMembers T L depth fs, P c := by
  cases fs with
  | nil => rw [layoutMembers]; exact hL.asciiText (asciiText_of_all (by decide))
  | cons p fs =>
    obtain ⟨k, x⟩ := p
    rw [PrintableFields] at h
    have hx := layout_within hL (depth + 1) x h.1
    have hmember : ∀ c ∈ quoted k ++ ':' :: L.afterColon ++ layout T L (depth + 1) x, P c :=
      forall_append (forall_append (hL.asciiText (asciiText_quoted k))
        (hL.cons (by decide) hL.afterColon)) hx
    cases fs with
    | nil =>
      rw [layoutMembers]
      exact forall_append (forall_append hmember (hL.beforeClose depth))
        (hL.asciiText (asciiText_of_all (by decide)))
    | cons p fs =>
      have hfs := layoutMembers_within hL depth (p :: fs) h.2
      rw [layoutMembers]
      exact forall_append (forall_append hmember
        (hL.cons (by decide) (hL.afterComma (depth + 1)))) hfs
end

end

/-- a value printed on one line is printable ASCII: it holds no newline -/
theorem text_ascii (hgap : AsciiText gap) (j : Json) (h : Printable T j) :
    AsciiText (text T gap j) := by
  have hline : (Layout.line gap).Within fun c => 32 ≤ c.toNat ∧ c.toNat < 128 :=
    ⟨fun _ hc => hc, fun _ => asciiText_nil, fun _ => hgap, hgap, fun _ => asciiText_nil⟩
  rw [text_eq_layout T gap 0]
  exact layout_within hline 0 j h

theorem newLine_ne_return (depth : Nat) : ∀ c ∈ newLine depth, c.toNat ≠ 13 := by
  intro c hc
  rcases List.mem_cons.mp hc with hline | hspace
  · rw [hline]
    decide
  · rw [List.eq_of_mem_replicate hspace]
    decide

/-- `indent=2` writes no carriage return -/
theorem document_ne_return {j : Json} (h : Printable T j) :
    ∀ c ∈ document T j, c.toNat ≠ 13 := by
  have hindent : Layout.indent.Within fun c => c.toNat ≠ 13 := by
    refine ⟨fun c hc => by omega, newLine_ne_return, newLine_ne_return, ?_, newLine_ne_return⟩
    intro c hc
    rw [List.mem_singleton.mp hc]
    decide
  refine forall_append (layout_within hindent 0 j.canon (printable_canon j h)) ?_
  intro c hc
  rw [List.mem_singleton.mp hc]
  decide

end

end JsonText
end Dolores
