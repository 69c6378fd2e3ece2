import Mathlib.Data.List.Basic

/-!
# Records of delimited fields

A record is a list of fields, joined by a delimiter `d`.  A second symbol `s` keeps a delimiter
inside a field apart from one between two fields: either it stands before each symbol that is not
to be read as itself (`escaped`), or it stands around the whole field and is doubled inside
(`quoted`).  Each parser reads one symbol at a time.

* `parseEscaped_record`, `parseQuoted_record`   the parser reads any record but the empty one back,
                       so no two records are written alike;
* `parseEscaped_dangling`   an `s` at the end, with nothing after it, is no record.
-/

set_option linter.unusedSectionVars false

namespace Delimited

section
variable {α : Type} [DecidableEq α] (d s : α)

/-- the fields as `encode` writes them, with the delimiter between them -/
def record (encode : List α → List α) (fields : List (List α)) : List α :=
  [d].intercalate (fields.map encode)

/-! ## a symbol before each special one -/

def escapedField (field : List α) : List α :=
  field.flatMap fun c => if c = s ∨ c = d then [s, c] else [c]

/-- where the parser stands; the field so far is reversed -/
inductive EscapedState (α : Type) where
  | field (read : List α)
  | escape (read : List α)

def parseEscaped : EscapedState α → List α → Option (List (List α))
  | .field read, [] => some [read.reverse]
  | .escape _, [] => none
  | .field read, c :: cs =>
    if c = s then parseEscaped (.escape read) cs
    else if c = d then (parseEscaped (.field []) cs).map (read.reverse :: ·)
    else parseEscaped (.field (c :: read)) cs
  | .escape read, c :: cs => parseEscaped (.field (c :: read)) cs

/-! ## a symbol around the field -/

def quotedField (field : List α) : List α :=
  if d ∈ field ∨ s ∈ field then
    s :: (field.flatMap fun c => if c = s then [s, s] else [c]) ++ [s]
  else field

inductive QuotedState (α : Type) where
  | start
  | bare (read : List α)
  | quote (read : List α)
  /-- an `s` inside the quotes: the end of the field, or the first of two -/
  | closing (read : List α)

def parseQuoted : QuotedState α → List α → Option (List (List α))
  | .start, [] => some [[]]
  | .bare read, [] | .closing read, [] => some [read.reverse]
  | .quote _, [] => none
  | .start, c :: cs =>
    if c = s then parseQuoted (.quote []) cs
    else if c = d then (parseQuoted .start cs).map ([] :: ·)
    else parseQuoted (.bare [c]) cs
  | .bare read, c :: cs =>
    if c = d then (parseQuoted .start cs).map (read.reverse :: ·)
    else parseQuoted (.bare (c :: read)) cs
  | .quote read, c :: cs =>
    if c = s then parseQuoted (.closing read) cs else parseQuoted (.quote (c :: read)) cs
  | .closing read, c :: cs =>
    if c = s then parseQuoted (.quote (s :: read)) cs
    else if c = d then (parseQuoted .start cs).map (read.reverse :: ·)
    else none

variable {d s} {encode : List α → List α} {f g : List α} {fields : List (List α)}

/-! ## records -/

theorem record_singleton : record d encode [f] = encode f := by
  unfold record
  rw [List.map_singleton, List.intercalate_singleton]

theorem record_cons_cons :
    record d encode (f :: g :: fields) = encode f ++ d :: record d encode (g :: fields) := by
  unfold record
  rw [List.map_cons, List.map_cons, List.intercalate_cons_cons]
  rw [List.append_assoc]
  rfl

/-- a parser that reads one field, at the end or before a delimiter, reads records -/
theorem parse_record {parse : List α → Option (List (List α))}
    (hlast : ∀ f, parse (encode f) = some [f])
    (hnext : ∀ f rest, parse (encode f ++ d :: rest) = (parse rest).map (f :: ·))
    (hne : fields ≠ []) : parse (record d encode fields) = some fields := by
  induction fields with
  | nil => exact absurd rfl hne
  | cons f fields ih =>
    cases fields with
    | nil => rw [record_singleton, hlast]
    | cons g fields =>
      rw [record_cons_cons, hnext, ih (List.cons_ne_nil g fields)]
      rfl

/-! ## escaped records -/

theorem escapedField_cons (c : α) (f : List α) :
    escapedField d s (c :: f) = (if c = s ∨ c = d then [s, c] else [c]) ++ escapedField d s f :=
  List.flatMap_cons

/-- an escaped field, wherever the parser stands in a field -/
theorem parseEscaped_field (f read rest : List α) :
    parseEscaped d s (.field read) (escapedField d s f ++ rest) =
      parseEscaped d s (.field (f.reverse ++ read)) rest := by
  induction f generalizing read with
  | nil => rfl
  | cons c f ih =>
    have hread : (c :: f).reverse ++ read = f.reverse ++ c :: read := by
      rw [List.reverse_cons, List.append_assoc]
      rfl
    rw [escapedField_cons, hread, ← ih]
    by_cases hc : c = s ∨ c = d
    · rw [if_pos hc]
      show parseEscaped d s (.field read) (s :: c :: (escapedField d s f ++ rest)) = _
      rw [parseEscaped, if_pos rfl, parseEscaped]
    · rw [if_neg hc]
      show parseEscaped d s (.field read) (c :: (escapedField d s f ++ rest)) = _
      rw [parseEscaped, if_neg fun h => hc (.inl h), if_neg fun h => hc (.inr h)]

theorem parseEscaped_record (hds : d ≠ s) (hne : fields ≠ []) :
    parseEscaped d s (.field []) (record d (escapedField d s) fields) = some fields := by
  refine parse_record (fun f => ?_) (fun f rest => ?_) hne
  · have hfield := parseEscaped_field (d := d) (s := s) f [] []
    rw [List.append_nil, List.append_nil] at hfield
    rw [hfield, parseEscaped, List.reverse_reverse]
  · rw [parseEscaped_field, List.append_nil, parseEscaped, if_neg hds, if_pos rfl,
      List.reverse_reverse]

theorem parseEscaped_dangling {text read : List α} (hd : d ∉ text) (hs : s ∉ text) :
    parseEscaped d s (.field read) (text ++ [s]) = none := by
  induction text generalizing read with
  | nil =>
    show parseEscaped d s (.field read) [s] = none
    rw [parseEscaped, if_pos rfl, parseEscaped]
  | cons c text ih =>
    obtain ⟨hdc, hd'⟩ := not_or.mp (mt List.mem_cons.mpr hd)
    obtain ⟨hsc, hs'⟩ := not_or.mp (mt List.mem_cons.mpr hs)
    show parseEscaped d s (.field read) (c :: (text ++ [s])) = none
    rw [parseEscaped, if_neg (Ne.symm hsc), if_neg (Ne.symm hdc)]
    exact ih hd' hs'

/-! ## quoted records -/

/-- the inside of a quoted field, up to its closing `s` -/
theorem parseQuoted_inside (f read rest : List α) :
    parseQuoted d s (.quote read)
        ((f.flatMap fun c => if c = s then [s, s] else [c]) ++ s :: rest) =
      parseQuoted d s (.closing (f.reverse ++ read)) rest := by
  induction f generalizing read with
  | nil =>
    show parseQuoted d s (.quote read) (s :: rest) = _
    rw [parseQuoted, if_pos rfl]
    rfl
  | cons c f ih =>
    have hread : (c :: f).reverse ++ read = f.reverse ++ c :: read := by
      rw [List.reverse_cons, List.append_assoc]
      rfl
    rw [List.flatMap_cons, hread, ← ih]
    by_cases hc : c = s
    · rw [if_pos hc, hc, List.append_assoc]
      show parseQuoted d s (.quote read) (s :: s :: (_ ++ s :: rest)) = _
      rw [parseQuoted, if_pos rfl, parseQuoted, if_pos rfl]
    · rw [if_neg hc, List.append_assoc]
      show parseQuoted d s (.quote read) (c :: (_ ++ s :: rest)) = _
      rw [parseQuoted, if_neg hc]

/-- the rest of a field without special symbols -/
theorem parseQuoted_bare (f read rest : List α) (hd : d ∉ f) :
    parseQuoted d s (.bare read) (f ++ rest) =
      parseQuoted d s (.bare (f.reverse ++ read)) rest := by
  induction f generalizing read with
  | nil => rfl
  | cons c f ih =>
    obtain ⟨hdc, hd'⟩ := not_or.mp (mt List.mem_cons.mpr hd)
    show parseQuoted d s (.bare read) (c :: (f ++ rest)) = _
    rw [parseQuoted, if_neg (Ne.symm hdc), ih (c :: read) hd', List.reverse_cons, List.append_assoc]
    rfl

theorem quotedField_cases (f : List α) :
    (quotedField d s f = s :: ((f.flatMap fun c => if c = s then [s, s] else [c]) ++ [s])) ∨
      d ∉ f ∧ s ∉ f ∧ quotedField d s f = f := by
  unfold quotedField
  by_cases h : d ∈ f ∨ s ∈ f
  · rw [if_pos h]
    exact .inl rfl
  · obtain ⟨hd, hs⟩ := not_or.mp h
    rw [if_neg h]
    exact .inr ⟨hd, hs, rfl⟩

theorem parseQuoted_last (f : List α) :
    parseQuoted d s .start (quotedField d s f) = some [f] := by
  rcases quotedField_cases (d := d) (s := s) f with hq | ⟨hd, hs, hq⟩
  · rw [hq, parseQuoted, if_pos rfl, parseQuoted_inside, List.append_nil, parseQuoted,
      List.reverse_reverse]
  · rw [hq]
    cases f with
    | nil => rfl
    | cons c f =>
      obtain ⟨hdc, hd'⟩ := not_or.mp (mt List.mem_cons.mpr hd)
      obtain ⟨hsc, -⟩ := not_or.mp (mt List.mem_cons.mpr hs)
      have hbare := parseQuoted_bare (d := d) (s := s) f [c] [] hd'
      rw [List.append_nil] at hbare
      rw [parseQuoted, if_neg (Ne.symm hsc), if_neg (Ne.symm hdc), hbare, parseQuoted,
        List.reverse_append, List.reverse_reverse]
      rfl

theorem parseQuoted_next (hds : d ≠ s) (f rest : List α) :
    parseQuoted d s .start (quotedField d s f ++ d :: rest) =
      (parseQuoted d s .start rest).map (f :: ·) := by
  rcases quotedField_cases (d := d) (s := s) f with hq | ⟨hd, hs, hq⟩
  · rw [hq]
    show parseQuoted d s .start (s :: ((_ ++ [s]) ++ d :: rest)) = _
    rw [parseQuoted, if_pos rfl, List.append_assoc]
    show parseQuoted d s (.quote []) (_ ++ s :: (d :: rest)) = _
    rw [parseQuoted_inside, List.append_nil, parseQuoted, if_neg hds, if_pos rfl,
      List.reverse_reverse]
  · rw [hq]
    cases f with
    | nil =>
      show parseQuoted d s .start (d :: rest) = _
      rw [parseQuoted, if_neg hds, if_pos rfl]
    | cons c f =>
      obtain ⟨hdc, hd'⟩ := not_or.mp (mt List.mem_cons.mpr hd)
      obtain ⟨hsc, -⟩ := not_or.mp (mt List.mem_cons.mpr hs)
      show parseQuoted d s .start (c :: (f ++ d :: rest)) = _
      rw [parseQuoted, if_neg (Ne.symm hsc), if_neg (Ne.symm hdc), parseQuoted_bare f [c] _ hd',
        parseQuoted, if_pos rfl, List.reverse_append, List.reverse_reverse]
      rfl

theorem parseQuoted_record (hds : d ≠ s) (hne : fields ≠ []) :
    parseQuoted d s .start (record d (quotedField d s) fields) = some fields :=
  parse_record parseQuoted_last (parseQuoted_next hds) hne

end

end Delimited
