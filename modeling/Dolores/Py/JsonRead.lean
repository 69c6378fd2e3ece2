import Mathlib.Data.List.TakeWhile
import Dolores.Py.JsonText

/-!
# Reading a longer text

What a parser has read stays read when the text goes on, except that a number may go on with it:
`Open rest s` says that it does not.  `value_carries` also says which fuel is enough.
-/

namespace Dolores
namespace JsonText

/-- the text `rest` that is left ends a number, or its continuation `s` does -/
def Open (rest s : List Char) : Prop :=
  rest.head?.any (fun c => !isNumberChar c) = true ∨ s.head?.all (fun c => !isNumberChar c) = true

theorem open_nil (rest : List Char) : Open rest [] := .inr rfl

theorem open_cons {c : Char} (hc : isNumberChar c = false) (rest s : List Char) :
    Open (c :: rest) s := by
  left
  show (!isNumberChar c) = true
  rw [hc]
  rfl

/-- what `p` reads, `q` reads with the text going on, if at most `n` characters are read -/
def Carries {α : Type} (p q : List Char → Option (α × List Char)) (n : Nat) : Prop :=
  ∀ cs a rest s, p cs = some (a, rest) → cs.length ≤ n + rest.length → Open rest s →
    q (cs ++ s) = some (a, rest ++ s)

/-- something is read -/
def Consumes {α : Type} (p : List Char → Option (α × List Char)) : Prop :=
  ∀ cs a rest, p cs = some (a, rest) → rest.length < cs.length

/-- a parser whose result is mapped leaves the same text -/
theorem map_read {α β : Type} {o : Option (α × List Char)} {f : α → β} {b : β}
    {rest : List Char} (h : (o.map fun p => (f p.1, p.2)) = some (b, rest)) :
    ∃ a, o = some (a, rest) ∧ f a = b := by
  obtain ⟨⟨a, left⟩, hp, heq⟩ := Option.map_eq_some_iff.mp h
  obtain ⟨hb, hleft⟩ := Prod.mk.inj heq
  have hleft' : left = rest := hleft
  rw [hleft'] at hp
  exact ⟨a, hp, hb⟩

/-! ## white space and words -/

theorem length_skip (cs : List Char) : (skip cs).length ≤ cs.length :=
  (List.dropWhile_suffix _).length_le

theorem skip_append {cs rest : List Char} {c : Char} (h : skip cs = c :: rest) (s : List Char) :
    skip (cs ++ s) = c :: (rest ++ s) := by
  show List.dropWhile isBlank (cs ++ s) = _
  rw [List.dropWhile_append]
  have hskip : cs.dropWhile isBlank = c :: rest := h
  rw [hskip]
  rfl

theorem skip_cons {c : Char} (hc : isBlank c = false) (cs : List Char) :
    skip (c :: cs) = c :: cs := by
  show List.dropWhile isBlank (c :: cs) = _
  rw [List.dropWhile_cons, hc]
  rfl

theorem skip_blanks {gap : List Char} (hgap : ∀ c ∈ gap, isBlank c = true) (cs : List Char) :
    skip (gap ++ cs) = skip cs :=
  List.dropWhile_append_of_pos hgap

/-- the text left by a value is open when a separator comes next -/
theorem open_of_skip {rest tail : List Char} {c : Char} (h : skip rest = c :: tail)
    (hc : isNumberChar c = false) (s : List Char) : Open rest s := by
  cases rest with
  | nil => exact nomatch h
  | cons d rest =>
    by_cases hd : isBlank d = true
    · have hnumber : isNumberChar d = false := by
        unfold isBlank at hd
        unfold isNumberChar Char.isDigit
        simp only [Bool.or_eq_true, beq_iff_eq] at hd
        simp only [Char.toNat] at hd ⊢
        rcases hd with ((h | h) | h) | h <;> simp [UInt32.le_iff_toNat_le, h]
      exact open_cons hnumber _ _
    · rw [skip_cons (Bool.eq_false_iff.mpr hd)] at h
      injection h with hdc htail
      rw [hdc]
      exact open_cons hc _ _

theorem word_eq {w cs rest : List Char} (h : word w cs = some rest) : cs = w ++ rest := by
  unfold word at h
  split at h
  · rename_i hpre
    obtain ⟨t, ht⟩ := List.isPrefixOf_iff_prefix.mp hpre
    have hrest : cs.drop w.length = rest := Option.some.inj h
    rw [← ht, List.drop_left] at hrest
    rw [← ht, hrest]
  · exact nomatch h

/-! ## numbers -/

theorem natural_length {cs rest : List Char} {ds : List Char}
    (h : natural cs = some (ds, rest)) : cs = ds ++ rest ∧ ds ≠ [] := by
  unfold natural at h
  cases cs with
  | nil => exact nomatch h
  | cons c cs =>
    dsimp only at h
    split at h
    · obtain ⟨hds, hrest⟩ := Prod.mk.inj (Option.some.inj h)
      rw [← hds, ← hrest]
      exact ⟨rfl, List.cons_ne_nil _ _⟩
    · split at h
      · rename_i hdigit
        obtain ⟨hds, hrest⟩ := Prod.mk.inj (Option.some.inj h)
        rw [← hds, ← hrest, List.takeWhile_append_dropWhile, List.takeWhile_cons, if_pos hdigit]
        exact ⟨rfl, List.cons_ne_nil _ _⟩
      · exact nomatch h

theorem natural_head {cs rest : List Char} {ds : List Char} (h : natural cs = some (ds, rest)) :
    ∃ c tail, cs = c :: tail ∧ c.isDigit = true := by
  unfold natural at h
  cases cs with
  | nil => exact nomatch h
  | cons c cs =>
    refine ⟨c, cs, rfl, ?_⟩
    dsimp only at h
    split at h
    · rename_i hzero
      have hc : c = '0' := Char.ext (UInt32.toNat_inj.mp hzero)
      rw [hc]
      rfl
    · split at h
      · assumption
      · exact nomatch h

theorem integer_length {cs rest ds : List Char} (h : integer cs = some (ds, rest)) :
    cs = ds ++ rest ∧ ds ≠ [] := by
  unfold integer at h
  cases cs with
  | nil => exact nomatch h
  | cons c cs =>
    dsimp only at h
    split at h
    · obtain ⟨p, hp, heq⟩ := Option.map_eq_some_iff.mp h
      obtain ⟨hds, hrest⟩ := Prod.mk.inj heq
      rw [← hds, ← hrest, (natural_length hp).1]
      exact ⟨rfl, List.cons_ne_nil _ _⟩
    · exact natural_length h

/-- a number starts with a digit, or with a minus sign and a digit -/
theorem integer_head {cs rest ds : List Char} (h : integer cs = some (ds, rest)) :
    ∃ c tail, cs = c :: tail ∧ (c.isDigit = true ∨
      c = '-' ∧ ∃ d tail', tail = d :: tail' ∧ d.isDigit = true) := by
  unfold integer at h
  cases cs with
  | nil => exact nomatch h
  | cons c cs =>
    refine ⟨c, cs, rfl, ?_⟩
    dsimp only at h
    split at h
    · rename_i hminus
      obtain ⟨p, hp, -⟩ := Option.map_eq_some_iff.mp h
      exact .inr ⟨Char.ext (UInt32.toNat_inj.mp hminus), natural_head hp⟩
    · left
      obtain ⟨d, tail, heq, hd⟩ := natural_head h
      injection heq with hcd
      rw [hcd]
      exact hd

theorem fraction_append (cs : List Char) : cs = (fraction cs).1 ++ (fraction cs).2 := by
  unfold fraction
  cases cs with
  | nil => rfl
  | cons c cs =>
    dsimp only
    split
    · rw [List.cons_append, List.takeWhile_append_dropWhile]
    · rfl

theorem sign_append (cs : List Char) : cs = (sign cs).1 ++ (sign cs).2 := by
  unfold sign
  cases cs with
  | nil => rfl
  | cons c cs =>
    dsimp only
    split <;> rfl

theorem exponent_append (cs : List Char) : cs = (exponent cs).1 ++ (exponent cs).2 := by
  unfold exponent
  cases cs with
  | nil => rfl
  | cons c cs =>
    dsimp only
    split
    · show c :: cs = c :: (((sign cs).1 ++ _) ++ _)
      rw [List.append_assoc, List.takeWhile_append_dropWhile, ← sign_append]
    · rfl

section
variable {T : PyText}

theorem numberOf_length {run rest : List Char} {j : Json} (h : numberOf T run = some (j, rest)) :
    ∃ read, run = read ++ rest ∧ read ≠ [] := by
  unfold numberOf at h
  obtain ⟨p, hp, heq⟩ := Option.map_eq_some_iff.mp h
  obtain ⟨hrun, hne⟩ := integer_length hp
  have hrest : (exponent (fraction p.2).2).2 = rest := by
    dsimp only at heq
    split at heq
    · exact (Prod.mk.inj heq).2
    · exact (Prod.mk.inj heq).2
  refine ⟨p.1 ++ (fraction p.2).1 ++ (exponent (fraction p.2).2).1, ?_, ?_⟩
  · rw [← hrest, List.append_assoc, List.append_assoc, ← exponent_append, ← fraction_append]
    exact hrun
  · intro hnil
    have hparts := List.append_eq_nil_iff.mp (List.append_eq_nil_iff.mp hnil).1
    exact hne hparts.1

theorem number_head {cs rest : List Char} {j : Json} (h : number T cs = some (j, rest)) :
    ∃ c tail, cs = c :: tail ∧ (c.isDigit = true ∨
      c = '-' ∧ ∃ d tail', tail = d :: tail' ∧ d.isDigit = true) := by
  unfold number numberOf at h
  obtain ⟨p, hp, -⟩ := Option.map_eq_some_iff.mp h
  obtain ⟨q, hq, -⟩ := Option.map_eq_some_iff.mp hp
  obtain ⟨c, tail, hrun, hc⟩ := integer_head hq
  have hcs := List.takeWhile_append_dropWhile (p := isNumberChar) (l := cs)
  rw [hrun] at hcs
  refine ⟨c, _, hcs.symm, ?_⟩
  refine hc.imp_right ?_
  intro ⟨hminus, d, tail', htail, hd⟩
  refine ⟨hminus, d, tail' ++ cs.dropWhile isNumberChar, ?_, hd⟩
  rw [htail]
  rfl

theorem number_consumes : Consumes (number T) := by
  intro cs j rest h
  unfold number at h
  obtain ⟨p, hp, heq⟩ := Option.map_eq_some_iff.mp h
  obtain ⟨read, hrun, hne⟩ := numberOf_length hp
  have hrest : p.2 ++ cs.dropWhile isNumberChar = rest := (Prod.mk.inj heq).2
  have hcs := congrArg List.length (List.takeWhile_append_dropWhile (p := isNumberChar) (l := cs))
  have hpos : 0 < read.length := List.length_pos_iff.mpr hne
  rw [hrun] at hcs
  rw [← hrest, ← hcs]
  simp only [List.length_append]
  omega

/-- the run of number characters is the same in the longer text -/
theorem takeWhile_open {cs left : List Char} {s : List Char}
    (hopen : Open (left ++ cs.dropWhile isNumberChar) s)
    (hleft : ∀ c ∈ left, isNumberChar c = true) :
    (cs ++ s).takeWhile isNumberChar = cs.takeWhile isNumberChar ∧
      (cs ++ s).dropWhile isNumberChar = cs.dropWhile isNumberChar ++ s := by
  rw [List.takeWhile_append, List.dropWhile_append]
  cases hdrop : cs.dropWhile isNumberChar with
  | cons d tail =>
    have hlen : (cs.takeWhile isNumberChar).length ≠ cs.length := by
      intro hlen
      have hsum := congrArg List.length
        (List.takeWhile_append_dropWhile (p := isNumberChar) (l := cs))
      rw [List.length_append, hdrop, List.length_cons] at hsum
      omega
    rw [if_neg hlen]
    exact ⟨rfl, rfl⟩
  | nil =>
    have hwhole : cs.takeWhile isNumberChar = cs := by
      have hsum := List.takeWhile_append_dropWhile (p := isNumberChar) (l := cs)
      rw [hdrop, List.append_nil] at hsum
      exact hsum
    have hs : s.takeWhile isNumberChar = [] ∧ s.dropWhile isNumberChar = s := by
      cases s with
      | nil => exact ⟨rfl, rfl⟩
      | cons e s =>
        have he : isNumberChar e = false := by
          obtain hrest | hs := hopen
          · rw [hdrop, List.append_nil] at hrest
            cases left with
            | nil => exact nomatch hrest
            | cons d left =>
              have hd := hleft d List.mem_cons_self
              have hd' : (!isNumberChar d) = true := hrest
              rw [hd] at hd'
              exact nomatch hd'
          · have he' : (!isNumberChar e) = true := hs
            exact Bool.not_eq_true' _ ▸ he'
        rw [List.takeWhile_cons, List.dropWhile_cons, he]
        exact ⟨rfl, rfl⟩
    rw [hwhole, if_pos rfl, hs.1, hs.2, List.append_nil]
    exact ⟨rfl, rfl⟩

theorem number_carries (n : Nat) : Carries (number T) (number T) n := by
  intro cs j rest s h _ hopen
  unfold number at h ⊢
  obtain ⟨p, hp, heq⟩ := Option.map_eq_some_iff.mp h
  obtain ⟨hj, hrest⟩ := Prod.mk.inj heq
  have hleft : ∀ c ∈ p.2, isNumberChar c = true := by
    obtain ⟨read, hrun, -⟩ := numberOf_length hp
    intro c hc
    have hmem : c ∈ cs.takeWhile isNumberChar := by
      rw [hrun]
      exact List.mem_append_right _ hc
    exact List.mem_takeWhile_imp hmem
  rw [← hrest] at hopen
  obtain ⟨htake, hdrop⟩ := takeWhile_open hopen hleft
  rw [htake, hdrop, hp]
  show some (p.1, p.2 ++ (cs.dropWhile isNumberChar ++ s)) = _
  rw [← hrest, hj, List.append_assoc]

end

/-! ## strings -/

theorem scanString_append {state : StringState} {cs rest : List Char} {us : List Nat}
    (h : scanString state cs = some (us, rest)) (s : List Char) :
    scanString state (cs ++ s) = some (us, rest ++ s) := by
  induction cs generalizing state us with
  | nil => cases state <;> exact nomatch h
  | cons c cs ih =>
    rw [List.cons_append]
    cases state with
    | plain =>
      rw [scanString] at h ⊢
      split at h
      · rename_i hc
        rw [if_pos hc]
        obtain ⟨hus, hrest⟩ := Prod.mk.inj (Option.some.inj h)
        rw [hus, hrest]
      · rename_i hc
        rw [if_neg hc]
        split at h
        · rename_i hc
          rw [if_pos hc]
          exact ih h
        · rename_i hc
          rw [if_neg hc]
          split at h
          · exact nomatch h
          · rename_i hc
            rw [if_neg hc]
            obtain ⟨vs, hvs, hus⟩ := map_read h
            rw [ih hvs, ← hus]
            rfl
    | escape =>
      rw [scanString] at h ⊢
      split at h
      · rename_i hc
        rw [if_pos hc]
        exact ih h
      · rename_i hc
        rw [if_neg hc]
        cases hsimple : simpleEscape c with
        | none =>
          rw [hsimple] at h
          exact nomatch h
        | some u =>
          rw [hsimple] at h
          obtain ⟨vs, hvs, hus⟩ := map_read h
          dsimp only
          rw [ih hvs, ← hus]
          rfl
    | hex left acc =>
      rw [scanString] at h ⊢
      cases hval : hexVal c with
      | none =>
        rw [hval] at h
        exact nomatch h
      | some d =>
        rw [hval] at h
        cases left with
        | zero =>
          obtain ⟨vs, hvs, hus⟩ := map_read h
          dsimp only
          rw [ih hvs, ← hus]
          rfl
        | succ left => exact ih h

theorem scanString_length {state : StringState} {cs rest : List Char} {us : List Nat}
    (h : scanString state cs = some (us, rest)) : rest.length < cs.length := by
  induction cs generalizing state us with
  | nil => cases state <;> exact nomatch h
  | cons c cs ih =>
    rw [List.length_cons]
    cases state with
    | plain =>
      rw [scanString] at h
      split at h
      · rw [(Prod.mk.inj (Option.some.inj h)).2]
        exact Nat.lt_succ_self _
      · split at h
        · exact Nat.lt_succ_of_lt (ih h)
        · split at h
          · exact nomatch h
          · obtain ⟨vs, hvs, -⟩ := map_read h
            exact Nat.lt_succ_of_lt (ih hvs)
    | escape =>
      rw [scanString] at h
      split at h
      · exact Nat.lt_succ_of_lt (ih h)
      · cases hsimple : simpleEscape c with
        | none =>
          rw [hsimple] at h
          exact nomatch h
        | some u =>
          rw [hsimple] at h
          obtain ⟨vs, hvs, -⟩ := map_read h
          exact Nat.lt_succ_of_lt (ih hvs)
    | hex left acc =>
      rw [scanString] at h
      cases hval : hexVal c with
      | none =>
        rw [hval] at h
        exact nomatch h
      | some d =>
        rw [hval] at h
        cases left with
        | zero =>
          obtain ⟨vs, hvs, -⟩ := map_read h
          exact Nat.lt_succ_of_lt (ih hvs)
        | succ left => exact Nat.lt_succ_of_lt (ih h)

theorem string_append {cs rest : List Char} {k : String} (h : string cs = some (k, rest))
    (s : List Char) : string (cs ++ s) = some (k, rest ++ s) := by
  unfold string at h ⊢
  obtain ⟨us, hus, hk⟩ := map_read (f := fun us => String.ofList (joinUnits us)) h
  rw [scanString_append hus, ← hk]
  rfl

theorem string_length {cs rest : List Char} {k : String} (h : string cs = some (k, rest)) :
    rest.length < cs.length := by
  unfold string at h
  obtain ⟨us, hus, -⟩ := map_read (f := fun us => String.ofList (joinUnits us)) h
  exact scanString_length hus

/-! ## sequences -/

section
variable {α : Type} {close : Nat} {p q : List Char → Option (α × List Char)}

theorem items_consumes (hp : Consumes p) (m : Nat) : Consumes (items close p m) := by
  induction m with
  | zero =>
    intro cs as rest h
    exact nomatch h
  | succ m ih =>
    intro cs as rest h
    rw [items] at h
    cases hitem : p cs with
    | none =>
      rw [hitem] at h
      exact nomatch h
    | some r =>
      obtain ⟨a, left⟩ := r
      have hleft := hp cs a left hitem
      rw [hitem] at h
      dsimp only at h
      cases hskip : skip left with
      | nil =>
        rw [hskip] at h
        exact nomatch h
      | cons c after =>
        have hafter := length_skip left
        rw [hskip] at h hafter
        rw [List.length_cons] at hafter
        dsimp only at h
        split at h
        · rw [← (Prod.mk.inj (Option.some.inj h)).2]
          omega
        · split at h
          · obtain ⟨more, hmore, -⟩ := map_read h
            have hrest := ih _ _ _ hmore
            have hlen := length_skip after
            omega
          · exact nomatch h

theorem sequence_length (hp : Consumes p) {m : Nat} {cs rest : List Char} {as : List α}
    (h : sequence close p m cs = some (as, rest)) : rest.length < cs.length := by
  unfold sequence at h
  have hlen := length_skip cs
  cases hskip : skip cs with
  | nil =>
    rw [hskip] at h
    exact nomatch h
  | cons c after =>
    rw [hskip] at h hlen
    rw [List.length_cons] at hlen
    dsimp only at h
    split at h
    · rw [← (Prod.mk.inj (Option.some.inj h)).2]
      omega
    · have hrest := items_consumes hp m _ _ _ h
      rw [List.length_cons] at hrest
      omega

/-- a closing bracket and a comma do not go on with a number -/
theorem separator_ne_number {c : Char} (hclose : close = 93 ∨ close = 125)
    (hc : c.toNat = close ∨ c.toNat = 44) : isNumberChar c = false := by
  have hnat : c.toNat = 93 ∨ c.toNat = 125 ∨ c.toNat = 44 := by omega
  unfold isNumberChar Char.isDigit
  simp only [Char.toNat] at hnat ⊢
  rcases hnat with h | h | h <;> simp [UInt32.le_iff_toNat_le, h]

theorem items_carries {n : Nat} (hclose : close = 93 ∨ close = 125) (hp : Consumes p)
    (hpq : Carries p q n) (m : Nat) :
    ∀ k cs as rest s, items close p m cs = some (as, rest) → cs.length ≤ n + rest.length →
      cs.length ≤ k + rest.length → items close q k (cs ++ s) = some (as, rest ++ s) := by
  induction m with
  | zero =>
    intro k cs as rest s h
    exact nomatch h
  | succ m ih =>
    intro k cs as rest s h hn hk
    have hshort := items_consumes hp (m + 1) _ _ _ h
    cases k with
    | zero => omega
    | succ k =>
      rw [items] at h ⊢
      cases hitem : p cs with
      | none =>
        rw [hitem] at h
        exact nomatch h
      | some r =>
        obtain ⟨a, left⟩ := r
        have hleft := hp cs a left hitem
        rw [hitem] at h
        dsimp only at h
        cases hskip : skip left with
        | nil =>
          rw [hskip] at h
          exact nomatch h
        | cons c after =>
          have hafter := length_skip left
          rw [hskip] at h hafter
          rw [List.length_cons] at hafter
          dsimp only at h
          split at h
          · rename_i hc
            obtain ⟨has, hrest⟩ := Prod.mk.inj (Option.some.inj h)
            have hopen : Open left s :=
              open_of_skip hskip (separator_ne_number hclose (.inl hc)) s
            have hread := hpq cs a left s hitem (by rw [← hrest] at hn; omega) hopen
            rw [hread]
            dsimp only
            rw [skip_append hskip]
            dsimp only
            rw [if_pos hc, has, hrest]
          · rename_i hc
            split at h
            · rename_i hcomma
              obtain ⟨more, hmore, has⟩ := map_read h
              have hlen := length_skip after
              have hrlen := items_consumes hp m _ _ _ hmore
              have hopen : Open left s :=
                open_of_skip hskip (separator_ne_number hclose (.inr hcomma)) s
              have hread := hpq cs a left s hitem (by omega) hopen
              have hgoes := ih k (skip after) more rest s hmore (by omega) (by omega)
              rw [hread]
              dsimp only
              rw [skip_append hskip]
              dsimp only
              have hskipAfter : skip (after ++ s) = skip after ++ s := by
                cases hcase : skip after with
                | nil =>
                  rw [hcase] at hrlen
                  exact absurd hrlen (Nat.not_lt_zero _)
                | cons d tail => exact skip_append hcase s
              rw [if_neg hc, if_pos hcomma, hskipAfter, hgoes, ← has]
              rfl
            · exact nomatch h

theorem sequence_carries {n : Nat} (hclose : close = 93 ∨ close = 125) (hp : Consumes p)
    (hpq : Carries p q n) {m : Nat} {cs rest : List Char} {as : List α}
    (h : sequence close p m cs = some (as, rest)) (hn : cs.length ≤ n + rest.length)
    (s : List Char) : sequence close q n (cs ++ s) = some (as, rest ++ s) := by
  unfold sequence at h ⊢
  have hlen := length_skip cs
  cases hskip : skip cs with
  | nil =>
    rw [hskip] at h
    exact nomatch h
  | cons c after =>
    rw [hskip] at h hlen
    rw [skip_append hskip]
    dsimp only at h ⊢
    split at h
    · rename_i hc
      obtain ⟨has, hrest⟩ := Prod.mk.inj (Option.some.inj h)
      rw [if_pos hc, has, hrest]
    · rename_i hc
      rw [if_neg hc]
      exact items_carries hclose hp hpq m n (c :: after) as rest s h (by omega) (by omega)

end

/-! ## members -/

section
variable {p q : List Char → Option (Json × List Char)}

/-- a member is a key and a value after the colon -/
theorem member_read {cs rest : List Char} {k : String} {j : Json}
    (h : member p cs = some ((k, j), rest)) :
    ∃ c body after d colon, cs = c :: body ∧ c.toNat = 34 ∧ string body = some (k, after) ∧
      skip after = d :: colon ∧ d.toNat = 58 ∧ p (skip colon) = some (j, rest) := by
  unfold member at h
  cases cs with
  | nil => exact nomatch h
  | cons c body =>
    dsimp only at h
    split at h
    · rename_i hc
      cases hkey : string body with
      | none =>
        rw [hkey] at h
        exact nomatch h
      | some r =>
        obtain ⟨key, after⟩ := r
        rw [hkey] at h
        dsimp only at h
        cases hskip : skip after with
        | nil =>
          rw [hskip] at h
          exact nomatch h
        | cons d colon =>
          rw [hskip] at h
          dsimp only at h
          split at h
          · rename_i hd
            obtain ⟨v, hv, heq⟩ := map_read (f := fun v => (key, v)) h
            obtain ⟨hk, hj⟩ := Prod.mk.inj heq
            rw [hj] at hv
            rw [← hk]
            exact ⟨c, body, after, d, colon, rfl, hc, hkey, hskip, hd, hv⟩
          · exact nomatch h
    · exact nomatch h

theorem member_consumes (hp : Consumes p) : Consumes (member p) := by
  intro cs kj rest h
  obtain ⟨k, j⟩ := kj
  obtain ⟨c, body, after, d, colon, hcs, -, hkey, hskip, -, hval⟩ := member_read h
  have hbody := string_length hkey
  have hafter := length_skip after
  have hcolon := length_skip colon
  have hrest := hp _ _ _ hval
  rw [hskip, List.length_cons] at hafter
  rw [hcs, List.length_cons]
  omega

theorem member_carries {n : Nat} (hp : Consumes p) (hpq : Carries p q n) :
    Carries (member p) (member q) n := by
  intro cs kj rest s h hn hopen
  obtain ⟨k, j⟩ := kj
  obtain ⟨c, body, after, d, colon, hcs, hc, hkey, hskip, hd, hval⟩ := member_read h
  have hbody := string_length hkey
  have hafter := length_skip after
  have hcolon := length_skip colon
  have hrest := hp _ _ _ hval
  rw [hskip, List.length_cons] at hafter
  rw [hcs, List.length_cons] at hn
  have hread := hpq _ _ _ s hval (by omega) hopen
  have hskipColon : skip (colon ++ s) = skip colon ++ s := by
    cases hcase : skip colon with
    | nil =>
      rw [hcase] at hrest
      exact absurd hrest (Nat.not_lt_zero _)
    | cons e tail => exact skip_append hcase s
  rw [hcs, List.cons_append]
  unfold member
  dsimp only
  rw [if_pos hc, string_append hkey]
  dsimp only
  rw [skip_append hskip]
  dsimp only
  rw [if_pos hd, hskipColon, hread]
  rfl

end

/-! ## values -/

section
variable {T : PyText}

@[simp] theorem scalar_null (rest : List Char) :
    scalar T (['n', 'u', 'l', 'l'] ++ rest) = some (.null, rest) := rfl

@[simp] theorem scalar_true (rest : List Char) :
    scalar T (['t', 'r', 'u', 'e'] ++ rest) = some (.bool true, rest) := rfl

@[simp] theorem scalar_false (rest : List Char) :
    scalar T (['f', 'a', 'l', 's', 'e'] ++ rest) = some (.bool false, rest) := rfl

@[simp] theorem scalar_nan (rest : List Char) :
    scalar T (['N', 'a', 'N'] ++ rest) = some (.float .nan, rest) := rfl

@[simp] theorem scalar_posInf (rest : List Char) :
    scalar T (['I', 'n', 'f', 'i', 'n', 'i', 't', 'y'] ++ rest) = some (.float .posInf, rest) := rfl

@[simp] theorem scalar_negInf (rest : List Char) :
    scalar T (['-', 'I', 'n', 'f', 'i', 'n', 'i', 't', 'y'] ++ rest) = some (.float .negInf, rest) := rfl

theorem word_none {w : List Char} {c d : Char} {cs : List Char} (h : c ≠ d) :
    word (d :: w) (c :: cs) = none := by
  unfold word
  rw [List.isPrefixOf_cons_cons, beq_false_of_ne h.symm]
  rfl

theorem word_cons (w : List Char) (c : Char) (cs : List Char) :
    word (c :: w) (c :: cs) = word w cs := by
  unfold word
  rw [List.isPrefixOf_cons_cons, beq_self_eq_true, Bool.true_and]
  rfl

/-- a number is not one of the words -/
theorem scalar_number {cs rest : List Char} {j : Json} (h : number T cs = some (j, rest)) :
    scalar T cs = some (j, rest) := by
  obtain ⟨c, tail, hcs, hhead⟩ := number_head h
  have hletter : ∀ d : Char, d.isDigit = false → d ≠ '-' → c ≠ d := by
    intro d hd hminus hcd
    obtain hdigit | ⟨hc, -⟩ := hhead
    · rw [hcd, hd] at hdigit
      exact nomatch hdigit
    · exact hminus (hcd.symm.trans hc)
  have hinf : word ['-', 'I', 'n', 'f', 'i', 'n', 'i', 't', 'y'] cs = none := by
    obtain hdigit | ⟨hc, d, tail', htail, hd⟩ := hhead
    · rw [hcs]
      refine word_none ?_
      intro hc
      rw [hc] at hdigit
      exact nomatch hdigit
    · rw [hcs, hc, htail]
      have hne : d ≠ 'I' := by
        intro hI
        rw [hI] at hd
        exact nomatch hd
      rw [word_cons]
      exact word_none hne
  have hfirst : ∀ w : List Char, ∀ d : Char, d.isDigit = false → d ≠ '-' →
      word (d :: w) cs = none := by
    intro w d hd hminus
    rw [hcs]
    exact word_none (hletter d hd hminus)
  unfold scalar
  rw [hfirst _ 'n' rfl (by decide), hfirst _ 't' rfl (by decide), hfirst _ 'f' rfl (by decide),
    hfirst _ 'N' rfl (by decide), hfirst _ 'I' rfl (by decide), hinf]
  exact h

/-- a scalar is a word or a number -/
theorem scalar_read {cs rest : List Char} {j : Json} (h : scalar T cs = some (j, rest)) :
    (∃ w, w ≠ [] ∧ cs = w ++ rest ∧ ∀ s, scalar T (w ++ s) = some (j, s)) ∨
      number T cs = some (j, rest) := by
  have hword : ∀ {w : List Char} {v : Json} {left : List Char}, w ≠ [] →
      (∀ s, scalar T (w ++ s) = some (v, s)) → word w cs = some left →
      some (v, left) = some (j, rest) →
      ∃ w, w ≠ [] ∧ cs = w ++ rest ∧ ∀ s, scalar T (w ++ s) = some (j, s) := by
    intro w v left hne hw hread heq
    obtain ⟨hv, hleft⟩ := Prod.mk.inj (Option.some.inj heq)
    rw [← hv, ← hleft]
    exact ⟨w, hne, word_eq hread, hw⟩
  unfold scalar at h
  split at h
  · rename_i left hread
    exact .inl (hword (List.cons_ne_nil _ _) scalar_null hread h)
  split at h
  · rename_i left hread
    exact .inl (hword (List.cons_ne_nil _ _) scalar_true hread h)
  split at h
  · rename_i left hread
    exact .inl (hword (List.cons_ne_nil _ _) scalar_false hread h)
  split at h
  · rename_i left hread
    exact .inl (hword (List.cons_ne_nil _ _) scalar_nan hread h)
  split at h
  · rename_i left hread
    exact .inl (hword (List.cons_ne_nil _ _) scalar_posInf hread h)
  split at h
  · rename_i left hread
    exact .inl (hword (List.cons_ne_nil _ _) scalar_negInf hread h)
  · exact .inr h

theorem scalar_consumes : Consumes (scalar T) := by
  intro cs j rest h
  obtain ⟨w, hne, hcs, -⟩ | hnumber := scalar_read h
  · have hpos : 0 < w.length := List.length_pos_iff.mpr hne
    rw [hcs, List.length_append]
    omega
  · exact number_consumes _ _ _ hnumber

theorem scalar_carries (n : Nat) : Carries (scalar T) (scalar T) n := by
  intro cs j rest s h hn hopen
  obtain ⟨w, -, hcs, hw⟩ | hnumber := scalar_read h
  · rw [hcs, List.append_assoc]
    exact hw _
  · exact scalar_number (number_carries n _ _ _ s hnumber hn hopen)

theorem value_consumes (m : Nat) : Consumes (value T m) := by
  induction m with
  | zero =>
    intro cs j rest h
    exact nomatch h
  | succ m ih =>
    intro cs j rest h
    cases cs with
    | nil => exact nomatch h
    | cons c cs =>
      rw [value] at h
      rw [List.length_cons]
      split at h
      · obtain ⟨k, hk, -⟩ := map_read h
        exact Nat.lt_succ_of_lt (string_length hk)
      · split at h
        · obtain ⟨fs, hfs, -⟩ := map_read (f := fun fs => Json.obj (Dict.ofPairs fs)) h
          exact Nat.lt_succ_of_lt (sequence_length (member_consumes ih) hfs)
        · split at h
          · obtain ⟨xs, hxs, -⟩ := map_read h
            exact Nat.lt_succ_of_lt (sequence_length ih hxs)
          · have hrest := scalar_consumes _ _ _ h
            rwa [List.length_cons] at hrest

/-- an object, once read, is read in every longer text -/
theorem object_carries {m n : Nat} (hvalue : Carries (value T m) (value T n) n)
    {cs rest : List Char} {j : Json}
    (h : ((sequence 125 (member (value T m)) m cs).map fun p =>
      (Json.obj (Dict.ofPairs p.1), p.2)) = some (j, rest))
    (hn : cs.length ≤ n + rest.length) (s : List Char) :
    ((sequence 125 (member (value T n)) n (cs ++ s)).map fun p =>
      (Json.obj (Dict.ofPairs p.1), p.2)) = some (j, rest ++ s) := by
  obtain ⟨fs, hfs, hj⟩ := map_read (f := fun fs => Json.obj (Dict.ofPairs fs)) h
  have hmember := member_carries (value_consumes m) hvalue
  rw [sequence_carries (.inr rfl) (member_consumes (value_consumes m)) hmember hfs hn s, ← hj]
  rfl

/-- what is read with any fuel is read with as much fuel as it has characters, in any longer
text that does not go on with a number -/
theorem value_carries (m n : Nat) : Carries (value T m) (value T n) n := by
  induction m generalizing n with
  | zero =>
    intro cs j rest s h
    exact nomatch h
  | succ m ih =>
    intro cs j rest s h hn hopen
    have hlen := value_consumes (m + 1) _ _ _ h
    cases n with
    | zero => omega
    | succ n =>
      cases cs with
      | nil => exact nomatch h
      | cons c cs =>
        rw [List.length_cons] at hn
        rw [List.cons_append]
        rw [value] at h ⊢
        split at h
        · rename_i hc
          obtain ⟨k, hk, hj⟩ := map_read h
          rw [if_pos hc, string_append hk, ← hj]
          rfl
        · rename_i hc
          rw [if_neg hc]
          split at h
          · rename_i hc
            rw [if_pos hc]
            exact object_carries (ih n) h (by omega) s
          · rename_i hc
            rw [if_neg hc]
            split at h
            · rename_i hc
              obtain ⟨xs, hxs, hj⟩ := map_read h
              rw [if_pos hc, sequence_carries (.inl rfl) (value_consumes m) (ih n) hxs
                (by omega) s, ← hj]
              rfl
            · rename_i hc
              rw [if_neg hc]
              have hscalar := scalar_carries (n + 1) _ _ _ s h (by rw [List.length_cons]; omega)
                hopen
              rwa [List.cons_append] at hscalar

theorem value_object_carries {m n : Nat} {c : Char} {cs rest : List Char} {j : Json}
    (hc : c.toNat = 123) (h : value T m (c :: cs) = some (j, rest))
    (hn : (c :: cs).length ≤ n + rest.length) (s : List Char) :
    value T n (c :: cs ++ s) = some (j, rest ++ s) := by
  have hlen := value_consumes m _ _ _ h
  cases m with
  | zero => exact nomatch h
  | succ m =>
    cases n with
    | zero => omega
    | succ n =>
      have hquote : ¬ c.toNat = 34 := by omega
      rw [List.length_cons] at hn
      rw [value, if_neg hquote, if_pos hc] at h
      rw [List.cons_append, value, if_neg hquote, if_pos hc]
      exact object_carries (value_carries m n) h (by omega) s

end

end JsonText
end Dolores
