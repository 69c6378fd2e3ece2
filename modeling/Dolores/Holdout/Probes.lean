import Dolores.Holdout.Impl

/-!
# Known-wrong probes (`holdout.py`)

The probe without the marked lines is split into lines and joined with newlines again; it is
present when some file is changed by that.

* `terminatedLines`        the lines of a text with their terminators, whose texts are `splitLines`;
* `RejoinsTo`              when joining with newlines restores the terminators;
* `stripProbeDropLines_eq_iff`   the stripped text is the text without its marked lines exactly
                           when the kept lines `Rejoins`;
* `probes_are_wrong_variants_iff`   the probe is a wrong variant, and present only when there is
                           one, exactly when this holds of every reference file.
-/

namespace Dolores

/-- the text of a line and its terminator -/
abbrev SourceLine : Type := List Char × List Char

def newlineText : List Char := [Char.ofNat 10]

/-- `str.splitlines(keepends=True)`, each terminator apart from its line -/
def terminatedLines : List Char → List Char → List SourceLine
  | [], [] => []
  | [], line => [(line.reverse, [])]
  | c :: cs, line =>
    if isLineBreak c then
      match cs with
      | c' :: cs' =>
        if c.toNat = 13 ∧ c'.toNat = 10 then (line.reverse, [c, c']) :: terminatedLines cs' []
        else (line.reverse, [c]) :: terminatedLines (c' :: cs') []
      | [] => [(line.reverse, [c])]
    else terminatedLines cs (c :: line)

def linesOf (content : String) : List SourceLine := terminatedLines content.toList []

def markedLine (p : SourceLine) : Bool := hasInfix probeDropMarker.toList p.1

/-- some line contains the marker -/
def Marked (content : String) : Prop := ∃ p ∈ linesOf content, markedLine p = true

def keptLines (content : String) : List SourceLine :=
  (linesOf content).filter fun p => !markedLine p

/-- the lines with their terminators -/
def rejoined (lines : List SourceLine) : List Char := lines.flatMap fun p => p.1 ++ p.2

/-- the text without its marked lines, every other character unchanged -/
def withoutMarkedLines (content : String) : String := String.ofList (rejoined (keptLines content))

/-- the probe is there exactly when a line is marked, and then it is the reference without its
marked lines -/
structure WrongVariants (task : TaskPackage) : Prop where
  present : Dict.contains (probeCandidates task) "family_edge_removed" = true ↔
    ∃ p ∈ task.referenceFiles, Marked p.2
  exact : (∃ p ∈ task.referenceFiles, Marked p.2) →
    Dict.get? (probeCandidates task) "family_edge_removed" =
      some (Dict.mapValues withoutMarkedLines task.referenceFiles)

/-- every line but the last is terminated by a newline, and the last by `tail` -/
def RejoinsTo (tail : List Char) : List SourceLine → Prop
  | [] => tail = []
  | [p] => p.2 = tail
  | p :: q :: lines => p.2 = newlineText ∧ RejoinsTo tail (q :: lines)

/-- every kept line but the last is terminated by a newline; the last one is terminated by a
newline or by nothing, as the text is, and is not empty unless it is the only one -/
structure Rejoins (content : String) : Prop where
  terminators : RejoinsTo (if endsInNewline content.toList then newlineText else [])
    (keptLines content)
  last : 2 ≤ (keptLines content).length → ∀ p, (keptLines content).getLast? = some p → p.1 ≠ []

/-! ## lines -/

theorem map_terminatedLines (text line : List Char) :
    (terminatedLines text line).map Prod.fst = splitLines text line := by
  fun_induction terminatedLines text line with
  | case1 => rfl
  | case2 line h =>
    cases line with
    | nil => exact absurd rfl h
    | cons c line => rfl
  | case3 c line hbreak c' cs' hpair ih =>
    unfold splitLines
    rw [if_pos hbreak]
    dsimp only
    rw [if_pos hpair, List.map_cons, ih]
  | case4 c line hbreak c' cs' hpair ih =>
    unfold splitLines
    rw [if_pos hbreak]
    dsimp only
    rw [if_neg hpair, List.map_cons, ih]
  | case5 c line hbreak =>
    unfold splitLines
    rw [if_pos hbreak]
    rfl
  | case6 c cs line hbreak ih =>
    rw [ih]
    conv_rhs => unfold splitLines
    rw [if_neg hbreak]

theorem rejoined_terminatedLines (text line : List Char) :
    rejoined (terminatedLines text line) = line.reverse ++ text := by
  unfold rejoined
  fun_induction terminatedLines text line with
  | case1 => rfl
  | case2 line h => simp
  | case3 c line hbreak c' cs' hpair ih => rw [List.flatMap_cons, ih]; simp
  | case4 c line hbreak c' cs' hpair ih => rw [List.flatMap_cons, ih]; simp
  | case5 c line hbreak => simp
  | case6 c cs line hbreak ih => rw [ih]; simp

/-- a line has no break in its text, and it ends with at most one terminator -/
structure WellEnded (p : SourceLine) : Prop where
  text : ∀ c ∈ p.1, isLineBreak c = false
  terminator : p.2 = [] ∨ (∃ c, p.2 = [c]) ∨ ∃ c c' : Char, c.toNat = 13 ∧ p.2 = [c, c']
  nonempty : p.2 = [] → p.1 ≠ []

theorem wellEnded_terminatedLines (text line : List Char)
    (hline : ∀ c ∈ line, isLineBreak c = false) :
    (∀ p ∈ terminatedLines text line, WellEnded p) ∧
      (terminatedLines text line).Pairwise fun p _ => p.2 ≠ [] := by
  have hrev : ∀ {line : List Char}, (∀ c ∈ line, isLineBreak c = false) →
      ∀ c ∈ line.reverse, isLineBreak c = false :=
    fun h c hc => h c (List.mem_reverse.mp hc)
  have hnil : ∀ c ∈ ([] : List Char), isLineBreak c = false :=
    fun c hc => (List.not_mem_nil hc).elim
  fun_induction terminatedLines text line with
  | case1 => exact ⟨fun p hp => (List.not_mem_nil hp).elim, List.Pairwise.nil⟩
  | case2 line h =>
    refine ⟨fun p hp => ?_, List.pairwise_singleton _ _⟩
    rw [List.mem_singleton.mp hp]
    exact ⟨hrev hline, .inl rfl, fun _ he => h (List.reverse_eq_nil_iff.mp he)⟩
  | case3 c line hbreak c' cs' hpair ih =>
    obtain ⟨hall, hpairwise⟩ := ih hnil
    refine ⟨fun p hp => ?_, List.pairwise_cons.mpr ⟨fun _ _ => List.cons_ne_nil _ _, hpairwise⟩⟩
    rcases List.mem_cons.mp hp with hp | hp
    · rw [hp]
      exact ⟨hrev hline, .inr (.inr ⟨c, c', hpair.1, rfl⟩), fun h => nomatch h⟩
    · exact hall p hp
  | case4 c line hbreak c' cs' hpair ih =>
    obtain ⟨hall, hpairwise⟩ := ih hnil
    refine ⟨fun p hp => ?_, List.pairwise_cons.mpr ⟨fun _ _ => List.cons_ne_nil _ _, hpairwise⟩⟩
    rcases List.mem_cons.mp hp with hp | hp
    · rw [hp]
      exact ⟨hrev hline, .inr (.inl ⟨c, rfl⟩), fun h => nomatch h⟩
    · exact hall p hp
  | case5 c line hbreak =>
    refine ⟨fun p hp => ?_, List.pairwise_singleton _ _⟩
    rw [List.mem_singleton.mp hp]
    exact ⟨hrev hline, .inr (.inl ⟨c, rfl⟩), fun h => nomatch h⟩
  | case6 c cs line hbreak ih =>
    apply ih
    intro c' hc'
    rcases List.mem_cons.mp hc' with h | h
    · rw [h]
      exact Bool.eq_false_iff.mpr hbreak
    · exact hline c' h

theorem wellEnded_kept (content : String) : ∀ p ∈ keptLines content, WellEnded p := by
  intro p hp
  exact (wellEnded_terminatedLines content.toList [] fun c hc => (List.not_mem_nil hc).elim).1 p
    (List.mem_of_mem_filter hp)

theorem pairwise_kept (content : String) : (keptLines content).Pairwise fun p _ => p.2 ≠ [] :=
  (wellEnded_terminatedLines content.toList [] fun _ hc => (List.not_mem_nil hc).elim).2.filter _

/-! ## joining -/

theorem intercalate_cons_cons (l m : List Char) (lines : List (List Char)) :
    newlineText.intercalate (l :: m :: lines) =
      l ++ newlineText ++ newlineText.intercalate (m :: lines) := by
  unfold List.intercalate
  rw [List.intersperse_cons_cons, List.flatten_cons, List.flatten_cons, List.append_assoc]

/-- joining with newlines restores the lines exactly when these are their terminators -/
theorem join_eq_rejoined_iff {lines : List SourceLine} (hends : ∀ p ∈ lines, WellEnded p)
    (hpairwise : lines.Pairwise fun p _ => p.2 ≠ []) (tail : List Char) :
    newlineText.intercalate (lines.map Prod.fst) ++ tail = rejoined lines ↔
      RejoinsTo tail lines := by
  induction lines with
  | nil =>
    show [] ++ tail = [] ↔ _
    rw [List.nil_append]
    rfl
  | cons p lines ih =>
    cases lines with
    | nil =>
      have hjoin : newlineText.intercalate ([p].map Prod.fst) = p.1 := List.append_nil p.1
      have hrejoined : rejoined [p] = p.1 ++ p.2 := List.append_nil _
      rw [hjoin, hrejoined, List.append_cancel_left_eq]
      exact eq_comm
    | cons q lines =>
      have hp := hends p List.mem_cons_self
      have hne : p.2 ≠ [] := (List.pairwise_cons.mp hpairwise).1 q List.mem_cons_self
      have ih := ih (fun r hr => hends r (List.mem_cons_of_mem p hr))
        (List.pairwise_cons.mp hpairwise).2
      have hjoin : newlineText.intercalate ((p :: q :: lines).map Prod.fst) ++ tail =
          p.1 ++ (Char.ofNat 10 ::
            (newlineText.intercalate ((q :: lines).map Prod.fst) ++ tail)) := by
        rw [List.map_cons, List.map_cons, intercalate_cons_cons, List.append_assoc,
          List.append_assoc]
        rfl
      have hrejoined : rejoined (p :: q :: lines) = p.1 ++ (p.2 ++ rejoined (q :: lines)) := by
        show (p.1 ++ p.2) ++ rejoined (q :: lines) = _
        rw [List.append_assoc]
      rw [hjoin, hrejoined, List.append_cancel_left_eq]
      show _ ↔ p.2 = newlineText ∧ RejoinsTo tail (q :: lines)
      rw [← ih]
      rcases hp.terminator with hnil | ⟨c, hc⟩ | ⟨c, c', hc, hcc⟩
      · exact absurd hnil hne
      · rw [hc, List.singleton_append, List.cons.injEq]
        unfold newlineText
        rw [List.cons.injEq, eq_comm (a := c)]
        exact and_congr (iff_of_eq (by simp)) Iff.rfl
      · -- a carriage return is no newline
        have hne10 : Char.ofNat 10 ≠ c := by
          intro h
          rw [← h] at hc
          exact absurd hc (by decide)
        rw [hcc, List.cons_append, List.cons.injEq]
        exact iff_of_false (fun h => hne10 h.1) fun h => nomatch (List.cons.inj h.1).2

theorem endsInNewline_iff (text : List Char) :
    endsInNewline text = true ↔ text.getLast? = some (Char.ofNat 10) := by
  unfold endsInNewline
  rw [List.isSuffixOf_iff_suffix]
  constructor
  · intro h
    obtain ⟨init, hinit⟩ := h
    rw [← hinit, List.getLast?_append]
    rfl
  · intro h
    obtain ⟨init, hinit⟩ := List.getLast?_eq_some_iff.mp h
    exact ⟨init, hinit.symm⟩

/-- joined lines end in a newline only when the last of several lines is empty -/
theorem endsInNewline_join_iff {lines : List (List Char)}
    (hlines : ∀ l ∈ lines, ∀ c ∈ l, isLineBreak c = false) :
    endsInNewline (newlineText.intercalate lines) = true ↔
      2 ≤ lines.length ∧ lines.getLast? = some [] := by
  induction lines with
  | nil => decide
  | cons l lines ih =>
    cases lines with
    | nil =>
      have hjoin : newlineText.intercalate [l] = l := List.append_nil l
      rw [hjoin, endsInNewline_iff]
      refine iff_of_false (fun h => ?_) fun h => absurd h.1 (by simp)
      have hmem : Char.ofNat 10 ∈ l := List.mem_of_getLast? h
      exact absurd (hlines l List.mem_cons_self _ hmem) (by decide)
    | cons m lines =>
      have ih := ih fun l' hl' => hlines l' (List.mem_cons_of_mem l hl')
      rw [intercalate_cons_cons, endsInNewline_iff, List.getLast?_append]
      rw [endsInNewline_iff] at ih
      cases lines with
      | nil =>
        have hjoin : newlineText.intercalate [m] = m := List.append_nil m
        rw [hjoin] at ih ⊢
        cases hm : m.getLast? with
        | none =>
          have hnil : m = [] := List.getLast?_eq_none_iff.mp hm
          rw [hnil]
          refine iff_of_true ?_ ⟨le_rfl, rfl⟩
          rw [List.getLast?_append]
          rfl
        | some c =>
          have hne : m ≠ [] := by
            intro h
            rw [h] at hm
            cases hm
          refine iff_of_false (fun h => ?_) fun h => hne (Option.some.inj h.2)
          rw [hm] at ih
          exact absurd (ih.mp h).1 (by simp)
      | cons n lines =>
        have hlast : (l :: m :: n :: lines).getLast? = (m :: n :: lines).getLast? := rfl
        have hsome : ∃ c, (newlineText.intercalate (m :: n :: lines)).getLast? = some c := by
          rw [← Option.isSome_iff_exists, List.getLast?_isSome, intercalate_cons_cons]
          simp [newlineText]
        obtain ⟨c, hc⟩ := hsome
        rw [hlast, hc]
        rw [hc] at ih
        show some c = some (Char.ofNat 10) ↔ _
        rw [ih]
        exact and_congr_left fun _ => iff_of_true (by simp) (by simp)

/-! ## the stripped text -/

theorem RejoinsTo.last {tail : List Char} {lines : List SourceLine} (h : RejoinsTo tail lines)
    {p : SourceLine} (hp : lines.getLast? = some p) : p.2 = tail := by
  induction lines with
  | nil => cases hp
  | cons q lines ih =>
    cases lines with
    | nil =>
      have hqp : q = p := Option.some.inj hp
      rw [← hqp]
      exact h
    | cons r lines => exact ih h.2 hp

/-- what is appended to the joined lines -/
def stripTail (content : String) : List Char :=
  if endsInNewline content.toList &&
    !endsInNewline (newlineText.intercalate ((keptLines content).map Prod.fst)) then newlineText
  else []

theorem stripProbeDropLines_eq (content : String) : stripProbeDropLines content =
    String.ofList
      (newlineText.intercalate ((keptLines content).map Prod.fst) ++ stripTail content) := by
  have hlines : ((splitLines content.toList []).filter fun line =>
      !hasInfix probeDropMarker.toList line) = (keptLines content).map Prod.fst := by
    rw [← map_terminatedLines, List.filter_map]
    rfl
  unfold stripProbeDropLines
  dsimp only
  rw [hlines]
  unfold stripTail newlineText
  split
  · rfl
  · rw [List.append_nil]

/-- the stripped text is the text without its marked lines exactly when the kept lines rejoin -/
theorem stripProbeDropLines_eq_iff (content : String) :
    stripProbeDropLines content = withoutMarkedLines content ↔ Rejoins content := by
  have hends := wellEnded_kept content
  rw [stripProbeDropLines_eq]
  unfold withoutMarkedLines
  rw [String.ofList_inj, join_eq_rejoined_iff hends (pairwise_kept content)]
  have hjoin := @endsInNewline_join_iff ((keptLines content).map Prod.fst) (by
    intro l hl
    obtain ⟨p, hp, hpl⟩ := List.mem_map.mp hl
    rw [← hpl]
    exact (hends p hp).text)
  rw [List.length_map, List.getLast?_map] at hjoin
  unfold stripTail
  cases hlast : endsInNewline (newlineText.intercalate ((keptLines content).map Prod.fst)) with
  | true =>
    -- the last of several kept lines is empty, and its terminator is lost
    obtain ⟨htwo, hempty⟩ := hjoin.mp hlast
    obtain ⟨p, hp, hpe⟩ := Option.map_eq_some_iff.mp hempty
    rw [Bool.not_true, Bool.and_false, if_neg Bool.false_ne_true]
    refine iff_of_false (fun h => ?_) fun h => h.last htwo p hp hpe
    exact (hends p (List.mem_of_getLast? hp)).nonempty (h.last hp) hpe
  | false =>
    have hnot : ¬ (2 ≤ (keptLines content).length ∧
        Option.map Prod.fst (keptLines content).getLast? = some []) := by
      rw [← hjoin, hlast]
      exact Bool.false_ne_true
    rw [Bool.not_false, Bool.and_true]
    refine ⟨fun h => ⟨h, fun htwo p hp hpe => hnot ⟨htwo, ?_⟩⟩, fun h => h.terminators⟩
    rw [hp, Option.map_some, hpe]

/-- a text without marked lines stays as it is -/
theorem withoutMarkedLines_of_unmarked {content : String} (h : ¬ Marked content) :
    withoutMarkedLines content = content := by
  have hkept : keptLines content = linesOf content := by
    apply List.filter_eq_self.mpr
    intro p hp
    cases hm : markedLine p with
    | false => rfl
    | true => exact absurd ⟨p, hp, hm⟩ h
  have hall : rejoined (linesOf content) = content.toList := rejoined_terminatedLines _ _
  unfold withoutMarkedLines
  rw [hkept, hall, String.ofList_toList]

theorem length_rejoined_cons (p : SourceLine) (lines : List SourceLine) :
    (rejoined (p :: lines)).length = (p.1 ++ p.2).length + (rejoined lines).length :=
  List.length_append

theorem length_kept_le (lines : List SourceLine) :
    (rejoined (lines.filter fun p => !markedLine p)).length ≤ (rejoined lines).length := by
  induction lines with
  | nil => exact le_rfl
  | cons p lines ih =>
    rw [List.filter_cons, length_rejoined_cons]
    split
    · rw [length_rejoined_cons]
      omega
    · omega

/-- a marked line is missed -/
theorem length_kept_lt {lines : List SourceLine} (h : ∃ p ∈ lines, markedLine p = true) :
    (rejoined (lines.filter fun p => !markedLine p)).length < (rejoined lines).length := by
  induction lines with
  | nil =>
    obtain ⟨p, hp, _⟩ := h
    exact (List.not_mem_nil hp).elim
  | cons p lines ih =>
    cases hm : markedLine p with
    | true =>
      have hne : p.1 ≠ [] := by
        intro he
        unfold markedLine at hm
        rw [he] at hm
        exact absurd hm (by decide)
      have hpos := List.length_pos_iff.mpr hne
      have hle := length_kept_le lines
      rw [List.filter_cons_of_neg (by rw [hm]; decide), length_rejoined_cons, List.length_append]
      omega
    | false =>
      have hrest : ∃ q ∈ lines, markedLine q = true := by
        obtain ⟨q, hq, hqm⟩ := h
        rcases List.mem_cons.mp hq with hq | hq
        · rw [hq, hm] at hqm
          exact absurd hqm Bool.false_ne_true
        · exact ⟨q, hq, hqm⟩
      have hlt := ih hrest
      rw [List.filter_cons_of_pos (by rw [hm]; rfl), length_rejoined_cons, length_rejoined_cons]
      omega

theorem withoutMarkedLines_of_marked {content : String} (h : Marked content) :
    withoutMarkedLines content ≠ content := by
  intro heq
  have hlt := length_kept_lt h
  have hall : rejoined (linesOf content) = content.toList := rejoined_terminatedLines _ _
  have htext : rejoined (keptLines content) = content.toList := by
    rw [← String.toList_ofList (l := rejoined (keptLines content))]
    exact congrArg String.toList heq
  rw [hall, ← htext] at hlt
  exact lt_irrefl _ hlt

/-! ## the probe -/

section
variable {task : TaskPackage}

theorem get?_probeCandidates (task : TaskPackage) :
    Dict.get? (probeCandidates task) "family_edge_removed" =
      if Dict.mapValues stripProbeDropLines task.referenceFiles = task.referenceFiles then none
      else some (Dict.mapValues stripProbeDropLines task.referenceFiles) := by
  unfold probeCandidates
  dsimp only
  split
  · split
    · rfl
    · rfl
  · split
    · rfl
    · rfl

theorem mapValues_eq_iff {V W : Type} {f g : V → W} {d : Dict String V} :
    Dict.mapValues f d = Dict.mapValues g d ↔ ∀ p ∈ d, f p.2 = g p.2 := by
  unfold Dict.mapValues
  rw [List.map_inj_left]
  exact forall₂_congr fun p _ => by rw [Prod.mk.injEq, and_iff_right rfl]

theorem mapValues_eq_self_iff {V : Type} {f : V → V} {d : Dict String V} :
    Dict.mapValues f d = d ↔ ∀ p ∈ d, f p.2 = p.2 := by
  have hid : Dict.mapValues id d = d := List.map_id d
  have h : Dict.mapValues f d = Dict.mapValues id d ↔ ∀ p ∈ d, f p.2 = id p.2 := mapValues_eq_iff
  rw [hid] at h
  exact h

/-- **Known-wrong probes are really wrong variants** exactly when the kept lines of every
reference file rejoin. -/
theorem probes_are_wrong_variants_iff (task : TaskPackage) :
    WrongVariants task ↔ ∀ p ∈ task.referenceFiles, Rejoins p.2 := by
  have hiff : (∀ p ∈ task.referenceFiles, Rejoins p.2) ↔
      ∀ p ∈ task.referenceFiles, stripProbeDropLines p.2 = withoutMarkedLines p.2 :=
    forall₂_congr fun p _ => (stripProbeDropLines_eq_iff p.2).symm
  rw [hiff]
  by_cases hmarked : ∃ p ∈ task.referenceFiles, Marked p.2
  · constructor
    · intro h
      have hget := h.exact hmarked
      rw [get?_probeCandidates] at hget
      split at hget
      · cases hget
      · exact mapValues_eq_iff.mp (Option.some.inj hget)
    · intro h
      have hstrip := mapValues_eq_iff.mpr h
      have hchanged : Dict.mapValues stripProbeDropLines task.referenceFiles ≠
          task.referenceFiles := by
        intro heq
        obtain ⟨p, hp, hm⟩ := hmarked
        have hsame := mapValues_eq_self_iff.mp heq p hp
        rw [h p hp] at hsame
        exact withoutMarkedLines_of_marked hm hsame
      have hget : Dict.get? (probeCandidates task) "family_edge_removed" =
          some (Dict.mapValues withoutMarkedLines task.referenceFiles) := by
        rw [get?_probeCandidates, if_neg hchanged, hstrip]
      refine ⟨iff_of_true ?_ hmarked, fun _ => hget⟩
      unfold Dict.contains
      rw [hget]
      rfl
  · have hplain : ∀ p ∈ task.referenceFiles, withoutMarkedLines p.2 = p.2 := fun p hp =>
      withoutMarkedLines_of_unmarked fun hm => hmarked ⟨p, hp, hm⟩
    have habsent : Dict.contains (probeCandidates task) "family_edge_removed" = true ↔
        ¬ ∀ p ∈ task.referenceFiles, stripProbeDropLines p.2 = p.2 := by
      unfold Dict.contains
      rw [get?_probeCandidates, ← mapValues_eq_self_iff]
      split
      next heq => exact iff_of_false Bool.false_ne_true (not_not_intro heq)
      next hne => exact iff_of_true rfl hne
    constructor
    · intro h p hp
      have hall : ∀ p ∈ task.referenceFiles, stripProbeDropLines p.2 = p.2 := by
        by_contra hnot
        exact hmarked (h.present.mp (habsent.mpr hnot))
      rw [hplain p hp]
      exact hall p hp
    · intro h
      refine ⟨?_, fun hm => absurd hm hmarked⟩
      rw [habsent]
      refine iff_of_false (not_not_intro fun p hp => ?_) hmarked
      rw [h p hp, hplain p hp]

end

/-- a reference without a marker whose first line ends in a carriage return and a newline -/
def carriageReturnTask : TaskPackage where
  taskId := "t"
  descriptors := { concepts := [], taskType := "" }
  starterFiles := []
  referenceFiles := [("m.py", String.ofList ([97, 13, 10, 98, 10].map Char.ofNat))]
  publicTests := []
  hiddenTests := []
  canonicalDict := []

/-- its probe is the reference itself with another line ending -/
theorem unmarked_reference_yields_probe : ¬ ∀ task, WrongVariants task := by
  intro h
  have hpresent : Dict.contains (probeCandidates carriageReturnTask) "family_edge_removed" =
      true := by decide +kernel
  obtain ⟨p, hp, hm⟩ := (h carriageReturnTask).present.mp hpresent
  rw [List.mem_singleton.mp hp] at hm
  have hnone : (linesOf (String.ofList ([97, 13, 10, 98, 10].map Char.ofNat))).all
      (fun p => !markedLine p) = true := by decide +kernel
  obtain ⟨line, hline, hmark⟩ := hm
  have hunmarked := List.all_eq_true.mp hnone line hline
  rw [hmark] at hunmarked
  exact absurd hunmarked (by decide)

end Dolores
