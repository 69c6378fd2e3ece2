import Mathlib.Tactic.Linarith
import Dolores.Gate.Impl

/-!
# Pre-gates over a stream of submissions

One `GateContext` is shared by all payloads of an epoch, whoever sends them.

* `gateStep_cases`        what one payload can do: pass and be charged, or fail and change nothing;
* `Charged`               the counters and the hash set are those of the payloads that passed;
* `decision_at`           the decision of a payload, from the payloads that passed before it;
* `stream_keepBy`         deleting failing payloads changes no other decision;
* `pre_gates_over_any_stream`   all of it, for every stream.
-/

namespace Dolores

/-- a payload and the hotkey that sent it -/
abbrev Sent : Type := Obj × String

section
variable (T : PyText) (engine : Engine) (cfg : SubnetConfig)

/-- one payload; an exception that the parse gate does not catch leaves no decision -/
def gateStep (c : GateContext) (p : Sent) : Except Exn GateDecision × GateContext :=
  match runPreGates T engine p.1 cfg c p.2 with
  | .ok (d, c') => (.ok d, c')
  | .error e => (.error e, c)

/-- the payloads in their order, through one context -/
def gateStream : GateContext → List Sent → List (Except Exn GateDecision) × GateContext
  | c, [] => ([], c)
  | c, p :: stream =>
    let step := gateStep T engine cfg c p
    let rest := gateStream step.2 stream
    (step.1 :: rest.1, rest.2)

/-- the recomputed hash of a payload that satisfies the schema, size, parse and hash checks -/
def acceptableHash (payload : Obj) : Option String :=
  if (payload.get "schema_version").eqStr schemaVersion = false then none
  else if wireSizeOk T payload cfg.maxPackageBytes = false then none
  else
    match parsePackage engine payload with
    | .error _ => none
    | .ok task =>
      if (payload.get "package_hash").eqStr (engine.stableHash task) = false then none
      else some (engine.stableHash task)

end

def passes : Except Exn GateDecision → Bool
  | .ok d => d.passed
  | .error _ => false

/-- a payload that passed is charged to its hotkey -/
def GateContext.charge (c : GateContext) (hotkey hash : String) : GateContext :=
  { c with minerCounts := Dict.set c.minerCounts hotkey (c.minerCounts.getD hotkey 0 + 1)
           seenHashes := hash :: c.seenHashes }

/-- the decision names the failed gate, and exactly the gates before it are true -/
def FailsInOrder (d : GateDecision) : Prop :=
  d.passed = false ∧ ∃ n gate, gateNames[n]? = some gate ∧ d.failure.map (·.gate) = some gate ∧
    d.gates = gatesUpTo n

/-! ## one payload -/

section
variable {T : PyText} {engine : Engine} {cfg : SubnetConfig}

/-- the payload is acceptable, its hotkey has quota left and its hash has not been seen -/
def Admits (T : PyText) (engine : Engine) (cfg : SubnetConfig) (c : GateContext) (p : Sent)
    (hash : String) : Prop :=
  acceptableHash T engine cfg p.1 = some hash ∧ c.minerCounts.getD p.2 0 < c.quota ∧
    hash ∉ c.seenHashes

theorem failsInOrder_gateFail {n : Nat} {gate : String} (h : gateNames[n]? = some gate)
    (reason detail : String) : FailsInOrder (gateFail n gate reason detail) :=
  ⟨rfl, n, gate, h, rfl, rfl⟩

/-- the gates after the parse gate -/
theorem gateParsed_cases {c : GateContext} {payload : Obj} {hotkey : String} {task : TaskPackage}
    (hhash : acceptableHash T engine cfg payload =
      if (payload.get "package_hash").eqStr (engine.stableHash task) = false then none
      else some (engine.stableHash task))
    (hrun : runPreGates T engine payload cfg c hotkey =
      .ok (gateParsed T engine payload task c hotkey)) :
    (∃ hash d, Admits T engine cfg c (payload, hotkey) hash ∧ d.passed = true ∧
      d.taskHash = some hash ∧
      gateStep T engine cfg c (payload, hotkey) = (.ok d, c.charge hotkey hash)) ∨
    (¬ ∃ hash, Admits T engine cfg c (payload, hotkey) hash) ∧
      ((∃ d, FailsInOrder d ∧ gateStep T engine cfg c (payload, hotkey) = (.ok d, c)) ∨
        ∃ e, gateStep T engine cfg c (payload, hotkey) = (.error e, c)) := by
  have hstep : gateStep T engine cfg c (payload, hotkey) =
      (.ok (gateParsed T engine payload task c hotkey).1,
        (gateParsed T engine payload task c hotkey).2) := by
    unfold gateStep
    rw [hrun]
  unfold gateParsed at hstep
  dsimp only at hstep
  by_cases hclaim : (payload.get "package_hash").eqStr (engine.stableHash task) = false
  · rw [if_pos hclaim] at hhash hstep
    refine .inr ⟨fun h => ?_, .inl ⟨_, failsInOrder_gateFail rfl _ _, hstep⟩⟩
    obtain ⟨hash, heq, _⟩ := h
    rw [hhash] at heq
    cases heq
  rw [if_neg hclaim] at hhash hstep
  by_cases hquota : c.quota ≤ c.minerCounts.getD hotkey 0
  · rw [if_pos hquota] at hstep
    refine .inr ⟨fun h => ?_, .inl ⟨_, failsInOrder_gateFail rfl _ _, hstep⟩⟩
    obtain ⟨_, _, hlt, _⟩ := h
    exact absurd hquota (not_le.mpr hlt)
  rw [if_neg hquota] at hstep
  by_cases hseen : engine.stableHash task ∈ c.seenHashes
  · rw [if_pos hseen] at hstep
    refine .inr ⟨fun h => ?_, .inl ⟨_, failsInOrder_gateFail rfl _ _, hstep⟩⟩
    obtain ⟨hash, heq, _, hnot⟩ := h
    rw [hhash] at heq
    rw [← Option.some.inj heq] at hnot
    exact hnot hseen
  · rw [if_neg hseen] at hstep
    exact .inl ⟨_, _, ⟨hhash, not_le.mp hquota, hseen⟩, rfl, rfl, hstep⟩

/-- everything that one payload can do -/
theorem gateStep_cases (c : GateContext) (p : Sent) :
    (∃ hash d, Admits T engine cfg c p hash ∧ d.passed = true ∧ d.taskHash = some hash ∧
      gateStep T engine cfg c p = (.ok d, c.charge p.2 hash)) ∨
    (¬ ∃ hash, Admits T engine cfg c p hash) ∧
      ((∃ d, FailsInOrder d ∧ gateStep T engine cfg c p = (.ok d, c)) ∨
        ∃ e, gateStep T engine cfg c p = (.error e, c)) := by
  obtain ⟨payload, hotkey⟩ := p
  have hreject : acceptableHash T engine cfg payload = none →
      ¬ ∃ hash, Admits T engine cfg c (payload, hotkey) hash := by
    intro hnone h
    obtain ⟨hash, h, _⟩ := h
    rw [hnone] at h
    cases h
  have hfail : ∀ {n gate reason detail}, gateNames[n]? = some gate →
      runPreGates T engine payload cfg c hotkey = .ok (gateFail n gate reason detail, c) →
      ∃ d, FailsInOrder d ∧ gateStep T engine cfg c (payload, hotkey) = (.ok d, c) := by
    intro n gate reason detail hn h
    refine ⟨_, failsInOrder_gateFail hn reason detail, ?_⟩
    unfold gateStep
    rw [h]
  by_cases hschema : (payload.get "schema_version").eqStr schemaVersion = false
  · have hhash : acceptableHash T engine cfg payload = none := if_pos hschema
    exact .inr ⟨hreject hhash, .inl (hfail rfl (if_pos hschema))⟩
  by_cases hsize : wireSizeOk T payload cfg.maxPackageBytes = false
  · have hhash : acceptableHash T engine cfg payload = none :=
      (if_neg hschema).trans (if_pos hsize)
    exact .inr ⟨hreject hhash, .inl (hfail rfl ((if_neg hschema).trans (if_pos hsize)))⟩
  have hhash : acceptableHash T engine cfg payload = _ := (if_neg hschema).trans (if_neg hsize)
  have hrun : runPreGates T engine payload cfg c hotkey = _ :=
    (if_neg hschema).trans (if_neg hsize)
  cases hp : parsePackage engine payload with
  | error e =>
    rw [hp] at hhash hrun
    refine .inr ⟨hreject hhash, ?_⟩
    split at hrun
    next heq => exact .inl (hfail rfl hrun)
    next heq => exact .inl (hfail rfl hrun)
    next e' _ _ heq =>
      split at hrun
      · exact .inl (hfail rfl hrun)
      · have hstep : gateStep T engine cfg c (payload, hotkey) = (.error e', c) := by
          unfold gateStep
          rw [hrun]
        exact .inr ⟨_, hstep⟩
    next heq => cases heq
  | ok task =>
    rw [hp] at hhash hrun
    exact gateParsed_cases hhash hrun

theorem passes_gateStep_iff (c : GateContext) (p : Sent) :
    passes (gateStep T engine cfg c p).1 = true ↔ ∃ hash, Admits T engine cfg c p hash := by
  rcases @gateStep_cases T engine cfg c p with h | h
  · obtain ⟨hash, d, hadmits, hpassed, _, hstep⟩ := h
    rw [hstep]
    exact iff_of_true hpassed ⟨hash, hadmits⟩
  · obtain ⟨hnot, ⟨d, hfails, hstep⟩ | ⟨e, hstep⟩⟩ := h
    · rw [hstep]
      refine iff_of_false ?_ hnot
      show ¬ d.passed = true
      rw [hfails.1]
      exact Bool.false_ne_true
    · rw [hstep]
      exact iff_of_false Bool.false_ne_true hnot

/-- a failing payload leaves the context unchanged -/
theorem gateStep_of_fails {c : GateContext} {p : Sent}
    (h : passes (gateStep T engine cfg c p).1 = false) : (gateStep T engine cfg c p).2 = c := by
  rcases @gateStep_cases T engine cfg c p with hc | hc
  · obtain ⟨hash, d, _, hpassed, _, hstep⟩ := hc
    rw [hstep] at h
    exact absurd (h.symm.trans hpassed) Bool.false_ne_true
  · obtain ⟨_, ⟨d, _, hstep⟩ | ⟨e, hstep⟩⟩ := hc
    · rw [hstep]
    · rw [hstep]

end

/-! ## the stream -/

section
variable {T : PyText} {engine : Engine} {cfg : SubnetConfig} {c : GateContext}

theorem gateStream_append (c : GateContext) (before after : List Sent) :
    gateStream T engine cfg c (before ++ after) =
      ((gateStream T engine cfg c before).1 ++
          (gateStream T engine cfg (gateStream T engine cfg c before).2 after).1,
        (gateStream T engine cfg (gateStream T engine cfg c before).2 after).2) := by
  induction before generalizing c with
  | nil => rfl
  | cons p before ih =>
    show (let rest := gateStream T engine cfg _ (before ++ after); (_ :: rest.1, rest.2)) = _
    rw [ih]
    rfl

theorem length_gateStream (c : GateContext) (stream : List Sent) :
    (gateStream T engine cfg c stream).1.length = stream.length := by
  induction stream generalizing c with
  | nil => rfl
  | cons p stream ih =>
    show _ + 1 = _ + 1
    rw [ih]

/-- the hotkeys and the recomputed hashes of the payloads that passed, in their order -/
def passedOf : List Sent → List (Except Exn GateDecision) → List (String × String)
  | p :: stream, .ok d :: decisions =>
    if d.passed then (p.2, d.taskHash.getD "") :: passedOf stream decisions
    else passedOf stream decisions
  | _ :: stream, .error _ :: decisions => passedOf stream decisions
  | _, _ => []

/-- the payloads that pass in a stream, from a context -/
def passedIn (T : PyText) (engine : Engine) (cfg : SubnetConfig) (c : GateContext)
    (stream : List Sent) : List (String × String) :=
  passedOf stream (gateStream T engine cfg c stream).1

theorem passedIn_cons (p : Sent) (stream : List Sent) :
    passedIn T engine cfg c (p :: stream) =
      passedOf [p] [(gateStep T engine cfg c p).1] ++
        passedIn T engine cfg (gateStep T engine cfg c p).2 stream := by
  show passedOf (p :: stream) ((gateStep T engine cfg c p).1 :: _) = _
  cases (gateStep T engine cfg c p).1 with
  | error e => rfl
  | ok d =>
    unfold passedOf
    split
    · rfl
    · rfl

/-- a hotkey's share of the payloads that passed -/
def shareOf (hotkey : String) (passed : List (String × String)) : Nat :=
  passed.countP fun p => p.1 == hotkey

/-- the counters and the hash set are those of the payloads that passed -/
structure Charged (quota : Int) (passed : List (String × String)) (c : GateContext) : Prop where
  sameQuota : c.quota = quota
  counts : ∀ hotkey, c.minerCounts.getD hotkey 0 = shareOf hotkey passed
  seen : ∀ hash, hash ∈ c.seenHashes ↔ hash ∈ passed.map Prod.snd
  atMost : ∀ hotkey, (shareOf hotkey passed : Int) ≤ max quota 0
  once : (passed.map Prod.snd).Nodup

theorem charged_new (quota : Int) : Charged quota [] { quota } where
  sameQuota := rfl
  counts _ := rfl
  seen _ := Iff.rfl
  atMost _ := le_max_right _ _
  once := List.nodup_nil

theorem shareOf_append (hotkey : String) (passed : List (String × String)) (p : String × String) :
    shareOf hotkey (passed ++ [p]) = shareOf hotkey passed + if p.1 = hotkey then 1 else 0 := by
  unfold shareOf
  rw [List.countP_append, List.countP_singleton]
  by_cases h : p.1 = hotkey
  · rw [if_pos h, if_pos (beq_iff_eq.mpr h)]
  · rw [if_neg h, if_neg (by simpa using h)]

/-- a payload that is admitted is charged -/
theorem Charged.charge {quota : Int} {passed : List (String × String)} {p : Sent} {hash : String}
    (h : Charged quota passed c) (hadmits : Admits T engine cfg c p hash) :
    Charged quota (passed ++ [(p.2, hash)]) (c.charge p.2 hash) := by
  obtain ⟨_, hlt, hnew⟩ := hadmits
  rw [h.counts, h.sameQuota] at hlt
  refine ⟨h.sameQuota, ?_, ?_, ?_, ?_⟩
  · intro hotkey
    have hset : (c.charge p.2 hash).minerCounts.getD hotkey 0 =
        if hotkey = p.2 then c.minerCounts.getD p.2 0 + 1 else c.minerCounts.getD hotkey 0 := by
      show Dict.getD (Dict.set _ _ _) hotkey 0 = _
      unfold Dict.getD
      rw [Dict.get?_set]
      split
      · rfl
      · rfl
    rw [hset, shareOf_append]
    dsimp only
    by_cases e : hotkey = p.2
    · rw [if_pos e, if_pos e.symm, h.counts, e]
      push_cast
      rfl
    · rw [if_neg e, if_neg (Ne.symm e), h.counts, Nat.add_zero]
  · intro hash'
    show hash' ∈ hash :: c.seenHashes ↔ _
    rw [List.mem_cons, h.seen, List.map_append, List.mem_append, or_comm]
    exact or_congr Iff.rfl List.mem_singleton.symm
  · intro hotkey
    rw [shareOf_append]
    dsimp only
    by_cases e : p.2 = hotkey
    · rw [if_pos e, ← e]
      push_cast
      have hle : (shareOf p.2 passed : Int) + 1 ≤ quota := hlt
      exact hle.trans (le_max_left _ _)
    · rw [if_neg e, Nat.add_zero]
      exact h.atMost hotkey
  · rw [List.map_append]
    refine List.nodup_append.mpr ⟨h.once, List.nodup_singleton _, ?_⟩
    intro a ha b hb hab
    rw [List.mem_singleton.mp hb] at hab
    rw [hab] at ha
    exact hnew ((h.seen hash).mpr ha)

/-- one payload -/
theorem Charged.step {quota : Int} {passed : List (String × String)}
    (h : Charged quota passed c) (p : Sent) :
    Charged quota (passed ++ passedOf [p] [(gateStep T engine cfg c p).1])
      (gateStep T engine cfg c p).2 := by
  rcases @gateStep_cases T engine cfg c p with hc | hc
  · obtain ⟨hash, d, hadmits, hpassed, hhash, hstep⟩ := hc
    have hone : passedOf [p] [Except.ok d] = [(p.2, hash)] := by
      unfold passedOf
      rw [hpassed, hhash]
      rfl
    rw [hstep, hone]
    exact h.charge hadmits
  · obtain ⟨_, ⟨d, hfails, hstep⟩ | ⟨e, hstep⟩⟩ := hc
    · have hnone : passedOf [p] [Except.ok d] = [] := by
        unfold passedOf
        rw [hfails.1]
        rfl
      rw [hstep, hnone, List.append_nil]
      exact h
    · rw [hstep]
      show Charged quota (passed ++ []) c
      rw [List.append_nil]
      exact h

/-- a whole stream -/
theorem Charged.stream {quota : Int} {passed : List (String × String)}
    (h : Charged quota passed c) (stream : List Sent) :
    Charged quota (passed ++ passedIn T engine cfg c stream)
      (gateStream T engine cfg c stream).2 := by
  induction stream generalizing c passed with
  | nil =>
    show Charged quota (passed ++ []) c
    rw [List.append_nil]
    exact h
  | cons p stream ih =>
    have hstep : Charged quota (passed ++ passedOf [p] [(gateStep T engine cfg c p).1])
      (gateStep T engine cfg c p).2 := h.step p
    have hrest := ih hstep
    rw [passedIn_cons, ← List.append_assoc]
    exact hrest

end

/-! ## deleting payloads -/

/-- the elements that a mask keeps; those beyond the mask are kept -/
def keepBy {α : Type} : List Bool → List α → List α
  | [], l => l
  | _ :: _, [] => []
  | true :: mask, a :: l => a :: keepBy mask l
  | false :: mask, _ :: l => keepBy mask l

/-- only failing payloads are deleted -/
def DeletesFailing : List Bool → List (Except Exn GateDecision) → Prop
  | keep :: mask, r :: decisions => (keep = false → passes r = false) ∧ DeletesFailing mask decisions
  | _, _ => True

section
variable {T : PyText} {engine : Engine} {cfg : SubnetConfig}

/-- the other decisions are the same without them -/
theorem stream_keepBy (mask : List Bool) (c : GateContext) (stream : List Sent)
    (h : DeletesFailing mask (gateStream T engine cfg c stream).1) :
    gateStream T engine cfg c (keepBy mask stream) =
      (keepBy mask (gateStream T engine cfg c stream).1, (gateStream T engine cfg c stream).2) := by
  induction stream generalizing c mask with
  | nil =>
    cases mask with
    | nil => rfl
    | cons keep mask => cases keep <;> rfl
  | cons p stream ih =>
    cases mask with
    | nil => rfl
    | cons keep mask =>
      obtain ⟨hfails, hrest⟩ := h
      have ih := ih mask (gateStep T engine cfg c p).2 hrest
      cases keep with
      | true =>
        show (let rest := gateStream T engine cfg _ (keepBy mask stream); (_ :: rest.1, rest.2)) = _
        rw [ih]
        rfl
      | false =>
        have hsame := gateStep_of_fails (hfails rfl)
        rw [hsame] at ih
        show gateStream T engine cfg c (keepBy mask stream) = (keepBy mask
          (gateStream T engine cfg (gateStep T engine cfg c p).2 stream).1,
          (gateStream T engine cfg (gateStep T engine cfg c p).2 stream).2)
        rw [hsame]
        exact ih

end

/-! ## every stream -/

/-- the decision of the payload `p` that comes after the payloads `before` -/
structure DecidedAfter (T : PyText) (engine : Engine) (cfg : SubnetConfig) (quota : Int)
    (before : List Sent) (p : Sent) (r : Except Exn GateDecision) (c c' : GateContext) : Prop where
  passesIff : passes r = true ↔ ∃ hash, acceptableHash T engine cfg p.1 = some hash ∧
    (shareOf p.2 (passedIn T engine cfg { quota } before) : Int) < quota ∧
    hash ∉ (passedIn T engine cfg { quota } before).map Prod.snd
  failsInOrder : ∀ d, r = .ok d → d.passed = false → FailsInOrder d
  unchanged : passes r = false → c' = c

section
variable {T : PyText} {engine : Engine} {cfg : SubnetConfig}

theorem decision_at (quota : Int) (before : List Sent) (p : Sent) (after : List Sent) :
    ∃ r, (gateStream T engine cfg { quota } (before ++ p :: after)).1[before.length]? = some r ∧
      DecidedAfter T engine cfg quota before p r (gateStream T engine cfg { quota } before).2
        (gateStream T engine cfg { quota } (before ++ [p])).2 := by
  have hcharged : Charged quota ([] ++ passedIn T engine cfg { quota } before)
      (gateStream T engine cfg { quota } before).2 := (charged_new quota).stream before
  rw [List.nil_append] at hcharged
  generalize hc : (gateStream T engine cfg { quota } before).2 = c at hcharged
  refine ⟨(gateStep T engine cfg c p).1, ?_, ?_, ?_, ?_⟩
  · have hlen : (gateStream T engine cfg { quota } before).1.length = before.length :=
      length_gateStream _ _
    rw [gateStream_append, List.getElem?_append_right (le_of_eq hlen), hlen, Nat.sub_self, hc]
    rfl
  · rw [passes_gateStep_iff]
    unfold Admits
    rw [hcharged.counts, hcharged.sameQuota]
    simp only [hcharged.seen]
  · intro d hd hfailed
    rcases @gateStep_cases T engine cfg c p with h | h
    · obtain ⟨_, d', _, hpassed, _, hstep⟩ := h
      rw [hstep] at hd
      rw [Except.ok.inj hd, hfailed] at hpassed
      exact absurd hpassed Bool.false_ne_true
    · obtain ⟨_, ⟨d', hfails, hstep⟩ | ⟨e, hstep⟩⟩ := h
      · rw [hstep] at hd
        rw [← Except.ok.inj hd]
        exact hfails
      · rw [hstep] at hd
        cases hd
  · intro hfails
    rw [gateStream_append, hc]
    exact gateStep_of_fails hfails

end

/-- **Pre-gates over any stream.**  At most the quota passes per hotkey and no hash passes twice;
the decision of a payload depends on itself and on the payloads that passed before it; payloads
that fail can be deleted without changing another decision. -/
theorem pre_gates_over_any_stream (T : PyText) (engine : Engine) (cfg : SubnetConfig) (quota : Int)
    (stream : List Sent) :
    (∀ hotkey, (shareOf hotkey (passedIn T engine cfg { quota } stream) : Int) ≤ max quota 0) ∧
    ((passedIn T engine cfg { quota } stream).map Prod.snd).Nodup ∧
    (∀ before p after, stream = before ++ p :: after →
      ∃ r, (gateStream T engine cfg { quota } stream).1[before.length]? = some r ∧
        DecidedAfter T engine cfg quota before p r (gateStream T engine cfg { quota } before).2
          (gateStream T engine cfg { quota } (before ++ [p])).2) ∧
    ∀ mask, DeletesFailing mask (gateStream T engine cfg { quota } stream).1 →
      (gateStream T engine cfg { quota } (keepBy mask stream)).1 =
        keepBy mask (gateStream T engine cfg { quota } stream).1 := by
  have hcharged : Charged quota ([] ++ passedIn T engine cfg { quota } stream)
      (gateStream T engine cfg { quota } stream).2 := (charged_new quota).stream stream
  rw [List.nil_append] at hcharged
  refine ⟨hcharged.atMost, hcharged.once, ?_, ?_⟩
  · intro before p after h
    rw [h]
    exact decision_at quota before p after
  · intro mask h
    rw [stream_keepBy mask _ stream h]

end Dolores
