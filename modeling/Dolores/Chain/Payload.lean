import Dolores.Chain.Live
import Dolores.Chain.Order
import Dolores.Score.Grid
import Mathlib.Algebra.Order.BigOperators.Group.List
import Mathlib.Algebra.BigOperators.Ring.List

/-!
# The vector that is converted for the chain

The registered active hotkeys with positive weight, by uid, their weights divided by the sum.
`_payload` skips the conversion when there are none.

* `Registers`                 the uids that the chain returns are those of a registration;
* `ProperVector`              what a weight vector of these hotkeys is;
* `properVector_mapped`       the vector of `_payload` is one, if it is not empty;
* `Passes`                    `process_and_convert` is called with these arguments;
* `applyWeights_cases`        a run that publishes has computed the mapping and the payload;
* `payload_is_proper_iff`     exactly when some registered active hotkey has positive weight.
-/

set_option linter.unusedSectionVars false

namespace Dolores
open Crash

/-- an injective partial map from hotkey to uid, which the chain returns -/
structure Registers (substrate : Substrate) (uid : String → Option Int) : Prop where
  answers : ∀ n hotkey u, substrate.hotkeyUid n hotkey = .ok u → u = uid hotkey
  injective : ∀ hotkey hotkey' u, uid hotkey = some u → uid hotkey' = some u → hotkey = hotkey'

/-- The conversion leaves some uid of a vector of positive weights: it scales the largest to the
full range and drops only what rounds to zero. -/
def KeepsSome (substrate : Substrate) : Prop :=
  ∀ n uids values r, substrate.processAndConvert n uids values = .ok r → uids ≠ [] →
    values.length = uids.length → (∀ v ∈ values, 0 < v) → r.1 ≠ []

/-- the weights of the registered active hotkeys with positive weight, as parts of their sum -/
structure ProperVector (uid : String → Option Int) (s : ReceiptSubject) (uids : List Int)
    (values : List ℚ) : Prop where
  nonempty : uids ≠ []
  increasing : uids.Pairwise (· < ·)
  exact : ∀ u, u ∈ uids ↔
    ∃ hotkey ∈ s.activeHotkeys, uid hotkey = some u ∧ 0 < s.weights.getD hotkey 0
  length : values.length = uids.length
  positive : ∀ v ∈ values, 0 < v
  sum : values.sum = 1
  ratios : ∃ total, 0 < total ∧ ∀ p ∈ uids.zip values, ∃ hotkey ∈ s.activeHotkeys,
    uid hotkey = some p.1 ∧ p.2 * total = s.weights.getD hotkey 0

/-! ## the mapping -/

section
variable {uid : String → Option Int}

/-- one entry for each registered hotkey -/
structure MapsExactly (uid : String → Option Int) (hotkeys : List String)
    (mapping : Dict String Int) : Prop where
  nodup : mapping.keys.Nodup
  mem_iff : ∀ hotkey u, (hotkey, u) ∈ mapping ↔ hotkey ∈ hotkeys ∧ uid hotkey = some u

theorem MapsExactly.nil : MapsExactly uid [] [] where
  nodup := List.nodup_nil
  mem_iff _ _ := ⟨fun h => (List.not_mem_nil h).elim, fun h => (List.not_mem_nil h.1).elim⟩

theorem MapsExactly.set {hotkeys : List String} {mapping : Dict String Int}
    (h : MapsExactly uid hotkeys mapping) {hotkey : String} {u : Int} (hu : uid hotkey = some u) :
    MapsExactly uid (hotkeys ++ [hotkey]) (Dict.set mapping hotkey u) where
  nodup := Dict.nodup_set h.nodup hotkey u
  mem_iff hotkey' u' := by
    rw [Dict.mem_iff_get? (Dict.nodup_set h.nodup hotkey u), Dict.get?_set, List.mem_append,
      List.mem_singleton]
    by_cases he : hotkey' = hotkey
    · rw [if_pos he, he, hu]
      constructor
      · exact fun hs => ⟨.inr rfl, hs⟩
      · exact fun hs => hs.2
    · rw [if_neg he, ← Dict.mem_iff_get? h.nodup, h.mem_iff]
      constructor
      · exact fun hs => ⟨.inl hs.1, hs.2⟩
      · exact fun hs => ⟨hs.1.resolve_right he, hs.2⟩

theorem MapsExactly.skip {hotkeys : List String} {mapping : Dict String Int}
    (h : MapsExactly uid hotkeys mapping) {hotkey : String} (hu : uid hotkey = none) :
    MapsExactly uid (hotkeys ++ [hotkey]) mapping where
  nodup := h.nodup
  mem_iff hotkey' u' := by
    rw [h.mem_iff, List.mem_append, List.mem_singleton]
    constructor
    · exact fun hs => ⟨.inl hs.1, hs.2⟩
    · intro hs
      refine ⟨hs.1.resolve_right fun he => ?_, hs.2⟩
      rw [he, hu] at hs
      exact nomatch hs.2

theorem MapsExactly.sorted {hotkeys : List String} {mapping : Dict String Int}
    (h : MapsExactly uid hotkeys mapping) : MapsExactly uid hotkeys (Dict.sorted mapping) where
  nodup := (Dict.keys_perm (Dict.sorted_perm mapping)).nodup_iff.mpr h.nodup
  mem_iff hotkey u := by rw [(Dict.sorted_perm mapping).mem_iff, h.mem_iff]

variable {env : Env} {substrate : Substrate} {chain : SubtensorChain}

theorem run_mapHotkeysLoop (hr : Registers substrate uid) {hotkeys seen : List String}
    {mapping : Dict String Int} {dropped : List String} (h : MapsExactly uid seen mapping)
    {r : Dict String Int × List String} {w w' : World}
    (hrun : mapHotkeysLoop env substrate chain hotkeys mapping dropped w = (.ok r, w')) :
    MapsExactly uid (seen ++ hotkeys) r.1 := by
  induction hotkeys generalizing seen mapping dropped w with
  | nil =>
    rw [← (run_pure hrun).1, List.append_nil]
    exact h
  | cons hotkey hotkeys ih =>
    obtain ⟨_, w₁, _, hrun⟩ := run_bind hrun
    obtain ⟨answer, w₂, hread, hrun⟩ := run_bind hrun
    have hanswer := hr.answers _ _ _ (answer_of_run hread)
    rw [← List.singleton_append, ← List.append_assoc]
    cases answer with
    | none => exact ih (h.skip hanswer.symm) hrun
    | some u => exact ih (h.set hanswer.symm) hrun

theorem run_mapHotkeys (hr : Registers substrate uid) {hotkeys : List String}
    {mapping : HotkeyUidMapping} {w w' : World}
    (hrun : mapHotkeys env substrate chain hotkeys w = (.ok mapping, w')) :
    MapsExactly uid hotkeys mapping.hotkeyToUid := by
  obtain ⟨r, w₁, hloop, hrun⟩ := run_bind hrun
  rw [← (run_pure hrun).1]
  exact (run_mapHotkeysLoop hr MapsExactly.nil hloop).sorted

/-! ## the vector -/

theorem mem_mappedWeights {weights : Dict String ℚ} {mapping : HotkeyUidMapping}
    {hotkeys : List String} (h : MapsExactly uid hotkeys mapping.hotkeyToUid) {p : Int × ℚ} :
    p ∈ mappedWeights weights mapping ↔ 0 < p.2 ∧
      ∃ hotkey ∈ hotkeys, uid hotkey = some p.1 ∧ p.2 = weights.getD hotkey 0 := by
  unfold mappedWeights
  rw [List.mem_filter, List.mem_map, decide_eq_true_eq, and_comm]
  apply and_congr_right
  intro _
  constructor
  · intro hp
    obtain ⟨⟨hotkey, u⟩, hmem, he⟩ := hp
    rw [(List.perm_insertionSort _ _).mem_iff, h.mem_iff] at hmem
    rw [← he]
    exact ⟨hotkey, hmem.1, hmem.2, rfl⟩
  · intro hp
    obtain ⟨hotkey, hmem, hu, hv⟩ := hp
    refine ⟨(hotkey, p.1), ?_, Prod.ext rfl hv.symm⟩
    rw [(List.perm_insertionSort _ _).mem_iff, h.mem_iff]
    exact ⟨hmem, hu⟩

theorem mappedWeights_increasing {weights : Dict String ℚ} {mapping : HotkeyUidMapping}
    {hotkeys : List String} (hr : Registers substrate uid)
    (h : MapsExactly uid hotkeys mapping.hotkeyToUid) :
    ((mappedWeights weights mapping).map (·.1)).Pairwise (· < ·) := by
  unfold mappedWeights
  rw [List.pairwise_map]
  apply List.Pairwise.filter
  rw [List.pairwise_map]
  let sorted := mapping.hotkeyToUid.insertionSort fun a b => a.2 ≤ b.2
  have hperm : sorted.Perm mapping.hotkeyToUid := List.perm_insertionSort _ _
  have hle : sorted.Pairwise fun a b => a.2 ≤ b.2 := List.pairwise_insertionSort _ _
  have hkeys : (Dict.keys sorted).Nodup := (Dict.keys_perm hperm).nodup_iff.mpr h.nodup
  have hne : sorted.Pairwise fun a b => a.1 ≠ b.1 := List.pairwise_map.mp hkeys
  refine (hle.and hne).imp_of_mem ?_
  intro a b ha hb hab
  have ha := (h.mem_iff a.1 a.2).mp (hperm.mem_iff.mp ha)
  have hb := (h.mem_iff b.1 b.2).mp (hperm.mem_iff.mp hb)
  refine lt_of_le_of_ne hab.1 fun he => hab.2 ?_
  have he : a.2 = b.2 := he
  exact hr.injective a.1 b.1 a.2 ha.2 (he ▸ hb.2)

/-- the arguments of `process_and_convert` -/
def convertedUids (mapped : List (Int × ℚ)) : List Int := mapped.map (·.1)

def convertedValues (A : FloatOps) (mapped : List (Int × ℚ)) : List ℚ :=
  mapped.map fun p => A.div p.2 (A.sum (mapped.map (·.2)))

theorem properVector_mapped {s : ReceiptSubject} {mapping : HotkeyUidMapping}
    (hr : Registers substrate uid) (h : MapsExactly uid s.activeHotkeys mapping.hotkeyToUid)
    (hne : mappedWeights s.weights mapping ≠ []) :
    ProperVector uid s (convertedUids (mappedWeights s.weights mapping))
      (convertedValues exactOps (mappedWeights s.weights mapping)) := by
  have hmem : ∀ p, p ∈ mappedWeights s.weights mapping ↔ 0 < p.2 ∧
      ∃ hotkey ∈ s.activeHotkeys, uid hotkey = some p.1 ∧ p.2 = s.weights.getD hotkey 0 :=
    fun p => mem_mappedWeights h
  have hincreasing : ((mappedWeights s.weights mapping).map (·.1)).Pairwise (· < ·) :=
    mappedWeights_increasing hr h
  generalize mappedWeights s.weights mapping = mapped at hne hmem hincreasing
  have htotal : 0 < (mapped.map (·.2)).sum := by
    refine List.sum_pos _ (fun v hv => ?_) (fun hnil => hne (List.map_eq_nil_iff.mp hnil))
    obtain ⟨p, hp, he⟩ := List.mem_map.mp hv
    rw [← he]
    exact ((hmem p).mp hp).1
  have hvalues : convertedValues exactOps mapped =
      mapped.map fun p => p.2 / (mapped.map (·.2)).sum := by
    unfold convertedValues
    rw [exactOps_sum]
    rfl
  refine ⟨fun hnil => hne (List.map_eq_nil_iff.mp hnil), hincreasing, ?_, ?_, ?_, ?_, ?_⟩
  · intro u
    unfold convertedUids
    rw [List.mem_map]
    constructor
    · intro hu
      obtain ⟨p, hp, he⟩ := hu
      obtain ⟨hpos, hotkey, hactive, huid, hweight⟩ := (hmem p).mp hp
      refine ⟨hotkey, hactive, ?_, ?_⟩
      · rw [← he]
        exact huid
      · rw [← hweight]
        exact hpos
    · intro hu
      obtain ⟨hotkey, hactive, huid, hpos⟩ := hu
      exact ⟨(u, s.weights.getD hotkey 0), (hmem _).mpr ⟨hpos, hotkey, hactive, huid, rfl⟩, rfl⟩
  · unfold convertedValues convertedUids
    rw [List.length_map, List.length_map]
  · intro v hv
    rw [hvalues] at hv
    obtain ⟨p, hp, he⟩ := List.mem_map.mp hv
    rw [← he]
    exact div_pos ((hmem p).mp hp).1 htotal
  · rw [hvalues]
    have hmap : (mapped.map fun p => p.2 / (mapped.map (·.2)).sum) =
        (mapped.map (·.2)).map (· / (mapped.map (·.2)).sum) := by
      rw [List.map_map]
      rfl
    rw [hmap]
    simp only [div_eq_mul_inv]
    rw [List.sum_map_mul_right, List.map_id', mul_inv_cancel₀ htotal.ne']
  · refine ⟨_, htotal, fun q hq => ?_⟩
    rw [hvalues] at hq
    unfold convertedUids at hq
    rw [List.zip_map', List.mem_map] at hq
    obtain ⟨p, hp, he⟩ := hq
    obtain ⟨_, hotkey, hactive, huid, hweight⟩ := (hmem p).mp hp
    refine ⟨hotkey, hactive, ?_, ?_⟩
    · rw [← he]
      exact huid
    · rw [← he, ← hweight]
      exact div_mul_cancel₀ _ htotal.ne'

end

/-! ## a run that publishes -/

/-- the dry-run receipt of the epoch, or a call of `set_weights` -/
def Event.publishes (epochId : Int) : Event → Prop
  | .setWeights _ _ _ _ => True
  | .wrote p c => p = .epoch epochId .chainReceipt ∧
      ∃ record, c = .doc (.obj record) ∧ Obj.get record "mode" = .str ChainMode.dryRun.text
  | _ => False

/-- the run has reached the dry-run receipt or `set_weights` -/
def Publishes (epochId : Int) (w w' : World) : Prop :=
  ∃ es, w'.trace = w.trace ++ es ∧ ∃ e ∈ es, e.publishes epochId

theorem Publishes.not_adds {epochId : Int} {w w' : World} (h : Publishes epochId w w') :
    ¬ Adds (fun e => ¬ e.publishes epochId) w w' := by
  intro hquiet
  obtain ⟨es, hes, e, hmem, he⟩ := h
  obtain ⟨es', hes', hall⟩ := hquiet
  have hsame : es = es' := List.append_cancel_left (hes.symm.trans hes')
  exact hall e (hsame ▸ hmem) he

section
variable (env : Env) (substrate : Substrate) (A : FloatOps) (chain : SubtensorChain)
  (s : ReceiptSubject) (fallbackReason : String)

/-- the run from `w` has the mapping in `w₁`, before the payload -/
structure AtPayload (w : World) (state : ChainState) (mapping : HotkeyUidMapping) (w₁ : World) :
    Prop where
  weight : ¬ (fallbackReason ∈ degenerateReasons ∨ s.weights.values.all (· = 0))
  netuid : chain.netuid ≠ none
  reads : ∃ w₀, readinessState env substrate chain w = (.ok (.ok state), w₀) ∧
    mapHotkeys env substrate chain s.activeHotkeys w₀ = (.ok mapping, w₁)
  ready : readinessSkipReason chain state = none
  registered : mapping.hotkeyToUid.isEmpty = false

/-- the rest of the run -/
def payloadAndPublish (state : ChainState) (mapping : HotkeyUidMapping) : M ChainWeightResult := do
  let payload ← buildPayload env substrate A chain s.weights mapping s.specVersion
  publishPayload env substrate chain s state mapping payload

/-- the substrate, but this conversion raises -/
def Substrate.failing (uids : List Int) (values : List ℚ) (e : Exn) : Substrate :=
  { substrate with
    processAndConvert := fun n u v =>
      if u = uids ∧ v = values then .error e else substrate.processAndConvert n u v }

/-- `process_and_convert` is called with these arguments: if the call raised, so would the run -/
def Passes (w : World) (uids : List Int) (values : List ℚ) : Prop :=
  ∀ e, (chain.applyWeights env (substrate.failing uids values e) A s fallbackReason w).1 = .raise e

end

section
variable {env : Env} {substrate : Substrate} {A : FloatOps} {chain : SubtensorChain}
  {s : ReceiptSubject} {fallbackReason : String}

theorem moves_writeReceipt {P : Event → Prop} {mode : ChainMode} {reason : String}
    {detail : ReceiptDetail}
    (h : P (.wrote (.epoch s.epochId .chainReceipt)
      (.doc (Json.canon (.obj (receiptRecord chain s mode reason detail)))))) :
    Moves (Adds P) (writeReceipt env chain s mode reason detail) :=
  Moves.bind ((addsFrame P).effectful (fun w => Adds.put h w) fun w => refl_of (Adds P) w)
    fun _ => Moves.pure _

theorem quiet_writeReceipt {mode : ChainMode} (hmode : mode.text ≠ ChainMode.dryRun.text)
    (reason : String) (detail : ReceiptDetail) :
    Moves (Adds fun e => ¬ e.publishes s.epochId)
      (writeReceipt env chain s mode reason detail) := by
  apply moves_writeReceipt
  intro h
  obtain ⟨record, hrecord, hdry⟩ := h.2
  rw [Json.canon_obj'] at hrecord
  rw [← Json.obj.inj (Content.doc.inj hrecord), Obj.get_canon, receiptRecord_get_mode,
    Json.canon_str] at hdry
  exact hmode (Json.str.inj hdry)

/-- A run publishes nothing, or it has the mapping and the rest of it starts there. -/
theorem applyWeights_cases (w : World) :
    Adds (fun e => ¬ e.publishes s.epochId) w
        (chain.applyWeights env substrate A s fallbackReason w).2 ∨
      ∃ state mapping w₁, AtPayload env substrate chain s fallbackReason w state mapping w₁ := by
  have hwp : wp (chain.applyWeights env substrate A s fallbackReason)
      (Post.always fun w' => Adds (fun e => ¬ e.publishes s.epochId) w w' ∨
        ∃ state mapping w₁, AtPayload env substrate chain s fallbackReason w state mapping w₁)
      w := by
    -- a receipt of another mode ends the run after its reads
    have hquiet : ∀ (mode : ChainMode) (reason : String) (detail : ReceiptDetail) (w₁ : World),
        mode.text ≠ ChainMode.dryRun.text → OnlyReads w w₁ →
        wp (writeReceipt env chain s mode reason detail) (Post.always fun w' =>
          Adds (fun e => ¬ e.publishes s.epochId) w w' ∨ ∃ state mapping w₁,
            AtPayload env substrate chain s fallbackReason w state mapping w₁) w₁ := by
      intro mode reason detail w₁ hmode hr
      have hall : ∀ w', Adds (fun e => ¬ e.publishes s.epochId) w₁ w' →
          Adds (fun e => ¬ e.publishes s.epochId) w w' := fun w' h =>
        trans_of (Adds _) (Adds.of_reads hr) h
      exact wp_mono (quiet_writeReceipt hmode reason detail w₁) (fun _ w' h => .inl (hall w' h))
        (fun _ w' h => .inl (hall w' h)) (fun w' h => .inl (hall w' h))
    unfold SubtensorChain.applyWeights
    refine wp_ite (fun _ => hquiet _ _ _ w (by decide) (refl_of OnlyReads w)) (fun hweight =>
      wp_ite (fun _ => hquiet _ _ _ w (by decide) (refl_of OnlyReads w)) (fun hnetuid => ?_))
    rw [wp_bind]
    refine wp_mono (wp_and (onlyReadsFrame.readinessState w) (wp_self_ok _ w)) ?_
      (fun _ _ h => .inl (Adds.of_reads h.1)) (fun _ h => .inl (Adds.of_reads h.1))
    intro readiness w₀ hw₀
    cases readiness with
    | error exc => exact hquiet _ _ _ w₀ (by decide) hw₀.1
    | ok state =>
      show wp (publishReady env substrate A chain s state) _ w₀
      unfold publishReady
      cases hskip : readinessSkipReason chain state with
      | some reason =>
        refine hquiet _ _ _ w₀ ?_ hw₀.1
        split
        · decide
        · decide
      | none =>
        dsimp only
        rw [wp_bind]
        refine wp_mono (wp_and (onlyReadsFrame.mapHotkeys s.activeHotkeys w₀) (wp_self_ok _ w₀)) ?_
          (fun _ _ h => .inl (Adds.of_reads (trans_of OnlyReads hw₀.1 h.1)))
          (fun _ h => .inl (Adds.of_reads (trans_of OnlyReads hw₀.1 h.1)))
        intro mapping w₁ hw₁
        refine wp_ite (fun _ => hquiet _ _ _ w₁ (by decide) (trans_of OnlyReads hw₀.1 hw₁.1))
          (fun hempty => ?_)
        have hat : AtPayload env substrate chain s fallbackReason w state mapping w₁ :=
          ⟨hweight, hnetuid, ⟨w₀, hw₀.2, hw₁.2⟩, hskip, Bool.eq_false_of_not_eq_true hempty⟩
        exact wp_always.mpr (.inr ⟨state, mapping, w₁, hat⟩)
  exact wp_always.mp hwp

theorem applyWeights_atPayload {w w₁ : World} {state : ChainState} {mapping : HotkeyUidMapping}
    (h : AtPayload env substrate chain s fallbackReason w state mapping w₁) :
    chain.applyWeights env substrate A s fallbackReason w =
      payloadAndPublish env substrate A chain s state mapping w₁ := by
  obtain ⟨w₀, hstate, hmapping⟩ := h.reads
  unfold SubtensorChain.applyWeights
  rw [if_neg h.weight, if_neg h.netuid, Proc.bind_of_ok hstate]
  dsimp only
  unfold publishReady
  rw [h.ready]
  dsimp only
  rw [Proc.bind_of_ok hmapping, if_neg (by rw [h.registered]; decide)]
  rfl

/-! ### the call of `process_and_convert` -/

variable (substrate) in
theorem mapHotkeysLoop_failing (uids : List Int) (values : List ℚ) (e : Exn)
    (hotkeys : List String) (mapping : Dict String Int) (dropped : List String) :
    mapHotkeysLoop env (substrate.failing uids values e) chain hotkeys mapping dropped =
      mapHotkeysLoop env substrate chain hotkeys mapping dropped := by
  induction hotkeys generalizing mapping dropped with
  | nil => rfl
  | cons hotkey hotkeys ih =>
    unfold mapHotkeysLoop
    congr 1
    funext _
    congr 1
    funext uid
    cases uid with
    | none => exact ih _ _
    | some u => exact ih _ _

theorem AtPayload.failing {w w₁ : World} {state : ChainState} {mapping : HotkeyUidMapping}
    (h : AtPayload env substrate chain s fallbackReason w state mapping w₁) (uids : List Int)
    (values : List ℚ) (e : Exn) :
    AtPayload env (substrate.failing uids values e) chain s fallbackReason w state mapping w₁ := by
  obtain ⟨w₀, hstate, hmapping⟩ := h.reads
  refine ⟨h.weight, h.netuid, ⟨w₀, hstate, ?_⟩, h.ready, h.registered⟩
  unfold mapHotkeys at hmapping ⊢
  rw [mapHotkeysLoop_failing]
  exact hmapping

/-- what a payload that is returned says about the call -/
theorem run_buildPayload {weights : Dict String ℚ} {mapping : HotkeyUidMapping} {version : Int}
    {payload : ChainPayload} {w w' : World} (hne : mappedWeights weights mapping ≠ [])
    (h : buildPayload env substrate A chain weights mapping version w = (.ok payload, w')) :
    ∃ w₀ r, connectSubstrate env substrate chain w = (.ok (), w₀) ∧
      external env (fun n => substrate.processAndConvert n
        (convertedUids (mappedWeights weights mapping))
        (convertedValues A (mappedWeights weights mapping))) w₀ = (.ok r, w') ∧
      payload.uidsEmitted = r.1 := by
  obtain ⟨r, w₁, hcall, hpayload⟩ := run_bind h
  rw [if_neg fun hempty => hne (List.isEmpty_iff.mp hempty)] at hcall
  obtain ⟨_, w₀, hconnect, hconvert⟩ := run_bind hcall
  obtain ⟨hp, hw⟩ := run_pure hpayload
  refine ⟨w₀, r, hconnect, ?_, ?_⟩
  · rw [← hw]
    exact hconvert
  · rw [← hp]

theorem external_raise {α : Type} {answer answer' : Nat → Except Exn α} {w w' : World} {a : α}
    {e : Exn} (h : external env answer w = (.ok a, w')) (he : answer' w.clock = .error e) :
    external env answer' w = (.raise e, w.tickClock) := by
  unfold external at h ⊢
  rw [he]
  cases hfault : env.fault w.clock with
  | none => rfl
  | raiseBefore i => rfl
  | raiseAfter i => rfl
  | killBefore =>
    rw [hfault] at h
    exact nomatch (Prod.mk.inj h).1
  | killAfter =>
    rw [hfault] at h
    exact nomatch (Prod.mk.inj h).1

/-- the one call of the run -/
theorem passes_iff {w w₁ w₂ : World} {state : ChainState} {mapping : HotkeyUidMapping}
    {payload : ChainPayload}
    (h : AtPayload env substrate chain s fallbackReason w state mapping w₁)
    (hne : mappedWeights s.weights mapping ≠ [])
    (hrun : buildPayload env substrate A chain s.weights mapping s.specVersion w₁ =
      (.ok payload, w₂)) (uids : List Int) (values : List ℚ) :
    Passes env substrate A chain s fallbackReason w uids values ↔
      convertedUids (mappedWeights s.weights mapping) = uids ∧
        convertedValues A (mappedWeights s.weights mapping) = values := by
  constructor
  · intro hpasses
    by_contra hother
    -- a substrate that fails elsewhere leaves the run as it is
    have hsame : ∀ e, chain.applyWeights env (substrate.failing uids values e) A s fallbackReason w
        = chain.applyWeights env substrate A s fallbackReason w := by
      intro e
      rw [applyWeights_atPayload (h.failing uids values e), applyWeights_atPayload h]
      have hconvert : (fun n => (substrate.failing uids values e).processAndConvert n
          (convertedUids (mappedWeights s.weights mapping))
          (convertedValues A (mappedWeights s.weights mapping))) =
          fun n => substrate.processAndConvert n (convertedUids (mappedWeights s.weights mapping))
            (convertedValues A (mappedWeights s.weights mapping)) :=
        funext fun n => if_neg hother
      have hbuild : buildPayload env (substrate.failing uids values e) A chain s.weights mapping
          s.specVersion = buildPayload env substrate A chain s.weights mapping s.specVersion := by
        unfold convertedUids convertedValues at hconvert
        unfold buildPayload
        dsimp only
        rw [hconvert]
        rfl
      unfold payloadAndPublish
      rw [hbuild]
      rfl
    have h₁ := hpasses (.runtimeError "")
    have h₂ := hpasses (.valueError "")
    rw [hsame] at h₁ h₂
    exact nomatch h₁.symm.trans h₂
  · intro hargs e
    obtain ⟨w₀, r, hconnect, hconvert, _⟩ := run_buildPayload hne hrun
    rw [applyWeights_atPayload (h.failing uids values e)]
    have hraise : external env (fun n => (substrate.failing uids values e).processAndConvert n
        (convertedUids (mappedWeights s.weights mapping))
        (convertedValues A (mappedWeights s.weights mapping))) w₀ = (.raise e, w₀.tickClock) :=
      external_raise hconvert (if_pos hargs)
    have hcall : (connectSubstrate env (substrate.failing uids values e) chain >>= fun _ =>
        external env fun n => (substrate.failing uids values e).processAndConvert n
          (convertedUids (mappedWeights s.weights mapping))
          (convertedValues A (mappedWeights s.weights mapping))) w₁ = (.raise e, w₀.tickClock) :=
      (Proc.bind_of_ok hconnect).trans hraise
    have hbuild : buildPayload env (substrate.failing uids values e) A chain s.weights mapping
        s.specVersion w₁ = (.raise e, w₀.tickClock) := by
      unfold buildPayload
      dsimp only
      apply Proc.bind_of_raise
      rw [if_neg fun hempty => hne (List.isEmpty_iff.mp hempty)]
      exact hcall
    unfold payloadAndPublish
    rw [Proc.bind_of_raise hbuild]

/-! ### the calls of `set_weights` -/

/-- a call of `set_weights` is one with these uids -/
def Event.carries (uids : List Int) : Event → Prop
  | .setWeights _ emitted _ _ => emitted = uids
  | _ => True

section
variable {payload : ChainPayload}

theorem carries_writeAttempt {uids : List Int} (status : AttemptStatus)
    (submission : Option Obj) (receiptFile errorType : Option String) :
    Moves (Adds (Event.carries uids))
      (writeAttempt env chain s status payload submission receiptFile errorType) :=
  (addsFrame _).atomicWriteJson (fun w _ => Adds.put trivial w) _

theorem carries_ambiguousSubmission {α : Type} {uids : List Int} (submission : Option Obj)
    (exc : Exn) : Moves (Adds (Event.carries uids))
      (ambiguousSubmission env chain s payload submission exc : M α) :=
  Moves.bind (Moves.handle (carries_writeAttempt _ _ _ _) fun _ => Moves.pure _) fun _ =>
    Moves.raise _

theorem carries_invokeSetWeights :
    Moves (Adds (Event.carries payload.uidsEmitted))
      (invokeSetWeights env substrate chain s payload) := by
  have F := addsFrame (Event.carries payload.uidsEmitted)
  refine Moves.bind F.connect fun _ => Moves.bind (Moves.modify fun w => ?_) fun _ =>
    Moves.bind (F.external _) fun _ => Moves.pure _
  refine ⟨[_], rfl, fun e he => ?_⟩
  rw [List.mem_singleton.mp he]
  rfl

theorem carries_confirmSubmission {uids : List Int} (state : ChainState)
    (mapping : HotkeyUidMapping) (submission : Obj) :
    Moves (Adds (Event.carries uids))
      (confirmSubmission env substrate chain s state mapping payload submission) := by
  have F := addsFrame (Event.carries uids)
  refine Moves.ite (Moves.raise _) (Moves.bind F.connect fun _ => Moves.bind (F.external _)
    fun _ => Moves.ite (Moves.raise _) (Moves.ite (Moves.raise _) ?_))
  exact Moves.bind (moves_writeReceipt trivial) fun _ =>
    Moves.bind (carries_writeAttempt _ _ _ _) fun _ => Moves.pure _

theorem carries_publishPayload (state : ChainState) (mapping : HotkeyUidMapping) :
    Moves (Adds (Event.carries payload.uidsEmitted))
      (publishPayload env substrate chain s state mapping payload) := by
  refine Moves.ite (moves_writeReceipt trivial) (Moves.ite (moves_writeReceipt trivial)
    (Moves.bind (carries_writeAttempt _ _ _ _) fun _ => ?_))
  exact Moves.bind (Moves.handle carries_invokeSetWeights fun _ =>
    carries_ambiguousSubmission _ _) fun _ =>
      Moves.handle (carries_confirmSubmission _ _ _) fun _ => carries_ambiguousSubmission _ _

end

/-! ## the run -/

theorem AtPayload.onlyReads {w w₁ : World} {state : ChainState} {mapping : HotkeyUidMapping}
    (h : AtPayload env substrate chain s fallbackReason w state mapping w₁) : OnlyReads w w₁ := by
  obtain ⟨w₀, hstate, hmapping⟩ := h.reads
  exact trans_of OnlyReads (onlyReadsFrame.readinessState.run hstate)
    ((onlyReadsFrame.mapHotkeys _).run hmapping)

/-- a run that publishes has computed a payload -/
theorem payload_of_publishes {w w' : World} {o : Outcome Exn ChainWeightResult}
    (hrun : chain.applyWeights env substrate A s fallbackReason w = (o, w'))
    (hpublishes : Publishes s.epochId w w') :
    ∃ state mapping w₁ payload w₂,
      AtPayload env substrate chain s fallbackReason w state mapping w₁ ∧
      buildPayload env substrate A chain s.weights mapping s.specVersion w₁ = (.ok payload, w₂) ∧
      publishPayload env substrate chain s state mapping payload w₂ = (o, w') := by
  rcases applyWeights_cases (A := A) w with hquiet | hat
  · rw [hrun] at hquiet
    exact (hpublishes.not_adds hquiet).elim
  obtain ⟨state, mapping, w₁, hat⟩ := hat
  rw [applyWeights_atPayload hat] at hrun
  cases hbuild : buildPayload env substrate A chain s.weights mapping s.specVersion w₁ with
  | mk o' w₂ =>
    have hreads : OnlyReads w w₂ := trans_of OnlyReads hat.onlyReads
      ((onlyReadsFrame.buildPayload _ _ _).run hbuild)
    have hrest : Proc.bind _ _ w₁ = (o, w') := hrun
    unfold Proc.bind at hrest
    rw [hbuild] at hrest
    cases o' with
    | ok payload => exact ⟨state, mapping, w₁, payload, w₂, hat, hbuild, hrest⟩
    | raise e =>
      rw [← (Prod.mk.inj hrest).2] at hpublishes
      exact (hpublishes.not_adds (Adds.of_reads hreads)).elim
    | killed =>
      rw [← (Prod.mk.inj hrest).2] at hpublishes
      exact (hpublishes.not_adds (Adds.of_reads hreads)).elim

end

/-- One conversion is asked for, of a proper vector, and `set_weights` is never called with an
empty list. -/
structure ProperRun (env : Env) (substrate : Substrate) (chain : SubtensorChain)
    (uid : String → Option Int) (s : ReceiptSubject) (fallbackReason : String) (w w' : World) :
    Prop where
  passed : ∃ uids values, ProperVector uid s uids values ∧ ∀ uids' values',
    Passes env substrate exactOps chain s fallbackReason w uids' values' ↔
      uids = uids' ∧ values = values'
  emitted : ∀ es, w'.trace = w.trace ++ es → ∀ epochId uids u16 versionKey,
    Event.setWeights epochId uids u16 versionKey ∈ es → uids ≠ []

/-- some registered active hotkey has positive weight -/
def SomeRegisteredWeight (uid : String → Option Int) (s : ReceiptSubject) : Prop :=
  ∃ hotkey ∈ s.activeHotkeys, ∃ u, uid hotkey = some u ∧ 0 < s.weights.getD hotkey 0

/-- **Every payload built for the chain is a proper weight vector** exactly when some registered
active hotkey has positive weight: the guards look at all weights and at all registered hotkeys,
and not at both. -/
theorem payload_is_proper_iff {env : Env} {substrate : Substrate} {chain : SubtensorChain}
    {uid : String → Option Int} (hregisters : Registers substrate uid)
    (hkeeps : KeepsSome substrate) (s : ReceiptSubject) (fallbackReason : String) {w w' : World}
    {o : Outcome Exn ChainWeightResult}
    (hrun : chain.applyWeights env substrate exactOps s fallbackReason w = (o, w'))
    (hpublishes : Publishes s.epochId w w') :
    ProperRun env substrate chain uid s fallbackReason w w' ↔ SomeRegisteredWeight uid s := by
  constructor
  · intro hproper
    obtain ⟨uids, values, hvector, _⟩ := hproper.passed
    obtain ⟨u, hu⟩ := List.exists_mem_of_ne_nil uids hvector.nonempty
    obtain ⟨hotkey, hactive, huid, hpos⟩ := (hvector.exact u).mp hu
    exact ⟨hotkey, hactive, u, huid, hpos⟩
  · intro hsome
    obtain ⟨hotkey, hactive, u, huid, hpos⟩ := hsome
    obtain ⟨state, mapping, w₁, payload, w₂, hat, hbuild, hpublish⟩ :=
      payload_of_publishes hrun hpublishes
    obtain ⟨w₀, _, hmapping⟩ := hat.reads
    have hmaps := run_mapHotkeys hregisters hmapping
    have hmem : (u, s.weights.getD hotkey 0) ∈ mappedWeights s.weights mapping :=
      (mem_mappedWeights hmaps).mpr ⟨hpos, hotkey, hactive, huid, rfl⟩
    have hne : mappedWeights s.weights mapping ≠ [] := List.ne_nil_of_mem hmem
    have hvector := properVector_mapped hregisters hmaps hne
    refine ⟨⟨_, _, hvector, passes_iff hat hne hbuild⟩, ?_⟩
    obtain ⟨w₃, r, _, hconvert, hemitted⟩ := run_buildPayload hne hbuild
    have hkept : payload.uidsEmitted ≠ [] := by
      rw [hemitted]
      exact hkeeps _ _ _ _ (answer_of_run hconvert) hvector.nonempty hvector.length hvector.positive
    have hreads : OnlyReads w w₂ := trans_of OnlyReads hat.onlyReads
      ((onlyReadsFrame.buildPayload _ _ _).run hbuild)
    have hcarries : Adds (Event.carries payload.uidsEmitted) w w' :=
      trans_of (Adds _) (Adds.of_reads hreads)
        ((carries_publishPayload state mapping).run hpublish)
    obtain ⟨es, hes, hall⟩ := hcarries
    intro es' hes' epochId uids u16 versionKey hmem
    have hsame : es' = es := List.append_cancel_left (hes'.symm.trans hes)
    have hcarried : Event.carries payload.uidsEmitted (.setWeights epochId uids u16 versionKey) :=
      hall _ (hsame ▸ hmem)
    have hcarried : uids = payload.uidsEmitted := hcarried
    rw [hcarried]
    exact hkept

/-- two registered miners, and everything else is not registered -/
def registeredUid (hotkey : String) : Option Int :=
  if hotkey = "v" then some 0 else if hotkey = "a" then some 1
  else if hotkey = "b" then some 2 else none

def registeredSubstrate : Substrate :=
  { readySubstrate with hotkeyUid := fun _ hotkey => .ok (registeredUid hotkey) }

theorem registers_sample : Registers registeredSubstrate registeredUid where
  answers n hotkey u h := (Except.ok.inj h).symm
  injective hotkey hotkey' u h h' := by
    unfold registeredUid at h h'
    grind

theorem keepsSome_sample : KeepsSome registeredSubstrate := by
  intro n uids values r h hne _ _
  rw [← Except.ok.inj h]
  exact hne

def registeredRun (s : ReceiptSubject) : Outcome Exn ChainWeightResult × World :=
  liveChain.applyWeights liveEnv registeredSubstrate exactOps s "" {}

/-- a call of `set_weights` is in the trace -/
def callsSetWeights (w : World) : Bool :=
  w.trace.any fun e => match e with
    | .setWeights _ _ _ _ => true
    | _ => false

theorem publishes_of_calls {epochId : Int} {w' : World} (h : callsSetWeights w' = true) :
    Publishes epochId {} w' := by
  obtain ⟨e, hmem, he⟩ := List.any_eq_true.mp h
  refine ⟨w'.trace, rfl, e, hmem, ?_⟩
  cases e with
  | setWeights => trivial
  | wrote => exact nomatch he
  | verified => exact nomatch he
  | tickEntered => exact nomatch he
  | emaLoaded => exact nomatch he
  | pipelineRan => exact nomatch he

theorem payload_is_proper_iff_sample :
    ProperRun liveEnv registeredSubstrate liveChain registeredUid liveSubject "" {}
        (registeredRun liveSubject).2 ↔ SomeRegisteredWeight registeredUid liveSubject :=
  payload_is_proper_iff registers_sample keepsSome_sample liveSubject "" rfl
    (publishes_of_calls (by decide +kernel))

/-- the one active miner with positive weight is not registered -/
def departedSubject : ReceiptSubject :=
  { liveSubject with weights := [("b", 0), ("gone", 1)], activeHotkeys := ["b", "gone"] }

/-- `set_weights` is called with an empty list -/
theorem departed_miner_empties_payload :
    ¬ ∀ (env : Env) (substrate : Substrate) (chain : SubtensorChain) (uid : String → Option Int)
        (s : ReceiptSubject) (fallbackReason : String) (w w' : World)
        (o : Outcome Exn ChainWeightResult), Registers substrate uid → KeepsSome substrate →
      chain.applyWeights env substrate exactOps s fallbackReason w = (o, w') →
      Publishes s.epochId w w' → ProperRun env substrate chain uid s fallbackReason w w' := by
  intro h
  have hproper := h liveEnv registeredSubstrate liveChain registeredUid departedSubject "" {}
    (registeredRun departedSubject).2 (registeredRun departedSubject).1 registers_sample
    keepsSome_sample rfl (publishes_of_calls (by decide +kernel))
  have hcalled : ((registeredRun departedSubject).2.trace.any fun e => match e with
      | .setWeights _ uids _ _ => uids.isEmpty
      | _ => false) = true := by decide +kernel
  obtain ⟨e, hmem, he⟩ := List.any_eq_true.mp hcalled
  cases e with
  | setWeights epochId uids u16 versionKey =>
    exact hproper.emitted _ rfl epochId uids u16 versionKey hmem (List.isEmpty_iff.mp he)
  | wrote => exact nomatch he
  | verified => exact nomatch he
  | tickEntered => exact nomatch he
  | emaLoaded => exact nomatch he
  | pipelineRan => exact nomatch he

end Dolores
