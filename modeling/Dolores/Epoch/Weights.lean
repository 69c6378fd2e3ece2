import Mathlib.Data.Rat.Encodable
import Mathlib.Tactic.Positivity
import Dolores.Epoch.Impl

/-!
# The weights derived from a stored artifact

The live path sums the moving averages in the order in which the active hotkeys first appear, the
replay in the order of the hotkeys.

* `normalizeWeights_pairs`        the weights of listed pairs: one sum, then one quotient each;
* `replayArtifactWeights_canon`   the replay normalises the same values in the order of the keys;
* `replaysWeights_iff`            the two agree under every arithmetic exactly when the two orders
                                  list the same operands.
-/

namespace Dolores

/-! ## sums under an arbitrary addition -/

section
variable {α β : Type}

/-- an injective operation keeps all its operands apart -/
theorem foldl_injective {f : α → β → α} (hf : ∀ a b a' b', f a b = f a' b' → a = a' ∧ b = b') :
    ∀ (l l' : List β) (a a' : α), l.length = l'.length → l.foldl f a = l'.foldl f a' →
      a = a' ∧ l = l' := by
  intro l
  induction l with
  | nil =>
    intro l' a a' hlen h
    have hl' : l' = [] := List.length_eq_zero_iff.mp hlen.symm
    rw [hl'] at h
    exact ⟨h, hl'.symm⟩
  | cons b l ih =>
    intro l' a a' hlen h
    cases l' with
    | nil => exact nomatch hlen
    | cons b' l' =>
      have hlen' : l.length = l'.length := Nat.succ.inj hlen
      obtain ⟨hab, hl⟩ := ih l' (f a b) (f a' b') hlen' h
      obtain ⟨ha, hb⟩ := hf a b a' b' hab
      exact ⟨ha, by rw [hb, hl]⟩

end

/-- an arithmetic whose sums tell their operands and their order apart -/
def pairingOps : FloatOps where
  add a b := (Encodable.encode (a, b) : ℚ) + 1
  sub a _ := a
  mul a _ := a
  div _ total := total
  round6 q := q
  lit q := q

theorem pairingOps_add_injective (a b a' b' : ℚ)
    (h : pairingOps.add a b = pairingOps.add a' b') : a = a' ∧ b = b' := by
  have h1 : (Encodable.encode (a, b) : ℚ) = Encodable.encode (a', b') := by
    have h0 : (Encodable.encode (a, b) : ℚ) + 1 = (Encodable.encode (a', b') : ℚ) + 1 := h
    linarith
  have h2 : (a, b) = (a', b') := Encodable.encode_injective (Nat.cast_injective h1)
  exact Prod.mk.inj h2

theorem pairingOps_sum_pos (values : List ℚ) (h : values ≠ []) : 0 < pairingOps.sum values := by
  rw [← List.dropLast_append_getLast h]
  unfold FloatOps.sum
  rw [List.foldl_append]
  show (0 : ℚ) < (Encodable.encode _ : ℚ) + 1
  positivity

theorem pairingOps_sum_injective {l l' : List ℚ} (hlen : l.length = l'.length)
    (h : pairingOps.sum l = pairingOps.sum l') : l = l' :=
  (foldl_injective pairingOps_add_injective l l' 0 0 hlen h).2

/-! ## weights of listed pairs -/

/-- the hotkeys in the order of the live sum -/
def liveOrder (active : List String) : List String := Dict.firstAppearances active

/-- the hotkeys in the order of the stored maps -/
def storedOrder (active : List String) : List String := (liveOrder active).insertionSort (· ≤ ·)

theorem storedOrder_perm (active : List String) : (storedOrder active).Perm (liveOrder active) :=
  List.perm_insertionSort _ _

theorem mem_storedOrder (active : List String) (hotkey : String) :
    hotkey ∈ storedOrder active ↔ hotkey ∈ liveOrder active :=
  (storedOrder_perm active).mem_iff

def weightOf (A : FloatOps) (total score : ℚ) : ℚ := if total ≤ 0 then 0 else A.div score total

section
variable (A : FloatOps) (ema : Dict String ℚ) (ks : List String)

/-- the operands of the sum, in the order of `ks` -/
def clippedScores : List ℚ := ks.map fun k => clipZero (ema.getD k 0)

theorem normalizeWeights_pairs :
    normalizeWeights A (ks.map fun k => (k, ema.getD k 0)) =
      ks.map fun k => (k, weightOf A (A.sum (clippedScores ema ks)) (clipZero (ema.getD k 0))) := by
  have hclip : Dict.mapValues clipZero (ks.map fun k => (k, ema.getD k 0)) =
      ks.map fun k => (k, clipZero (ema.getD k 0)) := by
    unfold Dict.mapValues
    rw [List.map_map]
    rfl
  have hvalues : Dict.values (ks.map fun k => (k, clipZero (ema.getD k 0))) =
      clippedScores ema ks := by
    unfold Dict.values
    rw [List.map_map]
    rfl
  unfold normalizeWeights
  dsimp only
  rw [hclip, hvalues]
  unfold weightOf
  split
  · unfold Dict.mapValues
    rw [List.map_map]
    rfl
  · unfold Dict.mapValues
    rw [List.map_map]
    rfl

theorem normalizeActiveWeights_eq (active : List String) :
    normalizeActiveWeights A ema active = (liveOrder active).map fun k =>
      (k, weightOf A (A.sum (clippedScores ema (liveOrder active)))
        (clipZero (ema.getD k 0))) := by
  unfold normalizeActiveWeights
  rw [Dict.ofPairs_map, normalizeWeights_pairs]
  rfl

end

/-! ## what is read back -/

section
variable (env : Env) (A : FloatOps)

theorem get?_scoresRecord (scores : Dict String ℚ) (k : String) :
    Dict.get? (scoresRecord scores).canon k = (scores.get? k).map Json.num := by
  rw [Obj.get?_canon]
  unfold scoresRecord
  rw [Dict.get?_mapValues, Dict.get?_sorted]
  cases scores.get? k with
  | none => rfl
  | some q => exact congrArg some (Json.canon_num q)

theorem keys_scoresRecord (scores : Dict String ℚ) :
    (scoresRecord scores).canon.keys = scores.keys.insertionSort (· ≤ ·) := by
  unfold Obj.canon scoresRecord
  rw [Dict.keys_sorted, Dict.keys_mapValues, Dict.keys_mapValues, Dict.keys_sorted]
  have : Std.Total (fun a b : String => a ≤ b) := ⟨le_total⟩
  have : IsTrans String (fun a b => a ≤ b) := ⟨fun _ _ _ => le_trans⟩
  exact List.Pairwise.insertionSort_eq (List.pairwise_insertionSort _ _)

/-- the replay normalises the stored averages in the order of the given hotkeys -/
theorem replayWeights_canon (ema : Dict String ℚ) (ks : List String) :
    replayWeights env A (scoresRecord ema).canon ks =
      .ok (normalizeWeights A (Dict.ofPairs (ks.map fun k => (k, ema.getD k 0)))) := by
  unfold replayWeights
  rw [Except.mapM_ok fun k => (k, ema.getD k 0)]
  · rfl
  · intro k _
    rw [get?_scoresRecord]
    unfold Dict.getD
    cases ema.get? k with
    | none => rfl
    | some q => rfl

theorem replayArtifactWeights_canon {artifact : Obj} {ema weights : Dict String ℚ}
    (hema : Dict.get? artifact "ema_state" = some (.obj (scoresRecord ema)))
    (hweights : Dict.get? artifact "weights" = some (.obj (scoresRecord weights))) :
    replayArtifactWeights env A (.canon (.obj artifact)) =
      .ok (normalizeWeights A (Dict.ofPairs
        ((weights.keys.insertionSort (· ≤ ·)).map fun k => (k, ema.getD k 0)))) := by
  have hindex : ∀ (key : String) (o : Obj), Dict.get? artifact key = some (.obj o) →
      Json.index key (.canon (.obj artifact)) = .ok (.obj o.canon) := by
    intro key o h
    rw [Json.canon_obj']
    unfold Json.index
    dsimp only
    rw [Obj.get?_canon, h, Option.map_some, Json.canon_obj']
  unfold replayArtifactWeights
  rw [hindex _ _ hema, Except.ok_bind, hindex _ _ hweights, Except.ok_bind]
  show replayWeights env A (scoresRecord ema).canon (scoresRecord weights).canon.keys = _
  rw [keys_scoresRecord, replayWeights_canon]

theorem replayEpoch_weights {files : Files} {log : Option Log} {epochId : Int} {artifact : Json}
    {replay : Replay} (hload : loadArtifact env files epochId = .ok artifact)
    (h : replayEpoch env A files log epochId = .ok replay) :
    replayArtifactWeights env A artifact = .ok replay.weights := by
  unfold replayEpoch at h
  rw [hload, Except.ok_bind] at h
  obtain ⟨rows, _, h⟩ := Except.bind_ok h
  obtain ⟨rows', _, h⟩ := Except.bind_ok h
  obtain ⟨config, _, h⟩ := Except.bind_ok h
  obtain ⟨quota, _, h⟩ := Except.bind_ok h
  obtain ⟨quota', _, h⟩ := Except.bind_ok h
  obtain ⟨scores, _, h⟩ := Except.bind_ok h
  obtain ⟨weights, hweights, h⟩ := Except.bind_ok h
  rw [hweights, ← Except.ok.inj h]

end

/-! ## the two paths -/

section
variable (env : Env) (ema : Dict String ℚ) (active : List String)

/-- whatever the arithmetic is, the weights derived from the artifact of an epoch with these
moving averages and hotkeys are the weights of the epoch -/
def ReplaysWeights : Prop :=
  ∀ (A : FloatOps) (cfg : SubnetConfig) (epochId quota : Int) (g : Aggregate)
    (scores : EpochScores) (chainResult : ChainWeightResult) (createdAt : String)
    (durationMs : Int) (artifact : Obj) (files : Files) (log : Option Log),
    scores.emaState = ema → scores.weights = normalizeActiveWeights A ema active →
    epochArtifact env cfg epochId quota g scores chainResult createdAt durationMs =
      .ok artifact →
    loadArtifact env files epochId = .ok (.canon (.obj artifact)) →
    ∃ weights, replayArtifactWeights env A (.canon (.obj artifact)) = .ok weights ∧
      (∀ replay, replayEpoch env A files log epochId = .ok replay → replay.weights = weights) ∧
      ∀ hotkey, Dict.get? weights hotkey = Dict.get? scores.weights hotkey

variable {env ema active}

/-- the stored weights of a hotkey and those the replay derives: only the sums can differ -/
theorem replayed_weights {A : FloatOps} {cfg : SubnetConfig} {epochId quota : Int} {g : Aggregate}
    {scores : EpochScores} {chainResult : ChainWeightResult} {createdAt : String}
    {durationMs : Int} {artifact : Obj} (hema : scores.emaState = ema)
    (hweights : scores.weights = normalizeActiveWeights A ema active)
    (hartifact : epochArtifact env cfg epochId quota g scores chainResult createdAt durationMs =
      .ok artifact) :
    replayArtifactWeights env A (.canon (.obj artifact)) =
      .ok ((storedOrder active).map fun k =>
        (k, weightOf A (A.sum (clippedScores ema (storedOrder active)))
          (clipZero (ema.getD k 0)))) := by
  obtain ⟨items, _, hok⟩ := Except.bind_ok hartifact
  have hfields := Except.ok.inj hok
  have hkeys : scores.weights.keys = liveOrder active := by
    rw [hweights, normalizeActiveWeights_eq]
    unfold Dict.keys
    rw [List.map_map]
    exact List.map_id _
  have hnodup : (storedOrder active).Nodup :=
    (storedOrder_perm active).nodup_iff.mpr (Dict.nodup_firstAppearances active)
  have hemaField : Dict.get? artifact "ema_state" = some (.obj (scoresRecord scores.emaState)) := by
    rw [← hfields]
    rfl
  have hweightsField : Dict.get? artifact "weights" = some (.obj (scoresRecord scores.weights)) := by
    rw [← hfields]
    rfl
  have hreplay := replayArtifactWeights_canon env A hemaField hweightsField
  rw [hreplay, hkeys, hema]
  show Except.ok (normalizeWeights A (Dict.ofPairs ((storedOrder active).map _))) = _
  rw [Dict.ofPairs_map, Dict.firstAppearances_of_nodup hnodup, normalizeWeights_pairs]

theorem replaysWeights_of_order
    (h : clippedScores ema (storedOrder active) = clippedScores ema (liveOrder active)) :
    ReplaysWeights env ema active := by
  intro A cfg epochId quota g scores chainResult createdAt durationMs artifact files log hema
    hweights hartifact hload
  have hreplay := replayed_weights hema hweights hartifact
  refine ⟨_, hreplay, ?_, ?_⟩
  · intro replay hr
    have hr' := replayEpoch_weights env A hload hr
    rw [hreplay] at hr'
    exact (Except.ok.inj hr').symm
  · intro hotkey
    rw [hweights, normalizeActiveWeights_eq, Dict.get?_map_keys, Dict.get?_map_keys, h]
    by_cases hmem : hotkey ∈ liveOrder active
    · rw [if_pos hmem, if_pos ((mem_storedOrder active hotkey).mpr hmem)]
    · rw [if_neg hmem, if_neg fun hs => hmem ((mem_storedOrder active hotkey).mp hs)]

variable (env ema) in
/-- an epoch with these averages and weights, and an archive that holds only its artifact -/
theorem exists_artifact (weights : Dict String ℚ) :
    ∃ (scores : EpochScores) (artifact : Obj) (files : Files), scores.emaState = ema ∧
      scores.weights = weights ∧
      epochArtifact env {} 1 4 (newAggregate []) scores { mode := .dryRun } "" 0 = .ok artifact ∧
      loadArtifact env files 1 = .ok (.canon (.obj artifact)) := by
  let scores : EpochScores :=
    { epochScores := [], emaState := ema, weights, degraded := false, weightReason := none }
  obtain ⟨artifact, hartifact⟩ : ∃ artifact, epochArtifact env {} 1 4 (newAggregate []) scores
    { mode := .dryRun } "" 0 = .ok artifact := ⟨_, rfl⟩
  exact ⟨scores, artifact, fun _ => some (.doc (.canon (.obj artifact))), rfl, rfl, hartifact, rfl⟩

theorem order_of_replaysWeights (h : ReplaysWeights env ema active) :
    clippedScores ema (storedOrder active) = clippedScores ema (liveOrder active) := by
  obtain ⟨scores, artifact, files, hema, hweights, hartifact, hload⟩ := exists_artifact
    env ema (normalizeActiveWeights pairingOps ema active)
  obtain ⟨weights, hok, _, hget⟩ := h pairingOps {} 1 4 (newAggregate []) scores
    { mode := .dryRun } "" 0 artifact files none hema hweights hartifact hload
  have hreplay := replayed_weights hema hweights hartifact
  rw [hok] at hreplay
  have hlen : (clippedScores ema (storedOrder active)).length =
      (clippedScores ema (liveOrder active)).length := by
    unfold clippedScores
    rw [List.length_map, List.length_map]
    exact (storedOrder_perm active).length_eq
  cases hkeys : liveOrder active with
  | nil =>
    unfold storedOrder
    rw [hkeys]
    rfl
  | cons hotkey rest =>
    have hmem : hotkey ∈ liveOrder active := by rw [hkeys]; exact List.mem_cons_self
    have hmem' := (mem_storedOrder active hotkey).mpr hmem
    have hpos : ∀ ks : List String, hotkey ∈ ks →
        ¬ pairingOps.sum (clippedScores ema ks) ≤ 0 := by
      intro ks hks
      have hne : clippedScores ema ks ≠ [] :=
        List.ne_nil_of_mem (List.mem_map.mpr ⟨hotkey, hks, rfl⟩)
      exact not_le.mpr (pairingOps_sum_pos _ hne)
    have hsum := hget hotkey
    rw [Except.ok.inj hreplay, hweights, normalizeActiveWeights_eq, Dict.get?_map_keys,
      Dict.get?_map_keys, if_pos hmem', if_pos hmem] at hsum
    unfold weightOf at hsum
    rw [if_neg (hpos _ hmem'), if_neg (hpos _ hmem)] at hsum
    rw [← hkeys]
    exact pairingOps_sum_injective hlen (Option.some.inj hsum)

/-- **The replay reproduces the weights** whatever the arithmetic is, exactly when the clipped
averages are the same list in the order of discovery and in the order of the hotkeys. -/
theorem replaysWeights_iff : ReplaysWeights env ema active ↔
    clippedScores ema (storedOrder active) = clippedScores ema (liveOrder active) :=
  ⟨order_of_replaysWeights, replaysWeights_of_order⟩

end

/-- the moving averages 0.1, 0.2 and 0.3 as doubles -/
def sampleEma : Dict String ℚ :=
  [("a", toDouble (1 / 10)), ("b", toDouble (2 / 10)), ("c", toDouble (3 / 10))]

/-- three miners discovered in the order `c`, `b`, `a`: the two sums differ in the last bit, and
so do the weights of `a` -/
theorem discovery_order_changes_weights :
    ¬ ∀ (env : Env) (ema : Dict String ℚ) (active : List String), ReplaysWeights env ema active := by
  intro h
  obtain ⟨scores, artifact, files, hema, hweights, hartifact, hload⟩ := exists_artifact
    Env.plain sampleEma (normalizeActiveWeights doubleOps sampleEma ["c", "b", "a"])
  obtain ⟨weights, hok, _, hget⟩ := h Env.plain sampleEma ["c", "b", "a"] doubleOps {} 1 4
    (newAggregate []) scores { mode := .dryRun } "" 0 artifact files none hema hweights hartifact
    hload
  have hreplay := replayed_weights hema hweights hartifact
  rw [hok] at hreplay
  have hsum := hget "a"
  rw [Except.ok.inj hreplay, hweights] at hsum
  revert hsum
  decide +kernel

end Dolores
