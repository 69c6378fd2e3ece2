import Dolores.Chain.Impl
import Dolores.Epoch.Blind

/-!
# The order of the active hotkeys at the chain seam

Two calls of `apply_weights` with the same weights, their hotkeys in two orders, invoke the
substrate alike, return the same result and write receipts that list the dropped hotkeys in
different orders and are equal otherwise.

* `SamePublished`         the worlds of two such calls;
* `FixedUids`             a hotkey has one uid;
* `agree_mapHotkeys`      the mapping of the hotkeys;
* `agree_buildPayload`    the payload;
* `agree_applyWeights`    both clients.
-/

set_option linter.unusedSectionVars false

namespace Dolores
open Crash

/-! ## the worlds -/

/-- the payloads that were submitted -/
def chainCalls (events : List Event) : List (Int × List Int × List Int × Int) :=
  events.filterMap fun e =>
    match e with
    | .setWeights epochId uids weights versionKey => some (epochId, uids, weights, versionKey)
    | _ => none

/-- equal, or two receipts that differ in the dropped hotkeys alone -/
def SameReceipt (c c' : Option Content) : Prop :=
  c = c' ∨ ∃ receipt receipt' : Obj, c = some (.doc (.obj receipt)) ∧
    c' = some (.doc (.obj receipt')) ∧
    ∀ key, key ≠ "dropped_hotkeys" → receipt.get key = receipt'.get key

structure SamePublished (epochId : Int) (w v : World) : Prop where
  clock : w.clock = v.clock
  connected : w.connected = v.connected
  files : ∀ p, p ≠ .epoch epochId .chainReceipt → w.files p = v.files p
  receipt : SameReceipt (w.files (.epoch epochId .chainReceipt))
    (v.files (.epoch epochId .chainReceipt))
  calls : chainCalls w.trace = chainCalls v.trace

section
variable {epochId : Int} {w v : World}

theorem chainCalls_append (events events' : List Event) :
    chainCalls (events ++ events') = chainCalls events ++ chainCalls events' :=
  List.filterMap_append

theorem SamePublished.of_sameButLog (h : SameButLog w v) : SamePublished epochId w v where
  clock := h.clock
  connected := show w.withoutLog.connected = v.withoutLog.connected by rw [h.withoutLog_eq]
  files p _ := by rw [h.files]
  receipt := .inl (by rw [h.files])
  calls := by
    have htrace : w.trace = v.trace :=
      show w.withoutLog.trace = v.withoutLog.trace by rw [h.withoutLog_eq]
    rw [htrace]

theorem SamePublished.log (h : SamePublished epochId w v) (e : Event) :
    SamePublished epochId (w.log e) (v.log e) where
  clock := h.clock
  connected := h.connected
  files := h.files
  receipt := h.receipt
  calls := by
    show chainCalls (w.trace ++ [e]) = chainCalls (v.trace ++ [e])
    rw [chainCalls_append, chainCalls_append, h.calls]

/-- two files written to one path, which differ only if they are receipts -/
theorem SamePublished.put (h : SamePublished epochId w v) {p : Path} {c c' : Content}
    (hne : p ≠ .epoch epochId .chainReceipt → c = c')
    (hreceipt : SameReceipt (some c) (some c')) :
    SamePublished epochId (w.put p c) (v.put p c') where
  clock := h.clock
  connected := h.connected
  files q hq := by
    by_cases e : q = p
    · rw [e, World.put_self, World.put_self, hne (e ▸ hq)]
    · rw [World.put_of_ne e, World.put_of_ne e, h.files q hq]
  receipt := by
    by_cases e : Path.epoch epochId .chainReceipt = p
    · rw [e, World.put_self, World.put_self]
      exact hreceipt
    · rw [World.put_of_ne e, World.put_of_ne e]
      exact h.receipt
  calls := by
    show chainCalls (w.trace ++ _) = chainCalls (v.trace ++ _)
    rw [chainCalls_append, chainCalls_append, h.calls]
    rfl

theorem clockAgree_samePublished : ClockAgree (SamePublished epochId) where
  clock _ _ h := h.clock
  tick _ _ h := ⟨by
    show _ + 1 = _ + 1
    rw [h.clock], h.connected, h.files, h.receipt, h.calls⟩

variable {env : Env}

theorem agree_atomicWriteJson (p : Path) (payload : Json) :
    Agree (SamePublished epochId) Eq (atomicWriteJson env p payload)
      (atomicWriteJson env p payload) :=
  (clockAgree_samePublished.effectful (fun _ _ h => h.put (fun _ => rfl) (.inl rfl))
    fun _ _ h => h).mono fun _ _ _ => rfl

end

/-! ## the reads -/

section
variable {epochId : Int} {env : Env} {substrate : Substrate} {A : FloatOps}
  {chain : SubtensorChain}

theorem agree_read {α : Type} (answer : Nat → Except Exn α) :
    Agree (SamePublished epochId) Eq (external env answer) (external env answer) :=
  clockAgree_samePublished.external answer

theorem agree_connect :
    Agree (SamePublished epochId) Eq (connectSubstrate env substrate chain)
      (connectSubstrate env substrate chain) := by
  refine Agree.bind Agree.get fun w v h => Agree.ite Iff.rfl (Agree.raise _) (Agree.ite ?_
    (Agree.pure rfl) ((agree_read _).bind_eq fun _ => ?_))
  · rw [h.connected]
  · exact (Agree.modify fun w v h => ⟨h.clock, rfl, h.files, h.receipt, h.calls⟩).mono
      fun _ _ _ => rfl

theorem agree_probeCommitReveal (record : ChainState) :
    Agree (SamePublished epochId) Eq (probeCommitReveal env substrate record)
      (probeCommitReveal env substrate record) := by
  refine Agree.handle ((agree_read _).bind_eq fun enabled => ?_) fun e =>
    Agree.ite Iff.rfl (Agree.pure rfl) (Agree.raise _)
  cases enabled with
  | none => exact Agree.pure rfl
  | some b => exact Agree.pure rfl

theorem agree_preflight :
    Agree (SamePublished epochId) Eq (preflight env substrate chain)
      (preflight env substrate chain) := by
  refine agree_connect.bind_eq fun _ => (agree_read _).bind_eq fun block =>
    (agree_read _).bind_eq fun exists' => (agree_read _).bind_eq fun validator => ?_
  refine Agree.ite Iff.rfl (Agree.pure rfl) ((agree_read _).bind_eq fun hotkey =>
    (agree_read _).bind_eq fun uid => ?_)
  cases uid with
  | none => exact Agree.pure rfl
  | some uid =>
    exact (agree_read _).bind_eq fun _ => (agree_read _).bind_eq fun _ =>
      (agree_read _).bind_eq fun _ => agree_probeCommitReveal _

theorem agree_readinessState :
    Agree (SamePublished epochId) Eq (readinessState env substrate chain)
      (readinessState env substrate chain) :=
  Agree.handle (agree_preflight.bind_eq fun _ => Agree.pure rfl) fun _ =>
    Agree.ite Iff.rfl (Agree.pure rfl) (Agree.raise _)

/-! ## the mapping of the hotkeys -/

/-- a call of `hotkey_uid` fails for every hotkey, or yields the uid of the hotkey -/
def FixedUids (substrate : Substrate) (uid : String → Option Int) : Prop :=
  ∀ n, (∀ hotkey, substrate.hotkeyUid n hotkey = .ok (uid hotkey)) ∨
    ∃ e, ∀ hotkey, substrate.hotkeyUid n hotkey = .error e

/-- the registered hotkeys with their uids -/
def uidsOf (uid : String → Option Int) (hotkeys : List String) : Dict String Int :=
  hotkeys.filterMap fun hotkey => (uid hotkey).map fun u => (hotkey, u)

theorem keys_uidsOf (uid : String → Option Int) (hotkeys : List String) :
    Dict.keys (uidsOf uid hotkeys) = hotkeys.filter fun hotkey => (uid hotkey).isSome := by
  induction hotkeys with
  | nil => rfl
  | cons hotkey hotkeys ih =>
    unfold uidsOf
    rw [List.filterMap_cons, List.filter_cons]
    cases uid hotkey with
    | none => exact ih
    | some u =>
      show hotkey :: Dict.keys (uidsOf uid hotkeys) = _
      rw [ih]
      rfl

theorem agree_mapHotkeysLoop {uid : String → Option Int} (huid : FixedUids substrate uid)
    {hotkeys hotkeys' : List String} (hlen : hotkeys.length = hotkeys'.length)
    (mapping mapping' : Dict String Int) (dropped dropped' : List String) :
    Agree (SamePublished epochId)
      (fun r r' => r.1 = (uidsOf uid hotkeys).foldl (fun d p => d.set p.1 p.2) mapping ∧
        r'.1 = (uidsOf uid hotkeys').foldl (fun d p => d.set p.1 p.2) mapping')
      (mapHotkeysLoop env substrate chain hotkeys mapping dropped)
      (mapHotkeysLoop env substrate chain hotkeys' mapping' dropped') := by
  induction hotkeys generalizing hotkeys' mapping mapping' dropped dropped' with
  | nil =>
    rw [List.eq_nil_of_length_eq_zero hlen.symm]
    exact Agree.pure ⟨rfl, rfl⟩
  | cons hotkey hotkeys ih =>
    cases hotkeys' with
    | nil => cases hlen
    | cons hotkey' hotkeys' =>
      have hlen : hotkeys.length = hotkeys'.length := Nat.succ.inj hlen
      have hanswers : ∀ n, Except.Both (fun a b => a = uid hotkey ∧ b = uid hotkey')
          (substrate.hotkeyUid n hotkey) (substrate.hotkeyUid n hotkey') := by
        intro n
        rcases huid n with hok | ⟨e, he⟩
        · rw [hok, hok]
          exact .ok ⟨rfl, rfl⟩
        · rw [he, he]
          exact .error e
      refine agree_connect.bind_eq fun _ =>
        (clockAgree_samePublished.external_both hanswers).bind fun a b hab => ?_
      rw [hab.1, hab.2]
      unfold uidsOf
      rw [List.filterMap_cons, List.filterMap_cons]
      cases uid hotkey with
      | none =>
        cases uid hotkey' with
        | none => exact ih hlen _ _ _ _
        | some u' => exact ih hlen _ _ _ _
      | some u =>
        cases uid hotkey' with
        | none => exact ih hlen _ _ _ _
        | some u' => exact ih hlen _ _ _ _

theorem agree_mapHotkeys {uid : String → Option Int} (huid : FixedUids substrate uid)
    {hotkeys hotkeys' : List String} (h : hotkeys.Perm hotkeys') (hn : hotkeys.Nodup) :
    Agree (SamePublished epochId) (fun m m' => m.hotkeyToUid = m'.hotkeyToUid)
      (mapHotkeys env substrate chain hotkeys) (mapHotkeys env substrate chain hotkeys') := by
  have hkeys : ∀ l : List String, l.Nodup → (Dict.keys (uidsOf uid l)).Nodup := by
    intro l hl
    rw [keys_uidsOf]
    exact hl.filter _
  have hmapping : Dict.SameItems (uidsOf uid hotkeys) (uidsOf uid hotkeys') :=
    ⟨h.filterMap _, hkeys _ hn⟩
  refine (agree_mapHotkeysLoop huid h.length_eq [] [] [] []).bind fun r r' hr => ?_
  obtain ⟨mapping, dropped⟩ := r
  obtain ⟨mapping', dropped'⟩ := r'
  apply Agree.pure
  show Dict.sorted mapping = Dict.sorted mapping'
  rw [show mapping = _ from hr.1, show mapping' = _ from hr.2]
  have hpairs := Dict.ofPairs_of_nodup (hkeys _ hn)
  have hpairs' := Dict.ofPairs_of_nodup (hkeys _ (h.nodup_iff.mp hn))
  unfold Dict.ofPairs at hpairs hpairs'
  rw [hpairs, hpairs']
  exact hmapping.sorted

/-! ## the payload -/

theorem agree_buildPayload {weights weights' : Dict String ℚ}
    (hweights : Dict.SameItems weights weights') {mapping mapping' : HotkeyUidMapping}
    (hmapping : mapping.hotkeyToUid = mapping'.hotkeyToUid) (specVersion : Int) :
    Agree (SamePublished epochId) Eq
      (buildPayload env substrate A chain weights mapping specVersion)
      (buildPayload env substrate A chain weights' mapping' specVersion) := by
  have hmapped : mappedWeights weights mapping = mappedWeights weights' mapping' := by
    unfold mappedWeights
    rw [hmapping]
    congr 1
    apply List.map_congr_left
    intro p _
    rw [hweights.getD]
  unfold buildPayload
  rw [hmapped]
  refine Agree.bind_eq ?_ fun r => Agree.pure rfl
  exact Agree.ite Iff.rfl (Agree.pure rfl) (agree_connect.bind_eq fun _ => agree_read _)

end

/-! ## the records -/

/-- the same call with the hotkeys in another order -/
structure SameSubject (s s' : ReceiptSubject) : Prop where
  epochId : s.epochId = s'.epochId
  weights : Dict.SameItems s.weights s'.weights
  activeHotkeys : s.activeHotkeys.Perm s'.activeHotkeys
  nodup : s.activeHotkeys.Nodup
  specVersion : s.specVersion = s'.specVersion

/-- the same parts of a receipt, the mappings up to the dropped hotkeys -/
structure SameDetail (d d' : ReceiptDetail) : Prop where
  state : d.state = d'.state
  mapping : d.mapping.map (·.hotkeyToUid) = d'.mapping.map (·.hotkeyToUid)
  payload : d.payload = d'.payload
  submission : d.submission = d'.submission
  readBack : d.readBack = d'.readBack
  extra : d.extra = d'.extra

namespace SameDetail

theorem refl (d : ReceiptDetail) : SameDetail d d := ⟨rfl, rfl, rfl, rfl, rfl, rfl⟩

theorem of_mapping (d : ReceiptDetail) {m m' : HotkeyUidMapping}
    (h : m.hotkeyToUid = m'.hotkeyToUid) :
    SameDetail { d with mapping := some m } { d with mapping := some m' } :=
  ⟨rfl, congrArg some h, rfl, rfl, rfl, rfl⟩

end SameDetail

theorem get_of_other {key key' : String} (h : key ≠ key') (before after : Obj) (j j' : Json) :
    Obj.get (before ++ (key', j) :: after) key = Obj.get (before ++ (key', j') :: after) key := by
  induction before with
  | nil =>
    unfold Obj.get
    rw [List.nil_append, List.nil_append, Dict.get?_cons, Dict.get?_cons, if_neg h, if_neg h]
  | cons p before ih =>
    unfold Obj.get at ih ⊢
    rw [List.cons_append, List.cons_append, Dict.get?_cons, Dict.get?_cons]
    split
    · rfl
    · exact ih

section
variable {env : Env} {substrate : Substrate} {A : FloatOps} {chain : SubtensorChain}
  {s s' : ReceiptSubject} {d d' : ReceiptDetail}

theorem receiptRecord_get (h : SameSubject s s') (hd : SameDetail d d') (mode : ChainMode)
    (reason : String) {key : String} (hkey : key ≠ "dropped_hotkeys") :
    Obj.get (receiptRecord chain s mode reason d) key =
      Obj.get (receiptRecord chain s' mode reason d') key := by
  have hactive : s.activeHotkeys.insertionSort (· ≤ ·) = s'.activeHotkeys.insertionSort (· ≤ ·) :=
    Dict.insertionSort_eq_of_perm id h.activeHotkeys (by rw [List.map_id]; exact h.nodup)
  have hweights : ((s.activeHotkeys.insertionSort (· ≤ ·)).map fun hotkey =>
        (hotkey, Json.num (s.weights.getD hotkey 0))) =
      (s'.activeHotkeys.insertionSort (· ≤ ·)).map fun hotkey =>
        (hotkey, Json.num (s'.weights.getD hotkey 0)) := by
    rw [hactive]
    apply List.map_congr_left
    intro hotkey _
    rw [h.weights.getD]
  have hmapping : (d.mapping.getD ⟨[], s.activeHotkeys⟩).hotkeyToUid =
      (d'.mapping.getD ⟨[], s'.activeHotkeys⟩).hotkeyToUid := by
    have hmap := hd.mapping
    cases hm : d.mapping with
    | none =>
      rw [hm] at hmap
      rw [Option.map_eq_none_iff.mp hmap.symm]
      rfl
    | some m =>
      rw [hm] at hmap
      obtain ⟨m', hm', he⟩ := Option.map_eq_some_iff.mp hmap.symm
      rw [hm']
      exact he.symm
  unfold receiptRecord
  dsimp only
  rw [← h.epochId, ← h.specVersion, ← hd.state, ← hd.payload, ← hd.submission, ← hd.readBack,
    ← hd.extra, hweights, hmapping]
  -- the fields before the dropped hotkeys are the first nine
  exact get_of_other hkey [_, _, _, _, _, _, _, _, _] _ _ _

theorem sameReceipt_records (h : SameSubject s s') (hd : SameDetail d d') (mode : ChainMode)
    (reason : String) :
    SameReceipt (some (.doc (Json.canon (.obj (receiptRecord chain s mode reason d)))))
      (some (.doc (Json.canon (.obj (receiptRecord chain s' mode reason d'))))) := by
  refine .inr ⟨_, _, by rw [Json.canon_obj'], by rw [Json.canon_obj'], fun key hkey => ?_⟩
  rw [Obj.get_canon, Obj.get_canon, receiptRecord_get h hd mode reason hkey]

theorem agree_writeReceipt (h : SameSubject s s') (hd : SameDetail d d') (mode : ChainMode)
    (reason : String) :
    Agree (SamePublished s.epochId) Eq (writeReceipt env chain s mode reason d)
      (writeReceipt env chain s' mode reason d') := by
  unfold writeReceipt
  rw [← h.epochId, ← hd.payload]
  refine Agree.bind (clockAgree_samePublished.effectful (fun _ _ hw => hw.put ?_
    (sameReceipt_records h hd mode reason)) fun _ _ hw => hw) fun _ _ _ => Agree.pure rfl
  exact fun hne => (hne rfl).elim

theorem agree_writeAttempt (h : SameSubject s s') (status : AttemptStatus) (payload : ChainPayload)
    (submission : Option Obj) (receiptFile errorType : Option String) :
    Agree (SamePublished s.epochId) Eq
      (writeAttempt env chain s status payload submission receiptFile errorType)
      (writeAttempt env chain s' status payload submission receiptFile errorType) := by
  unfold writeAttempt attemptRecord
  rw [← h.epochId, ← h.specVersion]
  exact agree_atomicWriteJson _ _

/-! ## the live seam -/

theorem agree_ambiguousSubmission {α : Type} (h : SameSubject s s') (payload : ChainPayload)
    (submission : Option Obj) (exc : Exn) :
    Agree (SamePublished s.epochId) Eq
      (ambiguousSubmission env chain s payload submission exc : M α)
      (ambiguousSubmission env chain s' payload submission exc) := by
  unfold ambiguousSubmission
  rw [← h.epochId]
  exact (Agree.handle (agree_writeAttempt h _ _ _ _ _) fun _ => Agree.pure rfl).bind_eq fun _ =>
    Agree.raise _

theorem agree_invokeSetWeights (h : SameSubject s s') (payload : ChainPayload) :
    Agree (SamePublished s.epochId) Eq (invokeSetWeights env substrate chain s payload)
      (invokeSetWeights env substrate chain s' payload) := by
  unfold invokeSetWeights
  rw [← h.epochId, ← h.specVersion]
  refine agree_connect.bind_eq fun _ => Agree.bind (Agree.modify fun _ _ hw => hw.log _)
    fun _ _ _ => (agree_read _).bind_eq fun _ => Agree.pure rfl

theorem agree_confirmSubmission (h : SameSubject s s') (state : ChainState)
    {mapping mapping' : HotkeyUidMapping} (hmapping : mapping.hotkeyToUid = mapping'.hotkeyToUid)
    (payload : ChainPayload) (submission : Obj) :
    Agree (SamePublished s.epochId) Eq
      (confirmSubmission env substrate chain s state mapping payload submission)
      (confirmSubmission env substrate chain s' state mapping' payload submission) := by
  unfold confirmSubmission
  rw [← h.epochId]
  refine Agree.ite Iff.rfl (Agree.raise _) (agree_connect.bind_eq fun _ =>
    (agree_read _).bind_eq fun readBack => Agree.ite Iff.rfl (Agree.raise _)
      (Agree.ite Iff.rfl (Agree.raise _) ?_))
  have hdetail := SameDetail.of_mapping
    { state := some state, payload := some payload, submission := some submission, readBack }
    hmapping
  exact (agree_writeReceipt h hdetail _ _).bind_eq fun result =>
    (agree_writeAttempt h _ _ _ _ _).bind_eq fun _ => Agree.pure rfl

theorem agree_submitLive (h : SameSubject s s') (state : ChainState)
    {mapping mapping' : HotkeyUidMapping} (hmapping : mapping.hotkeyToUid = mapping'.hotkeyToUid)
    (payload : ChainPayload) :
    Agree (SamePublished s.epochId) Eq (submitLive env substrate chain s state mapping payload)
      (submitLive env substrate chain s' state mapping' payload) :=
  (Agree.handle (agree_invokeSetWeights h _) fun _ => agree_ambiguousSubmission h _ _ _).bind_eq
    fun _ => Agree.handle (agree_confirmSubmission h _ hmapping _ _) fun _ =>
      agree_ambiguousSubmission h _ _ _

/-! ## `apply_weights` -/

theorem agree_publishPayload (h : SameSubject s s') (state : ChainState)
    {mapping mapping' : HotkeyUidMapping} (hmapping : mapping.hotkeyToUid = mapping'.hotkeyToUid)
    (payload : ChainPayload) :
    Agree (SamePublished s.epochId) Eq (publishPayload env substrate chain s state mapping payload)
      (publishPayload env substrate chain s' state mapping' payload) := by
  have hdry := SameDetail.of_mapping { state := some state, payload := some payload } hmapping
  have hgates := SameDetail.of_mapping
    { state := some state, payload := some payload,
      extra := [("missing_gates", .arr ((missingExtrinsicGates env chain).map .str))] } hmapping
  refine Agree.ite Iff.rfl (agree_writeReceipt h hdry _ _)
    (Agree.ite Iff.rfl (agree_writeReceipt h hgates _ _) ?_)
  exact (agree_writeAttempt h _ _ _ _ _).bind_eq fun _ => agree_submitLive h _ hmapping _

theorem agree_publishReady {uid : String → Option Int} (huid : FixedUids substrate uid)
    (h : SameSubject s s') (state : ChainState) :
    Agree (SamePublished s.epochId) Eq (publishReady env substrate A chain s state)
      (publishReady env substrate A chain s' state) := by
  unfold publishReady
  split
  · exact agree_writeReceipt h (.refl _) _ _
  · refine (agree_mapHotkeys huid h.activeHotkeys h.nodup).bind fun mapping mapping' hmapping => ?_
    refine Agree.ite (by rw [hmapping]) ?_ ?_
    · exact agree_writeReceipt h (.of_mapping { state := some state } hmapping) _ _
    · rw [← h.specVersion]
      exact (agree_buildPayload h.weights hmapping _).bind_eq fun payload =>
        agree_publishPayload h _ hmapping _

theorem agree_applyWeights {uid : String → Option Int} (huid : FixedUids substrate uid)
    (h : SameSubject s s') (client : ChainClient) (fallbackReason : String) :
    Agree (SamePublished s.epochId) Eq (client.applyWeights env substrate A s fallbackReason)
      (client.applyWeights env substrate A s' fallbackReason) := by
  cases client with
  | null => exact Agree.pure rfl
  | subtensor chain =>
    have hzero : s.weights.values.all (· = 0) = s'.weights.values.all (· = 0) := by
      rw [Bool.eq_iff_iff, List.all_eq_true, List.all_eq_true]
      have hmem := fun q => (Dict.values_perm h.weights.perm).mem_iff (a := q)
      exact ⟨fun hs q hq => hs q ((hmem q).mpr hq), fun hs q hq => hs q ((hmem q).mp hq)⟩
    refine Agree.ite (by rw [hzero]) (agree_writeReceipt h (.refl _) _ _)
      (Agree.ite Iff.rfl (agree_writeReceipt h (.refl _) _ _) ?_)
    refine agree_readinessState.bind_eq fun readiness => ?_
    cases readiness with
    | error exc => exact agree_writeReceipt h (.refl _) _ _
    | ok state => exact agree_publishReady huid h state

end

end Dolores
