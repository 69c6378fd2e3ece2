import Dolores.Lib.Except
import Dolores.Chain.Frame

/-!
# The outcome of `apply_weights` before the signing seam

Everything before `set_weights` is a fixed sequence of reads of the substrate, so the exact
condition under which it ends in a receipt is one on the answers to those reads, numbered from
the clock at which `apply_weights` starts.

* `ChainReady`           the answers with which the readiness checks pass;
* `registered`           the mapping that the answers of `map_hotkeys` give;
* `PreSeamAnswers`       the readiness checks do not pass, or the later reads do not raise;
* `wp_applyWeights`      the outcome is definite exactly then.
-/

set_option linter.unusedSectionVars false

namespace Dolores
open Crash Except

/-- a method raises only what `except Exception` catches -/
abbrev RaisesExceptions {α : Type} (x : Except Exn α) : Prop :=
  OnlyRaises (fun e : Exn => e.isException = true) x

structure Substrate.Catchable (substrate : Substrate) : Prop where
  connect : ∀ n, RaisesExceptions (substrate.connect n)
  block : ∀ n, RaisesExceptions (substrate.block n)
  subnetExists : ∀ n, RaisesExceptions (substrate.subnetExists n)
  validatorHotkey : ∀ n, RaisesExceptions (substrate.validatorHotkey n)
  hotkeyUid : ∀ n hotkey, RaisesExceptions (substrate.hotkeyUid n hotkey)
  validatorPermit : ∀ n uid, RaisesExceptions (substrate.validatorPermit n uid)
  weightsRateLimit : ∀ n, RaisesExceptions (substrate.weightsRateLimit n)
  blocksSinceLastUpdate : ∀ n uid, RaisesExceptions (substrate.blocksSinceLastUpdate n uid)
  commitRevealEnabled : ∀ n, RaisesExceptions (substrate.commitRevealEnabled n)

/-- only reads have happened -/
structure OnlyReads (w w' : World) : Prop where
  files : w'.files = w.files
  trace : w'.trace = w.trace

instance : IsPreorder World OnlyReads where
  refl _ := ⟨rfl, rfl⟩
  trans _ _ _ h h' := ⟨h'.files.trans h.files, h'.trace.trans h.trace⟩

/-! ## the conditions on the answers -/

section
variable (substrate : Substrate) (chain : SubtensorChain)

/-- the number of the first read after the substrate is there -/
def firstRead (w : World) : Nat := if w.connected then w.clock else w.clock + 1

def Connects (w : World) : Prop := w.connected = true ∨ substrate.connect w.clock = .ok ()

/-- the four reads about the registered validator, from read `c` on, pass the checks -/
structure ValidatorReady (c : Nat) (uid : Int) : Prop where
  permit : substrate.validatorPermit c uid = .ok true
  rate : ∃ limit since, substrate.weightsRateLimit (c + 1) = .ok limit ∧
    substrate.blocksSinceLastUpdate (c + 2) uid = .ok since ∧ ∀ n, since = some n → limit ≤ n
  commitReveal : ∃ enabled, substrate.commitRevealEnabled (c + 3) = .ok (some enabled) ∧
    (enabled = true → chain.allowCommitReveal = true)

/-- the nine reads of the readiness state, from read `c` on, pass the checks -/
structure ChainReady (c : Nat) : Prop where
  block : ∃ b, substrate.block c = .ok b
  subnet : substrate.subnetExists (c + 1) = .ok true
  hotkey : ∃ h, substrate.validatorHotkey (c + 2) = .ok h
  validator : ∃ h uid, substrate.validatorHotkey (c + 3) = .ok h ∧
    substrate.hotkeyUid (c + 4) h = .ok (some uid) ∧ ValidatorReady substrate chain (c + 5) uid

/-- every hotkey's uid can be read, from read `c` on -/
def MappingAnswers (c : Nat) : List String → Prop
  | [] => True
  | hotkey :: hotkeys => (∃ uid, substrate.hotkeyUid c hotkey = .ok uid) ∧
      MappingAnswers (c + 1) hotkeys

/-- the mapping and the dropped hotkeys that the answers give -/
def registered (c : Nat) : List String → Dict String Int → List String →
    Dict String Int × List String
  | [], mapping, dropped => (mapping, dropped)
  | hotkey :: hotkeys, mapping, dropped =>
    match substrate.hotkeyUid c hotkey with
    | .ok (some uid) => registered (c + 1) hotkeys (Dict.set mapping hotkey uid) dropped
    | _ => registered (c + 1) hotkeys mapping (dropped ++ [hotkey])

def registeredMapping (c : Nat) (activeHotkeys : List String) : HotkeyUidMapping :=
  let r := registered substrate c activeHotkeys [] []
  { hotkeyToUid := Dict.sorted r.1, droppedHotkeys := r.2 }

/-- the conversion of the payload answers at read `c`, if there is anything to convert -/
def ConversionAnswers (A : FloatOps) (weights : Dict String ℚ) (mapping : HotkeyUidMapping)
    (c : Nat) : Prop :=
  let mapped := mappedWeights weights mapping
  mapped = [] ∨ ∃ r, substrate.processAndConvert c (mapped.map (·.1))
    (mapped.map fun p => A.div p.2 (A.sum (mapped.map (·.2)))) = .ok r

/-- Either `apply_weights` is done before it has read the readiness of a ready chain, or every
later read answers. -/
def PreSeamAnswers (A : FloatOps) (s : ReceiptSubject) (fallbackReason : String) (w : World) :
    Prop :=
  (fallbackReason ∈ degenerateReasons ∨ s.weights.values.all (· = 0)) ∨ chain.netuid = none ∨
    ¬ (Connects substrate w ∧ ChainReady substrate chain (firstRead w)) ∨
    (MappingAnswers substrate (firstRead w + 9) s.activeHotkeys ∧
      let mapping := registeredMapping substrate (firstRead w + 9) s.activeHotkeys
      (mapping.hotkeyToUid = [] ∨ ConversionAnswers substrate A s.weights mapping
        (firstRead w + 9 + s.activeHotkeys.length)))

end

/-! ## the reads -/

section
variable {env : Env} {substrate : Substrate} {chain : SubtensorChain} {α : Type}

/-- read number `c` has happened -/
structure ReadTo (c : Nat) (w w' : World) : Prop where
  clock : w'.clock = c + 1
  connected : w'.connected = w.connected
  reads : OnlyReads w w'

theorem wp_read (hf : env.NoFaults) {answer : Nat → Except Exn α} {Q : Post World Exn α} {w : World}
    {c : Nat} (hclock : w.clock = c) (hok : ∀ a w', answer c = .ok a → ReadTo c w w' → Q.ok a w')
    (hraise : ∀ e w', answer c = .error e → ReadTo c w w' → Q.raise e w') :
    wp (external env answer) Q w := by
  subst hclock
  exact (wp_external_of_noFaults hf answer Q w).mpr
    ⟨fun a ha => hok a _ ha ⟨rfl, rfl, ⟨rfl, rfl⟩⟩,
      fun e he => hraise e _ he ⟨rfl, rfl, ⟨rfl, rfl⟩⟩⟩

/-- a read without which the chain is not ready: if it raises, nothing has changed -/
theorem wp_needed_read {β : Type} (hf : env.NoFaults) {answer : Nat → Except Exn α} {f : α → M β}
    {ok : β → World → Prop} {Ready : Prop} {w₀ w : World} {c : Nat} (hclock : w.clock = c)
    (hreads : OnlyReads w₀ w) (hcatch : ∀ e, answer c = .error e → e.isException = true)
    (hneeds : Ready → ∃ a, answer c = .ok a)
    (hnext : ∀ a w', answer c = .ok a → ReadTo c w w' → OnlyReads w₀ w' →
      wp (f a) ⟨ok, fun e w' => e.isException = true ∧ OnlyReads w₀ w' ∧ ¬ Ready,
        fun _ => False⟩ w') :
    wp (external env answer >>= f) ⟨ok, fun e w' => e.isException = true ∧ OnlyReads w₀ w' ∧
      ¬ Ready, fun _ => False⟩ w := by
  rw [wp_bind]
  apply wp_read hf hclock
  · intro a w' ha hr
    exact hnext a w' ha hr (trans_of OnlyReads hreads hr.reads)
  · intro e w' he hr
    refine ⟨hcatch e he, trans_of OnlyReads hreads hr.reads, ?_⟩
    intro hready
    obtain ⟨a, ha⟩ := hneeds hready
    exact nomatch ha.symm.trans he

variable (hf : env.NoFaults) (hc : substrate.Catchable) (hn : chain.netuid ≠ none)
include hf hn

theorem wp_connect_of_connected {Q : Post World Exn Unit} {w : World} (hw : w.connected = true)
    (h : Q.ok () w) : wp (connectSubstrate env substrate chain) Q w := by
  unfold connectSubstrate
  rw [wp_bind, wp_get]
  dsimp only
  rw [if_neg hn, if_pos hw]
  exact h

include hc

theorem wp_connect (w : World) : wp (connectSubstrate env substrate chain)
    ⟨fun _ w' => Connects substrate w ∧ w'.clock = firstRead w ∧ w'.connected = true ∧
        OnlyReads w w',
      fun e w' => e.isException = true ∧ ¬ Connects substrate w ∧ OnlyReads w w',
      fun _ => False⟩ w := by
  by_cases hw : w.connected = true
  · refine wp_connect_of_connected hf hn hw ⟨.inl hw, ?_, hw, refl_of OnlyReads w⟩
    exact (if_pos hw).symm
  · unfold connectSubstrate
    rw [wp_bind, wp_get]
    dsimp only
    rw [if_neg hn, if_neg hw, wp_bind]
    refine wp_read hf rfl (fun u w' hu hr => ?_) (fun e w' he hr => ?_)
    · refine ⟨.inr hu, ?_, rfl, ⟨hr.reads.files, hr.reads.trace⟩⟩
      show w'.clock = _
      rw [hr.clock]
      exact (if_neg hw).symm
    · refine ⟨hc.connect _ e he, ?_, hr.reads⟩
      rintro (h | h)
      · exact hw h
      · rw [h] at he
        exact nomatch he

end

/-! ## the readiness -/

section
variable {chain : SubtensorChain}

/-- what the readiness checks ask of the state -/
structure ReadyState (chain : SubtensorChain) (state : ChainState) : Prop where
  subnet : state.subnetExists = true
  validator : state.validatorUid ≠ none
  permit : state.validatorPermit = true
  rate : ∀ limit since, state.weightsRateLimit = some limit →
    state.blocksSinceLastUpdate = some since → limit ≤ since
  probe : state.commitRevealProbeFailed = false
  commitReveal : ∃ enabled, state.commitRevealEnabled = some enabled ∧
    (enabled = true → chain.allowCommitReveal = true)

theorem rateLimited_eq_false_iff (limit since : Option Int) :
    rateLimited limit since = false ↔ ∀ l s, limit = some l → since = some s → l ≤ s := by
  cases limit with
  | none => exact iff_of_true rfl (by rintro _ _ ⟨⟩)
  | some l =>
    cases since with
    | none => exact iff_of_true rfl (by rintro _ _ _ ⟨⟩)
    | some s =>
      show decide (s < l) = false ↔ _
      rw [decide_eq_false_iff_not, not_lt]
      exact ⟨by rintro h _ _ ⟨⟩ ⟨⟩; exact h, fun h => h l s rfl rfl⟩

theorem skipReason_eq_none_iff (state : ChainState) :
    readinessSkipReason chain state = none ↔ ReadyState chain state := by
  unfold readinessSkipReason
  constructor
  · intro h
    split at h
    · exact nomatch h
    next hsub =>
    split at h
    · exact nomatch h
    next huid =>
    split at h
    · exact nomatch h
    next hpermit =>
    split at h
    · exact nomatch h
    next hlimited =>
    split at h
    · exact nomatch h
    next e he =>
    split at h
    · exact nomatch h
    next hfailed =>
    split at h
    · exact nomatch h
    next hallow =>
    refine ⟨Bool.eq_true_of_not_eq_false hsub, huid, Bool.eq_true_of_not_eq_false hpermit,
      (rateLimited_eq_false_iff _ _).mp (Bool.eq_false_of_not_eq_true hlimited),
      Bool.eq_false_of_not_eq_true hfailed, e, he, ?_⟩
    rintro rfl
    simpa using hallow
  · rintro ⟨hsub, huid, hpermit, hrate, hfailed, e, he, hallow⟩
    have hlimited := (rateLimited_eq_false_iff _ _).mpr hrate
    rw [hsub, hpermit, hlimited, hfailed, he, if_neg (by decide), if_neg huid, if_neg (by decide),
      if_neg (by decide)]
    dsimp only
    rw [if_neg (by decide)]
    cases e with
    | false => rfl
    | true =>
      rw [hallow rfl]
      rfl

end

/-! ## preflight -/

section
variable {env : Env} {substrate : Substrate} {chain : SubtensorChain}
  (hf : env.NoFaults) (hc : substrate.Catchable)
include hf hc

variable (chain) in
/-- the probe returns with the other fields unchanged, and says whether the answer was definite -/
theorem wp_probeCommitReveal (record : ChainState) (w : World) :
    wp (probeCommitReveal env substrate record)
      (Post.returns fun state w' => OnlyReads w w' ∧ w'.clock = w.clock + 1 ∧
        w'.connected = w.connected ∧
        (ReadyState chain state ↔ ReadyState chain { record with
            commitRevealEnabled := state.commitRevealEnabled,
            commitRevealProbeFailed := state.commitRevealProbeFailed }) ∧
        ((∃ b, state.commitRevealEnabled = some b ∧
            state.commitRevealProbeFailed = record.commitRevealProbeFailed ∧
            substrate.commitRevealEnabled w.clock = .ok (some b)) ∨
          (state.commitRevealProbeFailed = true ∧
            ∀ b, substrate.commitRevealEnabled w.clock ≠ .ok (some b)))) w := by
  have hcongr : ∀ (x y : ChainState), x.subnetExists = y.subnetExists →
      x.validatorUid = y.validatorUid → x.validatorPermit = y.validatorPermit →
      x.weightsRateLimit = y.weightsRateLimit → x.blocksSinceLastUpdate = y.blocksSinceLastUpdate →
      x.commitRevealEnabled = y.commitRevealEnabled →
      x.commitRevealProbeFailed = y.commitRevealProbeFailed →
      (ReadyState chain x ↔ ReadyState chain y) := by
    intro x y h1 h2 h3 h4 h5 h6 h7
    constructor
    · rintro ⟨a, b, c, d, e, f⟩
      exact ⟨h1 ▸ a, h2 ▸ b, h3 ▸ c, h4 ▸ h5 ▸ d, h7 ▸ e, h6 ▸ f⟩
    · rintro ⟨a, b, c, d, e, f⟩
      exact ⟨h1 ▸ a, h2 ▸ b, h3 ▸ c, h4 ▸ h5 ▸ d, h7 ▸ e, h6 ▸ f⟩
  unfold probeCommitReveal
  rw [wp_handle, wp_bind]
  refine wp_read hf rfl (fun enabled w' he hr => ?_) (fun e w' he hr => ?_)
  · cases enabled with
    | none =>
      refine ⟨hr.reads, hr.clock, hr.connected, hcongr _ _ rfl rfl rfl rfl rfl rfl rfl,
        .inr ⟨rfl, fun b hb => ?_⟩⟩
      rw [he] at hb
      exact nomatch hb
    | some b =>
      exact ⟨hr.reads, hr.clock, hr.connected, hcongr _ _ rfl rfl rfl rfl rfl rfl rfl,
        .inl ⟨b, rfl, rfl, he⟩⟩
  · dsimp only
    rw [if_pos (hc.commitRevealEnabled _ e he)]
    refine ⟨hr.reads, hr.clock, hr.connected, hcongr _ _ rfl rfl rfl rfl rfl rfl rfl,
      .inr ⟨rfl, fun b hb => ?_⟩⟩
    rw [he] at hb
    exact nomatch hb

variable (chain) in
theorem wp_preflightRegistered (record : ChainState) (uid : Int) (w : World)
    (hrecord : record.subnetExists = true) (hprobe : record.commitRevealProbeFailed = false) :
    wp (preflightRegistered env substrate record uid)
      ⟨fun state w' => OnlyReads w w' ∧ w'.clock = w.clock + 4 ∧ w'.connected = w.connected ∧
          (ReadyState chain state ↔ ValidatorReady substrate chain w.clock uid),
        fun e w' => e.isException = true ∧ OnlyReads w w' ∧
          ¬ ValidatorReady substrate chain w.clock uid,
        fun _ => False⟩ w := by
  unfold preflightRegistered
  refine wp_needed_read hf rfl (refl_of OnlyReads w) (hc.validatorPermit _ _)
    (fun h => ⟨_, h.permit⟩) ?_
  intro permit w₁ hpermit r₁ h₁
  refine wp_needed_read hf r₁.clock h₁ (hc.weightsRateLimit _) ?_ ?_
  · intro h
    obtain ⟨limit, _, hlimit, _⟩ := h.rate
    exact ⟨limit, hlimit⟩
  intro limit w₂ hlimit r₂ h₂
  refine wp_needed_read hf r₂.clock h₂ (hc.blocksSinceLastUpdate _ _) ?_ ?_
  · intro h
    obtain ⟨_, since, _, hsince, _⟩ := h.rate
    exact ⟨since, hsince⟩
  intro since w₃ hsince r₃ h₃
  refine wp_mono (wp_probeCommitReveal chain hf hc _ _) ?_ (fun _ _ h => h.elim)
    (fun _ => id)
  rintro state w' ⟨hr, hclock, hcon, hready, hcr⟩
  rw [r₃.clock] at hclock hcr
  refine ⟨trans_of OnlyReads h₃ hr, hclock,
    hcon.trans (r₃.connected.trans (r₂.connected.trans r₁.connected)), hready.trans ?_⟩
  constructor
  · rintro ⟨_, _, hp, hrate, hfailed, b, hb, hallow⟩
    dsimp only at hp hrate hfailed hb
    refine ⟨by rw [← hp]; exact hpermit, ⟨limit, since, hlimit, hsince, ?_⟩, ?_⟩
    · intro n hn
      exact hrate limit n rfl hn
    · rcases hcr with ⟨b', hb', _, hanswer⟩ | ⟨hf', _⟩
      · rw [hb] at hb'
        refine ⟨b, ?_, hallow⟩
        rw [Option.some.inj hb']
        exact hanswer
      · rw [hf'] at hfailed
        exact (Bool.false_ne_true hfailed.symm).elim
  · rintro ⟨hp, ⟨l, s, hl, hs, hrate⟩, b, hb, hallow⟩
    have el : limit = l := Except.ok.inj (hlimit.symm.trans hl)
    have es : since = s := Except.ok.inj (hsince.symm.trans hs)
    have ep : permit = true := Except.ok.inj (hpermit.symm.trans hp)
    rcases hcr with ⟨b', hb', hfailed, hanswer⟩ | ⟨_, hnot⟩
    · have eb : b' = b := Option.some.inj (Except.ok.inj (hanswer.symm.trans hb))
      refine ⟨hrecord, Option.some_ne_none uid, ep, ?_, ?_, b, ?_, hallow⟩
      · rintro l' s' hl' hs'
        rw [← Option.some.inj hl', el]
        exact hrate s' (es ▸ hs')
      · rw [← hprobe]; exact hfailed
      · rw [← eb]; exact hb'
    · exact (hnot b hb).elim

variable (hn : chain.netuid ≠ none)
include hn

/-- `preflight` answers with a state that passes the checks exactly when the chain is ready -/
theorem wp_preflight (w : World) : wp (preflight env substrate chain)
    ⟨fun state w' => OnlyReads w w' ∧
        (ReadyState chain state ↔
          Connects substrate w ∧ ChainReady substrate chain (firstRead w)) ∧
        (ReadyState chain state → w'.clock = firstRead w + 9 ∧ w'.connected = true),
      fun e w' => e.isException = true ∧ OnlyReads w w' ∧
        ¬ (Connects substrate w ∧ ChainReady substrate chain (firstRead w)),
      fun _ => False⟩ w := by
  unfold preflight
  rw [wp_bind]
  refine wp_mono (wp_connect hf hc hn w) ?_ ?_ (fun _ => id)
  swap
  · rintro e w' ⟨he, hnot, hr⟩
    exact ⟨he, hr, fun h => hnot h.1⟩
  rintro _ w₀ ⟨hcon, c₀, hw₀, h₀⟩
  generalize firstRead w = c at c₀
  refine wp_needed_read hf c₀ h₀ (hc.block _) (fun h => h.2.block) ?_
  intro block w₁ hblock r₁ h₁
  refine wp_needed_read hf r₁.clock h₁ (hc.subnetExists _) (fun h => ⟨_, h.2.subnet⟩) ?_
  intro subnetExists w₂ hsubnet r₂ h₂
  refine wp_needed_read hf r₂.clock h₂ (hc.validatorHotkey _) (fun h => h.2.hotkey) ?_
  intro validatorHotkey w₃ hhotkey r₃ h₃
  dsimp only
  have hnot : ∀ {state : ChainState} {P : Prop}, ¬ ReadyState chain state →
      ¬ ChainReady substrate chain c →
      (ReadyState chain state ↔ Connects substrate w ∧ ChainReady substrate chain c) ∧
        (ReadyState chain state → P) :=
    fun hs hr => ⟨iff_of_false hs fun h => hr h.2, fun h => (hs h).elim⟩
  cases subnetExists with
  | false =>
    rw [if_pos rfl]
    refine ⟨h₃, hnot (fun h => Bool.false_ne_true h.subnet) fun h => ?_⟩
    exact nomatch Except.ok.inj (h.subnet.symm.trans hsubnet)
  | true =>
    rw [if_neg (by decide)]
    refine wp_needed_read hf r₃.clock h₃ (hc.validatorHotkey _) ?_ ?_
    · intro hready
      obtain ⟨h, _, hh, _⟩ := hready.2.validator
      exact ⟨h, hh⟩
    intro h w₄ hh r₄ h₄
    have hvh : ∀ h', substrate.validatorHotkey (c + 3) = .ok h' → h' = h :=
      fun h' hh' => Except.ok.inj (hh'.symm.trans hh)
    refine wp_needed_read hf r₄.clock h₄ (hc.hotkeyUid _ _) ?_ ?_
    · intro hready
      obtain ⟨h', uid, hh', huid, _⟩ := hready.2.validator
      rw [hvh h' hh'] at huid
      exact ⟨_, huid⟩
    intro uid w₅ huid r₅ h₅
    cases uid with
    | none =>
      refine ⟨h₅, hnot (fun hs => hs.validator rfl) fun hr => ?_⟩
      obtain ⟨h', uid, hh', huid', _⟩ := hr.validator
      rw [hvh h' hh'] at huid'
      exact nomatch Except.ok.inj (huid'.symm.trans huid)
    | some uid =>
      have hvalidator : ChainReady substrate chain c →
          ValidatorReady substrate chain (c + 5) uid := by
        intro hr
        obtain ⟨h', uid', hh', huid', hv⟩ := hr.validator
        rw [hvh h' hh'] at huid'
        have e'' : uid' = uid := Option.some.inj (Except.ok.inj (huid'.symm.trans huid))
        rw [← e'']
        exact hv
      refine wp_mono (wp_preflightRegistered chain hf hc _ uid _ rfl rfl) ?_ ?_
        (fun _ => id)
      · rintro state w' ⟨hr', hclock', hcon', hready⟩
        rw [r₅.clock] at hclock' hready
        refine ⟨trans_of OnlyReads h₅ hr', hready.trans ?_, fun _ => ⟨hclock', ?_⟩⟩
        · exact ⟨fun hv => ⟨hcon, ⟨⟨block, hblock⟩, hsubnet, ⟨validatorHotkey, hhotkey⟩, h, uid, hh,
            huid, hv⟩⟩, fun hr => hvalidator hr.2⟩
        · rw [hcon', r₅.connected, r₄.connected, r₃.connected, r₂.connected, r₁.connected, hw₀]
      · rintro e w' ⟨he, hr', hv⟩
        rw [r₅.clock] at hv
        exact ⟨he, trans_of OnlyReads h₅ hr', fun hr => hv (hvalidator hr.2)⟩

/-- the readiness is read, and what keeps it from being read is caught -/
theorem wp_readinessState (w : World) : wp (readinessState env substrate chain)
    ⟨fun readiness w' => OnlyReads w w' ∧
        ((∃ state, readiness = .ok state ∧ ReadyState chain state ∧ w'.clock = firstRead w + 9 ∧
            w'.connected = true ∧ Connects substrate w ∧
            ChainReady substrate chain (firstRead w)) ∨
          ((∀ state, readiness = .ok state → ¬ ReadyState chain state) ∧
            ¬ (Connects substrate w ∧ ChainReady substrate chain (firstRead w)))),
      fun _ _ => False, fun _ => False⟩ w := by
  unfold readinessState
  rw [wp_handle, wp_bind]
  refine wp_mono (wp_preflight hf hc hn w) ?_ ?_ (fun _ => id)
  · rintro state w' ⟨hr, hiff, hready⟩
    refine ⟨hr, ?_⟩
    by_cases hs : ReadyState chain state
    · obtain ⟨hclock, hcon⟩ := hready hs
      exact .inl ⟨state, rfl, hs, hclock, hcon, hiff.mp hs⟩
    · refine .inr ⟨?_, fun h => hs (hiff.mpr h)⟩
      intro state' h'
      rw [← Except.ok.inj h']
      exact hs
  · rintro e w' ⟨he, hr, hnot⟩
    dsimp only
    rw [if_pos he]
    exact ⟨hr, .inr ⟨fun _ h => (nomatch h), hnot⟩⟩

end

/-! ## the mapping and the payload -/

section
variable {env : Env} {substrate : Substrate} {A : FloatOps} {chain : SubtensorChain}
  (hf : env.NoFaults) (hn : chain.netuid ≠ none)
include hf hn

/-- the loop returns the mapping of the answers exactly when all of them are answers -/
theorem wp_mapHotkeysLoop (hotkeys : List String) (mapping : Dict String Int)
    (dropped : List String) (w : World) (hw : w.connected = true) :
    wp (mapHotkeysLoop env substrate chain hotkeys mapping dropped)
      ⟨fun r w' => MappingAnswers substrate w.clock hotkeys ∧
          r = registered substrate w.clock hotkeys mapping dropped ∧
          w'.clock = w.clock + hotkeys.length ∧ w'.connected = true ∧ OnlyReads w w',
        fun _ w' => ¬ MappingAnswers substrate w.clock hotkeys ∧ OnlyReads w w',
        fun _ => False⟩ w := by
  induction hotkeys generalizing mapping dropped w with
  | nil => exact ⟨trivial, rfl, rfl, hw, refl_of OnlyReads w⟩
  | cons hotkey hotkeys ih =>
    unfold mapHotkeysLoop
    rw [wp_bind]
    refine wp_connect_of_connected hf hn hw ?_
    dsimp only
    rw [wp_bind]
    refine wp_read hf rfl (fun uid w' huid hr => ?_) (fun e w' he hr => ?_)
    swap
    · refine ⟨fun h => ?_, hr.reads⟩
      obtain ⟨uid, huid⟩ := h.1
      exact nomatch huid.symm.trans he
    have hw' : w'.connected = true := hr.connected.trans hw
    have hmono : ∀ mapping' dropped',
        registered substrate (w.clock + 1) hotkeys mapping' dropped' =
          registered substrate w.clock (hotkey :: hotkeys) mapping dropped →
        wp (mapHotkeysLoop env substrate chain hotkeys mapping' dropped')
          ⟨fun r w'' => MappingAnswers substrate w.clock (hotkey :: hotkeys) ∧
              r = registered substrate w.clock (hotkey :: hotkeys) mapping dropped ∧
              w''.clock = w.clock + (hotkey :: hotkeys).length ∧ w''.connected = true ∧
              OnlyReads w w'',
            fun _ w'' => ¬ MappingAnswers substrate w.clock (hotkey :: hotkeys) ∧ OnlyReads w w'',
            fun _ => False⟩ w' := by
      intro mapping' dropped' hreg
      have hrest := ih mapping' dropped' w' hw'
      rw [hr.clock] at hrest
      refine wp_mono hrest ?_ ?_ (fun _ => id)
      · rintro r w'' ⟨hanswers, hr', hclock, hcon, hreads⟩
        refine ⟨⟨⟨uid, huid⟩, hanswers⟩, hr'.trans hreg, ?_, hcon,
          trans_of OnlyReads hr.reads hreads⟩
        rw [hclock, List.length_cons]
        omega
      · rintro e w'' ⟨hnot, hreads⟩
        exact ⟨fun h => hnot h.2, trans_of OnlyReads hr.reads hreads⟩
    cases uid with
    | none =>
      refine hmono mapping (dropped ++ [hotkey]) ?_
      rw [registered, huid]
    | some uid =>
      refine hmono (Dict.set mapping hotkey uid) dropped ?_
      rw [registered, huid]

theorem wp_mapHotkeys (hotkeys : List String) (w : World) (hw : w.connected = true) :
    wp (mapHotkeys env substrate chain hotkeys)
      ⟨fun mapping w' => MappingAnswers substrate w.clock hotkeys ∧
          mapping = registeredMapping substrate w.clock hotkeys ∧
          w'.clock = w.clock + hotkeys.length ∧ w'.connected = true ∧ OnlyReads w w',
        fun _ w' => ¬ MappingAnswers substrate w.clock hotkeys ∧ OnlyReads w w',
        fun _ => False⟩ w := by
  unfold mapHotkeys
  rw [wp_bind]
  refine wp_mono (wp_mapHotkeysLoop hf hn hotkeys [] [] w hw) ?_ (fun _ _ => id) (fun _ => id)
  rintro r w' ⟨hanswers, rfl, hclock, hcon, hreads⟩
  exact ⟨hanswers, rfl, hclock, hcon, hreads⟩

theorem wp_buildPayload (weights : Dict String ℚ) (mapping : HotkeyUidMapping) (specVersion : Int)
    (w : World) (hw : w.connected = true) :
    wp (buildPayload env substrate A chain weights mapping specVersion)
      ⟨fun _ w' => ConversionAnswers substrate A weights mapping w.clock ∧
          w'.connected = true ∧ OnlyReads w w',
        fun _ w' => ¬ ConversionAnswers substrate A weights mapping w.clock ∧ OnlyReads w w',
        fun _ => False⟩ w := by
  unfold buildPayload
  dsimp only
  rw [wp_bind]
  refine wp_ite (fun hempty => ?_) (fun hempty => ?_)
  · exact ⟨.inl (List.isEmpty_iff.mp hempty), hw, refl_of OnlyReads w⟩
  · rw [wp_bind]
    refine wp_connect_of_connected hf hn hw ?_
    refine wp_read hf rfl (fun r w' hr hread => ?_) (fun e w' he hread => ?_)
    · exact ⟨.inr ⟨r, hr⟩, hread.connected.trans hw, hread.reads⟩
    · refine ⟨?_, hread.reads⟩
      rintro (h | ⟨r, hr⟩)
      · exact hempty (List.isEmpty_iff.mpr h)
      · exact nomatch hr.symm.trans he

end

/-! ## receipts and the seam -/

/-- the modes of an outcome that is known without the chain -/
def ChainMode.definite : ChainMode → Bool
  | .dryRun | .skipped | .error => true
  | _ => false

/-- the mode is definite, and the canonical receipt records the mode and the reason -/
def DefiniteResult (epochId : Int) (r : ChainWeightResult) (w : World) : Prop :=
  r.mode.definite = true ∧ ∃ reason record, r.reason = some reason ∧
    w.files (.epoch epochId .chainReceipt) = some (.doc (.obj record)) ∧
    Obj.get record "epoch_id" = .int epochId ∧ Obj.get record "mode" = .str r.mode.text ∧
    Obj.get record "reason" = .str reason

/-- `set_weights` has been invoked between the two states -/
def SeamCrossed (epochId : Int) (w w' : World) : Prop :=
  ∃ es uids weights versionKey, w'.trace = w.trace ++ es ∧
    Event.setWeights epochId uids weights versionKey ∈ es

/-- the only file that differs is the receipt of the epoch -/
def ReceiptFrame (epochId : Int) (w w' : World) : Prop :=
  ∀ p, p ≠ .epoch epochId .chainReceipt → w'.files p = w.files p

section
variable {env : Env} {substrate : Substrate} {A : FloatOps} {chain : SubtensorChain}

theorem receiptRecord_get_epochId (s : ReceiptSubject) (mode : ChainMode) (reason : String)
    (detail : ReceiptDetail) :
    Obj.get (receiptRecord chain s mode reason detail) "epoch_id" = .int s.epochId := rfl

theorem receiptRecord_get_mode (s : ReceiptSubject) (mode : ChainMode) (reason : String)
    (detail : ReceiptDetail) :
    Obj.get (receiptRecord chain s mode reason detail) "mode" = .str mode.text := rfl

theorem receiptRecord_get_reason (s : ReceiptSubject) (mode : ChainMode) (reason : String)
    (detail : ReceiptDetail) :
    Obj.get (receiptRecord chain s mode reason detail) "reason" = .str reason := rfl

theorem wp_writeReceipt (hf : env.NoFaults) (s : ReceiptSubject) {mode : ChainMode}
    (hmode : mode.definite = true) (reason : String) (detail : ReceiptDetail) (w : World) :
    wp (writeReceipt env chain s mode reason detail)
      (Post.returns fun r w' => DefiniteResult s.epochId r w' ∧ ReceiptFrame s.epochId w w') w := by
  unfold writeReceipt
  rw [wp_bind]
  unfold atomicWriteJson
  rw [wp_effectful_of_noFaults hf]
  have hcanon : ∀ key, Obj.get (receiptRecord chain s mode reason detail).canon key =
      (Obj.get (receiptRecord chain s mode reason detail) key).canon :=
    fun key => Obj.get_canon _ key
  refine ⟨⟨hmode, reason, (receiptRecord chain s mode reason detail).canon, rfl, ?_, ?_, ?_, ?_⟩, ?_⟩
  · rw [World.put_self, Json.canon_obj']
  · rw [hcanon, receiptRecord_get_epochId, Json.canon_int]
  · rw [hcanon, receiptRecord_get_mode, Json.canon_str]
  · rw [hcanon, receiptRecord_get_reason, Json.canon_str]
  · intro p hp
    rw [World.put_of_ne hp]
    rfl

/-- the events so far stay, in order, at the front -/
def Extends (w w' : World) : Prop := w.trace <+: w'.trace

instance : IsPreorder World Extends where
  refl _ := List.prefix_rfl
  trans _ _ _ := List.IsPrefix.trans

theorem extendsFrame (epochId : Int) : ChainFrame epochId Extends where
  clock _ := List.prefix_rfl
  connected _ := List.prefix_rfl
  receipt _ _ := List.prefix_append _ _
  attempt _ _ := List.prefix_append _ _
  setWeights _ _ _ _ := List.prefix_append _ _

/-- the live seam always invokes `set_weights` once the substrate is there -/
theorem wp_submitLive (hf : env.NoFaults) (hn : chain.netuid ≠ none) (s : ReceiptSubject)
    (state : ChainState) (mapping : HotkeyUidMapping) (payload : ChainPayload) (w : World)
    (hw : w.connected = true) :
    wp (submitLive env substrate chain s state mapping payload)
      (Post.always (SeamCrossed s.epochId w)) w := by
  have F : ChainFrame s.epochId Extends := extendsFrame s.epochId
  let call : Event := .setWeights s.epochId payload.uidsEmitted payload.weightsU16 s.specVersion
  have hcrossed : ∀ w', Extends (w.log call) w' → SeamCrossed s.epochId w w' := by
    rintro w' ⟨es, hes⟩
    refine ⟨call :: es, _, _, _, ?_, List.mem_cons_self⟩
    rw [← hes, World.log_trace, List.append_assoc]
    rfl
  have hrest : ∀ w', Extends (w.log call) w' → ∀ submission,
      wp (Proc.handle (confirmSubmission env substrate chain s state mapping payload submission)
        (ambiguousSubmission env chain s payload (some submission)))
        (Post.always (SeamCrossed s.epochId w)) w' := by
    intro w' hw' submission
    have hmoves : Moves Extends (Proc.handle
        (confirmSubmission env substrate chain s state mapping payload submission)
        (ambiguousSubmission env chain s payload (some submission))) :=
      Moves.handle (F.confirmSubmission _ _ _ _) fun _ => F.ambiguousSubmission _ _ _
    exact wp_mono (hmoves w') (fun _ w'' h => hcrossed w'' (trans_of Extends hw' h))
      (fun _ w'' h => hcrossed w'' (trans_of Extends hw' h))
      (fun w'' h => hcrossed w'' (trans_of Extends hw' h))
  unfold submitLive invokeSetWeights
  rw [wp_bind, wp_handle, wp_bind]
  refine wp_connect_of_connected hf hn hw ?_
  dsimp only
  rw [wp_bind, wp_logEvent]
  dsimp only
  rw [wp_bind, wp_external_of_noFaults hf]
  refine ⟨fun response _ => ?_, fun e _ => ?_⟩
  · have hlogged : Extends (w.log call) (w.log call).tickClock := List.prefix_rfl
    exact hrest _ hlogged (submissionFromResponse env.text response)
  refine wp_mono (F.ambiguousSubmission _ _ _ _) ?_ (fun _ w' h => hcrossed w' h)
    (fun w' h => hcrossed w' h)
  exact fun submission w' h => hrest w' h submission

end

/-! ## the outcome -/

section
variable {env : Env} {substrate : Substrate} {A : FloatOps} {chain : SubtensorChain}
  (hf : env.NoFaults)
include hf

/-- how a run of `apply_weights` ends when its reads answer as `answers` says -/
def PreSeamPost (answers : Prop) (epochId : Int) (w : World) : Post World Exn ChainWeightResult where
  ok r w' := answers ∧
    (SeamCrossed epochId w w' ∨ DefiniteResult epochId r w' ∧ ReceiptFrame epochId w w')
  raise _ w' := (answers ∧ SeamCrossed epochId w w') ∨ (¬ answers ∧ OnlyReads w w')
  killed w' := answers ∧ SeamCrossed epochId w w'

omit hf in
theorem SeamCrossed.of_extends {epochId : Int} {w w₁ w' : World} (h : Extends w w₁)
    (hc : SeamCrossed epochId w₁ w') : SeamCrossed epochId w w' := by
  obtain ⟨es₁, hes₁⟩ := h
  obtain ⟨es, uids, weights, versionKey, hes, hmem⟩ := hc
  refine ⟨es₁ ++ es, uids, weights, versionKey, ?_, List.mem_append_right _ hmem⟩
  rw [hes, ← hes₁, List.append_assoc]

omit hf in
theorem OnlyReads.frame {epochId : Int} {w w₁ w' : World} (h : OnlyReads w w₁)
    (hr : ReceiptFrame epochId w₁ w') : ReceiptFrame epochId w w' := fun p hp => by
  rw [hr p hp, h.files]

theorem wp_receipt_definite {answers : Prop} (ha : answers) (s : ReceiptSubject) {mode : ChainMode}
    (hmode : mode.definite = true) (reason : String) (detail : ReceiptDetail) {w w₁ : World}
    (hr : OnlyReads w w₁) :
    wp (writeReceipt env chain s mode reason detail) (PreSeamPost answers s.epochId w) w₁ :=
  wp_mono (wp_writeReceipt hf s hmode reason detail w₁)
    (fun _ _ h => ⟨ha, .inr ⟨h.1, hr.frame h.2⟩⟩) (fun _ _ h => h.elim) (fun _ h => h.elim)

theorem wp_publishPayload (hn : chain.netuid ≠ none) {answers : Prop} (ha : answers)
    (s : ReceiptSubject) (state : ChainState) (mapping : HotkeyUidMapping) (payload : ChainPayload)
    {w w₁ : World} (hr : OnlyReads w w₁) (hw : w₁.connected = true) :
    wp (publishPayload env substrate chain s state mapping payload)
      (PreSeamPost answers s.epochId w) w₁ := by
  unfold publishPayload
  dsimp only
  refine wp_ite (fun _ => ?_) (fun _ => wp_ite (fun _ => ?_) (fun _ => ?_))
  · exact wp_receipt_definite hf ha s rfl _ _ hr
  · exact wp_receipt_definite hf ha s rfl _ _ hr
  · unfold writeAttempt atomicWriteJson
    rw [wp_bind, wp_effectful_of_noFaults hf]
    have hext : Extends w (World.put (.epoch s.epochId .chainAttempt)
        (.doc (Json.canon (.obj (attemptRecord chain s .started payload none none none))))
        w₁.tickClock) := by
      show w.trace <+: w₁.trace ++ _
      rw [hr.trace]
      exact List.prefix_append _ _
    have hcrossed : ∀ w', SeamCrossed s.epochId _ w' → SeamCrossed s.epochId w w' :=
      fun _ => SeamCrossed.of_extends hext
    refine wp_mono (wp_submitLive hf hn s state mapping payload _ hw) ?_ ?_ ?_
    · exact fun _ w' h => ⟨ha, .inl (hcrossed w' h)⟩
    · exact fun _ w' h => .inl ⟨ha, hcrossed w' h⟩
    · exact fun w' h => ⟨ha, hcrossed w' h⟩

variable (hc : substrate.Catchable)
include hc

/-- every run ends with a definite result, has crossed the seam, or stopped at a read that
raised outside the handler -/
theorem wp_applyWeights (s : ReceiptSubject) (fallbackReason : String) (w : World) :
    wp (chain.applyWeights env substrate A s fallbackReason)
      (PreSeamPost (PreSeamAnswers substrate chain A s fallbackReason w) s.epochId w) w := by
  have hrefl : OnlyReads w w := refl_of OnlyReads w
  unfold SubtensorChain.applyWeights
  refine wp_ite (fun hdegenerate => ?_) (fun _ => wp_ite (fun hn => ?_) (fun hn => ?_))
  · exact wp_receipt_definite hf (.inl hdegenerate) s rfl _ _ hrefl
  · exact wp_receipt_definite hf (.inr (.inl hn)) s rfl _ _ hrefl
  rw [wp_bind]
  refine wp_mono (wp_readinessState hf hc hn w) ?_ (fun _ _ h => h.elim) (fun _ h => h.elim)
  rintro readiness w₁ ⟨hr, ⟨state, rfl, hstate, hclock, hcon, hconnects, hready⟩ | ⟨hstate, hnot⟩⟩
  · show wp (publishReady env substrate A chain s state) _ w₁
    unfold publishReady
    rw [(skipReason_eq_none_iff state).mpr hstate]
    dsimp only
    rw [wp_bind]
    refine wp_mono (wp_mapHotkeys hf hn s.activeHotkeys w₁ hcon) ?_ ?_ (fun _ h => h.elim)
    all_goals rw [hclock]
    swap
    · rintro e w₂ ⟨hmapping, hr'⟩
      refine .inr ⟨?_, trans_of OnlyReads hr hr'⟩
      rintro (h | h | h | h)
      · rename_i hdegenerate
        exact hdegenerate h
      · exact hn h
      · exact h ⟨hconnects, hready⟩
      · exact hmapping h.1
    rintro mapping w₂ ⟨hanswers, rfl, hclock', hcon', hr'⟩
    have hr₂ : OnlyReads w w₂ := trans_of OnlyReads hr hr'
    dsimp only
    refine wp_ite (fun hempty => ?_) (fun hempty => ?_)
    · exact wp_receipt_definite hf
        (.inr (.inr (.inr ⟨hanswers, .inl (List.isEmpty_iff.mp hempty)⟩))) s rfl _ _ hr₂
    rw [wp_bind]
    refine wp_mono (wp_buildPayload hf hn s.weights _ s.specVersion w₂ hcon') ?_ ?_
      (fun _ h => h.elim)
    all_goals rw [hclock']
    · rintro payload w₃ ⟨hconversion, hcon₃, hr''⟩
      exact wp_publishPayload hf hn (.inr (.inr (.inr ⟨hanswers, .inr hconversion⟩))) s state _
        payload (trans_of OnlyReads hr₂ hr'') hcon₃
    · rintro e w₃ ⟨hconversion, hr''⟩
      refine .inr ⟨?_, trans_of OnlyReads hr₂ hr''⟩
      rintro (h | h | h | ⟨_, h | h⟩)
      · rename_i hdegenerate
        exact hdegenerate h
      · exact hn h
      · exact h ⟨hconnects, hready⟩
      · exact hempty (List.isEmpty_iff.mpr h)
      · exact hconversion h
  · have ha : PreSeamAnswers substrate chain A s fallbackReason w := .inr (.inr (.inl hnot))
    cases readiness with
    | error exc => exact wp_receipt_definite hf ha s rfl _ _ hr
    | ok state =>
      show wp (publishReady env substrate A chain s state) _ w₁
      unfold publishReady
      cases hskip : readinessSkipReason chain state with
      | none => exact (hstate state rfl ((skipReason_eq_none_iff state).mp hskip)).elim
      | some reason =>
        refine wp_receipt_definite hf ha s ?_ _ _ hr
        split <;> rfl

end

end Dolores
