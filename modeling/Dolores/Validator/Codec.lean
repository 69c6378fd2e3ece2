import Dolores.Panel.CacheFile
import Dolores.Validator.Durable

/-!
# The bytes of the state file (`validator_state.py`)

`readStateFile` is `ValidatorStateStore.read` on the bytes of `state.json`, `writtenBytes` what
`_write` puts there.

* `stateOf_raw`              the world's `stateOf` reads raw bytes in the same way;
* `readStateFile_written`    a state that was written is read back;
* `convertible_fields_iff`   `from_dict` turns every exception of its conversions into a
                             corruption, unless it reaches an infinite number;
* `state_codec_iff`          the round trip, and when a read ends in a valid state or a corruption.
-/

namespace Dolores
open Crash Except JsonText
open CacheFile (universalNewlines universalNewlines_eq)

/-! ## reading and writing -/

/-- `path.read_text(encoding="utf-8")` -/
def readText (raw : Bytes) : Except Exn (List Char) :=
  match decodeUtf8 raw with
  | none => .error (.unicodeDecodeError "invalid utf-8")
  | some cs => .ok (universalNewlines cs)

section
variable (limits : List Char → Option JsonRefusal) (T : PyText)

/-- the handler of `read`, and what comes after it -/
def stateOfParsed (parsed : Except Exn Json) : Except Exn ValidatorRuntimeState :=
  match parsed with
  | .error (.osError msg) => corrupted ("cannot read validator state: " ++ msg)
  | .error (.jsonDecodeError msg) => corrupted ("cannot read validator state: " ++ msg)
  | .error exc => .error exc
  | .ok (.obj payload) => ValidatorRuntimeState.fromDict T payload
  | .ok _ => corrupted "validator state must be a JSON object"

/-- `ValidatorStateStore.read` -/
def readStateFile (file : Option Bytes) : Except Exn ValidatorRuntimeState :=
  match file with
  | none => .ok {}
  | some raw => stateOfParsed T (readText raw >>= loadJson limits T)

/-- `_write`: the bytes that `atomic_write_json` publishes -/
def writtenBytes (state : ValidatorRuntimeState) : Except Exn Bytes := do
  state.validate
  let text := document T (.obj state.toDict)
  match limits text with
  | some refusal => .error refusal.exn
  | none => .ok (encodeUtf8 text)

end

/-- `json.loads(bytes.decode("utf-8"))`, for a world whose files are bytes -/
def decodeJson (T : PyText) (raw : Bytes) : Decoded :=
  match decodeUtf8 raw with
  | none => .badUtf8
  | some cs =>
    match loads T (universalNewlines cs) with
    | none => .badJson
    | some j => .value j

theorem stateOf_raw {env : Env} (h : ∀ raw, env.decode raw = decodeJson env.text raw)
    (file : Option Bytes) :
    stateOf env (file.map .raw) = readStateFile (fun _ => none) env.text file := by
  cases file with
  | none => rfl
  | some raw =>
    unfold stateOf readStateFile readText
    simp only [Option.map_some]
    rw [show Content.decoded env (.raw raw) = decodeJson env.text raw from h raw]
    unfold decodeJson
    cases decodeUtf8 raw with
    | none => rfl
    | some cs =>
      show _ = stateOfParsed env.text (loadJson (fun _ => none) env.text (universalNewlines cs))
      unfold loadJson
      dsimp only
      cases loads env.text (universalNewlines cs) with
      | none => rfl
      | some j => cases j <;> rfl

/-! ## equal values -/

mutual
/-- `a == b`: the order of the keys of a dict does not count -/
inductive Json.Same : Json → Json → Prop
  | refl (j : Json) : Same j j
  | arr {xs ys : List Json} (h : SameList xs ys) : Same (.arr xs) (.arr ys)
  | obj {fs fs' gs : Obj} (h : SameFields fs fs') (hperm : fs'.Perm gs) :
      Same (.obj fs) (.obj gs)

inductive Json.SameList : List Json → List Json → Prop
  | nil : SameList [] []
  | cons {x y : Json} {xs ys : List Json} (h : Same x y) (hs : SameList xs ys) :
      SameList (x :: xs) (y :: ys)

inductive Json.SameFields : List (String × Json) → List (String × Json) → Prop
  | nil : SameFields [] []
  | cons {x y : Json} {fs gs : List (String × Json)} (k : String) (h : Same x y)
      (hs : SameFields fs gs) : SameFields ((k, x) :: fs) ((k, y) :: gs)
end

mutual
theorem Json.same_canon (j : Json) : Json.Same j j.canon := by
  cases j with
  | null => rw [Json.canon_null]; exact .refl _
  | bool b => rw [Json.canon_bool]; exact .refl _
  | int i => rw [Json.canon_int]; exact .refl _
  | float x => rw [Json.canon_float]; exact .refl _
  | str s => rw [Json.canon_str]; exact .refl _
  | arr xs => rw [Json.canon]; exact .arr (Json.same_canonList xs)
  | obj fs =>
    rw [Json.canon_obj]
    exact .obj (Json.same_canonFields fs) (Dict.sorted_perm _).symm

theorem Json.same_canonList (xs : List Json) : Json.SameList xs (Json.canonList xs) := by
  cases xs with
  | nil => rw [Json.canonList]; exact .nil
  | cons x xs => rw [Json.canonList]; exact .cons (Json.same_canon x) (Json.same_canonList xs)

theorem Json.same_canonFields (fs : List (String × Json)) :
    Json.SameFields fs (Json.canonFields fs) := by
  cases fs with
  | nil => rw [Json.canonFields]; exact .nil
  | cons p fs =>
    obtain ⟨k, x⟩ := p
    rw [Json.canonFields]
    exact .cons k (Json.same_canon x) (Json.same_canonFields fs)
end

/-- `a == b` for receipts -/
def EqReceipt : Option Obj → Option Obj → Prop :=
  Option.Rel fun a b => Json.Same (.obj a) (.obj b)

theorem eqReceipt_canon (o : Option Obj) : EqReceipt o (o.map Obj.canon) := by
  cases o with
  | none => exact .none
  | some receipt =>
    have hsame := Json.same_canon (.obj receipt)
    rw [Json.canon_obj'] at hsame
    exact .some hsame

namespace ValidatorRuntimeState

/-- `s == t` -/
structure Same (s t : ValidatorRuntimeState) : Prop where
  fields : t = { s with
    lastReceipt := t.lastReceipt
    lastSuccessfulWeightReceipt := t.lastSuccessfulWeightReceipt }
  lastReceipt : EqReceipt s.lastReceipt t.lastReceipt
  lastSuccessfulWeightReceipt :
    EqReceipt s.lastSuccessfulWeightReceipt t.lastSuccessfulWeightReceipt

theorem same_canon (s : ValidatorRuntimeState) : s.Same s.canon where
  fields := rfl
  lastReceipt := eqReceipt_canon s.lastReceipt
  lastSuccessfulWeightReceipt := eqReceipt_canon s.lastSuccessfulWeightReceipt

/-- the receipts are JSON values: their keys are distinct, and their floats are read back -/
structure Printable (T : PyText) (s : ValidatorRuntimeState) : Prop where
  lastReceipt : ∀ receipt, s.lastReceipt = some receipt → JsonText.Printable T (.obj receipt)
  lastSuccessfulWeightReceipt : ∀ receipt, s.lastSuccessfulWeightReceipt = some receipt →
    JsonText.Printable T (.obj receipt)

/-! ## the round trip -/

section
variable {T : PyText} {s : ValidatorRuntimeState}

theorem printable_toDict (h : s.Printable T) : JsonText.Printable T (.obj s.toDict) := by
  have hkeys : (Dict.keys s.toDict).Nodup := by
    show ["version", "next_epoch_id", "active_epoch_id", "phase", "attempt",
      "last_completed_epoch", "last_failed_epoch", "last_error", "last_receipt",
      "last_successful_weight_receipt", "updated_at"].Nodup
    decide
  have hint : ∀ o : Option Int, JsonText.Printable T (Json.ofOption .int o) := fun o =>
    printable_ofOption fun i _ => printable_int i
  rw [JsonText.Printable]
  refine ⟨hkeys, printableFields_iff.mpr ?_⟩
  unfold toDict
  simp only [List.forall_mem_cons, List.not_mem_nil, false_implies, implies_true, and_true]
  exact ⟨printable_int _, printable_int _, hint _, printable_ofOption fun phase _ =>
    printable_str phase.text, printable_int _, hint _, hint _,
    printable_ofOption fun error _ => printable_str error,
    printable_ofOption h.lastReceipt, printable_ofOption h.lastSuccessfulWeightReceipt,
    printable_str _⟩

end

end ValidatorRuntimeState

section
variable {limits : List Char → Option JsonRefusal} {T : PyText} {s : ValidatorRuntimeState}

theorem readStateFile_some (raw : Bytes) : readStateFile limits T (some raw) =
    stateOfParsed T (readText raw >>= loadJson limits T) := rfl

theorem readText_encodeUtf8 {cs : List Char} (h : ∀ c ∈ cs, c.toNat ≠ 13) :
    readText (encodeUtf8 cs) = .ok cs := by
  unfold readText
  rw [decodeUtf8_encodeUtf8]
  dsimp only
  rw [universalNewlines_eq h]

/-- **A state that was written is read back, with the keys of its receipts sorted.** -/
theorem readStateFile_written {bytes : Bytes} (h : s.Printable T)
    (hwrite : writtenBytes limits T s = .ok bytes) :
    readStateFile limits T (some bytes) = .ok s.canon := by
  have hprint := ValidatorRuntimeState.printable_toDict h
  unfold writtenBytes at hwrite
  obtain ⟨_, hvalidate, hwrite⟩ := bind_ok hwrite
  dsimp only at hwrite
  cases hlimits : limits (document T (.obj s.toDict)) with
  | some refusal =>
    rw [hlimits] at hwrite
    exact nomatch hwrite
  | none =>
    rw [hlimits] at hwrite
    have hbytes : encodeUtf8 (document T (.obj s.toDict)) = bytes := Except.ok.inj hwrite
    have hparsed : loadJson limits T (document T (.obj s.toDict)) =
        .ok (Json.canon (.obj s.toDict)) := by
      unfold loadJson
      rw [hlimits, loads_document hprint]
    have hvalid := (ValidatorRuntimeState.validate_ok_iff s).mp hvalidate
    have hread := stateOf_written { Env.plain with text := T } hvalid
    rw [Json.canon_obj'] at hread hparsed
    rw [← hbytes, readStateFile_some, readText_encodeUtf8 (document_ne_return hprint), ok_bind,
      hparsed]
    exact hread

end

/-! ## what a read may raise -/

/-- a valid state or a corruption -/
def SoundRead : Except Exn ValidatorRuntimeState → Prop
  | .ok s => s.validate = .ok ()
  | .error (.stateCorruptionError _) => True
  | .error _ => False

/-- `from_dict` makes a state or a corruption of it -/
def Convertible {α : Type} : Except Exn α → Prop
  | .ok _ => True
  | .error (.typeError _) => True
  | .error (.valueError _) => True
  | .error (.stateCorruptionError _) => True
  | .error _ => False

def isInfinite : Json → Bool
  | .float .posInf => true
  | .float .negInf => true
  | _ => false

/-- the conversions of `from_dict`, in their order: whether the number is infinite, and whether the
value converts -/
def conversions (T : PyText) (payload : Obj) : List (Bool × Bool) :=
  let number (j : Json) := (isInfinite j, j.toInt.isOk)
  let optional (j : Json) := (isInfinite j, j.isNull || j.toInt.isOk)
  let phase := payload.get "phase"
  [number (getZero payload "version"), number (getZero payload "next_epoch_id"),
    optional (payload.get "active_epoch_id"),
    (false, phase.isNull || (ValidatorPhase.ofText (phase.pyStr T)).isSome),
    number (getZero payload "attempt"), optional (payload.get "last_completed_epoch"),
    optional (payload.get "last_failed_epoch")]

/-- an infinite number is converted, every value before it having been converted -/
def ReachesInfinity : List (Bool × Bool) → Prop
  | [] => False
  | (infinite, converts) :: rest =>
    infinite = true ∨ converts = true ∧ ReachesInfinity rest

/-- the content that `read` makes a state or a corruption of -/
def Decodable (limits : List Char → Option JsonRefusal) (T : PyText) (raw : Bytes) : Prop :=
  ∃ cs, decodeUtf8 raw = some cs ∧ limits (universalNewlines cs) = none ∧
    ∀ payload, loads T (universalNewlines cs) = some (.obj payload) →
      ¬ ReachesInfinity (conversions T payload)

section
variable {α β : Type} {x : Except Exn α} {f : α → Except Exn β}

theorem convertible_ok (a : α) : Convertible (.ok a) := trivial

theorem convertible_bind (hx : Convertible x) (hf : ∀ a, x = .ok a → Convertible (f a)) :
    Convertible (x >>= f) := by
  cases x with
  | ok a => exact hf a rfl
  | error e => cases e <;> first | exact trivial | exact hx.elim

theorem convertible_bind_iff {infinite converts : Bool} {rest : List (Bool × Bool)}
    (hx : Convertible x ↔ infinite = false) (hconverts : x.isOk = converts)
    (hf : ∀ a, x = .ok a → (Convertible (f a) ↔ ¬ ReachesInfinity rest)) :
    Convertible (x >>= f) ↔ ¬ ReachesInfinity ((infinite, converts) :: rest) := by
  rw [← hconverts]
  unfold ReachesInfinity
  cases x with
  | ok a =>
    have hinfinite : infinite = false := hx.mp trivial
    rw [hinfinite, ok_bind, hf a rfl]
    simp [Except.isOk, Except.toBool]
  | error e =>
    have hbind : Convertible ((.error e : Except Exn α) >>= f) ↔
        Convertible (.error e : Except Exn α) := by
      cases e <;> exact Iff.rfl
    rw [hbind, hx]
    simp [Except.isOk, Except.toBool]

theorem convertible_toInt_iff (j : Json) : Convertible j.toInt ↔ isInfinite j = false := by
  cases j with
  | null => exact iff_of_true trivial rfl
  | bool b => exact iff_of_true trivial rfl
  | int i => exact iff_of_true trivial rfl
  | float y => cases y <;> simp [Json.toInt, Convertible, isInfinite]
  | str s =>
    refine iff_of_true ?_ rfl
    unfold Json.toInt
    dsimp only
    split <;> exact trivial
  | arr xs => exact iff_of_true trivial rfl
  | obj fs => exact iff_of_true trivial rfl

theorem convertible_optionalInt_iff (j : Json) :
    Convertible (optionalInt j) ↔ isInfinite j = false := by
  have hbind : ∀ y : Except Exn Int,
      Convertible (y >>= fun i => Except.ok (some i)) ↔ Convertible y := by
    intro y
    cases y with
    | ok i => exact Iff.rfl
    | error e => cases e <;> exact Iff.rfl
  cases j with
  | null => exact iff_of_true trivial rfl
  | bool b => exact (hbind _).trans (convertible_toInt_iff _)
  | int i => exact (hbind _).trans (convertible_toInt_iff _)
  | float y => exact (hbind _).trans (convertible_toInt_iff _)
  | str s => exact (hbind _).trans (convertible_toInt_iff _)
  | arr xs => exact (hbind _).trans (convertible_toInt_iff _)
  | obj fs => exact (hbind _).trans (convertible_toInt_iff _)

theorem isOk_optionalInt (j : Json) : (optionalInt j).isOk = (j.isNull || j.toInt.isOk) := by
  have hbind : ∀ y : Except Exn Int, (y >>= fun i => Except.ok (some i)).isOk = y.isOk := by
    intro y
    cases y <;> rfl
  cases j with
  | null => rfl
  | bool b => exact hbind _
  | int i => exact hbind _
  | float y => exact hbind _
  | str s => exact hbind _
  | arr xs => exact hbind _
  | obj fs => exact hbind _

theorem isOk_optionalPhase (T : PyText) (j : Json) : (optionalPhase T j).isOk =
    (j.isNull || (ValidatorPhase.ofText (j.pyStr T)).isSome) := by
  unfold optionalPhase
  split
  · rfl
  · next h =>
    have hnull : j.isNull = false := by
      cases j <;> first | rfl | exact absurd rfl h
    rw [hnull, Bool.false_or]
    cases ValidatorPhase.ofText (j.pyStr T) <;> rfl

theorem convertible_optionalPhase (T : PyText) (j : Json) :
    Convertible (optionalPhase T j) := by
  unfold optionalPhase
  split
  · exact trivial
  · split <;> exact trivial

theorem convertible_optionalDict (j : Json) : Convertible (optionalDict j) := by
  unfold optionalDict
  split <;> exact trivial

end

theorem convertible_fields_iff (T : PyText) (payload : Obj) :
    Convertible (ValidatorRuntimeState.fields T payload) ↔
      ¬ ReachesInfinity (conversions T payload) := by
  unfold ValidatorRuntimeState.fields conversions
  refine convertible_bind_iff (convertible_toInt_iff _) rfl fun _ _ => ?_
  refine convertible_bind_iff (convertible_toInt_iff _) rfl fun _ _ => ?_
  refine convertible_bind_iff (convertible_optionalInt_iff _) (isOk_optionalInt _) fun _ _ => ?_
  refine convertible_bind_iff (iff_of_true (convertible_optionalPhase T _) rfl)
    (isOk_optionalPhase T _) fun _ _ => ?_
  refine convertible_bind_iff (convertible_toInt_iff _) rfl fun _ _ => ?_
  refine convertible_bind_iff (convertible_optionalInt_iff _) (isOk_optionalInt _) fun _ _ => ?_
  refine convertible_bind_iff (convertible_optionalInt_iff _) (isOk_optionalInt _) fun _ _ => ?_
  -- the receipts and the texts come last
  refine iff_of_true ?_ id
  refine convertible_bind (convertible_optionalDict _) fun _ _ => ?_
  exact convertible_bind (convertible_optionalDict _) fun _ _ => convertible_ok _

/-! ## whole reads -/

theorem corruption_validate (s : ValidatorRuntimeState) :
    OnlyRaises (fun e => ∃ msg, e = .stateCorruptionError msg) s.validate := by
  have hcorrupted : ∀ msg : String, OnlyRaises (fun e => ∃ msg, e = .stateCorruptionError msg)
      (corrupted msg : Except Exn Unit) := fun msg => OnlyRaises.error ⟨msg, rfl⟩
  unfold ValidatorRuntimeState.validate
  split
  · exact hcorrupted _
  split
  · exact hcorrupted _
  split
  · exact hcorrupted _
  split
  · exact hcorrupted _
  refine OnlyRaises.bind ?_ fun _ _ => ?_
  · split
    · exact OnlyRaises.ok ()
    · unfold ValidatorRuntimeState.validateActive
      split
      · exact hcorrupted _
      split
      · exact hcorrupted _
      · exact OnlyRaises.ok ()
  · split
    · exact hcorrupted _
    · exact OnlyRaises.ok ()

theorem soundRead_fromDict_iff (T : PyText) (payload : Obj) :
    SoundRead (ValidatorRuntimeState.fromDict T payload) ↔
      Convertible (ValidatorRuntimeState.fields T payload) := by
  unfold ValidatorRuntimeState.fromDict
  cases ValidatorRuntimeState.fields T payload with
  | error e => cases e <;> exact Iff.rfl
  | ok state =>
    refine iff_of_true ?_ trivial
    show SoundRead (state.validate >>= fun _ => Except.ok state)
    cases hvalidate : state.validate with
    | ok _ => exact hvalidate
    | error e =>
      obtain ⟨msg, hmsg⟩ := corruption_validate state e hvalidate
      rw [hmsg]
      trivial

theorem soundRead_iff (limits : List Char → Option JsonRefusal) (T : PyText) (raw : Bytes) :
    SoundRead (readStateFile limits T (some raw)) ↔ Decodable limits T raw := by
  rw [readStateFile_some]
  unfold readText Decodable
  cases decodeUtf8 raw with
  | none => exact iff_of_false id (by simp)
  | some cs =>
    simp only [Option.some.injEq, exists_eq_left', ok_bind]
    unfold loadJson
    cases limits (universalNewlines cs) with
    | some refusal => cases refusal <;> exact iff_of_false id (by simp)
    | none =>
      cases hloads : loads T (universalNewlines cs) with
      | none => exact iff_of_true trivial (by simp)
      | some j =>
        cases j with
        | obj payload =>
          simp only [Option.some.injEq, Json.obj.injEq, forall_eq', true_and]
          exact (soundRead_fromDict_iff T payload).trans (convertible_fields_iff T payload)
        | null => exact iff_of_true trivial (by simp)
        | bool b => exact iff_of_true trivial (by simp)
        | int i => exact iff_of_true trivial (by simp)
        | float x => exact iff_of_true trivial (by simp)
        | str s => exact iff_of_true trivial (by simp)
        | arr xs => exact iff_of_true trivial (by simp)

/-- what is written is read back; any other content is made a state or a corruption exactly when
it is decodable -/
theorem state_codec_iff (limits : List Char → Option JsonRefusal) (T : PyText) :
    (∀ (s : ValidatorRuntimeState) (bytes : Bytes), s.Printable T →
      writtenBytes limits T s = .ok bytes →
      ∃ t, readStateFile limits T (some bytes) = .ok t ∧ s.Same t) ∧
    ∀ raw : Bytes, SoundRead (readStateFile limits T (some raw)) ↔ Decodable limits T raw := by
  refine ⟨fun s bytes hprint hwrite => ?_, soundRead_iff limits T⟩
  exact ⟨s.canon, readStateFile_written hprint hwrite, s.same_canon⟩

/-- a state with a receipt, whose keys are not sorted -/
def codecState : ValidatorRuntimeState :=
  { nextEpochId := 2, lastReceipt := some [("mode", .str "dry_run"), ("epoch_id", .int 1)] }

theorem state_codec_sample : codecState.Printable Env.plain.text ∧
    ∃ bytes t, writtenBytes (fun _ => none) Env.plain.text codecState = .ok bytes ∧
      readStateFile (fun _ => none) Env.plain.text (some bytes) = .ok t ∧ codecState.Same t := by
  have hprint : codecState.Printable Env.plain.text := by
    refine ⟨fun receipt h => ?_, fun _ h => nomatch h⟩
    rw [← Option.some.inj h, JsonText.Printable]
    refine ⟨by decide, printableFields_iff.mpr ?_⟩
    simp only [List.forall_mem_cons, List.not_mem_nil, false_implies, implies_true, and_true]
    exact ⟨printable_str _, printable_int _⟩
  have hwrite : writtenBytes (fun _ => none) Env.plain.text codecState =
      .ok (encodeUtf8 (document Env.plain.text (.obj codecState.toDict))) := rfl
  obtain ⟨t, hread, hsame⟩ :=
    (state_codec_iff (fun _ => none) Env.plain.text).1 codecState _ hprint hwrite
  exact ⟨hprint, _, t, hwrite, hread, hsame⟩

/-- the byte `0xff` is no UTF-8, and the decoder's own exception leaves `read` -/
theorem invalid_utf8_escapes_read :
    ¬ ∀ (limits : List Char → Option JsonRefusal) (T : PyText) (raw : Bytes),
      SoundRead (readStateFile limits T (some raw)) := by
  intro h
  have hread : readStateFile (fun _ => none) Env.plain.text (some [255]) =
      .error (.unicodeDecodeError "invalid utf-8") := by
    rw [readStateFile_some]
    unfold readText
    rw [show decodeUtf8 [255] = none by decide]
    rfl
  have hsound := h (fun _ => none) Env.plain.text [255]
  rw [hread] at hsound
  exact hsound

end Dolores
