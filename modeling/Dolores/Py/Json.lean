import Mathlib.Data.Rat.Floor
import Mathlib.Data.String.Basic
import Dolores.Lib.Dict

/-!
# Python exceptions and JSON values

`Exn` has one constructor per exception class the repository raises or catches; `foreign` and
`foreignBase` are the exceptions of code outside the repository, derived from `Exception` and
only from `BaseException`.

`Json` is a value of `json.loads`.  A finite float is the rational number it denotes.  The
conversions `int(..)`, `float(..)`, `str(..)`, `bool(..)` of a JSON value are `toInt`, `toFloat`,
`pyStr`, `truthy`; `canon` is the effect of `sort_keys=True`, and `canonicalJson` the compact
canonical text (`protocol.canonical_json`).
-/

namespace Dolores

inductive Exn where
  | typeError (msg : String)
  | valueError (msg : String)
  | attributeError (msg : String)
  | keyError (key : String)
  | overflowError (msg : String)
  | assertionError (msg : String)
  | runtimeError (msg : String)
  | osError (msg : String)
  | unicodeDecodeError (msg : String)
  | jsonDecodeError (msg : String)
  | chainSetupError (msg : String)
  | chainAmbiguousSubmissionError (msg attemptPath : String)
  | validatorStateError (msg : String)
  | stateCorruptionError (msg : String)
  | ambiguousWeightSubmissionError (msg : String)
  | receiptRecoveryRequired (msg : String)
  | lockUnavailable (msg : String)
  | epochCompletionError (mode reason : String)
  | epochCompletionValidationError (msg : String)
  | wireError (reason detail : String)
  | validationError (detail : String)
  | holdoutPolicyError (msg : String)
  | responseAuthenticationError (msg : String)
  | panelSpendError (msg : String)
  | foreign (name msg : String)
  | foreignBase (name msg : String)
deriving DecidableEq, Repr

/-- what `except Exception` catches -/
def Exn.isException : Exn → Bool
  | .foreignBase _ _ => false
  | _ => true

/-- `str(exc)` -/
def Exn.str : Exn → String
  | .typeError m | .valueError m | .attributeError m | .keyError m | .overflowError m
  | .assertionError m | .runtimeError m | .osError m | .unicodeDecodeError m | .jsonDecodeError m
  | .chainSetupError m | .chainAmbiguousSubmissionError m _ | .validatorStateError m
  | .stateCorruptionError m | .ambiguousWeightSubmissionError m | .receiptRecoveryRequired m
  | .lockUnavailable m | .epochCompletionValidationError m | .validationError m
  | .holdoutPolicyError m | .responseAuthenticationError m | .panelSpendError m
  | .foreign _ m | .foreignBase _ m => m
  | .epochCompletionError mode reason => s!"epoch chain outcome is not complete: {mode}:{reason}"
  | .wireError reason detail => s!"{reason}: {detail}"

/-- `type(exc).__name__` -/
def Exn.typeName : Exn → String
  | .typeError _ => "TypeError"
  | .valueError _ => "ValueError"
  | .attributeError _ => "AttributeError"
  | .keyError _ => "KeyError"
  | .overflowError _ => "OverflowError"
  | .assertionError _ => "AssertionError"
  | .runtimeError _ => "RuntimeError"
  | .osError _ => "OSError"
  | .unicodeDecodeError _ => "UnicodeDecodeError"
  | .jsonDecodeError _ => "JSONDecodeError"
  | .chainSetupError _ => "ChainSetupError"
  | .chainAmbiguousSubmissionError _ _ => "ChainAmbiguousSubmissionError"
  | .validatorStateError _ => "ValidatorStateError"
  | .stateCorruptionError _ => "StateCorruptionError"
  | .ambiguousWeightSubmissionError _ => "AmbiguousWeightSubmissionError"
  | .receiptRecoveryRequired _ => "ReceiptRecoveryRequired"
  | .lockUnavailable _ => "LockUnavailable"
  | .epochCompletionError _ _ => "EpochCompletionError"
  | .epochCompletionValidationError _ => "EpochCompletionValidationError"
  | .wireError _ _ => "WireError"
  | .validationError _ => "ValidationError"
  | .holdoutPolicyError _ => "HoldoutPolicyError"
  | .responseAuthenticationError _ => "ResponseAuthenticationError"
  | .panelSpendError _ => "PanelSpendError"
  | .foreign name _ => name
  | .foreignBase name _ => name

/-! ## values -/

inductive PyFloat where
  | fin (q : ℚ)
  | nan
  | posInf
  | negInf
deriving DecidableEq, Repr

inductive Json where
  | null
  | bool (b : Bool)
  | int (i : Int)
  | float (x : PyFloat)
  | str (s : String)
  | arr (xs : List Json)
  | obj (fields : List (String × Json))

/-- a `dict` with string keys -/
abbrev Obj : Type := Dict String Json

/-- `dict.get(key)` -/
def Obj.get (o : Obj) (k : String) : Json := (Dict.get? o k).getD .null

namespace Json

def num (q : ℚ) : Json := .float (.fin q)

def ofOption {α : Type} (f : α → Json) : Option α → Json
  | none => .null
  | some a => f a

/-- `bool(value)` -/
def truthy : Json → Bool
  | .null => false
  | .bool b => b
  | .int i => i != 0
  | .float (.fin q) => q != 0
  | .float _ => true
  | .str s => s != ""
  | .arr xs => !xs.isEmpty
  | .obj fs => !fs.isEmpty

/-- `value == s` for a string `s` -/
def eqStr : Json → String → Bool
  | .str s, t => s == t
  | _, _ => false

/-- the number a `bool`, `int` or finite `float` stands for in comparisons -/
def number? : Json → Option ℚ
  | .bool b => some (if b then 1 else 0)
  | .int i => some i
  | .float (.fin q) => some q
  | _ => none

/-- `value == n` for an integer `n` -/
def eqInt (j : Json) (n : Int) : Bool := j.number? == some (n : ℚ)

/-- `hash(value)` does not raise -/
def hashable : Json → Bool
  | .arr _ | .obj _ => false
  | _ => true

def typeName : Json → String
  | .null => "NoneType"
  | .bool _ => "bool"
  | .int _ => "int"
  | .float _ => "float"
  | .str _ => "str"
  | .arr _ => "list"
  | .obj _ => "dict"

def unhashable (j : Json) : Exn := .typeError s!"unhashable type: '{j.typeName}'"

/-- `value in names` for a set of strings: the value is hashed first -/
def inNames (j : Json) (names : List String) : Except Exn Bool :=
  if j.hashable then .ok (names.any j.eqStr) else .error j.unhashable

mutual
/-- what `sort_keys=True` writes -/
def canon : Json → Json
  | .arr xs => .arr (canonList xs)
  | .obj fs => .obj (Dict.sorted (canonFields fs))
  | .null => .null
  | .bool b => .bool b
  | .int i => .int i
  | .float x => .float x
  | .str s => .str s

def canonList : List Json → List Json
  | [] => []
  | x :: xs => canon x :: canonList xs

def canonFields : List (String × Json) → List (String × Json)
  | [] => []
  | (k, x) :: fs => (k, canon x) :: canonFields fs
end

theorem eqStr_iff {j : Json} {s : String} : j.eqStr s = true ↔ j = .str s := by
  cases j with
  | str t =>
    show (t == s) = true ↔ _
    rw [beq_iff_eq, Json.str.injEq]
  | _ => exact iff_of_false Bool.false_ne_true fun h => nomatch h

theorem eqStr_str (s : String) : (Json.str s).eqStr s = true := eqStr_iff.mpr rfl

end Json

/-! ## conversions -/

/-- the texts that depend on the interpreter: `repr` of a finite float, of a container and of a
string, and the finite number a text stands for -/
structure PyText where
  reprFloat : ℚ → String
  reprContainer : Json → String
  reprStr : String → String
  parseFloat : String → Option ℚ

/-- the zeros of Unicode 14, each of which begins ten decimal digits -/
def decimalZeros : List Nat := [
  48, 1632, 1776, 1984, 2406, 2534, 2662, 2790, 2918, 3046, 3174, 3302, 3430, 3558, 3664, 3792,
  3872, 4160, 4240, 6112, 6160, 6470, 6608, 6784, 6800, 6992, 7088, 7232, 7248, 42528, 43216,
  43264, 43472, 43504, 43600, 44016, 65296, 66720, 68912, 69734, 69872, 69942, 70096, 70384,
  70736, 70864, 71248, 71360, 71472, 71904, 72016, 72784, 73040, 73120, 92768, 92864, 93008,
  120782, 120792, 120802, 120812, 120822, 123200, 123632, 125264, 130032]

def decimal? (c : Char) : Option Nat :=
  (decimalZeros.find? fun first => first ≤ c.toNat ∧ c.toNat < first + 10).map fun first =>
    c.toNat - first

/-- what `int(text)` strips: white space of Unicode, but of ASCII only that of C's `isspace` -/
def isSpace (c : Char) : Bool :=
  c.toNat == 32 || (9 ≤ c.toNat && c.toNat ≤ 13) || (8192 ≤ c.toNat && c.toNat ≤ 8202) ||
    [133, 160, 5760, 8232, 8233, 8239, 8287, 12288].contains c.toNat

/-- the digits that `int(text)` accepts at most -/
def intMaxStrDigits : Nat := 4300

/-- the digits of `int(text)`: single underscores may separate digits -/
def parseDigits : List Char → Option Nat → Bool → Option Nat
  | [], acc, digit => if digit then acc else none
  | c :: cs, acc, digit =>
    match decimal? c with
    | some d => parseDigits cs (some (acc.getD 0 * 10 + d)) true
    | none => if c.toNat == 95 && digit then parseDigits cs acc false else none

/-- `int(text)` -/
def parseInt (text : String) : Option Int :=
  let trimmed := ((text.toList.dropWhile isSpace).reverse.dropWhile isSpace).reverse
  if intMaxStrDigits < trimmed.countP fun c => (decimal? c).isSome then none
  else
    match trimmed with
    | c :: cs =>
      if c.toNat == 45 then (parseDigits cs none false).map fun n => -(n : Int)
      else if c.toNat == 43 then (parseDigits cs none false).map fun n => (n : Int)
      else (parseDigits (c :: cs) none false).map fun n => (n : Int)
    | [] => none

namespace Json

/-- `int(value)` -/
def toInt : Json → Except Exn Int
  | .bool b => .ok (if b then 1 else 0)
  | .int i => .ok i
  | .float (.fin q) => .ok (if 0 ≤ q then ⌊q⌋ else ⌈q⌉)
  | .float .nan => .error (.valueError "cannot convert float NaN to integer")
  | .float _ => .error (.overflowError "cannot convert float infinity to integer")
  | .str s =>
    match parseInt s with
    | some i => .ok i
    | none => .error (.valueError "invalid literal for int() with base 10")
  | j => .error (.typeError s!"int() argument must be a string, a bytes-like object or a real number, not '{j.typeName}'")

/-- `float(value)`, for the values that are finite numbers -/
def toFloat (T : PyText) : Json → Except Exn ℚ
  | .str s =>
    match T.parseFloat s with
    | some q => .ok q
    | none => .error (.valueError "could not convert string to float")
  | j =>
    match j.number? with
    | some q => .ok q
    | none => .error (.typeError s!"float() argument must be a string or a real number, not '{j.typeName}'")

/-- `str(value)` -/
def pyStr (T : PyText) : Json → String
  | .null => "None"
  | .bool b => if b then "True" else "False"
  | .int i => toString i
  | .float (.fin q) => T.reprFloat q
  | .float .nan => "nan"
  | .float .posInf => "inf"
  | .float .negInf => "-inf"
  | .str s => s
  | j => T.reprContainer j

end Json

/-! ## the canonical text -/

def hexDigit (n : Nat) : Char := Char.ofNat (if n < 10 then 48 + n else 87 + n)

/-- a four-digit escape of one UTF-16 unit -/
def escapeUnit (n : Nat) : String :=
  "\\u" ++ String.ofList [hexDigit (n / 4096 % 16), hexDigit (n / 256 % 16), hexDigit (n / 16 % 16),
    hexDigit (n % 16)]

/-- `ensure_ascii=True` -/
def escapeChar (c : Char) : String :=
  let n := c.toNat
  if n = 34 then "\\\"" else if n = 92 then "\\\\" else if n = 10 then "\\n"
  else if n = 13 then "\\r" else if n = 9 then "\\t" else if n = 8 then "\\b"
  else if n = 12 then "\\f"
  else if 32 ≤ n ∧ n ≤ 126 then String.singleton c
  else if n < 65536 then escapeUnit n
  else escapeUnit (55296 + (n - 65536) / 1024) ++ escapeUnit (56320 + (n - 65536) % 1024)

def quote (s : String) : String := "\"" ++ String.join (s.toList.map escapeChar) ++ "\""

mutual
/-- `json.dumps(value, separators=(",", ":"), ensure_ascii=True)` -/
def dumpsCompact (T : PyText) : Json → String
  | .null => "null"
  | .bool b => if b then "true" else "false"
  | .int i => toString i
  | .float (.fin q) => T.reprFloat q
  | .float .nan => "NaN"
  | .float .posInf => "Infinity"
  | .float .negInf => "-Infinity"
  | .str s => quote s
  | .arr xs => "[" ++ ",".intercalate (dumpsList T xs) ++ "]"
  | .obj fs => "\x7b" ++ ",".intercalate (dumpsFields T fs) ++ "\x7d"

def dumpsList (T : PyText) : List Json → List String
  | [] => []
  | x :: xs => dumpsCompact T x :: dumpsList T xs

def dumpsFields (T : PyText) : List (String × Json) → List String
  | [] => []
  | (k, x) :: fs => (quote k ++ ":" ++ dumpsCompact T x) :: dumpsFields T fs
end

/-- `protocol.canonical_json` -/
def canonicalJson (T : PyText) (j : Json) : String := dumpsCompact T j.canon

/-! ## the sorted form -/

namespace Json

@[simp] theorem canon_null : canon .null = .null := by simp only [canon]
@[simp] theorem canon_bool (b : Bool) : canon (.bool b) = .bool b := by simp only [canon]
@[simp] theorem canon_int (i : Int) : canon (.int i) = .int i := by simp only [canon]
@[simp] theorem canon_float (x : PyFloat) : canon (.float x) = .float x := by simp only [canon]
@[simp] theorem canon_str (s : String) : canon (.str s) = .str s := by simp only [canon]
@[simp] theorem canon_num (q : ℚ) : canon (num q) = num q := canon_float _

@[simp] theorem toFloat_num (T : PyText) (q : ℚ) : (num q).toFloat T = .ok q := rfl

theorem canon_obj (fs : Obj) : canon (.obj fs) = .obj (Dict.sorted (canonFields fs)) := by
  simp only [canon]

theorem canonFields_eq (fs : Obj) : canonFields fs = Dict.mapValues canon fs := by
  induction fs with
  | nil => simp only [canonFields]; rfl
  | cons p fs ih =>
    obtain ⟨k, x⟩ := p
    rw [canonFields, ih]
    rfl

theorem canonList_eq (xs : List Json) : canonList xs = xs.map canon := by
  induction xs with
  | nil => simp only [canonList]; rfl
  | cons x xs ih => rw [canonList, ih]; rfl

end Json

/-- the fields that are read back from a written object -/
def Obj.canon (o : Obj) : Obj := Dict.sorted (Dict.mapValues Json.canon o)

theorem Json.canon_obj' (o : Obj) : Json.canon (.obj o) = .obj o.canon := by
  rw [Json.canon_obj, Json.canonFields_eq]; rfl

theorem Obj.get?_canon (o : Obj) (k : String) :
    Dict.get? o.canon k = (Dict.get? o k).map Json.canon := by
  unfold Obj.canon
  rw [Dict.get?_sorted, Dict.get?_mapValues]

theorem Obj.get_canon (o : Obj) (k : String) : o.canon.get k = (o.get k).canon := by
  unfold Obj.get
  rw [Obj.get?_canon]
  cases Dict.get? o k <;> simp

/-! ### sorting again changes nothing -/

theorem Dict.sorted_mapValues {V W : Type} (f : V → W) (d : Dict String V) :
    Dict.mapValues f (Dict.sorted d) = Dict.sorted (Dict.mapValues f d) := by
  unfold Dict.mapValues Dict.sorted
  exact List.map_insertionSort _ _ _ _ fun _ _ _ _ => Iff.rfl

theorem Obj.canon_canon_of {o : Obj} (h : Json.canonFields (Json.canonFields o) =
    Json.canonFields o) : o.canon.canon = o.canon := by
  rw [Json.canonFields_eq, Json.canonFields_eq] at h
  unfold Obj.canon
  rw [Dict.sorted_mapValues, h]
  exact Dict.sorted_eq_of_sorted (Dict.sorted_pairwise _)

mutual
theorem Json.canon_canon (j : Json) : j.canon.canon = j.canon := by
  cases j with
  | null => rw [Json.canon_null, Json.canon_null]
  | bool b => rw [Json.canon_bool, Json.canon_bool]
  | int i => rw [Json.canon_int, Json.canon_int]
  | float x => rw [Json.canon_float, Json.canon_float]
  | str s => rw [Json.canon_str, Json.canon_str]
  | arr xs => rw [Json.canon, Json.canon, Json.canonList_canonList xs]
  | obj fs =>
    rw [Json.canon_obj', Json.canon_obj', Obj.canon_canon_of (Json.canonFields_canonFields fs)]

theorem Json.canonList_canonList (xs : List Json) :
    Json.canonList (Json.canonList xs) = Json.canonList xs := by
  cases xs with
  | nil => rw [Json.canonList, Json.canonList]
  | cons x xs =>
    rw [Json.canonList, Json.canonList, Json.canon_canon x, Json.canonList_canonList xs]

theorem Json.canonFields_canonFields (fs : List (String × Json)) :
    Json.canonFields (Json.canonFields fs) = Json.canonFields fs := by
  cases fs with
  | nil => rw [Json.canonFields, Json.canonFields]
  | cons p fs =>
    obtain ⟨k, x⟩ := p
    rw [Json.canonFields, Json.canonFields, Json.canon_canon x, Json.canonFields_canonFields fs]
end

theorem Obj.canon_canon (o : Obj) : o.canon.canon = o.canon :=
  Obj.canon_canon_of (Json.canonFields_canonFields o)

theorem Json.eqStr_canon (j : Json) (s : String) : j.canon.eqStr s = j.eqStr s := by
  cases j with
  | null => rw [Json.canon_null]
  | bool b => rw [Json.canon_bool]
  | int i => rw [Json.canon_int]
  | float x => rw [Json.canon_float]
  | str t => rw [Json.canon_str]
  | arr xs =>
    rw [Json.canon]
    rfl
  | obj fs =>
    rw [Json.canon]
    rfl

end Dolores
