import Mathlib.Data.List.Dedup
import Dolores.Py.Config

/-!
# Scores, moving averages and weights (`scoring.py`)

The functions are parametrised by `FloatOps`, the arithmetic the program computes with: the
values are rational numbers, and `add`, `sub`, `mul`, `div` and `round6` may round.  `exactOps`
is rational arithmetic with `round(value, 6)` half to even; `doubleOps` rounds every result to
53 significant bits.  Comparisons, `max` and `min` are exact in both.
-/

namespace Dolores

structure FloatOps where
  add : ℚ → ℚ → ℚ
  sub : ℚ → ℚ → ℚ
  mul : ℚ → ℚ → ℚ
  div : ℚ → ℚ → ℚ
  /-- `round(value, 6)` -/
  round6 : ℚ → ℚ
  /-- the value of a decimal literal of the source -/
  lit : ℚ → ℚ

namespace FloatOps

/-- `sum(values)` -/
def sum (A : FloatOps) (values : List ℚ) : ℚ := values.foldl A.add 0

end FloatOps

/-- the integer nearest to `q`, ties to even -/
def roundHalfEven (q : ℚ) : Int :=
  let f := ⌊q⌋
  let r := q - f
  if r < 1 / 2 then f else if 1 / 2 < r then f + 1 else if f % 2 = 0 then f else f + 1

def exactOps : FloatOps where
  add := (· + ·)
  sub := (· - ·)
  mul := (· * ·)
  div := (· / ·)
  round6 q := roundHalfEven (q * 1000000) / 1000000
  lit q := q

/-- `q` to 53 significant bits, ties to even (the exponent range is not bounded) -/
def toDouble (q : ℚ) : ℚ :=
  if q = 0 then 0
  else
    let e : Int := (Nat.log2 q.num.natAbs : Int) - Nat.log2 q.den
    -- `2^(e-1) < |q| < 2^(e+1)`
    let e' : Int := if |q| < (2 : ℚ) ^ e then e - 1 else e
    let ulp : ℚ := (2 : ℚ) ^ (e' - 52)
    roundHalfEven (q / ulp) * ulp

def doubleOps : FloatOps where
  add a b := toDouble (a + b)
  sub a b := toDouble (a - b)
  mul a b := toDouble (a * b)
  div a b := toDouble (a / b)
  round6 q := toDouble (roundHalfEven (q * 1000000) / 1000000)
  lit := toDouble

/-! ## weights -/

def clipZero (q : ℚ) : ℚ := max 0 q

def normalizeWeights (A : FloatOps) (rawScores : Dict String ℚ) : Dict String ℚ :=
  let clipped := rawScores.mapValues clipZero
  let total := A.sum clipped.values
  if total ≤ 0 then clipped.mapValues fun _ => 0
  else clipped.mapValues fun score => A.div score total

/-- `values[:k]` -/
def pyTake {α : Type} (k : Int) (values : List α) : List α :=
  if 0 ≤ k then values.take k.toNat else values.take (values.length - (-k).toNat)

def topKEpochScores (A : FloatOps) (minerTaskValues : Dict String (List ℚ)) (topK : Int) :
    Dict String ℚ :=
  minerTaskValues.mapValues fun values =>
    let best := pyTake topK ((values.map clipZero).insertionSort fun a b => b ≤ a)
    A.round6 (A.sum best)

/-- `sorted(set(previous) | set(epoch_scores))` -/
def emaMiners (previous epochScores : Dict String ℚ) : List String :=
  ((previous.keys ++ epochScores.keys).dedup).insertionSort (· ≤ ·)

def updateEmaScores (A : FloatOps) (previous epochScores : Dict String ℚ) (alpha : ℚ)
    (infraOnlyMiners : List String) : Dict String ℚ :=
  (emaMiners previous epochScores).map fun miner =>
    if miner ∈ infraOnlyMiners then (miner, A.round6 (previous.getD miner 0))
    else
      let prev := previous.getD miner 0
      let current := epochScores.getD miner 0
      (miner, A.round6 (A.add (A.mul alpha current) (A.mul (A.sub 1 alpha) prev)))

def normalizeActiveWeights (A : FloatOps) (emaState : Dict String ℚ)
    (activeHotkeys : List String) : Dict String ℚ :=
  normalizeWeights A (Dict.ofPairs (activeHotkeys.map fun hotkey => (hotkey, emaState.getD hotkey 0)))

/-! ## task values -/

/-- the fields of the engine's score that are read -/
structure Score where
  lifecycleStatus : String
  aggregateScore : ℚ
  runtimeCost : ℚ
  /-- `score.components.model_dump(mode="json")` -/
  components : Obj

def clipUnit (q : ℚ) : ℚ := max 0 (min 1 q)

def taskValueFromScore (A : FloatOps) (score : Score) : ℚ :=
  if score.lifecycleStatus ≠ "accepted" then 0
  else
    let value := A.div (A.sub score.aggregateScore (A.mul (A.lit (1 / 20)) score.runtimeCost))
      (A.lit (19 / 20))
    A.round6 (clipUnit value)

def infraErrorClasses : List String :=
  ["provider_error", "parse_error", "timeout_error", "verifier_error", "truncation_error"]

def frontierBandScore (A : FloatOps) (solveRate : ℚ) : ℚ :=
  clipUnit (A.sub 1 (A.div |A.sub solveRate (A.lit (45 / 100))| (A.lit (55 / 100))))

/-- a row that is an attempt on the task and not an infrastructure failure -/
def genuineRow (T : PyText) (row : Obj) : Bool :=
  !infraErrorClasses.contains ((row.get "error_class").pyStr T)

def cleanSolveRateFromRows (A : FloatOps) (T : PyText) (rows : List Obj) : Option ℚ :=
  let genuine := rows.filter (genuineRow T)
  if genuine.isEmpty then none
  else
    let passed := (genuine.filter fun row => (row.get "passed").truthy).length
    some (A.div passed genuine.length)

def recalibratedTaskValue (A : FloatOps) (T : PyText) (taskValue : ℚ) (components : Obj)
    (measuredSolveRate : Json) : Except Exn ℚ :=
  match measuredSolveRate with
  | .null => .ok taskValue
  | measured =>
    if taskValue ≤ 0 then .ok taskValue
    else do
      let frontier ← ((Dict.get? components "frontier_difficulty").getD (Json.num 0)).toFloat T
      let baseline := clipUnit frontier
      let rate ← measured.toFloat T
      let adjusted := A.add taskValue (A.div (A.mul (A.lit (25 / 100))
        (A.sub (frontierBandScore A rate) baseline)) (A.sub 1 (A.lit (5 / 100))))
      .ok (A.round6 (clipUnit adjusted))

end Dolores
