import Mathlib.Data.List.Basic
import Dolores.Py.Json

/-!
# The text of a JSON value

`loads` is `json.loads` and `text` the output of `json.dumps`, on lists of characters.  `gap` is
what follows a comma or a colon: a space by default, nothing in the compact form.

The string scanner keeps the UTF-16 units of the escapes and pairs the surrogates afterwards.
A number is the longest match of the number pattern in the run of number characters it starts.
-/

namespace Dolores
namespace JsonText

/-! ## characters -/

/-- white space between the tokens -/
def isBlank (c : Char) : Bool :=
  c.toNat == 32 || c.toNat == 9 || c.toNat == 10 || c.toNat == 13

/-- the characters a number is made of -/
def isNumberChar (c : Char) : Bool :=
  c.isDigit || c.toNat == 43 || c.toNat == 45 || c.toNat == 46 || c.toNat == 69 || c.toNat == 101

def skip (cs : List Char) : List Char := cs.dropWhile isBlank

/-- the text after a word -/
def word (w cs : List Char) : Option (List Char) :=
  if w.isPrefixOf cs then some (cs.drop w.length) else none

/-! ## numbers -/

/-- `0|[1-9][0-9]*` -/
def natural (cs : List Char) : Option (List Char × List Char) :=
  match cs with
  | [] => none
  | c :: rest =>
    if c.toNat = 48 then some ([c], rest)
    else if c.isDigit then some (cs.takeWhile Char.isDigit, cs.dropWhile Char.isDigit)
    else none

/-- `-?(?:0|[1-9][0-9]*)` -/
def integer (cs : List Char) : Option (List Char × List Char) :=
  match cs with
  | [] => none
  | c :: rest =>
    if c.toNat = 45 then (natural rest).map fun p => (c :: p.1, p.2)
    else natural cs

/-- `(\.[0-9]+)?` -/
def fraction (cs : List Char) : List Char × List Char :=
  match cs with
  | [] => ([], [])
  | c :: rest =>
    if c.toNat = 46 && (rest.head?.any Char.isDigit) then
      (c :: rest.takeWhile Char.isDigit, rest.dropWhile Char.isDigit)
    else ([], cs)

/-- `[-+]?` -/
def sign (cs : List Char) : List Char × List Char :=
  match cs with
  | [] => ([], [])
  | c :: rest => if c.toNat = 43 || c.toNat = 45 then ([c], rest) else ([], cs)

/-- `([eE][-+]?[0-9]+)?` -/
def exponent (cs : List Char) : List Char × List Char :=
  match cs with
  | [] => ([], [])
  | c :: rest =>
    if (c.toNat = 69 || c.toNat = 101) && ((sign rest).2.head?.any Char.isDigit) then
      (c :: (sign rest).1 ++ (sign rest).2.takeWhile Char.isDigit,
        (sign rest).2.dropWhile Char.isDigit)
    else ([], cs)

/-- `int(text)` of an integer of the pattern -/
def intOf (ds : List Char) : Int :=
  match ds with
  | [] => 0
  | c :: rest =>
    if c.toNat = 45 then -((Nat.ofDigitChars 10 rest 0 : Nat) : Int)
    else ((Nat.ofDigitChars 10 ds 0 : Nat) : Int)

section
variable (T : PyText)

/-- `float(text)` of a number of the pattern; it overflows to an infinity -/
def floatOf (cs : List Char) : PyFloat :=
  match T.parseFloat (String.ofList cs) with
  | some q => .fin q
  | none => if cs.head?.any fun c => c.toNat == 45 then .negInf else .posInf

/-- the number at the head of a run of number characters -/
def numberOf (run : List Char) : Option (Json × List Char) :=
  (integer run).map fun p =>
    let frac := fraction p.2
    let exp := exponent frac.2
    if frac.1.isEmpty && exp.1.isEmpty then (.int (intOf p.1), exp.2)
    else (.float (floatOf T (p.1 ++ frac.1 ++ exp.1)), exp.2)

def number (cs : List Char) : Option (Json × List Char) :=
  (numberOf T (cs.takeWhile isNumberChar)).map fun p =>
    (p.1, p.2 ++ cs.dropWhile isNumberChar)

end

/-! ## strings -/

def hexVal (c : Char) : Option Nat :=
  if 48 ≤ c.toNat ∧ c.toNat ≤ 57 then some (c.toNat - 48)
  else if 65 ≤ c.toNat ∧ c.toNat ≤ 70 then some (c.toNat - 55)
  else if 97 ≤ c.toNat ∧ c.toNat ≤ 102 then some (c.toNat - 87)
  else none

/-- the escapes of one letter -/
def simpleEscape (c : Char) : Option Nat :=
  if c.toNat = 34 then some 34 else if c.toNat = 92 then some 92 else if c.toNat = 47 then some 47
  else if c.toNat = 98 then some 8 else if c.toNat = 102 then some 12
  else if c.toNat = 110 then some 10 else if c.toNat = 114 then some 13
  else if c.toNat = 116 then some 9 else none

/-- where the string scanner stands -/
inductive StringState where
  | plain
  | escape
  | hex (left acc : Nat)

/-- the units of a string up to its closing mark, and the text after it -/
def scanString : StringState → List Char → Option (List Nat × List Char)
  | _, [] => none
  | .plain, c :: cs =>
    if c.toNat = 34 then some ([], cs)
    else if c.toNat = 92 then scanString .escape cs
    else if c.toNat < 32 then none
    else (scanString .plain cs).map fun p => (c.toNat :: p.1, p.2)
  | .escape, c :: cs =>
    if c.toNat = 117 then scanString (.hex 3 0) cs
    else match simpleEscape c with
      | none => none
      | some u => (scanString .plain cs).map fun p => (u :: p.1, p.2)
  | .hex left acc, c :: cs =>
    match hexVal c with
    | none => none
    | some d =>
      match left with
      | 0 => (scanString .plain cs).map fun p => ((acc * 16 + d) :: p.1, p.2)
      | left + 1 => scanString (.hex left (acc * 16 + d)) cs

def isHigh (u : Nat) : Bool := 55296 ≤ u && u ≤ 56319

def isLow (u : Nat) : Bool := 56320 ≤ u && u ≤ 57343

/-- a surrogate without its partner has no character -/
def unitChar (u : Nat) : Char := if isHigh u || isLow u then Char.ofNat 65533 else Char.ofNat u

/-- the characters of the units, a surrogate pair being one character -/
def joinUnits : List Nat → List Char
  | [] => []
  | [u] => [unitChar u]
  | u :: v :: us =>
    if isHigh u && isLow v then
      Char.ofNat (65536 + (u - 55296) * 1024 + (v - 56320)) :: joinUnits us
    else unitChar u :: joinUnits (v :: us)

/-- the string after its opening mark -/
def string (cs : List Char) : Option (String × List Char) :=
  (scanString .plain cs).map fun p => (String.ofList (joinUnits p.1), p.2)

/-! ## values -/

section
variable {α : Type} (close : Nat) (item : List Char → Option (α × List Char))

/-- items separated by commas, up to the closing bracket -/
def items : Nat → List Char → Option (List α × List Char)
  | 0, _ => none
  | n + 1, cs =>
    match item cs with
    | none => none
    | some (a, rest) =>
      match skip rest with
      | [] => none
      | c :: rest =>
        if c.toNat = close then some ([a], rest)
        else if c.toNat = 44 then (items n (skip rest)).map fun p => (a :: p.1, p.2)
        else none

/-- the items after the opening bracket -/
def sequence (n : Nat) (cs : List Char) : Option (List α × List Char) :=
  match skip cs with
  | [] => none
  | c :: rest => if c.toNat = close then some ([], rest) else items close item n (c :: rest)

end

/-- a key, a colon and a value -/
def member (val : List Char → Option (Json × List Char)) (cs : List Char) :
    Option ((String × Json) × List Char) :=
  match cs with
  | [] => none
  | c :: rest =>
    if c.toNat = 34 then
      match string rest with
      | none => none
      | some (k, rest) =>
        match skip rest with
        | [] => none
        | c :: rest =>
          if c.toNat = 58 then (val (skip rest)).map fun p => ((k, p.1), p.2) else none
    else none

section
variable (T : PyText)

/-- the words and the numbers -/
def scalar (cs : List Char) : Option (Json × List Char) :=
  match word ['n', 'u', 'l', 'l'] cs with
  | some rest => some (.null, rest)
  | none =>
  match word ['t', 'r', 'u', 'e'] cs with
  | some rest => some (.bool true, rest)
  | none =>
  match word ['f', 'a', 'l', 's', 'e'] cs with
  | some rest => some (.bool false, rest)
  | none =>
  match word ['N', 'a', 'N'] cs with
  | some rest => some (.float .nan, rest)
  | none =>
  match word ['I', 'n', 'f', 'i', 'n', 'i', 't', 'y'] cs with
  | some rest => some (.float .posInf, rest)
  | none =>
  match word ['-', 'I', 'n', 'f', 'i', 'n', 'i', 't', 'y'] cs with
  | some rest => some (.float .negInf, rest)
  | none => number T cs

/-- one value, nested at most `n` deep -/
def value : Nat → List Char → Option (Json × List Char)
  | 0, _ => none
  | n + 1, cs =>
    match cs with
    | [] => none
    | c :: rest =>
      if c.toNat = 34 then (string rest).map fun p => (.str p.1, p.2)
      else if c.toNat = 123 then
        (sequence 125 (member (value n)) n rest).map fun p => (.obj (Dict.ofPairs p.1), p.2)
      else if c.toNat = 91 then (sequence 93 (value n) n rest).map fun p => (.arr p.1, p.2)
      else scalar T (c :: rest)

/-- `json.loads` -/
def loads (cs : List Char) : Option Json :=
  match value T cs.length (skip cs) with
  | none => none
  | some (j, rest) => if (skip rest).isEmpty then some j else none

end

/-! ## printing -/

section
variable (T : PyText) (gap : List Char)

def quoted (s : String) : List Char := (quote s).toList

mutual
/-- `json.dumps` with `gap` after the separators -/
def text : Json → List Char
  | .null => ['n', 'u', 'l', 'l']
  | .bool b => if b then ['t', 'r', 'u', 'e'] else ['f', 'a', 'l', 's', 'e']
  | .int i => (toString i).toList
  | .float (.fin q) => (T.reprFloat q).toList
  | .float .nan => ['N', 'a', 'N']
  | .float .posInf => ['I', 'n', 'f', 'i', 'n', 'i', 't', 'y']
  | .float .negInf => ['-', 'I', 'n', 'f', 'i', 'n', 'i', 't', 'y']
  | .str s => quoted s
  | .arr xs => '[' :: textItems xs
  | .obj fs => '\x7b' :: textMembers fs

/-- the elements of an array and its closing bracket -/
def textItems : List Json → List Char
  | [] => [']']
  | [x] => text x ++ [']']
  | x :: y :: xs => text x ++ ',' :: gap ++ textItems (y :: xs)

/-- the members of an object and its closing bracket -/
def textMembers : List (String × Json) → List Char
  | [] => ['\x7d']
  | [(k, x)] => quoted k ++ ':' :: gap ++ text x ++ ['\x7d']
  | (k, x) :: p :: fs => quoted k ++ ':' :: gap ++ text x ++ ',' :: gap ++ textMembers (p :: fs)
end

end

/-! ### layouts -/

/-- the white space between the tokens; the depth is that of the items, or of the bracket -/
structure Layout where
  afterOpen : Nat → List Char
  afterComma : Nat → List Char
  afterColon : List Char
  beforeClose : Nat → List Char

section
variable (T : PyText) (L : Layout)

/-- the words, numbers and strings; nothing for a container -/
def scalarText : Json → List Char
  | .null => ['n', 'u', 'l', 'l']
  | .bool b => if b then ['t', 'r', 'u', 'e'] else ['f', 'a', 'l', 's', 'e']
  | .int i => (toString i).toList
  | .float (.fin q) => (T.reprFloat q).toList
  | .float .nan => ['N', 'a', 'N']
  | .float .posInf => ['I', 'n', 'f', 'i', 'n', 'i', 't', 'y']
  | .float .negInf => ['-', 'I', 'n', 'f', 'i', 'n', 'i', 't', 'y']
  | .str s => quoted s
  | .arr _ | .obj _ => []

/-- the white space after an opening bracket; an empty container has none -/
def opening {α : Type} (depth : Nat) (xs : List α) : List Char :=
  if xs.isEmpty then [] else L.afterOpen depth

mutual
/-- `json.dumps`, at some depth -/
def layout (depth : Nat) : Json → List Char
  | .arr xs => '[' :: opening L (depth + 1) xs ++ layoutItems depth xs
  | .obj fs => '\x7b' :: opening L (depth + 1) fs ++ layoutMembers depth fs
  | .null => scalarText T .null
  | .bool b => scalarText T (.bool b)
  | .int i => scalarText T (.int i)
  | .float x => scalarText T (.float x)
  | .str s => scalarText T (.str s)

/-- the elements of an array and its closing bracket -/
def layoutItems (depth : Nat) : List Json → List Char
  | [] => [']']
  | [x] => layout (depth + 1) x ++ L.beforeClose depth ++ [']']
  | x :: y :: xs =>
    layout (depth + 1) x ++ ',' :: L.afterComma (depth + 1) ++ layoutItems depth (y :: xs)

/-- the members of an object and its closing bracket -/
def layoutMembers (depth : Nat) : List (String × Json) → List Char
  | [] => ['\x7d']
  | [(k, x)] => quoted k ++ ':' :: L.afterColon ++ layout (depth + 1) x ++ L.beforeClose depth ++
      ['\x7d']
  | (k, x) :: p :: fs => quoted k ++ ':' :: L.afterColon ++ layout (depth + 1) x ++
      ',' :: L.afterComma (depth + 1) ++ layoutMembers depth (p :: fs)
end

/-- `gap` after the separators, and everything on one line -/
def Layout.line (gap : List Char) : Layout where
  afterOpen _ := []
  afterComma _ := gap
  afterColon := gap
  beforeClose _ := []

/-- a line of its own for each item and each closing bracket -/
def newLine (depth : Nat) : List Char := '\n' :: List.replicate (2 * depth) ' '

/-- `indent=2` -/
def Layout.indent : Layout where
  afterOpen := newLine
  afterComma := newLine
  afterColon := [' ']
  beforeClose := newLine

/-- `json.dumps(payload, indent=2, sort_keys=True) + "\n"` -/
def document (j : Json) : List Char := layout T .indent 0 j.canon ++ ['\n']

end

end JsonText

/-! ## what the interpreter refuses -/

open JsonText

/-- the interpreter gives up on a text -/
inductive JsonRefusal where
  /-- an integer of too many digits -/
  | digits
  /-- a value nested too deep -/
  | depth

def JsonRefusal.exn : JsonRefusal → Exn
  | .digits => .valueError "Exceeds the limit for integer string conversion"
  | .depth => .foreign "RecursionError" "maximum recursion depth exceeded"

section
variable (limits : List Char → Option JsonRefusal) (T : PyText)

/-- `json.loads` -/
def loadJson (cs : List Char) : Except Exn Json :=
  match limits cs with
  | some refusal => .error refusal.exn
  | none =>
    match loads T cs with
    | none => .error (.jsonDecodeError "Expecting value")
    | some j => .ok j

end

end Dolores
