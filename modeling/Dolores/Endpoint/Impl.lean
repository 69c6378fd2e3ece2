import Dolores.Archive.World

/-!
# Public endpoints (`endpoints.py`)

`parseIPv4` is `ipaddress.ip_address` on the texts of IPv4 addresses.  The registry of the private
networks differs between releases of the interpreter, and is a parameter (`AddressTables`).

* `parseIPv4_iff`             an address has one spelling, the one that is printed;
* `requirePublicIpv4_ok_iff`  what the policy accepts, and that it returns it unchanged;
* `IPv4Address.Routable`      no special-purpose network.
-/

namespace Dolores
open Except

/-- the four octets -/
structure IPv4Address where
  a : Fin 256
  b : Fin 256
  c : Fin 256
  d : Fin 256
deriving DecidableEq, Repr

/-- a network, by its first address and the number of fixed bits -/
structure IPv4Network where
  base : Nat
  bits : Nat
deriving DecidableEq, Repr

def asciiDigit (c : Char) : Bool := decide (48 ≤ c.toNat) && decide (c.toNat ≤ 57)

def digitValue (c : Char) : Nat := c.toNat - 48

/-- `int(text, 10)`, of ASCII digits -/
def decimalValue (cs : List Char) : Nat := cs.foldl (fun n c => 10 * n + digitValue c) 0

/-- `_parse_octet` -/
def parseOctet (cs : List Char) : Option (Fin 256) :=
  if cs = [] then none
  else if cs.all asciiDigit = false then none
  else if cs.length > 3 then none
  else if cs ≠ ['0'] ∧ cs.head? = some '0' then none
  else if h : decimalValue cs < 256 then some ⟨decimalValue cs, h⟩
  else none

/-- `str(octet)` -/
def octetText (n : Fin 256) : List Char := Nat.toDigits 10 n

namespace IPv4Address

def toNat (x : IPv4Address) : Nat := ((x.a * 256 + x.b) * 256 + x.c) * 256 + x.d

def octets (x : IPv4Address) : List (List Char) :=
  [octetText x.a, octetText x.b, octetText x.c, octetText x.d]

/-- `str(address)` -/
def text (x : IPv4Address) : String := String.ofList (['.'].intercalate x.octets)

/-- `address in network` -/
def inNetwork (x : IPv4Address) (n : IPv4Network) : Bool :=
  decide (x.toNat / 2 ^ (32 - n.bits) = n.base / 2 ^ (32 - n.bits))

end IPv4Address

/-- `ipaddress.IPv4Address(value)` -/
def parseIPv4 (value : String) : Option IPv4Address :=
  if '/' ∈ value.toList then none
  else
    match (value.toList.splitOn '.').map parseOctet with
    | [some a, some b, some c, some d] => some ⟨a, b, c, d⟩
    | _ => none

/-- what a release of the interpreter knows of addresses -/
structure AddressTables where
  privateNetworks : List IPv4Network
  privateExceptions : List IPv4Network
  /-- `ipaddress.IPv6Address(value)` does not raise -/
  isIPv6 : String → Bool

def IPv4Network.of (a b c d bits : Nat) : IPv4Network := ⟨((a * 256 + b) * 256 + c) * 256 + d, bits⟩

def loopbackNetwork : IPv4Network := .of 127 0 0 0 8
def linkLocalNetwork : IPv4Network := .of 169 254 0 0 16
def multicastNetwork : IPv4Network := .of 224 0 0 0 4
def reservedNetwork : IPv4Network := .of 240 0 0 0 4
/-- the shared address space, neither private nor global -/
def sharedNetwork : IPv4Network := .of 100 64 0 0 10

section
variable (T : AddressTables) (x : IPv4Address)

def IPv4Address.isPrivate : Bool :=
  T.privateNetworks.any x.inNetwork && T.privateExceptions.all fun n => !x.inNetwork n

def IPv4Address.isGlobal : Bool := !x.inNetwork sharedNetwork && !x.isPrivate T

/-- `require_public_ipv4` -/
def requirePublicIpv4 (value : String) : Except Exn String :=
  match parseIPv4 value with
  | none =>
    if T.isIPv6 value then .error (.valueError "external IP must be IPv4")
    else .error (.valueError "external IP must be a literal IPv4 address")
  | some address =>
    if address.isGlobal T = false ∨ address.isPrivate T = true ∨
        address.inNetwork loopbackNetwork = true ∨ address.inNetwork linkLocalNetwork = true ∨
        address.inNetwork multicastNetwork = true ∨ address.inNetwork reservedNetwork = true ∨
        address.toNat = 0 then
      .error (.valueError ("external IP is not globally routable: " ++ address.text))
    else .ok address.text

end

/-- `require_port`, of an integer -/
def requirePort (port : Int) : Except Exn Int :=
  if 1 ≤ port ∧ port ≤ 65535 then .ok port
  else .error (.valueError s!"port is outside 1..65535: {port}")

/-! ## one spelling -/

theorem parseOctet_octetText (n : Fin 256) : parseOctet (octetText n) = some n := by
  revert n
  decide +kernel

theorem char_of_asciiDigit {c : Char} (h : asciiDigit c = true) :
    ∃ k : Fin 10, c = Nat.digitChar k := by
  unfold asciiDigit at h
  simp only [Bool.and_eq_true, decide_eq_true_eq] at h
  refine ⟨⟨c.toNat - 48, by omega⟩, Char.toNat_inj.mp ?_⟩
  rw [Nat.toNat_digitChar_of_lt_ten (by simp; omega)]
  simp
  omega

/-- three digits that do not begin with a zero are the text of their value -/
theorem octetText_of_digits : (∀ i : Fin 10, Nat.toDigits 10 i = [Nat.digitChar i]) ∧
    (∀ i j : Fin 10, i ≠ 0 → Nat.toDigits 10 (10 * i + j) = [Nat.digitChar i, Nat.digitChar j]) ∧
    ∀ i j k : Fin 10, i ≠ 0 → Nat.toDigits 10 (10 * (10 * i + j) + k) =
      [Nat.digitChar i, Nat.digitChar j, Nat.digitChar k] := by
  decide +kernel

theorem octetText_of_parseOctet {cs : List Char} {n : Fin 256} (h : parseOctet cs = some n) :
    cs = octetText n := by
  have hvalue : ∀ k : Fin 10, digitValue (Nat.digitChar k) = k := by decide
  unfold parseOctet at h
  split at h
  · exact nomatch h
  next hne =>
  split at h
  · exact nomatch h
  next hdigits =>
  split at h
  · exact nomatch h
  next hlen =>
  split at h
  · exact nomatch h
  next hzero =>
  split at h
  swap
  · exact nomatch h
  next hlt =>
  obtain rfl := Option.some.inj h
  have hall : ∀ c ∈ cs, ∃ k : Fin 10, c = Nat.digitChar k := by
    intro c hc
    refine char_of_asciiDigit (List.all_eq_true.mp ?_ c hc)
    simpa using hdigits
  -- a leading zero is the whole text
  have hlead : ∀ (i : Fin 10) (rest : List Char), cs = Nat.digitChar i :: rest → rest ≠ [] → i ≠ 0 := by
    rintro i rest rfl hrest rfl
    refine hzero ⟨fun hcs => hrest ?_, rfl⟩
    exact (List.cons.inj hcs).2
  show cs = Nat.toDigits 10 (decimalValue cs)
  obtain ⟨h1, h2, h3⟩ := octetText_of_digits
  match cs, hne, hlen, hall, hlead with
  | [c], _, _, hall, _ =>
    obtain ⟨i, rfl⟩ := hall c (by simp)
    have hv : decimalValue [Nat.digitChar i] = i := by simp [decimalValue, hvalue]
    rw [hv, h1]
  | [c, d], _, _, hall, hlead =>
    obtain ⟨i, rfl⟩ := hall c (by simp)
    obtain ⟨j, rfl⟩ := hall d (by simp)
    have hv : decimalValue [Nat.digitChar i, Nat.digitChar j] = 10 * i + j := by
      simp [decimalValue, hvalue]
    rw [hv, h2 i j (hlead i _ rfl (by simp))]
  | [c, d, e], _, _, hall, hlead =>
    obtain ⟨i, rfl⟩ := hall c (by simp)
    obtain ⟨j, rfl⟩ := hall d (by simp)
    obtain ⟨k, rfl⟩ := hall e (by simp)
    have hv : decimalValue [Nat.digitChar i, Nat.digitChar j, Nat.digitChar k] =
        10 * (10 * i + j) + k := by
      simp [decimalValue, hvalue]
    rw [hv, h3 i j k (hlead i _ rfl (by simp))]
  | _ :: _ :: _ :: _ :: _, _, hlen, _, _ => simp at hlen

theorem octetText_plain (n : Fin 256) : '.' ∉ octetText n ∧ '/' ∉ octetText n := by
  revert n
  decide +kernel

theorem splitOn_text (x : IPv4Address) : x.text.toList.splitOn '.' = x.octets := by
  unfold IPv4Address.text
  rw [String.toList_ofList]
  refine List.splitOn_intercalate '.' ?_ (by simp [IPv4Address.octets])
  intro l hl
  simp only [IPv4Address.octets, List.mem_cons, List.not_mem_nil, or_false] at hl
  rcases hl with rfl | rfl | rfl | rfl
  · exact (octetText_plain _).1
  · exact (octetText_plain _).1
  · exact (octetText_plain _).1
  · exact (octetText_plain _).1

theorem slash_not_mem_text (x : IPv4Address) : '/' ∉ x.text.toList := by
  unfold IPv4Address.text
  rw [String.toList_ofList]
  have ha := (octetText_plain x.a).2
  have hb := (octetText_plain x.b).2
  have hc := (octetText_plain x.c).2
  have hd := (octetText_plain x.d).2
  simp [IPv4Address.octets, List.intercalate, List.intersperse, ha, hb, hc, hd]

theorem eq_octetText_of_map {l : List (List Char)} {ns : List (Fin 256)}
    (h : l.map parseOctet = ns.map some) : l = ns.map octetText := by
  induction l generalizing ns with
  | nil => rw [List.map_eq_nil_iff.mp h.symm, List.map_nil]
  | cons cs l ih =>
    cases ns with
    | nil => exact nomatch h
    | cons n ns =>
      obtain ⟨hcs, hl⟩ := List.cons.inj h
      rw [octetText_of_parseOctet hcs, ih hl]
      rfl

/-- **An address has one spelling**, the one that is printed. -/
theorem parseIPv4_iff {value : String} {x : IPv4Address} :
    parseIPv4 value = some x ↔ value = x.text := by
  constructor
  · intro h
    unfold parseIPv4 at h
    split at h
    · exact nomatch h
    split at h
    swap
    · exact nomatch h
    next hsplit =>
      obtain rfl := Option.some.inj h
      have hoctets := @eq_octetText_of_map _ [_, _, _, _] hsplit
      have htext : ['.'].intercalate (value.toList.splitOn '.') = value.toList :=
        List.intercalate_splitOn '.'
      rw [hoctets] at htext
      unfold IPv4Address.text
      rw [← String.ofList_toList (s := value), ← htext]
      rfl
  · rintro rfl
    unfold parseIPv4
    rw [if_neg (slash_not_mem_text x), splitOn_text]
    simp [IPv4Address.octets, parseOctet_octetText]

/-! ## the policy -/

/-- an address that no special-purpose network holds -/
structure IPv4Address.Routable (T : AddressTables) (x : IPv4Address) : Prop where
  notPrivate : x.isPrivate T = false
  notShared : x.inNetwork sharedNetwork = false
  notLoopback : x.inNetwork loopbackNetwork = false
  notLinkLocal : x.inNetwork linkLocalNetwork = false
  notMulticast : x.inNetwork multicastNetwork = false
  notReserved : x.inNetwork reservedNetwork = false
  specified : x.toNat ≠ 0

theorem routable_iff {T : AddressTables} {x : IPv4Address} : x.Routable T ↔
    ¬ (x.isGlobal T = false ∨ x.isPrivate T = true ∨ x.inNetwork loopbackNetwork = true ∨
      x.inNetwork linkLocalNetwork = true ∨ x.inNetwork multicastNetwork = true ∨
      x.inNetwork reservedNetwork = true ∨ x.toNat = 0) := by
  constructor
  · intro h
    simp [IPv4Address.isGlobal, h.notPrivate, h.notShared, h.notLoopback, h.notLinkLocal,
      h.notMulticast, h.notReserved, h.specified]
  · intro h
    simp only [IPv4Address.isGlobal, not_or, Bool.not_eq_false, Bool.not_eq_true,
      Bool.and_eq_true, Bool.not_eq_eq_eq_not] at h
    obtain ⟨⟨hshared, hprivate⟩, _, hloop, hlink, hmulti, hreserved, hzero⟩ := h
    exact ⟨hprivate, hshared, hloop, hlink, hmulti, hreserved, hzero⟩

/-- **What the policy accepts**, and that it returns it as it is: the one spelling of a routable
address. -/
theorem requirePublicIpv4_ok_iff {T : AddressTables} {value host : String} :
    requirePublicIpv4 T value = .ok host ↔
      host = value ∧ ∃ x : IPv4Address, value = x.text ∧ x.Routable T := by
  unfold requirePublicIpv4
  cases hparse : parseIPv4 value with
  | none =>
    refine iff_of_false ?_ fun h => ?_
    · dsimp only
      split
      · exact nofun
      · exact nofun
    · obtain ⟨_, x, hx, _⟩ := h
      exact nomatch hparse.symm.trans (parseIPv4_iff.mpr hx)
  | some x =>
    have htext := parseIPv4_iff.mp hparse
    dsimp only
    split
    next hspecial =>
      refine iff_of_false nofun fun h => ?_
      obtain ⟨_, y, hy, hroutable⟩ := h
      obtain rfl := Option.some.inj (hparse.symm.trans (parseIPv4_iff.mpr hy))
      exact routable_iff.mp hroutable hspecial
    next hspecial =>
      constructor
      · intro h
        exact ⟨(Except.ok.inj h).symm.trans htext.symm, x, htext, routable_iff.mpr hspecial⟩
      · intro h
        rw [h.1, ← htext]

theorem requirePort_ok_iff {port p : Int} :
    requirePort port = .ok p ↔ p = port ∧ 1 ≤ port ∧ port ≤ 65535 := by
  unfold requirePort
  split
  next h =>
    constructor
    · intro hp
      exact ⟨(Except.ok.inj hp).symm, h⟩
    · rintro ⟨rfl, _⟩
      rfl
  next h => exact iff_of_false nofun fun hp => h hp.2

end Dolores
