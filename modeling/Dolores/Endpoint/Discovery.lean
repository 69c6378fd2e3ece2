import Dolores.Endpoint.Impl
import Dolores.Validator.TickCommand

/-!
# Discovery (`chain.py`, `endpoints.py`)

The miner asks whether the metagraph shows exactly its endpoint; the validator makes its list of
endpoints from the metagraph.

* `minerEndpointRows_iff`  the rows that the substrate gives for a metagraph;
* `discovered_iff_exact`   on the public network the validator lists an endpoint exactly when the
                           miner reads it back.
-/

set_option linter.unusedSectionVars false

namespace Dolores
open Crash Except

/-- `bt.AxonInfo`, as far as it is read -/
structure AxonInfo where
  ip : String
  port : Int
  coldkey : String

/-- the metagraph of a subnet -/
structure Metagraph where
  hotkeys : List String
  uids : List Int
  axons : List AxonInfo

namespace Metagraph

variable (m : Metagraph)

/-- `_Substrate.hotkey_uid` -/
def hotkeyUid (hotkey : String) : Option Int :=
  if hotkey ∉ m.hotkeys then none
  else
    let index := m.hotkeys.idxOf hotkey
    some ((m.uids[index]?).getD index)

/-- `metagraph_has_exact_axon` -/
def hasExactAxon (hotkey host : String) (port : Int) : Bool :=
  if hotkey ∉ m.hotkeys then false
  else
    match m.axons[m.hotkeys.idxOf hotkey]? with
    | none => false
    | some axon => axon.ip == host && axon.port == port

def unpublishedHosts : List String := ["", "0.0.0.0", "::", "[::]"]

/-- the row of an endpoint -/
def endpointRow (hotkey : String) (index : Nat) (axon : AxonInfo) : Obj := [
  ("host", .str axon.ip),
  ("port", .int axon.port),
  ("hotkey", .str hotkey),
  ("uid", .int ((m.hotkeyUid hotkey).getD index)),
  ("coldkey", .str axon.coldkey)]

/-- the body of the loop of `_Substrate.miner_endpoints` -/
def endpointAt (excludeHotkey : String) (p : String × Nat) : Option Obj :=
  match m.axons[p.2]? with
  | none => none
  | some axon =>
    if p.1 = excludeHotkey then none
    else if axon.port ≤ 0 ∨ axon.ip ∈ unpublishedHosts then none
    else some (m.endpointRow p.1 p.2 axon)

/-- `_Substrate.miner_endpoints` -/
def minerEndpointRows (excludeHotkey : String) : List Obj :=
  m.hotkeys.zipIdx.filterMap (m.endpointAt excludeHotkey)

end Metagraph

section
variable (T : AddressTables) (text : PyText)

/-- `require_public_ipv4(str(endpoint.get("host", "")))`, with the returned host put back -/
def publicEndpoint (endpoint : Obj) : Option Obj :=
  match requirePublicIpv4 T (((Dict.get? endpoint "host").getD (.str "")).pyStr text) with
  | .ok host => some (Dict.set endpoint "host" (.str host))
  | .error _ => none

/-- what `SubtensorChain.miner_endpoints` does with the rows of the substrate -/
def discoveredEndpoints (network : String) (endpoints : List Obj) : List Obj :=
  if network ≠ "test" then endpoints else endpoints.filterMap (publicEndpoint T text)

end

/-! ## the rows -/

section
variable {T : AddressTables} {text : PyText} {m : Metagraph} {hotkey host excludeHotkey : String}
  {port : Int} {row : Obj}

theorem Metagraph.hasExactAxon_iff : m.hasExactAxon hotkey host port = true ↔
    ∃ axon, hotkey ∈ m.hotkeys ∧ m.axons[m.hotkeys.idxOf hotkey]? = some axon ∧
      axon.ip = host ∧ axon.port = port := by
  unfold hasExactAxon
  split
  next hnot => exact iff_of_false nofun fun ⟨_, h, _⟩ => hnot h
  next hmem =>
    replace hmem := not_not.mp hmem
    cases haxon : m.axons[m.hotkeys.idxOf hotkey]? with
    | none => exact iff_of_false nofun fun ⟨_, _, h, _⟩ => nomatch h
    | some axon =>
      dsimp only
      rw [Bool.and_eq_true, beq_iff_eq, beq_iff_eq]
      constructor
      · intro h
        exact ⟨axon, hmem, rfl, h⟩
      · rintro ⟨axon', _, haxon', h⟩
        obtain rfl := Option.some.inj haxon'
        exact h

theorem Metagraph.minerEndpointRows_iff : row ∈ m.minerEndpointRows excludeHotkey ↔
    ∃ hotkey index axon, m.hotkeys[index]? = some hotkey ∧ m.axons[index]? = some axon ∧
      hotkey ≠ excludeHotkey ∧ 0 < axon.port ∧ axon.ip ∉ unpublishedHosts ∧
      row = m.endpointRow hotkey index axon := by
  unfold minerEndpointRows
  rw [List.mem_filterMap]
  constructor
  · rintro ⟨⟨hotkey, index⟩, hmem, hrow⟩
    rw [List.mk_mem_zipIdx_iff_getElem?] at hmem
    unfold endpointAt at hrow
    dsimp only at hrow
    split at hrow
    · exact nomatch hrow
    next axon haxon =>
    split at hrow
    · exact nomatch hrow
    next hne =>
    split at hrow
    · exact nomatch hrow
    next hshown =>
    rw [not_or, not_le] at hshown
    exact ⟨hotkey, index, axon, hmem, haxon, hne, hshown.1, hshown.2, (Option.some.inj hrow).symm⟩
  · rintro ⟨hotkey, index, axon, hhotkey, haxon, hne, hport, hhost, rfl⟩
    refine ⟨(hotkey, index), List.mk_mem_zipIdx_iff_getElem?.mpr hhotkey, ?_⟩
    unfold endpointAt
    dsimp only
    rw [haxon]
    dsimp only
    rw [if_neg hne, if_neg (not_or.mpr ⟨not_le.mpr hport, hhost⟩)]

/-- the host of a public endpoint is the text of a routable address, and stays as it is -/
theorem publicEndpoint_iff {endpoint : Obj} {value : String}
    (hhost : Dict.get? endpoint "host" = some (.str value)) :
    publicEndpoint T text endpoint = some row ↔
      (∃ x : IPv4Address, value = x.text ∧ x.Routable T) ∧
        row = Dict.set endpoint "host" (.str value) := by
  unfold publicEndpoint
  rw [hhost]
  show (match requirePublicIpv4 T value with
    | .ok host => some (Dict.set endpoint "host" (.str host))
    | .error _ => none) = some row ↔ _
  cases hpublic : requirePublicIpv4 T value with
  | error e =>
    refine iff_of_false nofun fun h => ?_
    exact nomatch hpublic.symm.trans (requirePublicIpv4_ok_iff.mpr ⟨rfl, h.1⟩)
  | ok host =>
    obtain ⟨rfl, hroutable⟩ := requirePublicIpv4_ok_iff.mp hpublic
    constructor
    · intro h
      exact ⟨hroutable, (Option.some.inj h).symm⟩
    · rintro ⟨_, rfl⟩
      rfl

theorem not_unpublished_of_routable {x : IPv4Address} (h : x.Routable T) :
    x.text ∉ Metagraph.unpublishedHosts := by
  intro hmem
  have hparse : parseIPv4 x.text = some x := parseIPv4_iff.mpr rfl
  simp only [Metagraph.unpublishedHosts, List.mem_cons, List.not_mem_nil, or_false] at hmem
  rcases hmem with ht | ht | ht | ht
  · rw [ht] at hparse
    exact nomatch hparse.symm.trans (by decide +kernel : parseIPv4 "" = none)
  · rw [ht] at hparse
    have hzero := hparse.symm.trans (by decide +kernel : parseIPv4 "0.0.0.0" = some ⟨0, 0, 0, 0⟩)
    rw [Option.some.inj hzero] at h
    exact h.specified rfl
  · rw [ht] at hparse
    exact nomatch hparse.symm.trans (by decide +kernel : parseIPv4 "::" = none)
  · rw [ht] at hparse
    exact nomatch hparse.symm.trans (by decide +kernel : parseIPv4 "[::]" = none)

/-- what the validator lists on the public network -/
theorem discovered_iff : row ∈ discoveredEndpoints T text "test" (m.minerEndpointRows excludeHotkey) ↔
    ∃ hotkey index axon, m.hotkeys[index]? = some hotkey ∧ m.axons[index]? = some axon ∧
      hotkey ≠ excludeHotkey ∧ 0 < axon.port ∧ (∃ x : IPv4Address, axon.ip = x.text ∧ x.Routable T) ∧
      row = m.endpointRow hotkey index axon := by
  unfold discoveredEndpoints
  rw [if_neg (by simp), List.mem_filterMap]
  constructor
  · rintro ⟨endpoint, hmem, hpublic⟩
    obtain ⟨hotkey, index, axon, hhotkey, haxon, hne, hport, _, rfl⟩ :=
      Metagraph.minerEndpointRows_iff.mp hmem
    obtain ⟨hroutable, hrow⟩ := (publicEndpoint_iff rfl).mp hpublic
    exact ⟨hotkey, index, axon, hhotkey, haxon, hne, hport, hroutable, hrow⟩
  · rintro ⟨hotkey, index, axon, hhotkey, haxon, hne, hport, ⟨x, hx, hroutable⟩, rfl⟩
    refine ⟨m.endpointRow hotkey index axon, Metagraph.minerEndpointRows_iff.mpr ?_,
      (publicEndpoint_iff rfl).mpr ⟨⟨x, hx, hroutable⟩, rfl⟩⟩
    refine ⟨hotkey, index, axon, hhotkey, haxon, hne, hport, ?_, rfl⟩
    rw [hx]
    exact not_unpublished_of_routable hroutable

/-- what the miner reads back is listed -/
theorem discovered_of_exact (h : m.hasExactAxon hotkey host port = true) (hport : 0 < port)
    (hroutable : ∃ x : IPv4Address, host = x.text ∧ x.Routable T) (hne : hotkey ≠ excludeHotkey) :
    ∃ coldkey uid, m.hotkeyUid hotkey = some uid ∧
      [("host", .str host), ("port", .int port), ("hotkey", .str hotkey), ("uid", .int uid),
        ("coldkey", .str coldkey)] ∈
        discoveredEndpoints T text "test" (m.minerEndpointRows excludeHotkey) := by
  obtain ⟨axon, hmem, haxon, rfl, rfl⟩ := Metagraph.hasExactAxon_iff.mp h
  have huid : ∃ uid, m.hotkeyUid hotkey = some uid := by
    unfold Metagraph.hotkeyUid
    rw [if_neg (not_not.mpr hmem)]
    exact ⟨_, rfl⟩
  obtain ⟨uid, huid⟩ := huid
  have hindex : m.hotkeys[m.hotkeys.idxOf hotkey]? = some hotkey := by
    rw [List.getElem?_eq_getElem (List.idxOf_lt_length_of_mem hmem), List.getElem_idxOf]
  refine ⟨axon.coldkey, uid, huid, discovered_iff.mpr
    ⟨hotkey, _, axon, hindex, haxon, hne, hport, hroutable, ?_⟩⟩
  unfold Metagraph.endpointRow
  rw [huid]
  rfl

theorem idxOf_of_count_le_one {l : List String} {a : String} {i : Nat} (h : l[i]? = some a)
    (hcount : l.count a ≤ 1) : l.idxOf a = i := by
  obtain ⟨hlt, hget⟩ := List.getElem?_eq_some_iff.mp h
  have hsplit : l = l.take i ++ a :: l.drop (i + 1) := by
    rw [← hget, List.cons_getElem_drop_succ, List.take_append_drop]
  have hnot : a ∉ l.take i := by
    rw [hsplit, List.count_append, List.count_cons_self] at hcount
    exact List.count_eq_zero.mp (by omega)
  rw [hsplit, List.idxOf_append_of_notMem hnot, List.idxOf_cons_self, List.length_take]
  omega

/-- **The validator lists an endpoint exactly when the miner reads it back.** On the public network,
an endpoint of another hotkey, which is registered once, is among the discovered ones exactly when
the metagraph shows exactly this axon, at a usable port of a routable address. -/
theorem discovered_iff_exact (T : AddressTables) (text : PyText) (m : Metagraph)
    (hotkey host excludeHotkey : String) (port : Int) (hregistered : m.hotkeys.count hotkey ≤ 1)
    (hne : hotkey ≠ excludeHotkey) :
    (∃ row ∈ discoveredEndpoints T text "test" (m.minerEndpointRows excludeHotkey),
      row.get "host" = .str host ∧ row.get "port" = .int port ∧ row.get "hotkey" = .str hotkey) ↔
    m.hasExactAxon hotkey host port = true ∧ 0 < port ∧
      ∃ x : IPv4Address, host = x.text ∧ x.Routable T := by
  constructor
  · rintro ⟨row, hmem, hhost, hport, hhotkey⟩
    obtain ⟨hotkey', index, axon, hindex, haxon, _, hpos, hroutable, rfl⟩ := discovered_iff.mp hmem
    obtain rfl := Json.str.inj (hhost : Json.str axon.ip = _)
    obtain rfl := Json.int.inj (hport : Json.int axon.port = _)
    obtain rfl := Json.str.inj (hhotkey : Json.str hotkey' = _)
    obtain ⟨hlt, hget⟩ := List.getElem?_eq_some_iff.mp hindex
    refine ⟨Metagraph.hasExactAxon_iff.mpr ⟨axon, ?_, ?_, rfl, rfl⟩, hpos, hroutable⟩
    · rw [← hget]
      exact List.getElem_mem hlt
    · rw [idxOf_of_count_le_one hindex hregistered]
      exact haxon
  · rintro ⟨hexact, hpos, hroutable⟩
    obtain ⟨coldkey, uid, _, hrow⟩ := @discovered_of_exact T text _ _ _ _ _ hexact hpos hroutable hne
    exact ⟨_, hrow, rfl, rfl, rfl⟩

/-- the validator, a miner that serves in public, and one that serves at home -/
def publicMetagraph : Metagraph where
  hotkeys := ["v", "a", "b"]
  uids := [0, 1, 2]
  axons := [⟨"0.0.0.0", 0, "cv"⟩, ⟨"93.184.216.34", 8091, "ca"⟩, ⟨"127.0.0.1", 8091, "cb"⟩]

theorem discovered_iff_exact_sample :
    (∃ row ∈ discoveredEndpoints ⟨[], [], fun _ => false⟩ Env.plain.text "test"
        (publicMetagraph.minerEndpointRows "v"),
      row.get "host" = .str "93.184.216.34" ∧ row.get "port" = .int 8091 ∧
        row.get "hotkey" = .str "a") := by
  refine (discovered_iff_exact ⟨[], [], fun _ => false⟩ Env.plain.text publicMetagraph "a"
    "93.184.216.34" "v" 8091 (by decide) (by decide)).mpr ⟨by decide, by decide, ⟨93, 184, 216, 34⟩, by decide +kernel, ?_⟩
  exact ⟨by decide, by decide, by decide, by decide, by decide, by decide, by decide⟩

end

end Dolores
