import Dolores.Py.Json

/-!
# Configuration (`config.py`)

The fields of `SubnetConfig` that the modelled functions read, the network allowlist, and the
constants they share.
-/

namespace Dolores

def schemaVersion : String := "dolores-subnet-v1"
def specVersion : Int := 1
def maxPackageBytes : Int := 200 * 1024
def maxResponseBytes : Int := 1024 * 1024
def defaultQuota : Int := 4

inductive Mode where
  | mock
  | offline
  | wire
  | localnet
  | testnet
deriving DecidableEq, Repr

inductive Backend where
  | local
  | docker
deriving DecidableEq, Repr

inductive PanelMode where
  | mock
  | calibrate
deriving DecidableEq, Repr

structure SubnetConfig where
  mode : Mode := .mock
  panelPath : String := "solver_panel.mock.yaml"
  panelCalibratePath : String := "solver_panel.calibrate.yaml"
  verifierImage : String := "dolores-verifier-pytest:0.2.0rc2"
  backend : Backend := .local
  pipelineMode : String := "fixture"
  network : Option String := none
  netuid : Option Int := none
  maxPackageBytes : Int := Dolores.maxPackageBytes
  maxResponseBytes : Int := Dolores.maxResponseBytes
  quota : Int := defaultQuota
  emaAlpha : ℚ := 3 / 10
  specVersion : Int := Dolores.specVersion
  allowCommitReveal : Bool := false
  panelMode : PanelMode := .mock
  panelMaxTasks : Int := 8
  panelDryRun : Bool := false
  allowProviderSpend : Bool := false
  holdoutRequired : Bool := false
  holdoutSecret : Option String := none

def safeChainNetworks : List String := ["test", "ws://127.0.0.1:9944", "ws://127.0.0.1:9945"]

/-- `assert_safe_network`: every refusal is a `NetworkSafetyError`, a `ValueError` -/
def assertSafeNetwork (network : String) : Except Exn String :=
  let raw := network.trimAscii.toString
  if raw = "" then .error (.valueError "refusing to use an unset Bittensor network")
  else if raw ∈ safeChainNetworks then .ok raw
  else .error (.valueError s!"network {raw} is not allowlisted")

end Dolores
