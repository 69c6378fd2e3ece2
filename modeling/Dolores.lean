import Dolores.Lib.Crash
import Dolores.Lib.Dict
import Dolores.Py.Config
import Dolores.Score.Impl
import Dolores.Engine.Types
import Dolores.Archive.World
import Dolores.Wire.Impl
import Dolores.Lib.Except
import Dolores.Wire.Sound
import Dolores.Gate.Impl
import Dolores.Holdout.Impl
import Dolores.Bridge.Impl
import Dolores.Bridge.Sound
import Dolores.Panel.Impl
import Dolores.Chain.Impl
import Dolores.Chain.Sound
import Dolores.Epoch.Completion
import Dolores.Epoch.Impl
import Dolores.Epoch.Marker
import Dolores.Epoch.Aggregate
import Dolores.Epoch.Conclude
import Dolores.Epoch.Weights
import Dolores.Bridge.Frame
import Dolores.Epoch.Replay
import Dolores.Epoch.Budget
import Dolores.Lib.Expiry
import Dolores.Miner.Verifier
import Dolores.Chain.Live
import Dolores.Bridge.Isolation
import Dolores.Py.JsonRead
import Dolores.Py.JsonRoundTrip
import Dolores.Epoch.LogFile
import Dolores.Epoch.LogSurvival
import Dolores.Wire.Authentic
import Dolores.Validator.State
import Dolores.Validator.Commit
import Dolores.Epoch.Outcome
import Dolores.Validator.Durable
import Dolores.Validator.Settle
import Dolores.Epoch.Blind
import Dolores.Epoch.Permute
import Dolores.Chain.Order
import Dolores.Epoch.Order
import Dolores.Bridge.Infra
import Dolores.Chain.Payload
import Dolores.Epoch.Decay
import Dolores.Epoch.LogRace
import Dolores.Epoch.TaskValues
import Dolores.Holdout.Probes
import Dolores.Panel.CacheFile
import Dolores.Panel.CacheRuns
import Dolores.Atomic.Impl
import Dolores.Atomic.Law
import Dolores.Chain.Deadline
import Dolores.Gate.Packaging
import Dolores.Gate.RoundTrip
import Dolores.Holdout.Encoding
import Dolores.Holdout.Leak
import Dolores.Lib.Budget
import Dolores.Lib.Journal
import Dolores.Miner.Admission
import Dolores.Miner.RateLimit
import Dolores.Py.JsonKeys
import Dolores.Validator.Calls
import Dolores.Validator.Codec
import Dolores.Validator.EmaLaw
import Dolores.Validator.PreSeam
import Dolores.Validator.Raises
import Dolores.Validator.StoreRuns
import Dolores.Validator.TickCommand
import Dolores.Validator.TickLawful
import Dolores.Validator.TickRuns
import Dolores.Atomic.Lock
import Dolores.Atomic.LockLaw
import Dolores.Lib.Canonical
import Dolores.Lib.PathWalk
import Dolores.Release.Accepted
import Dolores.Release.Law
import Dolores.Validator.StoreDir
import Dolores.Validator.TickLock
import Dolores.Endpoint.Discovery
import Dolores.Miner.Publish
import Dolores.Validator.Configure
import Dolores.Validator.Wedge
import Dolores.Release.Normalize
import Dolores.Miner.Doctor
import Dolores.Validator.Health
import Dolores.Lib.Isolation
import Dolores.Miner.Flood
