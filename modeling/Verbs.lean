import Verbs.Config
import Verbs.Proofs.Device.Cascade
import Verbs.Proofs.Table
import Verbs.Queue.Sleepers
import Verbs.Session.Run
import Verbs.Wire.Cursor
import Verbs.Proofs.Device.Post
import Verbs.Proofs.Device.Run
import Verbs.Proofs.Device.Balance
import Verbs.Proofs.Device.Once
import Verbs.Proofs.Executor.Crew
import Verbs.Proofs.Executor.Life
import Verbs.Proofs.Executor.Closing
import Verbs.Proofs.Executor.Disposal
import Verbs.Proofs.Executor.Alone
import Verbs.Proofs.Executor.Growth
import Verbs.Proofs.Pipeline.System
import Verbs.Proofs.Pipeline.Flow
import Verbs.Proofs.Pipeline.Ledger
import Verbs.Proofs.Pipeline.Owners
import Verbs.Proofs.Pipeline.Resolution
import Verbs.Proofs.Memory.Spots
import Verbs.Proofs.Device.Landing
import Verbs.Proofs.Device.Turns
import Verbs.Proofs.Device.Matching
import Verbs.Proofs.Device.Receives
import Verbs.Proofs.Device.TwoSided
import Verbs.Proofs.Pipeline.Alone
import Verbs.Proofs.Device.Identity
import Verbs.Proofs.Device.Reach
import Verbs.Proofs.Device.Admission
import Verbs.Proofs.Device.SendOrder
import Verbs.Proofs.Memory.Access
import Verbs.Proofs.Device.Protection
import Verbs.Proofs.Device.Flushing
import Verbs.Proofs.Device.Lifecycle
import Verbs.Proofs.Linkage
import Verbs.Proofs.Executor.Teardown
import Verbs.Proofs.Setup.Agreement
import Verbs.Proofs.Executor.Solo
import Verbs.Proofs.Poller.Relay
import Verbs.Proofs.Poller.Forwarding
import Verbs.Proofs.Wire.Roundtrip
import Verbs.Proofs.Queue.Wakeups
import Verbs.Proofs.Device.Addresses
import Verbs.Proofs.Device.Routing
import Verbs.Proofs.Device.Timing
import Verbs.Proofs.Memory.Keys
import Verbs.Proofs.Device.Registrations
import Verbs.Proofs.Setup.Scripts
import Verbs.Proofs.Setup.Attempts
import Verbs.Proofs.Setup.Reading
import Verbs.Proofs.Pipeline.Refusals
import Verbs.Proofs.Device.Aftermath
import Verbs.Proofs.Poller.Claimants
import Verbs.Proofs.Poller.Tenure
import Verbs.Proofs.Device.Lengths
import Verbs.Proofs.Memory.Transfer
import Verbs.Proofs.Device.Direct
import Verbs.Proofs.Memory.Slicing
import Verbs.Proofs.Link.Binding
import Verbs.Proofs.Completion.Polling
import Verbs.Proofs.Memory.Words
import Verbs.Proofs.Device.Atomics
import Verbs.Proofs.Device.Narrowing
import Verbs.Proofs.Memory.Scattering
import Verbs.Proofs.Queue.History
import Verbs.Proofs.Device.Outstanding
import Verbs.Proofs.Registry
import Verbs.Proofs.Registry.Traffic
import Verbs.Proofs.Registry.Departures
import Verbs.Proofs.Registry.Emptying
