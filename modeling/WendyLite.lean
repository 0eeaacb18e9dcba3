import WendyLite.Babel.Feasibility
import WendyLite.Babel.Admission
import WendyLite.Babel.Suppression
import WendyLite.Babel.Checkpoint
import WendyLite.Gossip.Exchange
import WendyLite.Core.Exclusion
import WendyLite.Pki.Uniqueness
import WendyLite.Babel.DecodeWalk
import WendyLite.Com.Permissions
import WendyLite.Pki.Reset
import WendyLite.Pki.Resumption
import WendyLite.Net.Notify
import WendyLite.Ble.Isolation
import WendyLite.Babel.Lookup
import WendyLite.Babel.Readiness
import WendyLite.Babel.Refusal
import WendyLite.Gossip.Lending
import WendyLite.Carrier.Queues
import WendyLite.Pki.Time
import WendyLite.Wasm.Stop
import WendyLite.Pki.Date
import WendyLite.Ble.Transmit
import WendyLite.Com.Serial
import WendyLite.Console.Progress
import WendyLite.Pki.Observation
import WendyLite.Pki.TlsInput
