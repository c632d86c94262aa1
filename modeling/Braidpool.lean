import Braidpool.Runtime.Machine
import Braidpool.Runtime.Select
import Braidpool.Runtime.Registry
import Braidpool.Protocol.Message
import Braidpool.Protocol.Codec
import Braidpool.Protocol.RoundTrip
import Braidpool.Connection.Start
import Braidpool.Connection.Moves
import Braidpool.Connection.Endpoint
import Braidpool.Connection.Delivery
import Braidpool.Connection.Lag
import Braidpool.Node.Main
import Braidpool.Node.System
import Braidpool.Node.Components
import Braidpool.Node.Table
import Braidpool.Node.Receivers
import Braidpool.Node.Connect
import Braidpool.Node.Notifier
import Braidpool.Node.Heartbeats
import Braidpool.Connection.Link
import Braidpool.Connection.Backlog
import Braidpool.Connection.Greeting
import Braidpool.Runtime.Log
import Braidpool.Uhpo.Bitcoin
import Braidpool.Uhpo.Digest
import Braidpool.Uhpo.Signature
import Braidpool.Uhpo.InputIndex
import Braidpool.Uhpo.PayoutUpdate
import Braidpool.Uhpo.Signing
import Braidpool.Uhpo.Creation
import Braidpool.Uhpo.Outcome
import Braidpool.Uhpo.KeySpend
import Braidpool.Uhpo.Chain
import Braidpool.Uhpo.Witnesses
import Braidpool.Ledger.Unspent
import Braidpool.Uhpo.Ledger
import Braidpool.Uhpo.Order
import Braidpool.Uhpo.Rivals
import Braidpool.Node.Limits
import Braidpool.Node.Traffic
import Braidpool.Runtime.Trace
import Braidpool.Node.Independence
import Braidpool.Node.Shutdown
import Braidpool.Node.Memory
import Braidpool.Node.Service
import Braidpool.Network.System
import Braidpool.Network.Overflow
import Braidpool.Network.Rest
import Braidpool.Network.Links
import Braidpool.Connection.Drain
import Braidpool.Connection.Relay
import Braidpool.Connection.Settle
