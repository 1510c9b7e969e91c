import SwarmP2p.Library.Chain
import SwarmP2p.Library.Channel
import SwarmP2p.Library.Deferred
import SwarmP2p.Library.History
import SwarmP2p.Library.Interruptible
import SwarmP2p.Library.Reader
import SwarmP2p.Library.Tally
import SwarmP2p.Library.Transition
import SwarmP2p.Model.Command
import SwarmP2p.Model.CommandChain
import SwarmP2p.Model.DataChannel
import SwarmP2p.Model.EventLoop
import SwarmP2p.Model.Identity
import SwarmP2p.Model.Libp2p
import SwarmP2p.Model.Loopback
import SwarmP2p.Model.Network
import SwarmP2p.Model.Node
import SwarmP2p.Model.PendingMap
import SwarmP2p.Model.Timed
import SwarmP2p.Model.Types
import SwarmP2p.Verification.Call.Answer
import SwarmP2p.Verification.Call.Cancelled
import SwarmP2p.Verification.Call.Connection
import SwarmP2p.Verification.Call.Desk
import SwarmP2p.Verification.Call.Dispatch
import SwarmP2p.Verification.Call.Enqueue
import SwarmP2p.Verification.Call.Invariant
import SwarmP2p.Verification.Call.Isolation
import SwarmP2p.Verification.Call.OneShot
import SwarmP2p.Verification.Call.Order
import SwarmP2p.Verification.Call.Origin
import SwarmP2p.Verification.Call.Phases
import SwarmP2p.Verification.Call.Prompt
import SwarmP2p.Verification.Call.Stranded
import SwarmP2p.Verification.Call.Timed
import SwarmP2p.Verification.Call.Turn
import SwarmP2p.Verification.Call.Wakeup
import SwarmP2p.Verification.Command.Contract
import SwarmP2p.Verification.DataChannel.Accounts
import SwarmP2p.Verification.DataChannel.Delivery
import SwarmP2p.Verification.DataChannel.Limits
import SwarmP2p.Verification.DataChannel.Quota
import SwarmP2p.Verification.DataChannel.Registry
import SwarmP2p.Verification.DataChannel.Streams
import SwarmP2p.Verification.Dial.Addresses
import SwarmP2p.Verification.Dial.Answer
import SwarmP2p.Verification.EventLoop.Chain
import SwarmP2p.Verification.EventLoop.Delivery
import SwarmP2p.Verification.EventLoop.Frame
import SwarmP2p.Verification.EventLoop.Received
import SwarmP2p.Verification.EventLoop.Reports
import SwarmP2p.Verification.EventLoop.Uses
import SwarmP2p.Verification.Frontend.Deadlock
import SwarmP2p.Verification.Identity.Crash
import SwarmP2p.Verification.Kad.Membership
import SwarmP2p.Verification.LanHelper.Advertised
import SwarmP2p.Verification.LanHelper.Direct
import SwarmP2p.Verification.LanHelper.Statuses
import SwarmP2p.Verification.Network.Agreement
import SwarmP2p.Verification.Network.Asking
import SwarmP2p.Verification.Network.Replies
import SwarmP2p.Verification.Node.Addresses
import SwarmP2p.Verification.Node.Causes
import SwarmP2p.Verification.Node.Run
import SwarmP2p.Verification.Node.Shutdown
import SwarmP2p.Verification.Node.Unheard
import SwarmP2p.Verification.Peer.Connected
import SwarmP2p.Verification.Peer.Presence
import SwarmP2p.Verification.PendingMap.Ledger
import SwarmP2p.Verification.Query.Answers
import SwarmP2p.Verification.Query.Providers
import SwarmP2p.Verification.Query.Record
import SwarmP2p.Verification.Query.Stats
import SwarmP2p.Verification.Query.Steps
import SwarmP2p.Verification.Relay.Address
import SwarmP2p.Verification.Relay.Order
import SwarmP2p.Verification.Relay.Registrations
import SwarmP2p.Verification.Relay.Repeats
import SwarmP2p.Verification.Relay.Reservations
import SwarmP2p.Verification.Relay.Sessions
import SwarmP2p.Verification.Response.Accounts
import SwarmP2p.Verification.Response.Atomicity
import SwarmP2p.Verification.Response.Pairing
import SwarmP2p.Verification.Swarm.Calls
import SwarmP2p.Verification.Swarm.Connections
import SwarmP2p.Verification.Swarm.Uses
