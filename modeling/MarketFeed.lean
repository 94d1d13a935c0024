import MarketFeed.Binary64
import MarketFeed.Callback
import MarketFeed.Client
import MarketFeed.Client.Calls
import MarketFeed.Client.Connect
import MarketFeed.Client.Reply
import MarketFeed.Event
import MarketFeed.Failure
import MarketFeed.Journal
import MarketFeed.Json.Lexer
import MarketFeed.Json.Literal
import MarketFeed.Json.Spelling
import MarketFeed.Json.Token
import MarketFeed.Json.Value
import MarketFeed.Lane
import MarketFeed.Lane.Run
import MarketFeed.Lifecycle
import MarketFeed.Listeners
import MarketFeed.Listeners.Script
import MarketFeed.Loopback
import MarketFeed.Loopback.Run
import MarketFeed.Mailbox
import MarketFeed.Mailbox.Shared
import MarketFeed.Queue
import MarketFeed.Record.Layout
import MarketFeed.Record.Payload
import MarketFeed.Request
import MarketFeed.Request.Address
import MarketFeed.Request.Validity
import MarketFeed.Session.Host
import MarketFeed.Session.Pump
import MarketFeed.Session.Run
import MarketFeed.Session.State
import MarketFeed.Settings
import MarketFeed.Text.Hidden
import MarketFeed.Text.Quoted
import MarketFeed.Vendor
import MarketFeed.Worker
import MarketFeed.Worker.Run
import MarketFeed.Proofs.Lane.Order
import MarketFeed.Proofs.Vendor.Protocol
import MarketFeed.Proofs.Worker.Flags
import MarketFeed.Proofs.Worker.Handle
import MarketFeed.Proofs.Lane.Handle
import MarketFeed.Proofs.Lane.Handover
import MarketFeed.Proofs.Lane.Receiver
import MarketFeed.Proofs.Lane.Due
import MarketFeed.Proofs.Lifecycle
import MarketFeed.Proofs.Lifecycle.Race
import MarketFeed.Proofs.Lifecycle.Signal
import MarketFeed.Proofs.Mailbox
import MarketFeed.Proofs.Mailbox.Steps
import MarketFeed.Proofs.Mailbox.Wakeup
import MarketFeed.Proofs.Places
import MarketFeed.Proofs.Mailbox.Alone
import MarketFeed.Proofs.Session.Agreement
import MarketFeed.Proofs.Session.Change
import MarketFeed.Proofs.Session.Closing
import MarketFeed.Proofs.Session.Completion
import MarketFeed.Proofs.Session.Dispatch
import MarketFeed.Proofs.Session.Exit
import MarketFeed.Proofs.Session.Handle
import MarketFeed.Proofs.Session.Trace
import MarketFeed.Proofs.Session.Offer
import MarketFeed.Proofs.Worker.Course
import MarketFeed.Proofs.Session.Admission
import MarketFeed.Proofs.Session.Pipelining
import MarketFeed.Proofs.Loopback.Line
import MarketFeed.Proofs.Loopback.Block
import MarketFeed.Proofs.Loopback.Stream
import MarketFeed.Proofs.Lane.Map
import MarketFeed.Proofs.Session.Bare
import MarketFeed.Proofs.Session.Course
import MarketFeed.Proofs.Session.Code
import MarketFeed.Proofs.Session.Recoding
import MarketFeed.Proofs.Session.Panics
import MarketFeed.Proofs.Session.Refusal
import MarketFeed.Proofs.Session.Plan
import MarketFeed.Proofs.Session.Purge
import MarketFeed.Proofs.Worker.Steady
import MarketFeed.Proofs.Worker.Release
import MarketFeed.Proofs.Worker.Result
import MarketFeed.Proofs.Session.Quiet
import MarketFeed.Proofs.Client.Course
import MarketFeed.Proofs.Client.Plan
import MarketFeed.Proofs.Client.Calls
import MarketFeed.Proofs.Client.Connect
import MarketFeed.Proofs.Client.Rest
import MarketFeed.Proofs.Client.Reply
import MarketFeed.Proofs.Mailbox.Accounts
import MarketFeed.Proofs.Listeners
import MarketFeed.Proofs.Session.Streams
import MarketFeed.Proofs.Client.Streams
import MarketFeed.Proofs.Json.Literal
import MarketFeed.Proofs.Json.Lexer
import MarketFeed.Proofs.Json.Reader
import MarketFeed.Proofs.Json.Compact
import MarketFeed.Proofs.Record.Layout
import MarketFeed.Proofs.Record.Payload
import MarketFeed.Proofs.Record.Members
import MarketFeed.Proofs.Mailbox.Callbacks
import MarketFeed.Loopback.Course
import MarketFeed.Proofs.Loopback.Newest
import MarketFeed.Queue.Shared
import MarketFeed.Proofs.Queue.Steps
import MarketFeed.Proofs.Queue.Wakeup
import MarketFeed.Proofs.Queue.Interleaving
import MarketFeed.Proofs.Queue.Delivery
import MarketFeed.Loopback.Shared
import MarketFeed.Proofs.Loopback.Steps
import MarketFeed.Proofs.Loopback.Callers
import MarketFeed.Proofs.Loopback.InTime
import MarketFeed.Proofs.Loopback.Alone
