import DaemonBridge.Bridge
import DaemonBridge.Bridge.Link
import DaemonBridge.Bridge.Run
import DaemonBridge.Build
import DaemonBridge.Cache
import DaemonBridge.Client.Call
import DaemonBridge.Client.Connection
import DaemonBridge.Client.Dialogue
import DaemonBridge.Client.Wait
import DaemonBridge.Command
import DaemonBridge.Command.Wire
import DaemonBridge.CommandLine.Grammar
import DaemonBridge.CommandLine.Invocation
import DaemonBridge.CommandLine.Program
import DaemonBridge.Control.Endpoint
import DaemonBridge.Control.Operation
import DaemonBridge.Control.Reply
import DaemonBridge.Control.Request
import DaemonBridge.Control.Service
import DaemonBridge.Decimal.Shortest
import DaemonBridge.Dict
import DaemonBridge.Directory
import DaemonBridge.Directory.Wire
import DaemonBridge.Event
import DaemonBridge.Event.Wire
import DaemonBridge.Http.MediaType
import DaemonBridge.Http.Message
import DaemonBridge.Http.Reader
import DaemonBridge.Json.Any
import DaemonBridge.Json.Number
import DaemonBridge.Json.Reader
import DaemonBridge.Json.Shape
import DaemonBridge.Json.Tagged
import DaemonBridge.Json.Tree
import DaemonBridge.Json.Value
import DaemonBridge.Main
import DaemonBridge.Notification
import DaemonBridge.Notification.Notifier
import DaemonBridge.Notification.NotifySend
import DaemonBridge.Pipe
import DaemonBridge.Proofs.Bridge.Activity
import DaemonBridge.Proofs.Bridge.Caching
import DaemonBridge.Proofs.Bridge.Callers
import DaemonBridge.Proofs.Bridge.Flush
import DaemonBridge.Proofs.Bridge.Interleaving
import DaemonBridge.Proofs.Bridge.Issuing
import DaemonBridge.Proofs.Bridge.Progress
import DaemonBridge.Proofs.Bridge.Relay
import DaemonBridge.Proofs.Bridge.Secrecy
import DaemonBridge.Proofs.Bridge.Session
import DaemonBridge.Proofs.Cache.DeviceIndex
import DaemonBridge.Proofs.Cache.Snapshot
import DaemonBridge.Proofs.Cache.TornRefresh
import DaemonBridge.Proofs.Client.Correlation
import DaemonBridge.Proofs.Client.Exchange
import DaemonBridge.Proofs.Client.Hearing
import DaemonBridge.Proofs.Client.InProcess
import DaemonBridge.Proofs.Client.Inspected
import DaemonBridge.Proofs.Client.Inspection
import DaemonBridge.Proofs.Client.Polling
import DaemonBridge.Proofs.Client.Scene
import DaemonBridge.Proofs.Client.Serving
import DaemonBridge.Proofs.Client.Stages
import DaemonBridge.Proofs.Client.Talk
import DaemonBridge.Proofs.Client.TornPage
import DaemonBridge.Proofs.Command.Secrecy
import DaemonBridge.Proofs.Command.Wire
import DaemonBridge.Proofs.Control.Arrival
import DaemonBridge.Proofs.Control.Atomicity
import DaemonBridge.Proofs.Control.Secrecy
import DaemonBridge.Proofs.Control.Socket
import DaemonBridge.Proofs.Control.Wire
import DaemonBridge.Proofs.Directory.Wire
import DaemonBridge.Proofs.Event.Description
import DaemonBridge.Proofs.Event.Recognition
import DaemonBridge.Proofs.Event.Wire
import DaemonBridge.Proofs.Json.Decoding
import DaemonBridge.Proofs.Json.Grammar
import DaemonBridge.Proofs.Json.Meaning
import DaemonBridge.Proofs.Json.Members
import DaemonBridge.Proofs.Json.OneLine
import DaemonBridge.Proofs.Json.Pretty
import DaemonBridge.Proofs.Json.Reading
import DaemonBridge.Proofs.Json.Recognition
import DaemonBridge.Proofs.Json.Records
import DaemonBridge.Proofs.Notification.Arguments
import DaemonBridge.Proofs.Notification.Buttons
import DaemonBridge.Proofs.Notification.Noninterference
import DaemonBridge.Proofs.Pipe.Intake
import DaemonBridge.Proofs.Pipe.Lines
import DaemonBridge.Proofs.Pipe.Output
import DaemonBridge.Proofs.Pipe.Shuttle
import DaemonBridge.Proofs.Queue.Join
import DaemonBridge.Proofs.Queue.Overlap
import DaemonBridge.Proofs.Queue.Withdrawal
import DaemonBridge.Proofs.Settings.RoundTrip
import DaemonBridge.Proofs.Settings.Rules
import DaemonBridge.Proofs.Settings.Startup
import DaemonBridge.Proofs.Signal.Audience
import DaemonBridge.Proofs.Signal.History
import DaemonBridge.Proofs.Signal.Numbering
import DaemonBridge.Proofs.Signal.Retention
import DaemonBridge.Proofs.Signal.Wire
import DaemonBridge.Proofs.Store.Agreement
import DaemonBridge.Proofs.Text.ByteOrder
import DaemonBridge.Proofs.Text.Percent
import DaemonBridge.Proofs.Toml.Lines
import DaemonBridge.Proofs.Toml.Strings
import DaemonBridge.Proofs.Toml.Tables
import DaemonBridge.Proofs.Toml.Thinning
import DaemonBridge.Queue.Inbound
import DaemonBridge.Queue.Outbound
import DaemonBridge.Settings
import DaemonBridge.Settings.Wire
import DaemonBridge.Signal
import DaemonBridge.Signal.Log
import DaemonBridge.Signal.Wire
import DaemonBridge.Store
import DaemonBridge.Store.Snapshot
import DaemonBridge.Text.Blank
import DaemonBridge.Text.Numeral
import DaemonBridge.Text.Percent
import DaemonBridge.Text.Printable
import DaemonBridge.Text.Quoted
import DaemonBridge.Text.Utf8
import DaemonBridge.Toml.Document
import DaemonBridge.Toml.Printer
import DaemonBridge.Toml.Scalar
import DaemonBridge.Toml.Statement
import DaemonBridge.Toml.Token
import DaemonBridge.Toml.Value
import DaemonBridge.Proofs.Client.Moments
import DaemonBridge.Proofs.CommandLine.Printing
