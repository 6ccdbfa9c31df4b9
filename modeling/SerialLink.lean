import SerialLink.Bench.Hearing
import SerialLink.Bench.Reading
import SerialLink.Bench.Sessions
import SerialLink.Bytes
import SerialLink.Connection.Basic
import SerialLink.Connection.Machine
import SerialLink.Connection.Step
import SerialLink.Connection.Task
import SerialLink.Device
import SerialLink.Document.Config
import SerialLink.Document.Dialect
import SerialLink.Driver
import SerialLink.Event.Hotplug
import SerialLink.Event.Subscribers
import SerialLink.Json.Dialect
import SerialLink.Json.Forms
import SerialLink.Json.Parser
import SerialLink.Json.Printer
import SerialLink.Json.Token
import SerialLink.Json.Value
import SerialLink.Line
import SerialLink.Main
import SerialLink.Monitor.Attached
import SerialLink.Monitor.CommandLine
import SerialLink.Monitor.Config
import SerialLink.Monitor.Error
import SerialLink.Monitor.Help
import SerialLink.Monitor.Load
import SerialLink.Monitor.LogLevel
import SerialLink.Monitor.Payload
import SerialLink.Net.Address
import SerialLink.Number.Binary64
import SerialLink.Number.Scaled
import SerialLink.Number.Shortest
import SerialLink.Port.Error
import SerialLink.Port.Native
import SerialLink.Port.Scripted
import SerialLink.Port.Shared
import SerialLink.Proofs.Connection.Attempts
import SerialLink.Proofs.Connection.Callbacks
import SerialLink.Proofs.Connection.Cleanup
import SerialLink.Proofs.Connection.Conservation
import SerialLink.Proofs.Connection.Delivery
import SerialLink.Proofs.Connection.Diagnostics
import SerialLink.Proofs.Connection.Failure
import SerialLink.Proofs.Connection.Figures
import SerialLink.Proofs.Connection.History
import SerialLink.Proofs.Connection.Isolation
import SerialLink.Proofs.Connection.Lifecycle
import SerialLink.Proofs.Connection.Listening
import SerialLink.Proofs.Connection.Moments
import SerialLink.Proofs.Connection.Order
import SerialLink.Proofs.Connection.Overtaken
import SerialLink.Proofs.Connection.Ownership
import SerialLink.Proofs.Connection.Passage
import SerialLink.Proofs.Connection.Quiescence
import SerialLink.Proofs.Connection.Recorded
import SerialLink.Proofs.Connection.Relay
import SerialLink.Proofs.Connection.Release
import SerialLink.Proofs.Connection.Resources
import SerialLink.Proofs.Connection.Slices
import SerialLink.Proofs.Connection.Threads
import SerialLink.Proofs.Connection.Turn
import SerialLink.Proofs.Connection.Undisturbed
import SerialLink.Proofs.Connection.Writes
import SerialLink.Proofs.Document.Places
import SerialLink.Proofs.Document.Readings
import SerialLink.Proofs.Document.Rearranged
import SerialLink.Proofs.Driver.Rules
import SerialLink.Proofs.Event.Courses
import SerialLink.Proofs.Event.Disappearances
import SerialLink.Proofs.Event.Owners
import SerialLink.Proofs.Event.Emits
import SerialLink.Proofs.Event.Reach
import SerialLink.Proofs.Json.Forms
import SerialLink.Proofs.Json.ReadBack
import SerialLink.Proofs.Json.Scanning
import SerialLink.Proofs.Json.Texts
import SerialLink.Proofs.Monitor.Payloads
import SerialLink.Proofs.Net.Addresses
import SerialLink.Proofs.Reader.Lifecycle
import SerialLink.Proofs.Reader.Runs
import SerialLink.Proofs.Reader.Script
import SerialLink.Proofs.Registry.Endings
import SerialLink.Proofs.Registry.Handles
import SerialLink.Proofs.Registry.Lookups
import SerialLink.Proofs.Ring.Bounds
import SerialLink.Proofs.Ring.Contents
import SerialLink.Proofs.Ring.Growth
import SerialLink.Proofs.Ring.Ledger
import SerialLink.Proofs.Ring.Queue
import SerialLink.Proofs.Stream.CleanRuns
import SerialLink.Proofs.Stream.Gaps
import SerialLink.Proofs.Stream.Neighbours
import SerialLink.Proofs.Stream.Tallies
import SerialLink.Proofs.Text.Digits
import SerialLink.Proofs.Text.Pairs
import SerialLink.Reader
import SerialLink.Registry
import SerialLink.Ring
import SerialLink.Settings.Dialect
import SerialLink.Settings.Environment
import SerialLink.Settings.JsonFile
import SerialLink.Settings.Path
import SerialLink.Settings.Toml.Document
import SerialLink.Settings.Toml.Moment
import SerialLink.Settings.Toml.Number
import SerialLink.Settings.Toml.Text
import SerialLink.Settings.Toml.Tree
import SerialLink.Settings.Value
import SerialLink.Stream.Checker
import SerialLink.Stream.Layout
import SerialLink.Stream.LossSummary
import SerialLink.Text.Blank
import SerialLink.Text.Decimal
import SerialLink.Text.Hexadecimal
import SerialLink.Text.Quoted
import SerialLink.Proofs.Monitor.Dumps
import SerialLink.Proofs.Port.Framing
import SerialLink.Proofs.Settings.Layers
import SerialLink.Proofs.Settings.Readings
import SerialLink.Proofs.Monitor.Precedence
import SerialLink.Proofs.Port.Replay
