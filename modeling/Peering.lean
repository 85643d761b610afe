import Peering.Address
import Peering.Address.Text
import Peering.BootUri
import Peering.Bytes
import Peering.CommandLine.Answer
import Peering.CommandLine.Command
import Peering.CommandLine.Help
import Peering.CommandLine.Start
import Peering.CommandLine.Word
import Peering.Delivery
import Peering.Delivery.Settle
import Peering.Destination
import Peering.Diagnostics
import Peering.Dispatch
import Peering.Endpoint
import Peering.Endpoint.Connector
import Peering.Endpoint.Frames
import Peering.Endpoint.Sessions
import Peering.Frame
import Peering.Frame.Stream
import Peering.Gossip
import Peering.Handlers
import Peering.Handshake
import Peering.Handshake.Templates
import Peering.Host
import Peering.Json.Fault
import Peering.Json.Numeral
import Peering.Json.Quoted
import Peering.Json.Reader
import Peering.Json.Skip
import Peering.Lane
import Peering.Main
import Peering.Maintenance
import Peering.Manager
import Peering.Manager.Lifecycle
import Peering.Node
import Peering.NodeId
import Peering.Outbox
import Peering.Payload
import Peering.PortMapping
import Peering.Proofs.Bytes
import Peering.Proofs.Delivery.CutShort
import Peering.Proofs.Delivery.Endurance
import Peering.Proofs.Delivery.Order
import Peering.Proofs.Delivery.Runs
import Peering.Proofs.Delivery.Steps
import Peering.Proofs.Frame.Stream
import Peering.Proofs.Handshake.RoundTrip
import Peering.Proofs.Meeting.Arrivals
import Peering.Proofs.Meeting.Cargo
import Peering.Proofs.Meeting.Convergence
import Peering.Proofs.Meeting.Course
import Peering.Proofs.Meeting.Decisions
import Peering.Proofs.Meeting.Ends
import Peering.Proofs.Meeting.Progress
import Peering.Proofs.Meeting.Runs
import Peering.Proofs.Meeting.Scene
import Peering.Proofs.Meeting.Sound
import Peering.Proofs.Meeting.Turns
import Peering.Proofs.Payload
import Peering.Proofs.Registry.Disjoint
import Peering.Proofs.Registry.Handles
import Peering.Proofs.Registry.History
import Peering.Proofs.Registry.Moves
import Peering.Proofs.Registry.Places
import Peering.Proofs.Table
import Peering.Registry
import Peering.Registry.Moves
import Peering.Registry.Upkeep
import Peering.Session
import Peering.Settings
import Peering.Settings.Document
import Peering.Settings.Field
import Peering.Socket
import Peering.Table
import Peering.Text.Blank
import Peering.Text.Quoted
import Peering.Text.Shapeless
import Peering.Text.Utf8
import Peering.Violations
import Peering.Proofs.Frame.Writing
import Peering.Proofs.Payload.Sound
import Peering.Proofs.Payload.Settled
import Peering.Proofs.Handshake.Reencoding
import Peering.Proofs.Gossip
import Peering.Proofs.Payload.Formats
import Peering.Proofs.Registry.Capacity
import Peering.Proofs.Registry.Ownership
import Peering.Proofs.Delivery.Pipeline
import Peering.Proofs.Delivery.Effects
import Peering.Proofs.Delivery.Accounting
import Peering.Proofs.Delivery.Destinations
import Peering.Proofs.Delivery.Wire
import Peering.Proofs.Delivery.Aftermath
import Peering.Proofs.Registry.Checks
import Peering.Proofs.Dispatch.Conservation
import Peering.Proofs.Session.Gate
import Peering.Proofs.Session.Acceptance
import Peering.Proofs.Handshake.Negotiation
import Peering.Proofs.Session.Containment
import Peering.Proofs.Manager.Finality
import Peering.Proofs.Manager.Announcement
import Peering.Proofs.Registry.Filing
import Peering.Proofs.Registry.Clashes
import Peering.Proofs.Registry.InPlace
import Peering.Proofs.Session.Petition
import Peering.Proofs.Session.Decision
import Peering.Proofs.Registry.Identity
import Peering.Proofs.Delivery.Freight
import Peering.Proofs.Session.Traces
import Peering.Proofs.Network.Scene
import Peering.Proofs.Network.Ties
import Peering.Proofs.Network.Turns
import Peering.Proofs.Network.Openings
import Peering.Proofs.Network.Sound
import Peering.Proofs.Network.Identity
import Peering.Proofs.Payload.Varint
import Peering.Proofs.Handshake.ChainId
import Peering.Proofs.Violations
import Peering.Proofs.Registry.Strangers
import Peering.Proofs.Registry.Expulsion
import Peering.Proofs.Session.Errors
import Peering.Proofs.Session.Conduct
import Peering.Proofs.Lane
import Peering.Proofs.Registry.Eviction
import Peering.Proofs.Dispatch.Registrations
import Peering.Proofs.Registry.Ingestion
import Peering.Proofs.Registry.Queue
import Peering.Proofs.Registry.Knowledge
import Peering.Proofs.Address.Written
import Peering.Proofs.BootUri
import Peering.Proofs.Delivery.Sparing
import Peering.Proofs.Delivery.Sifting
import Peering.Proofs.Delivery.Condemned
import Peering.Proofs.Delivery.Staleness
import Peering.Proofs.Gossip.Answer
import Peering.Proofs.Keepalive
import Peering.Proofs.Settings.Document
