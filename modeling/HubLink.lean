import HubLink.Binary.Real
import HubLink.Frame.Stream
import HubLink.Json.Skip
import HubLink.Json.Printer
import HubLink.Json.TextRecord
import HubLink.Node.Advertisement
import HubLink.Node.Service
import HubLink.Node.Command
import HubLink.Bytes.Base64
import HubLink.Text.Whole
import HubLink.Message.Payload.Document
import HubLink.Message.Payload.Shape
import HubLink.Message.Codec
import HubLink.Message.CorrelationId
import HubLink.Log.Reassembly
import HubLink.Queue.Delivery
import HubLink.Queue.Shared
import HubLink.LogLine
import HubLink.Main
import HubLink.Proofs.Stream.Session
import HubLink.Proofs.Checksum.Burst
import HubLink.Proofs.Frame.Damage
import HubLink.Proofs.Binary.Rounding
import HubLink.Proofs.Binary.Widening
import HubLink.Proofs.Decimal.ReadBack
import HubLink.Proofs.Json.Numeral
import HubLink.Proofs.Json.Literal
import HubLink.Proofs.Json.PrintedNumber
import HubLink.Proofs.Json.Member
import HubLink.Proofs.Json.Printed
import HubLink.Proofs.Json.Accepted
import HubLink.Proofs.Json.Nesting
import HubLink.Proofs.Json.Record
import HubLink.Proofs.Message.Document
import HubLink.Proofs.Message.Payload
import HubLink.Proofs.Json.TextRecord
import HubLink.Proofs.Message.Received
import HubLink.Proofs.Message.Header
import HubLink.Proofs.Message.RoundTrip
import HubLink.Proofs.Bytes.Base64
import HubLink.Proofs.Text.Plain
import HubLink.Proofs.Log.Places
import HubLink.Proofs.Log.Acceptance
import HubLink.Proofs.Log.Period
import HubLink.Proofs.Log.History
import HubLink.Proofs.Log.Chunks
import HubLink.Proofs.Log.Transfer
import HubLink.Proofs.Queue.Foremost
import HubLink.Proofs.Queue.Effect
import HubLink.Proofs.Queue.History
import HubLink.Proofs.Queue.Ledger
import HubLink.Proofs.Queue.LifeCycle
import HubLink.Proofs.Queue.Bounds
import HubLink.Proofs.Queue.Ticket
import HubLink.Proofs.Queue.Order
import HubLink.Proofs.Stream.Isolation
import HubLink.Proofs.Bytes.Hex
import HubLink.Proofs.Stream.Envelopes
import HubLink.Proofs.Log.Export
import HubLink.Proofs.Stream.OneShot
import HubLink.Proofs.Replay
import HubLink.Proofs.Tool.OwnFrames
import HubLink.Proofs.Binary.Overflow
import HubLink.Proofs.Message.Printable
import HubLink.Proofs.Tool.Relay
import HubLink.Proofs.Log.Rounds
import HubLink.Proofs.Frame.Image
import HubLink.Proofs.Log.Separation
import HubLink.Proofs.Log.Progress
import HubLink.Proofs.Node.Address
import HubLink.Proofs.Node.Advertisement
import HubLink.Proofs.Message.Discovery
import HubLink.Proofs.Frame.InPlace
import HubLink.Proofs.Stream.Agreement
import HubLink.Proofs.Stream.Progress
import HubLink.Proofs.Stream.Hunting
import HubLink.Proofs.Node.AddressGroups
import HubLink.Proofs.Log.InPlace
import HubLink.Proofs.Log.Tiling
import HubLink.Proofs.Message.Encoding
import HubLink.Proofs.Message.Decoding
import HubLink.Proofs.Queue.ById
import HubLink.Proofs.Queue.Commute
import HubLink.Proofs.Json.Grammar
import HubLink.Proofs.Json.Scanned
import HubLink.Proofs.Json.Content
import HubLink.Proofs.Json.Passed
import HubLink.Proofs.Json.Settled
import HubLink.Proofs.Json.TextMembers
import HubLink.Proofs.Json.Taken
import HubLink.Proofs.Json.Derived
import HubLink.Proofs.Json.FieldText
import HubLink.Proofs.Json.TextItems
import HubLink.Proofs.Json.Outline
import HubLink.Proofs.Json.RecordOutline
import HubLink.Proofs.Json.Written
import HubLink.Proofs.Message.Outline
import HubLink.Proofs.Message.HeaderFields
import HubLink.Proofs.Message.HeaderMembers
import HubLink.Proofs.Message.HeaderTexts
import HubLink.Proofs.Message.Compatibility
import HubLink.Proofs.Bytes.Canonical
import HubLink.Proofs.Log.ChunkData
import HubLink.Proofs.Node.FaultNames
import HubLink.Proofs.Node.AdvertisementText
import HubLink.Proofs.Json.TextSize
import HubLink.Proofs.Log.ChunkSize
import HubLink.Proofs.Message.Version
import HubLink.Proofs.Settings.Layers
