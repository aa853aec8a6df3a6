import ReplicaClient.Assoc
import ReplicaClient.Bucket
import ReplicaClient.Bytes
import ReplicaClient.ChunkedFile
import ReplicaClient.Client
import ReplicaClient.Code
import ReplicaClient.Config
import ReplicaClient.Counter
import ReplicaClient.DataType.Handle
import ReplicaClient.DataType.Item
import ReplicaClient.DataType.Kind
import ReplicaClient.DataType.Op
import ReplicaClient.DataType.Stored
import ReplicaClient.Dialogue
import ReplicaClient.Error
import ReplicaClient.Frame
import ReplicaClient.IoFault
import ReplicaClient.Json.Access
import ReplicaClient.Json.Basic
import ReplicaClient.Json.Parser
import ReplicaClient.Json.Printer
import ReplicaClient.Main
import ReplicaClient.MapReduce
import ReplicaClient.Model
import ReplicaClient.Model.Binding
import ReplicaClient.Model.Document
import ReplicaClient.Model.Mismatch
import ReplicaClient.Model.Scalar
import ReplicaClient.Network
import ReplicaClient.Number.Double
import ReplicaClient.Number.Shortest
import ReplicaClient.Object.Basic
import ReplicaClient.Object.Conflict
import ReplicaClient.Object.Content
import ReplicaClient.Object.Store
import ReplicaClient.Pool
import ReplicaClient.Proofs.Bucket.Errand
import ReplicaClient.Proofs.Bucket.Naming
import ReplicaClient.Proofs.Bucket.Trace
import ReplicaClient.Proofs.Client.Answers
import ReplicaClient.Proofs.Client.Caller
import ReplicaClient.Proofs.Client.Crowd
import ReplicaClient.Proofs.Client.Custody
import ReplicaClient.Proofs.Client.Dialling
import ReplicaClient.Proofs.Client.Exchange
import ReplicaClient.Proofs.Client.Faults
import ReplicaClient.Proofs.Client.Generations
import ReplicaClient.Proofs.Client.Handles
import ReplicaClient.Proofs.Client.Opening
import ReplicaClient.Proofs.Client.Ownership
import ReplicaClient.Proofs.Client.Reassembly
import ReplicaClient.Proofs.Client.Recorder
import ReplicaClient.Proofs.Client.Repetition
import ReplicaClient.Proofs.Client.Traffic
import ReplicaClient.Proofs.Client.Triage
import ReplicaClient.Proofs.DataType.Commit
import ReplicaClient.Proofs.DataType.Emission
import ReplicaClient.Proofs.DataType.Kempt
import ReplicaClient.Proofs.DataType.Members
import ReplicaClient.Proofs.DataType.Mirror
import ReplicaClient.Proofs.DataType.Ordered
import ReplicaClient.Proofs.DataType.Paths
import ReplicaClient.Proofs.DataType.Reference
import ReplicaClient.Proofs.DataType.Revival
import ReplicaClient.Proofs.DataType.Settling
import ReplicaClient.Proofs.DataType.Tracking
import ReplicaClient.Proofs.File.Failure
import ReplicaClient.Proofs.File.Flat
import ReplicaClient.Proofs.File.Harm
import ReplicaClient.Proofs.File.Layout
import ReplicaClient.Proofs.File.Reading
import ReplicaClient.Proofs.File.Refinement
import ReplicaClient.Proofs.Frame.Octets
import ReplicaClient.Proofs.Frame.Sequence
import ReplicaClient.Proofs.Json.ReadBack
import ReplicaClient.Proofs.Json.Strings
import ReplicaClient.Proofs.MapReduce.Rendering
import ReplicaClient.Proofs.Model.Encoding
import ReplicaClient.Proofs.Model.Filling
import ReplicaClient.Proofs.Model.Portfolio
import ReplicaClient.Proofs.Model.Relations
import ReplicaClient.Proofs.Model.Renaming
import ReplicaClient.Proofs.Model.RoundTrip
import ReplicaClient.Proofs.Model.Saving
import ReplicaClient.Proofs.Network.Pages
import ReplicaClient.Proofs.Network.Reply
import ReplicaClient.Proofs.Network.Stream
import ReplicaClient.Proofs.Object.Cabinet
import ReplicaClient.Proofs.Object.Clock
import ReplicaClient.Proofs.Object.Contents
import ReplicaClient.Proofs.Object.Cycle
import ReplicaClient.Proofs.Object.Flaky
import ReplicaClient.Proofs.Object.Grouping
import ReplicaClient.Proofs.Object.Journal
import ReplicaClient.Proofs.Object.Provenance
import ReplicaClient.Proofs.Object.ReadBack
import ReplicaClient.Proofs.Object.Reloading
import ReplicaClient.Proofs.Object.Replies
import ReplicaClient.Proofs.Object.Shelf
import ReplicaClient.Proofs.Object.Telling
import ReplicaClient.Proofs.Object.Writers
import ReplicaClient.Proofs.Pool.Slots
import ReplicaClient.Proofs.Sequence.Novel
import ReplicaClient.Proofs.Text.Natural
import ReplicaClient.Proofs.Text.Utf8
import ReplicaClient.Proofs.Wire.Concatenation
import ReplicaClient.Proofs.Wire.Conformity
import ReplicaClient.Proofs.Wire.RoundTrip
import ReplicaClient.Proofs.Wire.Tables
import ReplicaClient.Proofs.Wire.Varint
import ReplicaClient.Proofs.Workload.Phases
import ReplicaClient.Quorum
import ReplicaClient.Request
import ReplicaClient.Search
import ReplicaClient.Store
import ReplicaClient.Text.Duration
import ReplicaClient.Text.Hex
import ReplicaClient.Text.Natural
import ReplicaClient.Text.Quoted
import ReplicaClient.Text.Utf8
import ReplicaClient.Text.Visible
import ReplicaClient.View
import ReplicaClient.Wire.Decoder
import ReplicaClient.Wire.Encoder
import ReplicaClient.Wire.Message
import ReplicaClient.Wire.Schema
import ReplicaClient.Wire.Varint
import ReplicaClient.Wire.View
import ReplicaClient.Workload
