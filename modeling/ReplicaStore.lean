import ReplicaStore.Action
import ReplicaStore.Bytes
import ReplicaStore.CommandLine.Arguments
import ReplicaStore.CommandLine.Footprint
import ReplicaStore.CommandLine.Report
import ReplicaStore.CommandLine.Run
import ReplicaStore.Config.Basic
import ReplicaStore.Config.Reader
import ReplicaStore.Disk.Basic
import ReplicaStore.Disk.OsError
import ReplicaStore.Disk.Path
import ReplicaStore.Engine.Batch
import ReplicaStore.Engine.Contents
import ReplicaStore.Engine.Cursor
import ReplicaStore.Engine.Fault
import ReplicaStore.Engine.Host
import ReplicaStore.Engine.Image
import ReplicaStore.Error
import ReplicaStore.Json.Text
import ReplicaStore.Json.Token
import ReplicaStore.Json.Value
import ReplicaStore.Log.Basic
import ReplicaStore.Log.Entry
import ReplicaStore.Log.EntryJson
import ReplicaStore.Log.Handle
import ReplicaStore.Log.Record
import ReplicaStore.Log.SlotKey
import ReplicaStore.Main
import ReplicaStore.Metadata.Basic
import ReplicaStore.Metadata.Payload
import ReplicaStore.Namespace.Database
import ReplicaStore.Powers
import ReplicaStore.Proofs.Action
import ReplicaStore.Proofs.Disk.Join
import ReplicaStore.Proofs.Disk.Passage
import ReplicaStore.Proofs.Engine.Range
import ReplicaStore.Proofs.Log.OnHost
import ReplicaStore.Proofs.Log.ReadBack
import ReplicaStore.Proofs.Log.Represents
import ReplicaStore.Proofs.Log.Session
import ReplicaStore.Proofs.Log.SlotList
import ReplicaStore.Proofs.Metadata.CrashAtomicity
import ReplicaStore.Proofs.Metadata.History
import ReplicaStore.Proofs.Metadata.Payload
import ReplicaStore.Proofs.Metadata.Safety
import ReplicaStore.Proofs.Metadata.Session
import ReplicaStore.Proofs.Metadata.Store
import ReplicaStore.Proofs.RecordFile.AnyBytes
import ReplicaStore.Proofs.RecordFile.LengthDamage
import ReplicaStore.Proofs.RecordFile.OnDisk
import ReplicaStore.Proofs.RecordFile.TornTail
import ReplicaStore.RecordFile.Basic
import ReplicaStore.RecordFile.Checksum
import ReplicaStore.RecordFile.Frame
import ReplicaStore.RecordFile.Frame.Lemmas
import ReplicaStore.Text.Decimal
import ReplicaStore.Text.Hex
import ReplicaStore.Text.Printable
import ReplicaStore.Text.Quoted
import ReplicaStore.Text.Utf8
import ReplicaStore.Text.Utf8.Lemmas
import ReplicaStore.Toml.Document
import ReplicaStore.Toml.Scalar
import ReplicaStore.Toml.Token
import ReplicaStore.Toml.Value
import ReplicaStore.Proofs.Log.Faults
import ReplicaStore.Proofs.Log.Journal
import ReplicaStore.Proofs.Log.FaultySession
import ReplicaStore.Proofs.Disk.Below
import ReplicaStore.Proofs.Engine.Pointer
import ReplicaStore.Proofs.Namespace.Directories
import ReplicaStore.Proofs.Namespace.Handles
import ReplicaStore.Proofs.Namespace.Operations
import ReplicaStore.Proofs.Namespace.Table
import ReplicaStore.Proofs.Namespace.Session
import ReplicaStore.Proofs.Log.Canonical
import ReplicaStore.Proofs.Log.Recovery
import ReplicaStore.Proofs.Log.KeyText
import ReplicaStore.Proofs.Log.Batching
import ReplicaStore.Proofs.Engine.Watch
import ReplicaStore.Proofs.Engine.Walk
import ReplicaStore.Proofs.Namespace.Succession
import ReplicaStore.Proofs.Engine.Serving
import ReplicaStore.Proofs.Engine.StoreSession
import ReplicaStore.Proofs.Namespace.Snapshots
import ReplicaStore.Proofs.RecordFile.ByteDamage
import ReplicaStore.Proofs.RecordFile.StrayBytes
import ReplicaStore.Proofs.RecordFile.TailCut
import ReplicaStore.Proofs.Metadata.Votes
import ReplicaStore.Proofs.Metadata.Replay
import ReplicaStore.Proofs.Metadata.Ledger
import ReplicaStore.Proofs.Log.Sweep
import ReplicaStore.Proofs.Log.Inheritance
import ReplicaStore.Proofs.Log.Gapless
import ReplicaStore.Proofs.Disk.Furnishing
import ReplicaStore.Proofs.Engine.Furnishing
import ReplicaStore.Proofs.CommandLine.Layout
import ReplicaStore.Proofs.CommandLine.Showing
import ReplicaStore.Proofs.CommandLine.Inspection
import ReplicaStore.Proofs.Engine.LastWrite
import ReplicaStore.Proofs.Namespace.Isolation
import ReplicaStore.Proofs.Json.RoundTrip
import ReplicaStore.Proofs.Log.EntryText
import ReplicaStore.Proofs.CommandLine.Lines
import ReplicaStore.Proofs.CommandLine.Dump
import ReplicaStore.Proofs.CommandLine.JsonLines
import ReplicaStore.Proofs.Text.StringBytes
import ReplicaStore.Proofs.Metadata.PayloadFront
