import RemoteLog.Base64
import RemoteLog.BigEndian
import RemoteLog.Bytes
import RemoteLog.Client.Basic
import RemoteLog.Client.Error
import RemoteLog.Client.Inbox
import RemoteLog.Client.Peer
import RemoteLog.Client.Script
import RemoteLog.Command
import RemoteLog.CommandLine.Invocation
import RemoteLog.CommandLine.Options
import RemoteLog.CommandLine.Run
import RemoteLog.CommandLine.Style
import RemoteLog.Decimal.Count
import RemoteLog.Decimal.Shortest
import RemoteLog.Failure
import RemoteLog.FileSystem
import RemoteLog.FileSystem.Edit
import RemoteLog.Frame
import RemoteLog.Json.Fault
import RemoteLog.Json.Lexeme
import RemoteLog.Json.Number
import RemoteLog.Json.Skip
import RemoteLog.Json.Value
import RemoteLog.Line
import RemoteLog.Log.ApplicationId
import RemoteLog.Log.Removal
import RemoteLog.Log.Whole
import RemoteLog.Log.Window
import RemoteLog.Main
import RemoteLog.Message.Body
import RemoteLog.Message.KindText
import RemoteLog.Message.Record
import RemoteLog.Message.Request
import RemoteLog.Message.Response
import RemoteLog.Message.WindowStatus
import RemoteLog.Network.Address
import RemoteLog.Network.Host
import RemoteLog.Network.HostName
import RemoteLog.Path
import RemoteLog.Proofs.Association
import RemoteLog.Proofs.Base64
import RemoteLog.Proofs.Client.Exchange
import RemoteLog.Proofs.FileSystem.Walk
import RemoteLog.Proofs.Frame.Reading
import RemoteLog.Proofs.Frame.Stream
import RemoteLog.Proofs.Json.Spelling
import RemoteLog.Proofs.Message.RoundTrip
import RemoteLog.Proofs.Path.Guard
import RemoteLog.Proofs.RemoteCall
import RemoteLog.Proofs.Result
import RemoteLog.Proofs.Worker.Answer
import RemoteLog.Proofs.Worker.Confinement
import RemoteLog.Proofs.Worker.Serving
import RemoteLog.ProtocolError
import RemoteLog.SystemError
import RemoteLog.Text.Blank
import RemoteLog.Text.Digit
import RemoteLog.Text.Hidden
import RemoteLog.Text.Quoted
import RemoteLog.Text.Utf8
import RemoteLog.Worker.Answer
import RemoteLog.Worker.AnswerError
import RemoteLog.Worker.Connection
import RemoteLog.Worker.ResponseQueue
import RemoteLog.Worker.Server
import RemoteLog.Worker.Settings
import RemoteLog.Proofs.Client.Record
import RemoteLog.Proofs.Client.Synchrony
import RemoteLog.Proofs.Worker.Rejection
import RemoteLog.Proofs.Worker.Session
import RemoteLog.Proofs.Worker.Tasks
import RemoteLog.Proofs.Worker.Schedule
import RemoteLog.Proofs.Worker.Isolation
import RemoteLog.Proofs.Line.Splitting
import RemoteLog.Proofs.Log.Paging
import RemoteLog.Proofs.FileSystem.Removal
import RemoteLog.Proofs.Worker.Removal
import RemoteLog.Proofs.Client.Awaiting
import RemoteLog.Proofs.Client.Call
import RemoteLog.Proofs.Client.Reconnection
import RemoteLog.Proofs.Frame.Padding
import RemoteLog.Proofs.Client.ForeignFrames
import RemoteLog.Proofs.Message.Wire
import RemoteLog.Proofs.Worker.Fitting
import RemoteLog.Proofs.Worker.Places
import RemoteLog.Proofs.Worker.Delivery
import RemoteLog.Proofs.Worker.SharedSlot
import RemoteLog.Proofs.Line.Reader
import RemoteLog.Proofs.Log.Growth
import RemoteLog.Proofs.Path.Pieces
import RemoteLog.Proofs.Worker.LogRoot
import RemoteLog.Proofs.FileSystem.Writing
import RemoteLog.Proofs.Path.Verdict
import RemoteLog.Proofs.Text.Utf8
import RemoteLog.Proofs.Log.Recovery
import RemoteLog.Proofs.Line.Passes
import RemoteLog.Proofs.Log.Failure
import RemoteLog.Proofs.Log.Token
import RemoteLog.Proofs.Log.ApplicationIds
import RemoteLog.Proofs.Text.Lossy
import RemoteLog.Proofs.Line.Whole
import RemoteLog.Proofs.Line.Decoding
import RemoteLog.Proofs.Line.Writing
import RemoteLog.Proofs.Log.NormalForm
import RemoteLog.Proofs.Log.Extraction
import RemoteLog.Proofs.Base64.Canonical
import RemoteLog.Proofs.Message.LogBytes
import RemoteLog.Proofs.Line.Terminator
import RemoteLog.Proofs.Worker.Threads
import RemoteLog.Proofs.CommandLine.Outcome
import RemoteLog.Proofs.Json.Token
import RemoteLog.Proofs.Json.Document
import RemoteLog.Proofs.Json.Scalars
import RemoteLog.Proofs.Json.Trees
import RemoteLog.Proofs.Message.Fields
import RemoteLog.Proofs.Message.Members
import RemoteLog.Proofs.Message.Decoding
