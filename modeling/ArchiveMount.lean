import ArchiveMount.Archive.Directory
import ArchiveMount.Archive.EndRecord
import ArchiveMount.Archive.Entry
import ArchiveMount.Archive.Error
import ArchiveMount.Archive.LocalHeader
import ArchiveMount.Archive.Payload
import ArchiveMount.Archive.Timestamp
import ArchiveMount.Archive.Trailer
import ArchiveMount.Archive.Zip64
import ArchiveMount.Assign
import ArchiveMount.Attempt
import ArchiveMount.Bytes
import ArchiveMount.Cache.Basic
import ArchiveMount.Cache.Blake3
import ArchiveMount.Cache.InFlight
import ArchiveMount.Cache.Key
import ArchiveMount.Cache.SingleFlight
import ArchiveMount.Checksum
import ArchiveMount.Command.Arguments
import ArchiveMount.Command.Machine
import ArchiveMount.Command.Output
import ArchiveMount.Deflate.CodeTree
import ArchiveMount.Deflate.Inflater
import ArchiveMount.Deflate.Tables
import ArchiveMount.Domain.Composition
import ArchiveMount.Domain.Direction
import ArchiveMount.Domain.Joining
import ArchiveMount.Domain.Mapping
import ArchiveMount.Domain.Mapping.Table
import ArchiveMount.Domain.Mark
import ArchiveMount.Domain.Name
import ArchiveMount.Domain.Punycode
import ArchiveMount.Export.HandleTable
import ArchiveMount.Export.Nfs
import ArchiveMount.Export.RequestPath
import ArchiveMount.Export.WebDav
import ArchiveMount.Export.WebDavGet
import ArchiveMount.Locator.Address
import ArchiveMount.Locator.Basic
import ArchiveMount.Locator.Fault
import ArchiveMount.Locator.Host
import ArchiveMount.Locator.Parser
import ArchiveMount.Locator.Percent
import ArchiveMount.Locator.Segments
import ArchiveMount.Main
import ArchiveMount.Object.Bucket
import ArchiveMount.Object.Error
import ArchiveMount.Object.File
import ArchiveMount.Object.Http
import ArchiveMount.Object.Memory
import ArchiveMount.Object.Open
import ArchiveMount.Object.Range
import ArchiveMount.Object.Resolution
import ArchiveMount.Object.Routes
import ArchiveMount.Object.Store
import ArchiveMount.OsError
import ArchiveMount.Proofs.Archive.EndRecord
import ArchiveMount.Proofs.Archive.Payload
import ArchiveMount.Proofs.Archive.ReadBack
import ArchiveMount.Proofs.Archive.Trailer
import ArchiveMount.Proofs.Archive.Written
import ArchiveMount.Proofs.Attempt
import ArchiveMount.Proofs.Bytes
import ArchiveMount.Proofs.Cache.FlightLog
import ArchiveMount.Proofs.Cache.InFlight
import ArchiveMount.Proofs.Cache.InTurn
import ArchiveMount.Proofs.Cache.Key
import ArchiveMount.Proofs.Cache.SingleFlight
import ArchiveMount.Proofs.Export.HandleSession
import ArchiveMount.Proofs.Export.HandleTable
import ArchiveMount.Proofs.Export.Paging
import ArchiveMount.Proofs.Export.Recency
import ArchiveMount.Proofs.Export.Reply
import ArchiveMount.Proofs.Export.Lookup
import ArchiveMount.Proofs.Export.Requests
import ArchiveMount.Proofs.Object.Answers
import ArchiveMount.Proofs.Object.Contract
import ArchiveMount.Proofs.Object.RangeHeader
import ArchiveMount.Proofs.Object.Serving
import ArchiveMount.Proofs.Text.Lossy
import ArchiveMount.Proofs.Tree.Content
import ArchiveMount.Proofs.Tree.Delivery
import ArchiveMount.Proofs.Tree.Files
import ArchiveMount.Proofs.Tree.Indexing
import ArchiveMount.Proofs.Tree.Opening
import ArchiveMount.Proofs.Tree.PathOrder
import ArchiveMount.Proofs.Tree.Persistence
import ArchiveMount.Proofs.Tree.Reuse
import ArchiveMount.Proofs.Tree.RoundTrip
import ArchiveMount.Proofs.Tree.Verified
import ArchiveMount.Quantity
import ArchiveMount.Service.Config
import ArchiveMount.Service.Error
import ArchiveMount.Service.Lifecycle
import ArchiveMount.Service.Peer
import ArchiveMount.Service.Report
import ArchiveMount.Service.Session
import ArchiveMount.Service.SocketAddress
import ArchiveMount.Text.CodePoints
import ArchiveMount.Text.Pieces
import ArchiveMount.Text.Quoted
import ArchiveMount.Text.Unprintable
import ArchiveMount.Text.Utf8
import ArchiveMount.Tree.Assembly
import ArchiveMount.Tree.Basic
import ArchiveMount.Tree.Build
import ArchiveMount.Tree.Error
import ArchiveMount.Tree.Open
import ArchiveMount.Tree.Path
import ArchiveMount.Proofs.Archive.Framing
import ArchiveMount.Proofs.Text.ByteOrder
import ArchiveMount.Proofs.Tree.Arrangement
import ArchiveMount.Proofs.Tree.Arena
import ArchiveMount.Proofs.Archive.Checked
import ArchiveMount.Proofs.Tree.Checked
import ArchiveMount.Proofs.Tree.InBounds
import ArchiveMount.Proofs.Archive.Chunks
import ArchiveMount.Proofs.Tree.Aliasing
import ArchiveMount.Proofs.Tree.Search
import ArchiveMount.Proofs.Object.Resolution
import ArchiveMount.Proofs.Object.RouteQueue
import ArchiveMount.Proofs.Service.Lifecycle
import ArchiveMount.Proofs.Service.Orderly
import ArchiveMount.Cache.Folder
import ArchiveMount.Tree.OnDisk
import ArchiveMount.Proofs.Cache.Folder
import ArchiveMount.Proofs.Tree.FailedOpen
import ArchiveMount.Proofs.Archive.FullWidth
import ArchiveMount.Proofs.Archive.Tally
import ArchiveMount.Proofs.Object.BodyLength
import ArchiveMount.Proofs.Tree.BucketRanges
import ArchiveMount.Proofs.Tree.Normalization
import ArchiveMount.Proofs.Export.LeastRecent
import ArchiveMount.Proofs.Tree.Reader
import ArchiveMount.Proofs.Export.Reading
import ArchiveMount.Proofs.Archive.Alteration
import ArchiveMount.Proofs.Archive.EndSearch
import ArchiveMount.Proofs.Tree.WideRecord
import ArchiveMount.Proofs.Cache.Visitors
import ArchiveMount.Proofs.Tree.Passes
import ArchiveMount.Proofs.Tree.Trapping
