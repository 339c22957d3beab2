import Kei.Selection.RoundTrip
import Kei.SyncCycle.Continued
import Kei.SyncCycle.Covered
import Kei.SyncCycle.ApiTotal
import Kei.Download.PathHash
import Kei.Download.Templates
import Kei.Download.Marked
import Kei.Download.Counted
import Kei.Download.UrlRetry
import Kei.Download.Vouched
import Kei.Download.Concurrent
import Kei.Download.Retained
import Kei.Download.SourceGps
import Kei.StateDb.Snapshots
import Kei.StateDb.Writers
import Kei.StateDb.Capture
import Kei.StateDb.MetadataHash
import Kei.Changes.Settled
import Kei.Changes.Orders
import Kei.Changes.Waits
import Kei.Changes.Matched
import Kei.Auth.Accounts
import Kei.Auth.Cookies
import Kei.Auth.Generations
import Kei.Auth.Srp
import Kei.Library.Albums
import Kei.Import.Tallied
import Kei.Import.Collisions
import Kei.PhotoStream.Ends
import Kei.FullEnumeration.Truncated
import Kei.Download.Prefixes
import Kei.Download.Fates
import Kei.Sidecar.Write
import Kei.Heif.Readback
import Kei.Heif.Graph
import Kei.RedactingWriter
import Kei.FsUtil
import Kei.Config
import Kei.Reset
import Kei.Reconcile
import Kei.StateDb.Statuses
import Kei.Incremental.Accounted
import Kei.Incremental.Pairing
import Kei.Incremental.SourceState
import Kei.SyncCycle.Frames
