import Multisite.Lib.Run
import Multisite.Lib.WriteLog
import Multisite.Lib.Progress
import Multisite.Lib.Alike
import Multisite.Core.Model
import Multisite.Core.Store
import Multisite.Spool.Queue
import Multisite.Spool.Laws
import Multisite.Spool.Root
import Multisite.Spool.Durability
import Multisite.Session.World
import Multisite.Session.Moves
import Multisite.Session.Boots
import Multisite.Session.Frames
import Multisite.Session.Runs
import Multisite.Session.Coverage
import Multisite.Session.Link
import Multisite.Session.References
import Multisite.Session.Numbers
import Multisite.Session.Yield
import Multisite.Session.Ending
import Multisite.Session.Losses
import Multisite.Session.Gaps
import Multisite.Session.Pointer
import Multisite.Session.Puts
import Multisite.Session.Record
import Multisite.Session.Cues
import Multisite.Mirror.Objects
import Multisite.Mirror.Copies
import Multisite.Mirror.Both
import Multisite.Output.Muxer
import Multisite.Output.Threads
import Multisite.Output.Steps
import Multisite.Output.Deferred
import Multisite.Output.Stop
import Multisite.Decoder.Cache
import Multisite.Decoder.Session
import Multisite.Decoder.Playback
import Multisite.Decoder.Threads
import Multisite.Decoder.Steps
import Multisite.Decoder.Init
import Multisite.Decoder.Drops
import Multisite.Decoder.Bytes
import Multisite.Decoder.Window
import Multisite.Decoder.Switch
import Multisite.Decoder.Hold
import Multisite.Decoder.Landing
import Multisite.Decoder.Transport
import Multisite.Decoder.Failover
import Multisite.Relay.Machine
import Multisite.Relay.Branches
import Multisite.Relay.Continuity
import Multisite.Relay.Pacing
import Multisite.Relay.Finished
import Multisite.Relay.Feeder
import Multisite.Relay.Follow
import Multisite.Relay.Loop
import Multisite.Relay.Excerpt
import Multisite.Relay.Ready
import Multisite.Relay.Backoff
import Multisite.Relay.Gaps
import Multisite.Lib.Paging
import Multisite.Storage.Bucket
import Multisite.Storage.Catalog
import Multisite.Storage.Manager
import Multisite.Storage.OnAir
import Multisite.Lib.Greatest
import Multisite.Storage.Newest
import Multisite.Storage.Unfinished
import Multisite.Storage.CueFiles
import Multisite.Finisher.Finish
import Multisite.Finisher.Folder
import Multisite.Finisher.Termination
import Multisite.Finisher.Passes
import Multisite.Stream.Destination
import Multisite.Stream.Plan
import Multisite.Stream.Sound
import Multisite.Stream.Edits
import Multisite.Lib.Search
import Multisite.Stream.Redact
import Multisite.Stream.Secrets
import Multisite.Core.Json
import Multisite.Cloud.Identity
import Multisite.Cloud.Lifecycle
import Multisite.Cloud.Cues
import Multisite.Cloud.Permissions
import Multisite.Lib.Pieces
import Multisite.Http.Server
import Multisite.Http.Framing
import Multisite.Core.Documents
import Multisite.Core.RoundTrip
import Multisite.Spool.Bytes
import Multisite.Spool.Account
import Multisite.Spool.Opening
import Multisite.Lan.Server
import Multisite.Lan.Serves
import Multisite.Relay.Passing
import Multisite.Cloud.Storage
import Multisite.Cloud.Replies
import Multisite.Cloud.Pairing
import Multisite.Cloud.Adoption
import Multisite.Lib.Keyed
import Multisite.Service.Host
import Multisite.Service.Kept
import Multisite.Service.Aligned
import Multisite.Service.Signing
import Multisite.Service.Reading
import Multisite.Playout.Skip
import Multisite.Playout.Share
import Multisite.Playout.Feed
import Multisite.Lib.Ranges
import Multisite.Core.Gaps
import Multisite.Core.Window
import Multisite.Decoder.Planning
import Multisite.Decoder.Seek
import Multisite.Lib.Escapes
import Multisite.Storage.Address
import Multisite.Decoder.Teardown
import Multisite.Appliance.Player
import Multisite.Lib.Record
import Multisite.Appliance.Settings
import Multisite.Service.Login
import Multisite.Service.Config
import Multisite.Lib.Copies
import Multisite.Core.Tiles
import Multisite.Core.Merge
import Multisite.Storage.Canonical
import Multisite.Http.Numbers
import Multisite.Storage.ListXml
import Multisite.Stream.Normalize
import Multisite.Stream.Returns
import Multisite.Decoder.Cues
import Multisite.Output.Tiling
import Multisite.Mirror.Compare
import Multisite.Lib.Utf8
import Multisite.Output.Captions
import Multisite.Storage.Report
import Multisite.Storage.EventIds
import Multisite.Storage.Listings
import Multisite.Cloud.Dates
import Multisite.Relay.Notes
import Multisite.Cloud.Deadline
import Multisite.Decoder.Tracks
import Multisite.Appliance.Form
import Multisite.Appliance.Network
import Multisite.Appliance.Upkeep
import Multisite.Appliance.Device
import Multisite.Broadcast.Controller
import Multisite.Broadcast.Bridge
import Multisite.Lib.Paths
import Multisite.Http.Serve
