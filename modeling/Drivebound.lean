import Drivebound.Account.Suppression
import Drivebound.Auth.Possession
import Drivebound.Backups.Passes
import Drivebound.Cleanup.Fence
import Drivebound.Cleanup.Publish
import Drivebound.Collaboration.Rights
import Drivebound.Desktop.Batches
import Drivebound.Desktop.Convergence
import Drivebound.Desktop.Delivery
import Drivebound.Desktop.Fixpoint
import Drivebound.Desktop.Resuming
import Drivebound.Desktop.Retry
import Drivebound.Desktop.Tracking
import Drivebound.Devices.Counters
import Drivebound.Encryption.Streaming
import Drivebound.Erasure.Replay
import Drivebound.Federation.Grants
import Drivebound.Frontend.Transfer
import Drivebound.Grouping.Tables
import Drivebound.Lifecycle.Fences
import Drivebound.Lifecycle.Relinking
import Drivebound.Lifecycle.Sequence
import Drivebound.Lifecycle.Staleness
import Drivebound.Media.Disposition
import Drivebound.Mobile.Finished
import Drivebound.Mobile.Leases
import Drivebound.Mobile.Uploading
import Drivebound.Monitoring.Overwrites
import Drivebound.Nodes.Capabilities
import Drivebound.Nodes.Encoding
import Drivebound.Nodes.Transport
import Drivebound.Passkeys.Challenges
import Drivebound.Purging.Due
import Drivebound.Purging.Reviews
import Drivebound.Recovery.Replicas
import Drivebound.Replication.Protection
import Drivebound.Storage.Publication
import Drivebound.Sync.Atomicity
import Drivebound.Sync.Cursors
import Drivebound.Sync.Isolation
import Drivebound.Sync.Paths
import Drivebound.Sync.Projection
import Drivebound.Sync.Resolution
import Drivebound.Throttling.Limiter
import Drivebound.Timeline.Faults
import Drivebound.Timeline.Pages
import Drivebound.Uploads.Completion
import Drivebound.Uploads.Content
