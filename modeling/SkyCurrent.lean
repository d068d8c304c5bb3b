import SkyCurrent.Base.Runs
import SkyCurrent.Base.Simulation
import SkyCurrent.Base.PointerForest
import SkyCurrent.Base.SharedLog
import SkyCurrent.Base.Broadcast
import SkyCurrent.Base.ByteBuffer
import SkyCurrent.Base.Utf16
import SkyCurrent.Lmq.Model
import SkyCurrent.Lmq.Links
import SkyCurrent.Lmq.Walk
import SkyCurrent.Lmq.Sound
import SkyCurrent.Lmq.Order
import SkyCurrent.Lmq.Delivery
import SkyCurrent.Lmq.Ledger
import SkyCurrent.Lmq.Autodrop
import SkyCurrent.Lmq.Queues
import SkyCurrent.Lmq.Apart
import SkyCurrent.Lmq.Mirror
import SkyCurrent.Lmq.Projection
import SkyCurrent.Lmq.Isolation
import SkyCurrent.Lmq.Threads
import SkyCurrent.Lmq.Locks
import SkyCurrent.Lmq.Interleaving
import SkyCurrent.Lmq.PayloadLock
import SkyCurrent.Lmq.Notify
import SkyCurrent.Lmq.SharedLog
import SkyCurrent.Lmq.SingleConsumer
import SkyCurrent.Iox2.Pages
import SkyCurrent.Iox2.Layout
import SkyCurrent.Iox2.Reassembly
import SkyCurrent.Iox2.Interleaved
import SkyCurrent.Iox2.Completion
import SkyCurrent.Iox2.Lossy
import SkyCurrent.Iox2.Geometry
import SkyCurrent.Iox2.InOrder
import SkyCurrent.Iox2.Repeats
import SkyCurrent.Combined.Model
import SkyCurrent.Combined.Steps
import SkyCurrent.Combined.WaitFlag
import SkyCurrent.Combined.WakeUp
import SkyCurrent.Combined.Requests
import SkyCurrent.Combined.Forwarding
import SkyCurrent.Combined.Retries
import SkyCurrent.Combined.Rotation
import SkyCurrent.Combined.Backlogs
import SkyCurrent.Combined.Close
import SkyCurrent.Combined.Reinit
import SkyCurrent.Gateway.Trip
import SkyCurrent.Gateway.Frames
import SkyCurrent.Combined.Deliveries
import SkyCurrent.Combined.Relay
import SkyCurrent.Mesh.Model
import SkyCurrent.Mesh.Pages
import SkyCurrent.Mesh.Deliveries
import SkyCurrent.Tokio.Stream
import SkyCurrent.Client.Model
import SkyCurrent.Client.Steps
import SkyCurrent.Client.Sends
import SkyCurrent.Client.Sockets
import SkyCurrent.Client.Init
import SkyCurrent.Capi.Model
import SkyCurrent.Capi.Steps
import SkyCurrent.Capi.Table
import SkyCurrent.Capi.TableLock
import SkyCurrent.Deno.Model
import SkyCurrent.Deno.Ownership
import SkyCurrent.Deno.EventLoop
import SkyCurrent.Deno.Promises
import SkyCurrent.Deno.Progress
import SkyCurrent.Deno.Collect
import SkyCurrent.Deno.ProjectDir
