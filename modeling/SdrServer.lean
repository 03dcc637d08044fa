import SdrServer.Foundation.Transition
import SdrServer.Queue.Model
import SdrServer.Queue.Refinement
import SdrServer.Queue.Delivery
import SdrServer.Queue.Waiting
import SdrServer.Foundation.Buffer
import SdrServer.Foundation.Decimation
import SdrServer.Xlating.Model
import SdrServer.Xlating.Block
import SdrServer.Xlating.Fixed
import SdrServer.Xlating.Float
import SdrServer.Xlating.Translation
import SdrServer.Foundation.Mealy
import SdrServer.Xlating.Optimized
import SdrServer.Xlating.Amplitude
import SdrServer.Xlating.Interleaved
import SdrServer.DspWorker.Model
import SdrServer.DspWorker.Stream
import SdrServer.Config.Model
import SdrServer.Server.Request
import SdrServer.Server.Model
import SdrServer.Server.Nodes
import SdrServer.Server.Ownership
import SdrServer.Server.Linking
import SdrServer.Server.Safety
import SdrServer.Server.Moves
import SdrServer.Server.Lifetime
import SdrServer.Server.Flags
import SdrServer.Server.Shutdown
import SdrServer.Server.Service
import SdrServer.Server.Band
import SdrServer.Server.Sockets
import SdrServer.Server.Issued
import SdrServer.Server.Speech
import SdrServer.Server.Reply
import SdrServer.Server.Closing
import SdrServer.Device.Buffers
import SdrServer.RtlTcp.Slots
import SdrServer.RtlTcp.Tenancy
import SdrServer.RtlTcp.Settings
import SdrServer.Device.Lifecycle
import SdrServer.Device.Handles
import SdrServer.Device.Gain
import SdrServer.Foundation.Partial
import SdrServer.Server.Wire
import SdrServer.Server.Validation
import SdrServer.Foundation.Affine
import SdrServer.Xlating.Rotator
import SdrServer.Xlating.Fading
import SdrServer.Xlating.Exact
import SdrServer.Xlating.Aligned
import SdrServer.Xlating.Reversal
import SdrServer.Queue.Exhausted
import SdrServer.Xlating.Bounds
import SdrServer.Foundation.Symmetric
import SdrServer.Lpf.Model
import SdrServer.Lpf.Gain
import SdrServer.DspWorker.Starting
import SdrServer.DspWorker.Divisors
import SdrServer.Server.Setup
import SdrServer.Server.Commands
import SdrServer.RtlTcp.Broadcast
import SdrServer.Foundation.Generations
import SdrServer.Logger.Model
import SdrServer.Logger.Rotation
import SdrServer.DspWorker.Decimating
import SdrServer.Xlating.Tone
import SdrServer.DspWorker.Centre
import SdrServer.Client.Model
import SdrServer.Client.Saving
import SdrServer.Foundation.BitFields
import SdrServer.Foundation.FractionalN
import SdrServer.Msisdr.Model
import SdrServer.Msisdr.Soft
import SdrServer.Msisdr.Synthesis
import SdrServer.Msisdr.Tuning
import SdrServer.Msisdr.Hard
import SdrServer.Msisdr.Gain
import SdrServer.Msisdr.Calls
import SdrServer.Msisdr.Mirror
import SdrServer.Device.Tuning
import SdrServer.Foundation.PackedFields
import SdrServer.Msisdr.Convert
import SdrServer.Msisdr.Blocks
import SdrServer.Msisdr.Feed
import SdrServer.Msisdr.Transfers
import SdrServer.Msisdr.Session
import SdrServer.Msisdr.Contents
import SdrServer.Msisdr.Resync
import SdrServer.RtlTcp.Tuning
import SdrServer.Msisdr.Async
import SdrServer.Msisdr.Cancel
import SdrServer.Msisdr.Failing
import SdrServer.RtlTcp.Outage
import SdrServer.Foundation.SinglePrecision
import SdrServer.RtlTcp.Offset
