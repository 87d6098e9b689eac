import Quest.AnnexB
import Quest.AnnexBAcceptance
import Quest.AnnexBRepair
import Quest.Capture
import Quest.CaptureAllowance
import Quest.CaptureBuffers
import Quest.CaptureCounts
import Quest.CaptureInvariant
import Quest.CapturePool
import Quest.CaptureRemoval
import Quest.CaptureRetry
import Quest.CaptureSteps
import Quest.CaptureStream
import Quest.CaptureTarget
import Quest.Converter
import Quest.Discovery
import Quest.DisplayHost
import Quest.DisplayHostFile
import Quest.DisplayHostLock
import Quest.DisplayHostRequests
import Quest.DisplayHostSteps
import Quest.EncoderSelection
import Quest.EncoderTimestamps
import Quest.GpuAgreement
import Quest.GpuDevices
import Quest.HeadsetMode
import Quest.HeadsetTunnel
import Quest.HeadsetWatch
import Quest.HeadsetWatchSafety
import Quest.HostDelivery
import Quest.HostToReceiver
import Quest.KeyframeRequests
import Quest.KwinDevices
import Quest.LaptopDisplay
import Quest.LaptopHotplug
import Quest.LaptopLayout
import Quest.LaptopRestore
import Quest.Launcher
import Quest.Library.BigEndian
import Quest.Library.BlockCopy
import Quest.Library.ChunkedStream
import Quest.Library.CommandLine
import Quest.Library.Delimited
import Quest.Library.FramedStream
import Quest.Library.Json
import Quest.Library.LeastIncreasing
import Quest.Library.Loan
import Quest.Library.Machine
import Quest.Library.Segment
import Quest.Library.Shell
import Quest.Library.Spans
import Quest.Packet
import Quest.PlaneImport
import Quest.Receiver
import Quest.ReceiverRoundTrip
import Quest.ReceiverSession
import Quest.RowAddressing
import Quest.StateAgreement
import Quest.StreamOptions
import Quest.StreamProcess
import Quest.StreamProcessOutcome
import Quest.StreamProcessSteps
import Quest.StreamProcessStop
import Quest.StreamWorker
import Quest.Transport
import Quest.TransportAccounts
import Quest.TransportAtomic
import Quest.TransportHistory
import Quest.TransportInvariant
import Quest.TransportReconnect
import Quest.TransportStreams
import Quest.TransportTrace
import Quest.VideoEncoder
import Quest.VirtualDisplays
