import NimRtc.Lib.Bytes
import NimRtc.Lib.ClassQueues
import NimRtc.Lib.Machine
import NimRtc.Lib.Ring
import NimRtc.Lib.Serial
import NimRtc.Lib.Varint
import NimRtc.Arq
import NimRtc.ArqNet
import NimRtc.H264Payload
import NimRtc.Rfc6184
import NimRtc.VideoJitterBuffer
import NimRtc.VideoJitterRuns
import NimRtc.FramePlayout
import NimRtc.VideoSender
import NimRtc.VideoSenderLoops
import NimRtc.RtpPacket
import NimRtc.RtcpPacket
import NimRtc.RtpPlugin
import NimRtc.VideoRtcpFeedback
import NimRtc.FeedbackBridge
import NimRtc.VideoReceiver
import NimRtc.VideoReceiverRuns
import NimRtc.AudioJitterBuffer
import NimRtc.Srtp
import NimRtc.SrtpRuns
import NimRtc.Dtls
import NimRtc.DtlsRuns
import NimRtc.DtlsReassembly
import NimRtc.Scheduler
import NimRtc.SchedulerRuns
import NimRtc.Sdp
import NimRtc.SdpText
import NimRtc.Fingerprint
import NimRtc.Engine
import NimRtc.EngineSignaling
import NimRtc.EngineMedia
import NimRtc.EngineTransport
import NimRtc.EngineRuns
import NimRtc.SignalingNet
import NimRtc.SendPipeline
import NimRtc.DataChannel
import NimRtc.SctpChannel
import NimRtc.WebTransportChannel
import NimRtc.QpackTables
import NimRtc.Qpack
import NimRtc.AudioSend
import NimRtc.OpusPayload
import NimRtc.Rfc6716
import NimRtc.Proofs.ArqStep
import NimRtc.Proofs.ArqDelivery
import NimRtc.Proofs.H264Units
import NimRtc.Proofs.H264RoundTrip
import NimRtc.Proofs.MarkerLaw
import NimRtc.Proofs.Retransmission
import NimRtc.Proofs.FrameIntegrity
import NimRtc.Proofs.FrameOnce
import NimRtc.Proofs.FrameShift
import NimRtc.Proofs.AudioShift
import NimRtc.Proofs.RtpRoundTrip
import NimRtc.Proofs.ExtensionWalk
import NimRtc.Proofs.RtcpRoundTrip
import NimRtc.Proofs.RtcpCompound
import NimRtc.Proofs.SrtpKeys
import NimRtc.Proofs.DtlsStep
import NimRtc.Proofs.DtlsKeys
import NimRtc.Proofs.DtlsShim
import NimRtc.Proofs.SchedulerDrain
import NimRtc.Proofs.SchedulerDrops
import NimRtc.Proofs.SchedulerStreams
import NimRtc.Proofs.EngineStep
import NimRtc.Proofs.MediaProtected
import NimRtc.Proofs.RoleCoherence
import NimRtc.Proofs.PeerPin
import NimRtc.Proofs.RoleAgreement
import NimRtc.Proofs.SendOrder
import NimRtc.Proofs.SctpDelivery
import NimRtc.Proofs.PeerStream
import NimRtc.Proofs.VideoFeedback
import NimRtc.Proofs.FeedbackLoop
import NimRtc.Proofs.NackPacking
import NimRtc.Proofs.NackScan
import NimRtc.Proofs.StatusCount
import NimRtc.Proofs.CompoundScan
import NimRtc.Proofs.PaddingCount
import NimRtc.Proofs.ElementPadding
import NimRtc.Proofs.QpackTable
import NimRtc.Proofs.QpackFields
import NimRtc.Proofs.QpackChunks
import NimRtc.Proofs.SdpTotal
import NimRtc.Proofs.SdpReemission
import NimRtc.Proofs.ReceiverStep
import NimRtc.Proofs.NackDiscipline
import NimRtc.Proofs.FragmentSplice
import NimRtc.Proofs.AnnexBOutput
import NimRtc.Proofs.AnnexBUnits
import NimRtc.Proofs.FragmentTable
import NimRtc.Proofs.FragmentLoop
import NimRtc.Proofs.BudgetMonotone
import NimRtc.Proofs.DcepEffects
import NimRtc.Proofs.AudioConservation
import NimRtc.Proofs.OpusRoundTrip
import NimRtc.Proofs.OpusGrammar
import NimRtc.Proofs.OpusReadBack
import NimRtc.Proofs.EngineIsolation
import NimRtc.Proofs.SenderReports
import NimRtc.Proofs.AudioEndToEnd
import NimRtc.Timeline
import NimRtc.Proofs.TimelineShift
import NimRtc.Proofs.TimelineWindow
import NimRtc.Proofs.TimelineSlope
import NimRtc.Proofs.TimelineRange
import NimRtc.Proofs.QpackPrefix
import NimRtc.Proofs.QpackCursor
import NimRtc.ArqRuns
import NimRtc.Proofs.ArqSend
import NimRtc.Proofs.InflightCap
import NimRtc.Lib.Framing
import NimRtc.Http3
import NimRtc.Proofs.Http3Chunks
import NimRtc.Proofs.NtpAccuracy
import NimRtc.Bwe
import NimRtc.Proofs.BweBounds
import NimRtc.Proofs.LossEvents
import NimRtc.BidiStream
import NimRtc.Proofs.StreamReads
import NimRtc.SrtpSessionRuns
import NimRtc.Proofs.SrtpFailures
import NimRtc.Proofs.AnswerSections
import NimRtc.TimelineReceiver
import NimRtc.Proofs.Renegotiation
import NimRtc.Lib.Checked
import NimRtc.Lib.History
import NimRtc.SctpState
import NimRtc.Proofs.Http3Buffers
import NimRtc.Proofs.SctpMonotone
import NimRtc.OpusMemory
import NimRtc.Proofs.OpusBounds
import NimRtc.Lib.InputStream
import NimRtc.IceCandidate
import NimRtc.Proofs.CandidateText
import NimRtc.IceConsent
import NimRtc.Proofs.ConsentExpiry
import NimRtc.IceReceive
import NimRtc.Proofs.DatagramFlow
import NimRtc.Lib.Json
import NimRtc.Assembly
import NimRtc.Proofs.ProfileJson
import NimRtc.VideoSdpAttributes
import NimRtc.Proofs.FmtpText
import NimRtc.Proofs.FmtpRoundTrip
import NimRtc.RtcpWalks
import NimRtc.Proofs.FeedbackAtomic
import NimRtc.Lib.Buffer
import NimRtc.VideoPayload
import NimRtc.Proofs.PayloadRoundTrip
import NimRtc.TransportCcMemory
import NimRtc.Proofs.TransportCcBounds
import NimRtc.Lib.Registry
import NimRtc.RefFrames
import NimRtc.Proofs.RefFrameOrder
import NimRtc.Lib.Pieces
import NimRtc.DtlsFragments
import NimRtc.Proofs.FragmentOrder
import NimRtc.DtlsReassemblyMemory
import NimRtc.Proofs.DtlsReassemblyBounds
import NimRtc.Lib.Moves
import NimRtc.Lib.Blocks
import NimRtc.Lib.Interleave
import NimRtc.Audio3A
import NimRtc.Proofs.AudioFraming
import NimRtc.AnnexB
import NimRtc.Proofs.StartCodes
import NimRtc.Proofs.AnnexBScans
import NimRtc.Proofs.AnnexBWalks
import NimRtc.Lib.Raster
import NimRtc.VideoFrame
import NimRtc.Proofs.FrameLayouts
import NimRtc.Proofs.ChromaConversion
import NimRtc.Lib.Custody
import NimRtc.WebTransportSession
import NimRtc.Proofs.SessionHandles
import NimRtc.Http3Send
import NimRtc.Proofs.Http3Sending
import NimRtc.VideoStats
import NimRtc.Proofs.StatsRuns
import NimRtc.WebTransportListener
import NimRtc.Proofs.ListenerHandles
import NimRtc.FrameBuffers
import NimRtc.Proofs.BufferCounts
import NimRtc.VideoSource
import NimRtc.Proofs.PatternWrites
import NimRtc.Proofs.SourceFrames
import NimRtc.EngineLifecycle
import NimRtc.Proofs.EngineLifetimes
import NimRtc.WebTransportSending
import NimRtc.Proofs.ChannelSending
