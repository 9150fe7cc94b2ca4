import KaraokeAnything.ApiRequests
import KaraokeAnything.CentreReductionExact
import KaraokeAnything.Checkpoint
import KaraokeAnything.KanyExact
import KaraokeAnything.KanyReply
import KaraokeAnything.Mdx23cAgreement
import KaraokeAnything.Mdx23cCrossfade
import KaraokeAnything.Mdx23cLedger
import KaraokeAnything.PacketSizes
import KaraokeAnything.PlaybackChannels
import KaraokeAnything.PlaybackStart
import KaraokeAnything.ProtocolExact
import KaraokeAnything.Registry
import KaraokeAnything.SegmentLaunches
import KaraokeAnything.SegmentReset
import KaraokeAnything.SegmentedBacklog
import KaraokeAnything.SegmentedPacing
import KaraokeAnything.SeparationResults
import KaraokeAnything.SequenceTracking
import KaraokeAnything.ServiceMetrics
import KaraokeAnything.ServiceReplacement
import KaraokeAnything.ServiceRestore
import KaraokeAnything.ServiceSenders
import KaraokeAnything.ServiceTuning
import KaraokeAnything.ServiceUpdates
import KaraokeAnything.TasnetOverlap
import KaraokeAnything.TasnetProcessor
import KaraokeAnything.Loopback
import KaraokeAnything.ServiceRest
import KaraokeAnything.ClientStreams
import KaraokeAnything.Mdx23cRefinement
import KaraokeAnything.Mdx23cPacing
import KaraokeAnything.Architecture
