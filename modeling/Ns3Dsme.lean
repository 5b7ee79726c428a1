import Ns3Dsme.Core.DefaultSimulatorImpl
import Ns3Dsme.Network.BufferAppending
import Ns3Dsme.LrWpan.EnhancedGroupAck
import Ns3Dsme.LrWpan.AdvertisedSlot
import Ns3Dsme.LrWpan.Sending
import Ns3Dsme.LrWpan.EndOfCap
import Ns3Dsme.LrWpan.Allocations
import Ns3Dsme.LrWpan.Delivery
import Ns3Dsme.LrWpan.BitmapMerge
import Ns3Dsme.LrWpan.ChannelHopping
import Ns3Dsme.LrWpan.BeaconTracking
import Ns3Dsme.LrWpan.PhyTransmissions
import Ns3Dsme.LrWpan.PhyAttributes
import Ns3Dsme.LrWpan.PhyTransceiver
import Ns3Dsme.LrWpan.SuperframeIndex
import Ns3Dsme.LrWpan.Timeline
import Ns3Dsme.LrWpan.Confirms
import Ns3Dsme.LrWpan.StartStructure
import Ns3Dsme.SixLowPan.PendingData
import Ns3Dsme.LrWpan.CommandCodec
import Ns3Dsme.LrWpan.PendingAddresses
import Ns3Dsme.LrWpan.BeaconPayload
import Ns3Dsme.LrWpan.GroupAckFrame
import Ns3Dsme.LrWpan.BackoffGrid
import Ns3Dsme.Olsr.TopologyTracking
import Ns3Dsme.Olsr.Consistency
import Ns3Dsme.Olsr.ShortestPaths
import Ns3Dsme.Olsr.MprFlooding
import Ns3Dsme.LrWpan.BackoffPeriods
import Ns3Dsme.Wifi.RecipientRuns
import Ns3Dsme.Lte.RlcAmRuns
import Ns3Dsme.SixLowPan.RoutingHandlers
import Ns3Dsme.SixLowPan.NextHop
import Ns3Dsme.SixLowPan.DoSend
import Ns3Dsme.SixLowPan.FloodCache
import Ns3Dsme.LrWpan.MacTrailer
import Ns3Dsme.Network.PacketRoundTrip
import Ns3Dsme.Internet.TcpSackList
import Ns3Dsme.Olsr.RelayOrder
import Ns3Dsme.Olsr.HnaRoutes
import Ns3Dsme.Core.TimeConversionExact
import Ns3Dsme.Olsr.PacketParsing
import Ns3Dsme.Wifi.BlockAckMarks
import Ns3Dsme.Internet.Ipv4ExpiryRuns
import Ns3Dsme.Network.SequenceOrder
import Ns3Dsme.SixLowPan.ReassemblyTimeouts
import Ns3Dsme.Lte.StatusPdu
import Ns3Dsme.Lte.RlcUmPdu
import Ns3Dsme.Internet.TcpNextSeg
import Ns3Dsme.Core.SchedulerAgreement
