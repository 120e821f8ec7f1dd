import Pgen.StructLayout
import Pgen.UtilChecksum
import Pgen.PcapCapture
import Pgen.PcapngBlocks
import Pgen.PcapngBodies
import Pgen.PcapngStream
import Pgen.PcapngCapture
import Pgen.PcapngBounds
import Pgen.CText
import Pgen.CoreAddress
import Pgen.CorePacket
import Pgen.ProtocolHeaders
import Pgen.ProtocolIp
import Pgen.ProtocolPackets
import Pgen.IpChecksum
import Pgen.ProtocolBounds
import Pgen.ChecksumAccumulator
import Pgen.PacketLayout
import Pgen.PacketCodec
import Pgen.ProtocolIpv6
import Pgen.PacketCopies
import Pgen.PcapngWriter
import Pgen.PcapngDecoding
import Pgen.PcapngFraming
import Pgen.PcapngReceive
import Pgen.PcapRecords
import Pgen.PcapngPacketLength
import Pgen.PacketFailure
import Pgen.PacketHeadroom
import Pgen.MacParser
import Pgen.AddressNotation
import Pgen.ObjectClass
import Pgen.AddressText
import Pgen.Ipv6Sections
import Pgen.NetStream
import Pgen.BpfReceive
import Pgen.ContainerCalls
import Pgen.HeaderReads
import Pgen.UtilHex
import Pgen.ModuleDetect
import Pgen.PacketReuse
import Pgen.ModuleCheck
import Pgen.PacketMachine
import Pgen.CaptureCrash
import Pgen.Arping
import Pgen.NetLink
import Pgen.PcapUntrusted
import Pgen.DumpReading
import Pgen.HandleTable
import Pgen.StreamHandles
import Pgen.RequestReply
import Pgen.ZundokoPlay
import Pgen.ExtendTmp
import Pgen.BuiltFrames
import Pgen.PcapngUntrusted
import Pgen.AddressOctets
import Pgen.TmpFrames
import Pgen.TmpReader
import Pgen.TmpResidue
