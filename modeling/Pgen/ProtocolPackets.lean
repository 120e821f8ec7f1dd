import Pgen.ProtocolHeaders
import Pgen.ProtocolIp

/-!
# The packet classes `ethernet`, `arp`, `ipv4` and `udp`

Each class is a stack of headers in front of the contents. All header classes write what they
read, so a frame that one of the packet classes accepts is compiled back to itself.
-/
namespace Pgen.ProtocolPackets
open ByteMemory CorePacket ProtocolHeaders ProtocolIp

structure Ethernet where
  eth : EthernetHeader
  deriving DecidableEq, Repr

structure Arp where
  eth : EthernetHeader
  arp : ArpHeader
  deriving DecidableEq, Repr

structure Ipv4 where
  eth : EthernetHeader
  ip : Ipv4Header
  deriving DecidableEq, Repr

structure Udp where
  udp : UdpHeader
  ip : Ipv4Header
  eth : EthernetHeader
  deriving DecidableEq, Repr

section Classes

def Ethernet.putEth (h : EthernetHeader) (p : Ethernet) : Ethernet := { p with eth := h }

instance : PacketClass Ethernet where
  headers := [.member Ethernet.eth Ethernet.putEth]
  clear := onMember Ethernet.eth Ethernet.putEth EthernetHeader.clear

def Arp.putEth (h : EthernetHeader) (p : Arp) : Arp := { p with eth := h }

def Arp.putArp (h : ArpHeader) (p : Arp) : Arp := { p with arp := h }

instance : PacketClass Arp where
  headers := [.member Arp.eth Arp.putEth, .member Arp.arp Arp.putArp]
  clear := do
    onMember Arp.eth Arp.putEth EthernetHeader.clear
    modify fun p => { p with eth := { p.eth with type := 0x0806 } }
    onMember Arp.arp Arp.putArp ArpHeader.clear

def Ipv4.putEth (h : EthernetHeader) (p : Ipv4) : Ipv4 := { p with eth := h }

def Ipv4.putIp (h : Ipv4Header) (p : Ipv4) : Ipv4 := { p with ip := h }

instance : PacketClass Ipv4 where
  headers := [.member Ipv4.eth Ipv4.putEth, .member Ipv4.ip Ipv4.putIp]
  clear := do
    onMember Ipv4.eth Ipv4.putEth EthernetHeader.clear
    modify fun p => { p with eth := { p.eth with type := 0x0800 } }
    onMember Ipv4.ip Ipv4.putIp Ipv4Header.clear

/-- `ipv4::protocol::udp` -/
def protocolUdp : UInt8 := 17

def Udp.putUdp (h : UdpHeader) (p : Udp) : Udp := { p with udp := h }

def Udp.putIp (h : Ipv4Header) (p : Udp) : Udp := { p with ip := h }

def Udp.putEth (h : EthernetHeader) (p : Udp) : Udp := { p with eth := h }

instance : PacketClass Udp where
  headers := [.member Udp.eth Udp.putEth, .member Udp.ip Udp.putIp, .member Udp.udp Udp.putUdp]
  clear := do
    onMember Udp.eth Udp.putEth EthernetHeader.clear
    modify fun p => { p with eth := { p.eth with type := 0x0800 } }
    onMember Udp.ip Udp.putIp Ipv4Header.clear
    modify fun p => { p with ip := { p.ip with protocol := protocolUdp } }
    modify fun p => { p with ip := { p.ip with
      totLen := (p.ip.length + Header.length p.udp).toUInt16 } }
    onMember Udp.udp Udp.putUdp UdpHeader.clear

end Classes

section FrameIdentity

open HeaderPtr

instance : LawfulPacket Ethernet where
  decodes := List.forall_mem_singleton.mpr (member_decodes fun _ _ => rfl)
  spares := List.pairwise_singleton _ _
  headerLength_le p := show 14 ≤ 128 by decide

instance : LawfulPacket Arp where
  decodes := List.forall_mem_cons.mpr ⟨member_decodes fun _ _ => rfl,
    List.forall_mem_singleton.mpr (member_decodes fun _ _ => rfl)⟩
  spares := .cons (List.forall_mem_singleton.mpr (member_spares fun _ _ => rfl))
    (List.pairwise_singleton _ _)
  headerLength_le p := show 14 + 28 ≤ 128 by decide

instance : LawfulPacket Ipv4 where
  decodes := List.forall_mem_cons.mpr ⟨member_decodes fun _ _ => rfl,
    List.forall_mem_singleton.mpr (member_decodes fun _ _ => rfl)⟩
  spares := .cons (List.forall_mem_singleton.mpr (member_spares fun _ _ => rfl))
    (List.pairwise_singleton _ _)
  headerLength_le p := by
    have hip := p.members.ip.length_le
    change 14 + (p.members.ip.length + 0) ≤ 128
    omega

instance : LawfulPacket Udp where
  decodes := List.forall_mem_cons.mpr ⟨member_decodes fun _ _ => rfl,
    List.forall_mem_cons.mpr ⟨member_decodes fun _ _ => rfl,
      List.forall_mem_singleton.mpr (member_decodes fun _ _ => rfl)⟩⟩
  spares := .cons
    (List.forall_mem_cons.mpr ⟨member_spares fun _ _ => rfl,
      List.forall_mem_singleton.mpr (member_spares fun _ _ => rfl)⟩)
    (.cons (List.forall_mem_singleton.mpr (member_spares fun _ _ => rfl))
      (List.pairwise_singleton _ _))
  headerLength_le p := by
    have hip := p.members.ip.length_le
    change 14 + (p.members.ip.length + 8) ≤ 128
    omega

theorem frameIdentity_all :
    FrameIdentity Ethernet ∧ FrameIdentity Arp ∧ FrameIdentity Ipv4 ∧ FrameIdentity Udp :=
  ⟨frameIdentity, frameIdentity, frameIdentity, frameIdentity⟩

/-- A UDP frame with an IPv4 option and two bytes of data. -/
def optionDatagram : Bytes :=
  List.replicate 12 0 ++ [0x08, 0x00, 0x46] ++ List.replicate 8 0 ++ [0x11] ++
    List.replicate 10 0 ++ [0x01, 0x01, 0x01, 0x00] ++ List.replicate 8 0 ++ [0xca, 0xfe]

/-- The members of a UDP object before its constructor has run. -/
def freshUdp : Udp :=
  ⟨⟨0, 0, 0, 0⟩, ⟨0, 0, 0, 0, 0, 0, 0, 0, 0, .new, .new, Vector.replicate 40 0⟩,
    ⟨.new, .new, 0⟩⟩

theorem frameIdentity_all_options :
    ∃ p' p'' : Packet Udp,
      (Packet.analyze optionDatagram optionDatagram.length).run ⟨freshUdp, .new 128⟩ =
        .ok () p' ∧
      Packet.compile.run p' = .ok () p'' ∧ p''.length = .ok optionDatagram.length ∧
      ∃ mem, p''.rawData = .ok mem ∧ mem.take optionDatagram.length = optionDatagram := by
  have haccepts : ∃ p', (Packet.analyze optionDatagram optionDatagram.length).run
      ⟨freshUdp, .new 128⟩ = .ok () p' := ⟨_, rfl⟩
  obtain ⟨p', hanalyze⟩ := haccepts
  obtain ⟨p'', hcompile, hlen, -, hraw⟩ :=
    frameIdentity_all.2.2.2 ⟨freshUdp, .new 128⟩ p' optionDatagram hanalyze
  exact ⟨p', p'', hanalyze, hcompile, hlen, hraw⟩

end FrameIdentity

end Pgen.ProtocolPackets
