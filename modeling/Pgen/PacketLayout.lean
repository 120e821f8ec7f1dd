import Pgen.ProtocolPackets

/-!
# The layout of a compiled packet

`compile` walks the headers backwards from the contents, `raw` and `length` add their lengths up
forwards. For any list of headers that write their own length the two agree: the encodings lie one
behind the other directly in front of the contents.
-/
namespace Pgen.PacketLayout
open ByteMemory CorePacket ProtocolHeaders ProtocolIp ProtocolPackets

variable {M : Type} [PacketClass M]

/-- The encodings `ws` of the headers lie between the headroom and the contents. -/
structure LaidOut (ws : List Bytes) (contents headroom : Bytes) (p : Packet M) : Prop where
  rawData : p.rawData = .ok (ws.flatten ++ contents)
  length : p.length = .ok ((ws.map List.length).sum + contents.length)
  contents : p.contents = .ok contents
  headroom : p.raw.vec.take (128 - p.headerLength) = headroom

/-- A vector with this decomposition is that of a laid-out packet. -/
theorem laidOut_of_vec {p : Packet M} {ws : List Bytes} {headroom contents : Bytes}
    (hvec : p.raw.vec = headroom ++ (ws.flatten ++ contents))
    (hlen : headroom.length + ws.flatten.length = 128)
    (hheader : p.headerLength = ws.flatten.length) : LaidOut ws contents headroom p := by
  have hpre : (headroom ++ ws.flatten).length = 128 := by rw [List.length_append, hlen]
  have hroom : headroom.length = 128 - p.headerLength := by omega
  have hvec' := hvec
  rw [← List.append_assoc] at hvec'
  refine ⟨?_, ?_, contents_eq hvec' hpre, ?_⟩
  · rw [rawData_eq hvec' hpre (by omega), List.drop_left' hroom]
  · rw [length_eq hvec' hpre, hheader, List.length_flatten, Nat.add_comm]
  · rw [hvec, List.take_left' hroom]

omit [PacketClass M] in
theorem packet_ext {p q : Packet M} (hmem : p.members = q.members) (hvec : p.raw.vec = q.raw.vec) :
    p = q := by
  obtain ⟨m, ⟨vec, h⟩⟩ := p
  obtain ⟨m', ⟨vec', h'⟩⟩ := q
  cases hmem
  cases hvec
  rfl

/-- Compiling lays the packet out, whatever the headroom held, and compiling again changes
nothing. -/
theorem compile_layout (p : Packet M) (ws : List Bytes) (contents : Bytes)
    (hws : List.Forall₂ (fun ph w => ph.Fills p.members w) headers ws)
    (hfit : p.headerLength ≤ 128) (hcontents : p.contents = .ok contents) :
    ∃ p', Packet.compile.run p = .ok () p' ∧ p'.members = p.members ∧
      LaidOut ws contents (p.raw.vec.take (128 - p.headerLength)) p' ∧
      Packet.compile.run p' = .ok () p' := by
  have hheader : p.headerLength = ws.flatten.length := (flatten_length hws).symm
  cases (contents_drop p).symm.trans hcontents
  obtain ⟨p', hc, hmem, hvec⟩ :=
    compile_ok hws (vec_eq p) p.raw.length_take_pivot (hheader ▸ hfit)
  have hheader' : p'.headerLength = ws.flatten.length := by
    rw [← hheader, Packet.headerLength, hmem, Packet.headerLength]
  rw [List.take_take, Nat.min_eq_left (Nat.sub_le _ _)] at hvec
  have hroom : (p.raw.vec.take (128 - ws.flatten.length)).length + ws.flatten.length = 128 := by
    have hvlen := p.raw.headroom
    rw [List.length_take]
    omega
  -- the second run finds the headers it writes
  have hpre' : (p.raw.vec.take (128 - ws.flatten.length) ++ ws.flatten).length = 128 := by
    rw [List.length_append, hroom]
  have hvec₂ := hvec
  rw [← List.append_assoc] at hvec₂
  obtain ⟨p'', hc', hmem', hvec'⟩ :=
    compile_ok (hmem.symm ▸ hws) hvec₂ hpre' (by omega)
  rw [List.take_left' (by omega), ← hvec] at hvec'
  refine ⟨p', hc, hmem, ?_, ?_⟩
  · rw [hheader]
    exact laidOut_of_vec hvec hroom hheader'
  · rw [packet_ext hmem' hvec'] at hc'
    exact hc'

/-- A cleared UDP packet in front of two bytes, with rubbish in the headroom. -/
def clearedUdp : Packet Udp where
  members := ⟨⟨53, 53, 8, 0⟩, Ipv4Header.cleared, ⟨.new, .new, 0x0800⟩⟩
  raw := ⟨List.replicate 128 0xcc ++ [0x01, 0x02], by simp⟩

theorem compile_layout_clearedUdp :
    ∃ p', Packet.compile.run clearedUdp = .ok () p' ∧ p'.members = clearedUdp.members ∧
      LaidOut [Eth.layout.enc clearedUdp.members.eth.toEth, clearedUdp.members.ip.encoding,
        UdpStruct.layout.enc clearedUdp.members.udp.toUdpStruct] [0x01, 0x02]
        (clearedUdp.raw.vec.take (128 - clearedUdp.headerLength)) p' ∧
      Packet.compile.run p' = .ok () p' :=
  compile_layout clearedUdp _ _
    (.cons (writeStruct_emits Eth.layout _ _).fills
      (.cons (Ipv4Header.write_emits (by decide)).fills
        (.cons (writeStruct_emits UdpStruct.layout _ _).fills .nil)))
    (by decide) (contents_eq (show _ = List.replicate 128 0xcc ++ _ from rfl) List.length_replicate)

end Pgen.PacketLayout
