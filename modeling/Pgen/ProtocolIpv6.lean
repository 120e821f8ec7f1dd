import Pgen.PacketCodec

/-!
# `ipv6_header` and the packet class `ipv6`

The codec does not use the traffic class and the flow label: both directions set them to zero.
Everything else survives it in either direction.
-/
namespace Pgen.ProtocolIpv6
open ByteMemory StructLayout CoreAddress CorePacket ProtocolHeaders PacketCodec

structure Ipv6Header where
  version : BitVec 4
  traficClass : BitVec 8
  flowLevel : BitVec 20
  payloadLen : UInt16
  nextHeader : UInt8
  hopLimit : UInt8
  src : Ipv6Address
  dst : Ipv6Address
  deriving DecidableEq, Repr

/-- `struct ipv6_struct` on a little-endian host. -/
structure Ipv6Struct where
  traficClass1 : BitVec 4
  version : BitVec 4
  flowLevel1 : BitVec 4
  traficClass2 : BitVec 4
  flowLevel2 : UInt16
  payloadLen : UInt16
  nextHeader : UInt8
  hopLimit : UInt8
  src : Vector UInt16 8
  dst : Vector UInt16 8
  deriving DecidableEq, Repr

def Ipv6Struct.layout : Layout Ipv6Struct :=
  (Layout.nibbles.pair (Layout.nibbles.pair (Layout.u16.pair (Layout.u16.pair (Layout.u8.pair
    (Layout.u8.pair ((Layout.u16.vector 8).pair (Layout.u16.vector 8)))))))).rename
  ⟨fun p => ((p.traficClass1, p.version), (p.flowLevel1, p.traficClass2), p.flowLevel2,
      p.payloadLen, p.nextHeader, p.hopLimit, p.src, p.dst),
    fun ((a, b), (c, d), e, f, g, h, i, j) => ⟨a, b, c, d, e, f, g, h, i, j⟩,
    fun _ => rfl, fun _ => rfl⟩

theorem ipv6Struct_size : Ipv6Struct.layout.size = 40 := rfl

namespace Ipv6Header

def minLength : ℕ := 40

def clear : Exec Ipv6Header Unit := modify fun h =>
  { version := 6, traficClass := 0, flowLevel := 0, payloadLen := 0, nextHeader := 6
    hopLimit := 64, src := h.src.clear, dst := h.dst.clear }

/-- What `write` stores into the struct. -/
def toIpv6Struct (h : Ipv6Header) : Ipv6Struct where
  version := h.version
  traficClass1 := 0
  traficClass2 := 0
  flowLevel1 := 0
  flowLevel2 := 0
  payloadLen := htons h.payloadLen
  nextHeader := h.nextHeader
  hopLimit := h.hopLimit
  src := h.src.copytoarray
  dst := h.dst.copytoarray

/-- The members `read` fills from the struct. -/
def ofIpv6Struct (p : Ipv6Struct) (h : Ipv6Header) : Ipv6Header where
  version := p.version
  traficClass := 0
  flowLevel := 0
  payloadLen := ntohs p.payloadLen
  nextHeader := p.nextHeader
  hopLimit := p.hopLimit
  src := h.src.setbyarray p.src
  dst := h.dst.setbyarray p.dst

instance : Header Ipv6Header where
  length _ := minLength
  write h := writeStruct Ipv6Struct.layout minLength
    "pgen::ipv6_header::write: bufferlen is too small" h.toIpv6Struct
  read := readStruct Ipv6Struct.layout minLength
    "pgen::ipv6_header::read: bufferlen is too small" ofIpv6Struct
  keepsLength_write _ _ := keepsLength_writeStruct _ _ _ _ _

end Ipv6Header

section FlowBits

/-- The struct without the bits that the codec does not use. -/
def Ipv6Struct.zeroFlow (p : Ipv6Struct) : Ipv6Struct :=
  { p with traficClass1 := 0, traficClass2 := 0, flowLevel1 := 0, flowLevel2 := 0 }

/-- The low half of the first byte and the next three bytes set to zero: the traffic class and the
flow label of a header that starts here. -/
def zeroFlow : Bytes → Bytes
  | b :: _ :: _ :: _ :: rest => (b &&& 0xf0) :: 0 :: 0 :: 0 :: rest
  | b => b

def Ipv6Header.zeroFlow (h : Ipv6Header) : Ipv6Header := { h with traficClass := 0, flowLevel := 0 }

theorem nibble_and (lo hi : BitVec 4) :
    UInt8.ofNat (lo.toNat + 16 * hi.toNat) &&& 0xf0 = UInt8.ofNat (0 + 16 * hi.toNat) := by
  revert lo hi
  decide +kernel

/-- The first four bytes of the struct and what follows them. -/
theorem enc_cons (p : Ipv6Struct) : ∃ rest : Bytes, ∀ q : Ipv6Struct,
    (q.payloadLen, q.nextHeader, q.hopLimit, q.src, q.dst) =
      (p.payloadLen, p.nextHeader, p.hopLimit, p.src, p.dst) →
    Ipv6Struct.layout.enc q = UInt8.ofNat (q.traficClass1.toNat + 16 * q.version.toNat) ::
      UInt8.ofNat (q.flowLevel1.toNat + 16 * q.traficClass2.toNat) ::
      UInt8.ofNat q.flowLevel2.toNat :: UInt8.ofNat (q.flowLevel2.toNat / 256) :: rest := by
  refine ⟨(Layout.u16.pair (Layout.u8.pair (Layout.u8.pair ((Layout.u16.vector 8).pair
    (Layout.u16.vector 8))))).enc (p.payloadLen, p.nextHeader, p.hopLimit, p.src, p.dst), ?_⟩
  intro q hq
  rw [← hq]
  rfl

theorem enc_zeroFlow (p : Ipv6Struct) :
    Ipv6Struct.layout.enc p.zeroFlow = zeroFlow (Ipv6Struct.layout.enc p) := by
  obtain ⟨rest, hrest⟩ := enc_cons p
  rw [hrest p rfl, hrest p.zeroFlow rfl, zeroFlow, nibble_and]
  simp [Ipv6Struct.zeroFlow]

theorem zeroFlow_append {b : Bytes} (h : 4 ≤ b.length) (rest : Bytes) :
    zeroFlow (b ++ rest) = zeroFlow b ++ rest := by
  match b, h with
  | _ :: _ :: _ :: _ :: _, _ => rfl

theorem zeroFlow_length (b : Bytes) : (zeroFlow b).length = b.length := by
  unfold zeroFlow
  split <;> rfl

end FlowBits

section HeaderCodec

open Ipv6Header

theorem toIpv6Struct_ofIpv6Struct (p : Ipv6Struct) (h : Ipv6Header) :
    toIpv6Struct (ofIpv6Struct p h) = p.zeroFlow := by
  simp [toIpv6Struct, ofIpv6Struct, Ipv6Struct.zeroFlow, Ipv6Address.copytoarray,
    Ipv6Address.setbyarray, Ipv6Address.updateName]

theorem ofIpv6Struct_toIpv6Struct {h : Ipv6Header} (hsrc : h.src.Named) (hdst : h.dst.Named)
    (h₀ : Ipv6Header) : ofIpv6Struct (toIpv6Struct h) h₀ = h.zeroFlow := by
  simp only [ofIpv6Struct, toIpv6Struct, Ipv6Header.zeroFlow, Ipv6Address.copytoarray, ntohs_htons,
    Ipv6Address.setbyarray_raw hsrc, Ipv6Address.setbyarray_raw hdst]

theorem write_emits (h : Ipv6Header) :
    Emits 40 (Header.write h) (Ipv6Struct.layout.enc h.toIpv6Struct) :=
  writeStruct_emits Ipv6Struct.layout _ h.toIpv6Struct

theorem read_ok {b : Bytes} {n : ℕ} (h : Ipv6Header) (hn : 40 ≤ n) (hb : n ≤ b.length) :
    (Header.read b n).run h =
      .ok () (ofIpv6Struct (Ipv6Struct.layout.dec (b.take 40)) h) :=
  readStruct_ok Ipv6Struct.layout _ ofIpv6Struct h hn hb

/-- Writing what was read from `b` gives its bytes back but for the traffic class and the flow
label. -/
theorem read_emits {b : Bytes} (h : Ipv6Header) (hb : 40 ≤ b.length) :
    Emits 40 (Header.write (ofIpv6Struct (Ipv6Struct.layout.dec (b.take 40)) h))
      (zeroFlow (b.take 40)) := by
  have hemits := write_emits (ofIpv6Struct (Ipv6Struct.layout.dec (b.take 40)) h)
  rwa [toIpv6Struct_ofIpv6Struct, enc_zeroFlow, ← ipv6Struct_size,
    Ipv6Struct.layout.enc_dec_take hb] at hemits

/-- Reading what was written gives the header back but for the traffic class and the flow label. -/
theorem read_written {h : Ipv6Header} (hsrc : h.src.Named) (hdst : h.dst.Named) (h₀ : Ipv6Header)
    {mem : Bytes} (hmem : mem.length = 40) :
    ∃ w, (Header.write h 40).run mem = .ok () w ∧
      (Header.read w 40).run h₀ = .ok () h.zeroFlow := by
  have hlen := (write_emits h).length_eq
  refine ⟨_, (write_emits h).write_exact hmem, ?_⟩
  rw [read_ok h₀ (Nat.le_refl _) hlen.ge, List.take_of_length_le hlen.le,
    Ipv6Struct.layout.dec_enc, ofIpv6Struct_toIpv6Struct hsrc hdst]

instance : HeaderCodec Ipv6Header where
  Valid h := h.src.Named ∧ h.dst.Named
  Same h h' := h' = h.zeroFlow
  enc h := Ipv6Struct.layout.enc h.toIpv6Struct
  emits {h} _ := write_emits h
  length_eq _ := rfl
  read_ok {h} hv h₀ rest := by
    refine ⟨_, read_ok h₀ (by simp [ipv6Struct_size]) (Nat.le_refl _), ?_⟩
    rw [← ipv6Struct_size, Ipv6Struct.layout.dec_take_enc, ofIpv6Struct_toIpv6Struct hv.1 hv.2]

end HeaderCodec

section Packet

structure Ipv6 where
  eth : EthernetHeader
  ip : Ipv6Header
  deriving DecidableEq, Repr

def Ipv6.putEth (h : EthernetHeader) (p : Ipv6) : Ipv6 := { p with eth := h }

def Ipv6.putIp (h : Ipv6Header) (p : Ipv6) : Ipv6 := { p with ip := h }

instance : PacketClass Ipv6 where
  headers := [.member Ipv6.eth Ipv6.putEth, .member Ipv6.ip Ipv6.putIp]
  clear := do
    onMember Ipv6.eth Ipv6.putEth EthernetHeader.clear
    modify fun p => { p with eth := { p.eth with type := 0x86dd } }
    onMember Ipv6.ip Ipv6.putIp Ipv6Header.clear

theorem headerLength_eq (p : Packet Ipv6) : p.headerLength = 54 := rfl

theorem readEth_eq_ok {m m' : Ipv6} {b : Bytes} {n : ℕ} (hn : n ≤ b.length)
    (h : ((HeaderPtr.member Ipv6.eth Ipv6.putEth).read b n).run m = .ok () m') :
    14 ≤ n ∧ m'.ip = m.ip ∧
      HeaderPtr.Writes (.member Ipv6.eth Ipv6.putEth) m' (b.take 14) := by
  obtain ⟨eth, heth, rfl⟩ := onMember_eq_ok h
  obtain ⟨hlen, hemits⟩ := LawfulHeader.read_emits hn heth
  exact ⟨hlen, rfl, hemits⟩

theorem readIp_eq_ok {m m' : Ipv6} {b : Bytes} {n : ℕ} (hn : n ≤ b.length)
    (h : ((HeaderPtr.member Ipv6.ip Ipv6.putIp).read b n).run m = .ok () m') :
    40 ≤ n ∧ m'.eth = m.eth ∧
      HeaderPtr.Writes (.member Ipv6.ip Ipv6.putIp) m' (zeroFlow (b.take 40)) := by
  obtain ⟨ip, hip, rfl⟩ := onMember_eq_ok h
  obtain ⟨hlen, rfl⟩ : 40 ≤ n ∧ ip = _ := readStruct_eq_ok hn hip
  exact ⟨hlen, rfl, read_emits m.ip (hlen.trans hn)⟩

/-- What an accepted frame leaves in the object. -/
theorem analyze_eq_ok {p p' : Packet Ipv6} {b : Bytes}
    (h : (Packet.analyze b b.length).run p = .ok () p') :
    54 ≤ b.length ∧ HeaderPtr.Writes (.member Ipv6.eth Ipv6.putEth) p'.members (b.take 14) ∧
      HeaderPtr.Writes (.member Ipv6.ip Ipv6.putIp) p'.members (zeroFlow ((b.drop 14).take 40)) ∧
      p'.raw.vec = p.raw.vec.take 128 ++ b.drop 54 := by
  obtain ⟨rest, k, hread, hvec⟩ := analyze_readHeaders h
  generalize p'.members = m₂ at hread
  obtain ⟨_, m₁, heth, hread₁⟩ := bind_eq_ok.mp hread
  obtain ⟨h14, -, hwrites₁⟩ := readEth_eq_ok (Nat.le_refl _) heth
  rw [run_bind_ok (run_get m₁)] at hread₁
  have hsub : sizeSub b.length 14 = (b.drop 14).length := by
    rw [sizeSub_of_le h14, List.length_drop]
  change (Packet.readHeaders _ (b.drop 14) (sizeSub b.length 14)).run m₁ = _ at hread₁
  rw [hsub] at hread₁
  obtain ⟨_, m₃, hip, hread₂⟩ := bind_eq_ok.mp hread₁
  obtain ⟨h40, heq, hwrites₂⟩ := readIp_eq_ok (Nat.le_refl _) hip
  rw [run_bind_ok (run_get m₃)] at hread₂
  change (pure ((b.drop 14).drop 40, sizeSub (b.drop 14).length 40) : Exec Ipv6 _).run m₃ = _
    at hread₂
  cases hread₂
  have heth' : HeaderPtr.Writes (.member Ipv6.eth Ipv6.putEth) m₂ (b.take 14) := by
    change Emits 14 (Header.write m₂.eth) _
    rw [heq]
    exact hwrites₁
  rw [sizeSub_of_le h40, ← List.length_drop, List.take_length, List.drop_drop] at hvec
  rw [List.length_drop] at h40
  exact ⟨by omega, heth', hwrites₂, hvec⟩

/-- A frame that `ipv6` accepts is compiled back to itself but for the traffic class and the flow
label. -/
theorem frameIdentity_zeroFlow {p p' : Packet Ipv6} {b : Bytes}
    (h : (Packet.analyze b b.length).run p = .ok () p') :
    ∃ p'', Packet.compile.run p' = .ok () p'' ∧ p''.length = .ok b.length ∧
      ∃ mem, p''.rawData = .ok mem ∧ mem.take b.length = b.take 14 ++ zeroFlow (b.drop 14) := by
  obtain ⟨h54, heth, hip, hvec⟩ := analyze_eq_ok h
  obtain ⟨p'', hcompile, -, hlaid, -⟩ := PacketLayout.compile_layout p'
    [b.take 14, zeroFlow ((b.drop 14).take 40)] (b.drop 54)
    (.cons heth.fills (.cons hip.fills .nil)) (by rw [headerLength_eq]; norm_num)
    (contents_eq hvec p.raw.length_take_pivot)
  have hframe : [b.take 14, zeroFlow ((b.drop 14).take 40)].flatten ++ b.drop 54 =
      b.take 14 ++ zeroFlow (b.drop 14) := by
    have hsplit : (b.drop 14).take 40 ++ b.drop 54 = b.drop 14 := by
      rw [show b.drop 54 = (b.drop 14).drop 40 by rw [List.drop_drop], List.take_append_drop]
    have h4 : 4 ≤ ((b.drop 14).take 40).length := by
      rw [List.length_take, List.length_drop]
      omega
    conv_rhs => rw [← hsplit, zeroFlow_append h4]
    rw [List.flatten_cons, List.flatten_singleton, List.append_assoc]
  have hlen : (b.take 14 ++ zeroFlow (b.drop 14)).length = b.length := by
    rw [List.length_append, zeroFlow_length, ← List.length_append, List.take_append_drop]
  have hsum := hlaid.length
  rw [← List.length_flatten, ← List.length_append, hframe, hlen] at hsum
  exact ⟨p'', hcompile, hsum, _, hlaid.rawData, by rw [hframe, ← hlen, List.take_length]⟩

open Segment (member_reads member_keeps) in
instance : CodedPacket Ipv6 where
  Valid m := HeaderCodec.Valid m.eth ∧ HeaderCodec.Valid m.ip
  Same m m' := m'.eth = m.eth ∧ m'.ip = m.ip.zeroFlow
  segments m := [.member Ipv6.eth Ipv6.putEth m.eth, .member Ipv6.ip Ipv6.putIp m.ip]
  ptrs _ := rfl
  fills hv := List.forall_mem_cons.mpr ⟨(HeaderCodec.emits hv.1).fills,
    List.forall_mem_singleton.mpr (HeaderCodec.emits hv.2).fills⟩
  reads hv := List.forall_mem_cons.mpr ⟨member_reads (fun _ _ => rfl) hv.1,
    List.forall_mem_singleton.mpr (member_reads (fun _ _ => rfl) hv.2)⟩
  keeps _ := .cons (List.forall_mem_singleton.mpr (member_keeps fun _ _ => rfl))
    (List.pairwise_singleton _ _)
  same h := by
    obtain ⟨heth, h⟩ := List.forall_mem_cons.mp h
    have hip := List.forall_mem_singleton.mp h
    exact ⟨heth.symm, hip⟩

/-- The codec loses the traffic class and the flow label and nothing else: from bytes to bytes,
from header to header and from frame to frame. -/
theorem ipv6_codec :
    (∀ (b : Bytes) (n : ℕ) (h : Ipv6Header) (mem : Bytes), 40 ≤ n → n ≤ b.length →
      mem.length = 40 → ∃ h', (Header.read b n).run h = .ok () h' ∧
        (Header.write h' 40).run mem = .ok () (zeroFlow (b.take 40))) ∧
    (∀ (h h₀ : Ipv6Header) (mem : Bytes), h.src.Named → h.dst.Named → mem.length = 40 →
      ∃ w, (Header.write h 40).run mem = .ok () w ∧
        (Header.read w 40).run h₀ = .ok () h.zeroFlow) ∧
    ∀ (p p' : Packet Ipv6) (b : Bytes), (Packet.analyze b b.length).run p = .ok () p' →
      ∃ p'', Packet.compile.run p' = .ok () p'' ∧ p''.length = .ok b.length ∧
        ∃ mem, p''.rawData = .ok mem ∧ mem.take b.length = b.take 14 ++ zeroFlow (b.drop 14) := by
  refine ⟨fun b n h mem hn hb hmem => ?_,
    fun h h₀ mem hsrc hdst hmem => read_written hsrc hdst h₀ hmem,
    fun p p' b h => frameIdentity_zeroFlow h⟩
  exact ⟨_, read_ok h hn hb, (read_emits h (hn.trans hb)).write_exact hmem⟩

/-- Forty bytes of a header with the traffic class `0x10` and the flow label `0x12345`. -/
def labelled : Bytes := [0x61, 0x01, 0x23, 0x45] ++ List.replicate 36 0

/-- These bytes, a header with the members that they hold, and a frame of them. -/
theorem ipv6_codec_labelled :
    (∃ h', (Header.read labelled 40).run (⟨6, 0, 0, 0, 0, 0, .new, .new⟩ : Ipv6Header) =
        .ok () h' ∧
      (Header.write h' 40).run (List.replicate 40 0) = .ok () (zeroFlow labelled)) ∧
    (∃ w, (Header.write (⟨6, 0x10, 0x12345, 0, 0, 0, .new, .new⟩ : Ipv6Header) 40).run
        (List.replicate 40 0) = .ok () w ∧
      (Header.read w 40).run (⟨6, 0, 0, 0, 0, 0, .new, .new⟩ : Ipv6Header) =
        .ok () ⟨6, 0, 0, 0, 0, 0, .new, .new⟩) ∧
    ∃ p p' p'' : Packet Ipv6,
      (Packet.analyze (List.replicate 14 0 ++ labelled) 54).run p = .ok () p' ∧
      Packet.compile.run p' = .ok () p'' ∧ p''.length = .ok 54 ∧
      ∃ mem, p''.rawData = .ok mem ∧ mem.take 54 = List.replicate 14 0 ++ zeroFlow labelled := by
  have hmem : (List.replicate 40 (0 : UInt8)).length = 40 := List.length_replicate
  have haccepts : ∃ p', (Packet.analyze (List.replicate 14 0 ++ labelled) 54).run
      ⟨⟨⟨.new, .new, 0⟩, ⟨6, 0, 0, 0, 0, 0, .new, .new⟩⟩, .new 128⟩ =
        .ok () (p' : Packet Ipv6) := ⟨_, rfl⟩
  obtain ⟨p', hanalyze⟩ := haccepts
  obtain ⟨p'', hframe⟩ := ipv6_codec.2.2 _ p' _ hanalyze
  exact ⟨ipv6_codec.1 labelled 40 _ _ (Nat.le_refl 40) (by decide) hmem,
    ipv6_codec.2.1 _ _ _ rfl rfl hmem, _, p', p'', hanalyze, hframe⟩

/-- A label other than zero comes back neither in the bytes nor in the header. -/
theorem labelled_lost :
    (¬ ∃ h', (Header.read labelled 40).run (⟨6, 0, 0, 0, 0, 0, .new, .new⟩ : Ipv6Header) =
        .ok () h' ∧ (Header.write h' 40).run (List.replicate 40 0) = .ok () labelled) ∧
    ¬ ∃ w, (Header.write (⟨6, 0, 1, 0, 0, 0, .new, .new⟩ : Ipv6Header) 40).run
        (List.replicate 40 0) = .ok () w ∧
      (Header.read w 40).run (⟨6, 0, 0, 0, 0, 0, .new, .new⟩ : Ipv6Header) =
        .ok () ⟨6, 0, 1, 0, 0, 0, .new, .new⟩ := by
  have hmem : (List.replicate 40 (0 : UInt8)).length = 40 := List.length_replicate
  have hb : 40 ≤ labelled.length := by decide
  constructor
  · rintro ⟨h', hread, hwrite⟩
    cases hread.symm.trans (read_ok _ (Nat.le_refl 40) hb)
    cases hwrite.symm.trans ((read_emits _ hb).write_exact hmem)
  · rintro ⟨w, hwrite, hread⟩
    obtain ⟨w', hwrite', hread'⟩ :=
      read_written (h := ⟨6, 0, 1, 0, 0, 0, .new, .new⟩) rfl rfl ⟨6, 0, 0, 0, 0, 0, .new, .new⟩ hmem
    cases hwrite.symm.trans hwrite'
    cases hread.symm.trans hread'

end Packet

end Pgen.ProtocolIpv6
