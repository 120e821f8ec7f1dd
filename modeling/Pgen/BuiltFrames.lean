import Pgen.ModuleDetect
import Pgen.PacketMachine
import Pgen.PacketStreams

/-!
# The detectors on frames this library builds

A compiled packet is recognized by the detector of its class, with the place where its network
header ends and the protocol above it, as long as its type field is the one `clear` gives to the
class or one that no detector asks for. Under calls that do not assign the type field it stays so.
-/
namespace Pgen.BuiltFrames
open ByteMemory CorePacket ProtocolHeaders ProtocolIp ProtocolIpv6 ProtocolPackets PacketCodec
  PacketCopies PacketReuse PacketMachine PacketStreams ModuleDetect
open Refinement hiding Report

section Model

/-- `ipv4::protocol::icmp` -/
def protocolIcmp : UInt8 := 1

/-- `detect_icmpv4`; `locals` are `ip_hlen` and `proto` before the call. The pointer and the length
that are moved behind the header are not looked at again. -/
def detectIcmpv4 {σ : Type} (eth : EthernetHeader) (ipv4 : Ipv4Header) (locals : Report)
    (buffer : Bytes) (bufferlen : ℕ) : Exec σ Bool := do
  let (found, locals) ← onLocal locals (detectIpv4 eth ipv4 buffer bufferlen)
  if found then
    if locals.proto = protocolIcmp.toUInt16 then
      return true
  return false

/-- The Ethernet header of a packet. -/
def ethOf : (k : Kind) → Members k → EthernetHeader
  | .ethernet, m => m.eth
  | .arp, m => m.eth
  | .ipv4, m => m.eth
  | .ipv6, m => m.eth
  | .udp, m => m.eth

/-- The header behind it, as a detector sees it. -/
structure Network where
  etherType : UInt16
  length : ℕ
  protocol : Option UInt16

def network : (k : Kind) → Members k → Option Network
  | .ethernet, _ => none
  | .arp, m => some ⟨etherTypeArp, Header.length m.arp, none⟩
  | .ipv4, m => some ⟨etherTypeIp, Header.length m.ip, some m.ip.protocol.toUInt16⟩
  | .ipv6, m => some ⟨etherTypeIpv6, Header.length m.ip, some m.ip.nextHeader.toUInt16⟩
  | .udp, m => some ⟨etherTypeIp, Header.length m.ip, some m.ip.protocol.toUInt16⟩

/-- The type field names the header that follows, or something no detector asks for. -/
def Honest (k : Kind) (m : Members k) : Prop :=
  ∀ T ∈ [etherTypeArp, etherTypeIp, etherTypeIpv6], (ethOf k m).type = T →
    ∃ n, network k m = some n ∧ n.etherType = T

/-- What the detector of this type is to say. -/
def answer (k : Kind) (m : Members k) (T : UInt16) (r : Report) : Outcome Report Bool :=
  match network k m with
  | some n =>
    if (ethOf k m).type = T then .ok true ⟨14 + n.length, n.protocol.getD r.proto⟩ else .ok false r
  | none => .ok false r

end Model

section Layers

variable {H : Type} [Header H] [HeaderCodec H] {e : EthernetHeader} {h : H}
  {T : UInt16} (report : H → Report → Report)

theorem detectEthernet_layers (he : HeaderCodec.Valid e) (eth : EthernetHeader) (rest : Bytes)
    (r : Report) :
    (detectEthernet eth (HeaderCodec.enc e ++ rest) (HeaderCodec.enc e ++ rest).length).run r =
      .ok true ⟨14, e.type⟩ := by
  obtain ⟨e', hread, rfl⟩ := HeaderCodec.read_ok he eth rest
  exact run_bind_ok (onLocal_ok hread r)

theorem length_encEth (e : EthernetHeader) : (HeaderCodec.enc e).length = 14 :=
  Eth.layout.enc_length e.toEth

omit [HeaderCodec H] in
theorem detectHeader_missed (he : HeaderCodec.Valid e) (htype : e.type ≠ T) (eth : EthernetHeader)
    (header : H) (rest : Bytes) (r : Report) :
    (detectHeader T report eth header (HeaderCodec.enc e ++ rest)
      (HeaderCodec.enc e ++ rest).length).run r = .ok false r := by
  have heth := detectEthernet_layers he eth rest ⟨0, 0⟩
  refine (run_bind_ok (onLocal_ok heth r)).trans ?_
  simp [htype, EStateM.run_pure]

/-- A detector of this type reads the header that follows. -/
theorem detectHeader_found (he : HeaderCodec.Valid e) (hh : HeaderCodec.Valid h)
    (htype : e.type = T) (eth : EthernetHeader) (header : H) (rest : Bytes) (r : Report) :
    ∃ h', HeaderCodec.Same h h' ∧
      (detectHeader T report eth header (HeaderCodec.enc e ++ (HeaderCodec.enc h ++ rest))
        (HeaderCodec.enc e ++ (HeaderCodec.enc h ++ rest)).length).run r =
        .ok true (report h' { r with hdrlen := 14 + Header.length h }) := by
  obtain ⟨h', hread, hsame⟩ := HeaderCodec.read_ok hh header rest
  have heth := detectEthernet_layers he eth (HeaderCodec.enc h ++ rest) ⟨0, 0⟩
  have hlen := length_encEth e
  have hframe : (HeaderCodec.enc e ++ (HeaderCodec.enc h ++ rest)).length =
      14 + (HeaderCodec.enc h ++ rest).length := by rw [List.length_append, hlen]
  refine ⟨h', hsame, (run_bind_ok (onLocal_ok heth r)).trans ?_⟩
  rw [← HeaderCodec.length_eq hsame]
  simp only [htype, if_true, List.drop_left' hlen]
  rw [hframe, sizeSub_of_le (Nat.le_add_right _ _), Nat.add_sub_cancel_left]
  exact run_bind_ok (onLocal_ok hread r)

end Layers

section Frames

variable {k : Kind} {p : Packet (Members k)}

/-- A frame is the encodings of the headers and the contents. -/
theorem frameOf_eq (hv : CodedPacket.Valid p.members) : frameOf ⟨k, p⟩ =
    ((CodedPacket.segments p.members).map Segment.bytes).flatten ++ p.raw.vec.drop 128 := by
  have hws := forall₂_fills (CodedPacket.fills hv)
  rw [CodedPacket.ptrs] at hws
  obtain ⟨p', hcompile, -, hlaid, -⟩ := PacketLayout.compile_layout p _ _ hws
    (RegularPacket.headerLength_le p) (contents_drop p)
  simp [frameOf, hcompile, hlaid.rawData, Except.toOption]

/-- The headers behind the Ethernet header. -/
def upper : (k : Kind) → Members k → Bytes
  | .ethernet, _ => []
  | .arp, m => HeaderCodec.enc m.arp
  | .ipv4, m => HeaderCodec.enc m.ip
  | .ipv6, m => HeaderCodec.enc m.ip
  | .udp, m => HeaderCodec.enc m.ip ++ HeaderCodec.enc m.udp

theorem flatten_segments (m : Members k) :
    ((CodedPacket.segments m).map Segment.bytes).flatten =
      HeaderCodec.enc (ethOf k m) ++ upper k m := by
  cases k with
  | ethernet => rfl
  | arp => exact congrArg (_ ++ ·) (List.append_nil _)
  | ipv4 => exact congrArg (_ ++ ·) (List.append_nil _)
  | ipv6 => exact congrArg (_ ++ ·) (List.append_nil _)
  | udp => exact congrArg (_ ++ ·) (congrArg (_ ++ ·) (List.append_nil _))

theorem frameOf_layers (hv : CodedPacket.Valid p.members) : frameOf ⟨k, p⟩ =
    HeaderCodec.enc (ethOf k p.members) ++ (upper k p.members ++ p.raw.vec.drop 128) := by
  rw [frameOf_eq hv, flatten_segments, List.append_assoc]

theorem valid_ethOf {m : Members k} (hv : CodedPacket.Valid m) :
    HeaderCodec.Valid (ethOf k m) := by
  cases k with
  | ethernet => exact hv
  | arp => exact hv.1
  | ipv4 => exact hv.1
  | ipv6 => exact hv.1
  | udp => exact hv.1

variable {H : Type} [Header H] [HeaderCodec H]

/-- Behind the Ethernet header of the frame the detector finds this. -/
structure Follows (p : Packet (Members k)) (n : Network) (report : H → Report → Report) (h : H) :
    Prop where
  valid : HeaderCodec.Valid h
  upper_eq : ∃ more, upper k p.members = HeaderCodec.enc h ++ more
  length_eq : Header.length h = n.length
  report_eq : ∀ {h'}, HeaderCodec.Same h h' → ∀ l proto,
    report h' ⟨l, proto⟩ = ⟨l, n.protocol.getD proto⟩

/-- A detector answers as the type field says when the header of its type is what follows. -/
theorem detectHeader_frame {T : UInt16} {report : H → Report → Report}
    (hv : CodedPacket.Valid p.members) (hT : T ∈ [etherTypeArp, etherTypeIp, etherTypeIpv6])
    (hhonest : Honest k p.members)
    (hfollows : ∀ n, network k p.members = some n → n.etherType = T →
      ∃ h : H, Follows p n report h) (eth : EthernetHeader) (header : H) (r : Report) :
    (detectHeader T report eth header (frameOf ⟨k, p⟩) (frameOf ⟨k, p⟩).length).run r =
      answer k p.members T r := by
  have heth := valid_ethOf hv
  have hframe := frameOf_layers hv
  by_cases htype : (ethOf k p.members).type = T
  · obtain ⟨n, hn, hnT⟩ := hhonest T hT htype
    obtain ⟨h, hh⟩ := hfollows n hn hnT
    obtain ⟨more, hupper⟩ := hh.upper_eq
    have hfound := detectHeader_found report heth hh.valid htype eth header
      (more ++ p.raw.vec.drop 128) r
    obtain ⟨h', hsame, hrun⟩ := hfound
    rw [hupper, List.append_assoc] at hframe
    rw [hframe, hrun, hh.report_eq hsame, hh.length_eq]
    unfold answer
    rw [hn]
    exact (if_pos htype).symm
  · rw [hframe, detectHeader_missed report heth htype]
    unfold answer
    split
    · exact (if_neg htype).symm
    · rfl

theorem detectArp_frame (hv : CodedPacket.Valid p.members) (hhonest : Honest k p.members)
    (eth : EthernetHeader) (arp : ArpHeader) (r : Report) :
    (detectArp eth arp (frameOf ⟨k, p⟩) (frameOf ⟨k, p⟩).length).run r =
      answer k p.members etherTypeArp r := by
  refine detectHeader_frame hv (by decide) hhonest (fun n hn hnT => ?_) eth arp r
  cases k with
  | ethernet => cases hn
  | arp =>
    cases hn
    exact ⟨p.members.arp, hv.2, ⟨[], (List.append_nil _).symm⟩, rfl, fun _ _ _ => rfl⟩
  | ipv4 =>
    cases hn
    cases hnT
  | ipv6 =>
    cases hn
    cases hnT
  | udp =>
    cases hn
    cases hnT

theorem protocol_of_same {h h' : Ipv4Header} (hsame : HeaderCodec.Same h h') :
    h'.protocol = h.protocol := by
  have hmembers := congrArg Ipv4Header.protocol hsame.members
  exact hmembers

theorem detectIpv4_frame (hv : CodedPacket.Valid p.members) (hhonest : Honest k p.members)
    (eth : EthernetHeader) (ipv4 : Ipv4Header) (r : Report) :
    (detectIpv4 eth ipv4 (frameOf ⟨k, p⟩) (frameOf ⟨k, p⟩).length).run r =
      answer k p.members etherTypeIp r := by
  refine detectHeader_frame hv (by decide) hhonest (fun n hn hnT => ?_) eth ipv4 r
  cases k with
  | ethernet => cases hn
  | arp =>
    cases hn
    cases hnT
  | ipv4 =>
    cases hn
    refine ⟨p.members.ip, hv.2, ⟨[], (List.append_nil _).symm⟩, rfl, fun hsame _ _ => ?_⟩
    simp [protocol_of_same hsame]
  | ipv6 =>
    cases hn
    cases hnT
  | udp =>
    cases hn
    refine ⟨p.members.ip, hv.2.1, ⟨HeaderCodec.enc p.members.udp, rfl⟩, rfl, fun hsame _ _ => ?_⟩
    simp [protocol_of_same hsame]

theorem detectIpv6_frame (hv : CodedPacket.Valid p.members) (hhonest : Honest k p.members)
    (eth : EthernetHeader) (ipv6 : Ipv6Header) (r : Report) :
    (detectIpv6 eth ipv6 (frameOf ⟨k, p⟩) (frameOf ⟨k, p⟩).length).run r =
      answer k p.members etherTypeIpv6 r := by
  refine detectHeader_frame hv (by decide) hhonest (fun n hn hnT => ?_) eth ipv6 r
  cases k with
  | ethernet => cases hn
  | arp =>
    cases hn
    cases hnT
  | ipv4 =>
    cases hn
    cases hnT
  | ipv6 =>
    cases hn
    refine ⟨p.members.ip, hv.2, ⟨[], (List.append_nil _).symm⟩, rfl, fun hsame _ _ => ?_⟩
    cases hsame
    rfl
  | udp =>
    cases hn
    cases hnT

/-- An IPv4 header with this protocol field follows the Ethernet header. -/
def isIcmp (k : Kind) (m : Members k) : Bool :=
  (ethOf k m).type = etherTypeIp ∧
    (network k m).bind Network.protocol = some protocolIcmp.toUInt16

theorem detectIcmpv4_frame {σ : Type} (hv : CodedPacket.Valid p.members)
    (hhonest : Honest k p.members) (eth : EthernetHeader) (ipv4 : Ipv4Header) (locals : Report)
    (s : σ) :
    (detectIcmpv4 eth ipv4 locals (frameOf ⟨k, p⟩) (frameOf ⟨k, p⟩).length).run s =
      .ok (isIcmp k p.members) s := by
  have hipv4 := detectIpv4_frame hv hhonest eth ipv4 locals
  unfold answer at hipv4
  by_cases htype : (ethOf k p.members).type = etherTypeIp
  · obtain ⟨⟨T, length, protocol⟩, hn, rfl⟩ := hhonest etherTypeIp (by decide) htype
    obtain ⟨proto, rfl⟩ : ∃ proto, protocol = some proto := by
      cases k <;> cases hn <;> exact ⟨_, rfl⟩
    rw [hn] at hipv4
    simp only [htype, if_true] at hipv4
    refine (run_bind_ok (onLocal_ok hipv4 s)).trans ?_
    simp only [isIcmp, htype, hn, Option.bind_some, Option.getD_some]
    by_cases hicmp : proto = protocolIcmp.toUInt16 <;> simp [hicmp, EStateM.run_pure]
  · have hmissed : (detectIpv4 eth ipv4 (frameOf ⟨k, p⟩) (frameOf ⟨k, p⟩).length).run locals =
        .ok false locals := by
      rw [hipv4]
      split
      · exact if_neg htype
      · rfl
    refine (run_bind_ok (onLocal_ok hmissed s)).trans ?_
    simp [isIcmp, htype, EStateM.run_pure]

end Frames

section Runs

variable {k : Kind}

/-- The type field of a cleared packet. -/
def defaultType : Kind → UInt16
  | .ethernet => 0
  | .arp => etherTypeArp
  | .ipv4 => etherTypeIp
  | .ipv6 => etherTypeIpv6
  | .udp => etherTypeIp

/-- The packet has the type field of its class. -/
def Typed (p : Packet (Members k)) : Prop := (ethOf k p.members).type = defaultType k

theorem Typed.honest {p : Packet (Members k)} (h : Typed p) : Honest k p.members := by
  intro T hT htype
  unfold Typed at h
  rw [← htype, h]
  cases k with
  | ethernet =>
    rw [← htype, h] at hT
    exact absurd hT (by decide)
  | arp => exact ⟨_, rfl, rfl⟩
  | ipv4 => exact ⟨_, rfl, rfl⟩
  | ipv6 => exact ⟨_, rfl, rfl⟩
  | udp => exact ⟨_, rfl, rfl⟩

theorem type_clearEth {e e' : EthernetHeader} (h : EthernetHeader.clear.run e = .ok () e') :
    e'.type = 0 := by
  obtain ⟨_, e₁, -, h₁⟩ := bind_eq_ok.mp h
  obtain ⟨_, e₂, -, h₂⟩ := bind_eq_ok.mp h₁
  cases h₂
  rfl

/-- `clear` gives every class its type field. -/
theorem type_clear {fresh m : Members k}
    (h : (PacketClass.clear : Exec (Members k) Unit).run fresh = .ok () m) :
    (ethOf k m).type = defaultType k := by
  cases k with
  | ethernet =>
    obtain ⟨e, he, rfl⟩ := onMember_eq_ok h
    exact type_clearEth he
  | arp =>
    obtain ⟨_, m₁, -, h₁⟩ := bind_eq_ok.mp h
    obtain ⟨_, m₂, h₂, h₃⟩ := bind_eq_ok.mp h₁
    cases h₂
    obtain ⟨a, -, rfl⟩ := onMember_eq_ok h₃
    rfl
  | ipv4 =>
    obtain ⟨_, m₁, -, h₁⟩ := bind_eq_ok.mp h
    obtain ⟨_, m₂, h₂, h₃⟩ := bind_eq_ok.mp h₁
    cases h₂
    obtain ⟨a, -, rfl⟩ := onMember_eq_ok h₃
    rfl
  | ipv6 =>
    obtain ⟨_, m₁, -, h₁⟩ := bind_eq_ok.mp h
    obtain ⟨_, m₂, h₂, h₃⟩ := bind_eq_ok.mp h₁
    cases h₂
    obtain ⟨a, -, rfl⟩ := onMember_eq_ok h₃
    rfl
  | udp =>
    obtain ⟨_, m₁, -, h₁⟩ := bind_eq_ok.mp h
    obtain ⟨_, m₂, h₂, h₃⟩ := bind_eq_ok.mp h₁
    cases h₂
    obtain ⟨_, m₃, h₄, h₅⟩ := bind_eq_ok.mp h₃
    obtain ⟨a, -, rfl⟩ := onMember_eq_ok h₄
    obtain ⟨_, m₄, h₆, h₇⟩ := bind_eq_ok.mp h₅
    cases h₆
    obtain ⟨_, m₅, h₈, h₉⟩ := bind_eq_ok.mp h₇
    cases h₈
    obtain ⟨u, -, rfl⟩ := onMember_eq_ok h₉
    rfl

/-- The call neither decodes a frame nor assigns the type field. -/
def Plain : Call k → Prop
  | .op (.assign f) => ∀ m, (ethOf k (assign k f m)).type = (ethOf k m).type
  | .analyze _ => False
  | _ => True

theorem leaves_compile {M : Type} [PacketClass M] :
    Leaves Packet.members (Packet.compile : Exec (Packet M) Unit) :=
  leaves_bind (fun _ => rfl) fun _ => leaves_onMember _ fun _ _ => rfl

theorem Typed.of_members {p q : Packet (Members k)} (h : Typed p) (hq : q.members = p.members) :
    Typed q := (congrArg (fun m => (ethOf k m).type) hq).trans h

/-- Such a call keeps the type field of the class, also when it throws. -/
theorem Plain.step {c : Call k} (hc : Plain c) {p : Packet (Members k)} (h : Typed p) :
    Typed (finalState (c.run.run p)) := by
  cases c with
  | op o =>
    cases o with
    | assign f => exact (hc p.members).trans h
    | setContents buffer =>
      exact h.of_members (leaves_bind
        (leaves_setContents (fun _ _ => rfl) (fun _ => rfl) buffer buffer.length)
        (fun _ => leaves_pure Answer.done) p)
    | compile =>
      exact h.of_members (leaves_bind leaves_compile (fun _ => leaves_pure Answer.done) p)
  | clear =>
    obtain ⟨m₀, hclear, -⟩ := clear_option k p.members
    have hrun : (Call.clear.run : Exec (Packet (Members k)) Answer).run p = _ :=
      run_bind_ok (onMember_ok hclear)
    rw [hrun]
    exact type_clear hclear
  | analyze buffer => exact hc.elim
  | raw => exact h.of_members (leaves_observe _ p)
  | length => exact h.of_members (leaves_observe _ p)
  | contents => exact h.of_members (leaves_observe _ p)
  | headerLength => exact h.of_members (leaves_observe (fun p => .ok (.size p.headerLength)) p)

/-- Every packet that is built by its default constructor and calls that do not assign its type
field, with their exceptions caught, is recognized for what it is when it is compiled: with its own
header behind the Ethernet header a detector finds where that ends and what protocol it carries,
with any other it leaves the caller's variables alone. -/
theorem built_detected {fresh m₀ : Members k} {calls : List (Call k)}
    {reports : List (Refinement.Report Answer)} {p : Packet (Members k)}
    (hclear : (PacketClass.clear : Exec (Members k) Unit).run fresh = .ok () m₀)
    (hplain : ∀ c ∈ calls, Plain c)
    (htrace : trace Call.run calls ⟨m₀, .new 128⟩ = (reports, some p))
    (hv : CodedPacket.Valid p.members) (eth : EthernetHeader) (arp : ArpHeader)
    (ipv4 : Ipv4Header) (ipv6 : Ipv6Header) (locals r : Report) :
    (ethOf k p.members).type = defaultType k ∧
      (detectEthernet eth (frameOf ⟨k, p⟩) (frameOf ⟨k, p⟩).length).run r =
        .ok true ⟨14, defaultType k⟩ ∧
      (detectArp eth arp (frameOf ⟨k, p⟩) (frameOf ⟨k, p⟩).length).run r =
        answer k p.members etherTypeArp r ∧
      (detectIpv4 eth ipv4 (frameOf ⟨k, p⟩) (frameOf ⟨k, p⟩).length).run r =
        answer k p.members etherTypeIp r ∧
      (detectIpv6 eth ipv6 (frameOf ⟨k, p⟩) (frameOf ⟨k, p⟩).length).run r =
        answer k p.members etherTypeIpv6 r ∧
      (detectIcmpv4 eth ipv4 locals (frameOf ⟨k, p⟩) (frameOf ⟨k, p⟩).length).run () =
        .ok (isIcmp k p.members) () := by
  have hstart : Typed (⟨m₀, .new 128⟩ : Packet (Members k)) := type_clear hclear
  have htyped : Typed p := trace_invariant calls (fun c hc _ => (hplain c hc).step) hstart htrace
  have hhonest := htyped.honest
  refine ⟨htyped, ?_, detectArp_frame hv hhonest eth arp r, detectIpv4_frame hv hhonest eth ipv4 r,
    detectIpv6_frame hv hhonest eth ipv6 r, detectIcmpv4_frame hv hhonest eth ipv4 locals ()⟩
  have htype : (ethOf k p.members).type = defaultType k := htyped
  rw [frameOf_layers hv, ← htype]
  exact detectEthernet_layers (valid_ethOf hv) eth _ r

/-- An IPv4 packet is made an ICMP one. -/
def pingCalls : List (Call .ipv4) := [.op (.assign (.inr (.protocol protocolIcmp)))]

def ping : Packet Ipv4 where
  members := ⟨⟨.new, .new, 0x0800⟩, { Ipv4Header.cleared with protocol := protocolIcmp }⟩
  raw := .new 128

theorem built_detected_ping :
    (detectIcmpv4 ping.members.eth ping.members.ip ⟨0, 0⟩ (frameOf ⟨.ipv4, ping⟩)
      (frameOf ⟨.ipv4, ping⟩).length).run () = .ok true () := by
  have hplain : ∀ c ∈ pingCalls, Plain c := List.forall_mem_singleton.mpr fun _ => rfl
  have hclear : (PacketClass.clear : Exec (Members .ipv4) Unit).run ping.members =
      .ok () ⟨⟨.new, .new, 0x0800⟩, Ipv4Header.cleared⟩ := rfl
  have hcalls : trace Call.run pingCalls (⟨⟨⟨.new, .new, 0x0800⟩, Ipv4Header.cleared⟩, .new 128⟩ :
      Packet (Members .ipv4)) = (_, some ping) := rfl
  exact (built_detected hclear hplain hcalls ⟨⟨rfl, rfl⟩, by decide, rfl, rfl⟩
    ping.members.eth ⟨0, 0, 0, 0, 0, .new, .new, .new, .new⟩ ping.members.ip
    ⟨0, 0, 0, 0, 0, 0, .new, .new⟩ ⟨0, 0⟩ ⟨0, 0⟩).2.2.2.2.2

end Runs

end Pgen.BuiltFrames
