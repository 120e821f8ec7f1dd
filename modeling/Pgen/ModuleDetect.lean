import Pgen.HeaderReads

/-!
# The detectors of `module.h`

A detector walks over the headers of a frame with pointers and lengths of its own, into header
objects of its own. It gives the verdict that decoding the frame with the packet class gives.
-/
namespace Pgen.ModuleDetect
open ByteMemory StructLayout CorePacket ProtocolHeaders ProtocolIp ProtocolIpv6 ProtocolPackets
  PacketFailure HeaderReads

section Model

/-- `ethernet::type`, which the headers at hand use and do not define. -/
def etherTypeIp : UInt16 := 0x0800

def etherTypeArp : UInt16 := 0x0806

def etherTypeIpv6 : UInt16 := 0x86dd

/-- The variables a caller passes pointers to; `proto` is also what `type` points to. A caller that
passes a null pointer does not look at the variable. -/
structure Report where
  hdrlen : ℕ
  proto : UInt16

/-- `detect_ethernet`; `eth` is the local header object, with indeterminate members. -/
def detectEthernet (eth : EthernetHeader) (buffer : Bytes) (bufferlen : ℕ) :
    Exec Report Bool := do
  let (_, eth) ← onLocal eth (Header.read buffer bufferlen)
  modify fun r => { r with hdrlen := Header.length eth }
  modify fun r => { r with proto := eth.type }
  pure true

/-- A detector of frames with this type field, whose second header is an `H`; `report` is what it
stores besides the header length. -/
def detectHeader {H : Type} [Header H] (etherType : UInt16) (report : H → Report → Report)
    (eth : EthernetHeader) (header : H) (buffer : Bytes) (bufferlen : ℕ) : Exec Report Bool := do
  let (found, locals) ← onLocal ⟨0, 0⟩ (detectEthernet eth buffer bufferlen)
  if found then
    let p := buffer.drop locals.hdrlen
    let bufferlen := sizeSub bufferlen locals.hdrlen
    if locals.proto = etherType then
      let (_, header) ← onLocal header (Header.read p bufferlen)
      modify fun r => { r with hdrlen := locals.hdrlen + Header.length header }
      modify (report header)
      return true
  return false

def detectArp : EthernetHeader → ArpHeader → Bytes → ℕ → Exec Report Bool :=
  detectHeader etherTypeArp fun _ r => r

def detectIpv4 : EthernetHeader → Ipv4Header → Bytes → ℕ → Exec Report Bool :=
  detectHeader etherTypeIp fun ipv4 r => { r with proto := ipv4.protocol.toUInt16 }

def detectIpv6 : EthernetHeader → Ipv6Header → Bytes → ℕ → Exec Report Bool :=
  detectHeader etherTypeIpv6 fun ipv6 r => { r with proto := ipv6.nextHeader.toUInt16 }

end Model

section Verdicts

/-- The frame is long enough for an Ethernet header and has this in its type field. -/
def Carries (b : Bytes) (etherType : UInt16) : Prop :=
  14 ≤ b.length ∧ 256 * (b.getD 12 0).toNat + (b.getD 13 0).toNat = etherType.toNat

theorem type_readEth (b : Bytes) (h : EthernetHeader) :
    (readEth b h).type.toNat = 256 * (b.getD 12 0).toNat + (b.getD 13 0).toNat := by
  have hlo := (b.getD 12 0).toNat_lt
  have hhi := (b.getD 13 0).toNat_lt
  have htype : (Layout.u16.dec (((b.take 14).drop 6).drop 6)).toNat =
      (b.getD 12 0).toNat + 256 * (b.getD 13 0).toNat := by
    simp only [Layout.u16, List.drop_drop, List.getD_eq_getElem?_getD, List.getElem?_drop,
      List.getElem?_take, UInt16.toNat_ofNat']
    simp only [List.getD_eq_getElem?_getD] at hlo hhi
    norm_num
    omega
  have hswap := htons_toNat (Layout.u16.dec (((b.take 14).drop 6).drop 6))
  change (htons (Layout.u16.dec (((b.take 14).drop 6).drop 6))).toNat = _
  omega

theorem carries_iff {b : Bytes} (hlen : 14 ≤ b.length) (h : EthernetHeader) (etherType : UInt16) :
    Carries b etherType ↔ (readEth b h).type = etherType := by
  rw [Carries, ← type_readEth b h, UInt16.toNat_inj]
  exact and_iff_right hlen

theorem readEth_ok {b : Bytes} (hlen : 14 ≤ b.length) (h : EthernetHeader) :
    (Header.read b b.length).run h = .ok () (readEth b h) :=
  readStruct_ok Eth.layout _ EthernetHeader.ofEth h hlen (Nat.le_refl _)

def ethTooShort : Failure := .exception "pgen::ethernet_header::read: Buffer length is too small"

theorem readEth_error {b : Bytes} (hlen : b.length < 14) (h : EthernetHeader) :
    (Header.read b b.length).run h = .error ethTooShort h :=
  run_bind_error (throwIf_fail hlen h)

theorem detectEthernet_ok {b : Bytes} (hlen : 14 ≤ b.length) (eth : EthernetHeader) (r : Report) :
    (detectEthernet eth b b.length).run r = .ok true ⟨14, (readEth b eth).type⟩ :=
  run_bind_ok (onLocal_ok (readEth_ok hlen eth) r)

end Verdicts

section Detectors

variable {H : Type} [Header H] {etherType : UInt16} (report : H → Report → Report)
  (eth : EthernetHeader) (header : H) {b : Bytes}

theorem detectHeader_short (hlen : b.length < 14) (r : Report) :
    (detectHeader etherType report eth header b b.length).run r = .error ethTooShort r := by
  have heth : (detectEthernet eth b b.length).run ⟨0, 0⟩ = .error ethTooShort ⟨0, 0⟩ :=
    run_bind_error (onLocal_error (readEth_error hlen eth) _)
  exact run_bind_error (onLocal_error heth r)

theorem detectHeader_other (hlen : 14 ≤ b.length) (h : ¬ Carries b etherType) (r : Report) :
    (detectHeader etherType report eth header b b.length).run r = .ok false r := by
  have htype : (readEth b eth).type ≠ etherType := mt (carries_iff hlen eth etherType).mpr h
  refine (run_bind_ok (onLocal_ok (detectEthernet_ok hlen eth ⟨0, 0⟩) r)).trans ?_
  simp [htype, EStateM.run_pure]

/-- For a frame of its type a detector reads the second header behind the first. -/
theorem detectHeader_carries (h : Carries b etherType) (r : Report) :
    (detectHeader etherType report eth header b b.length).run r =
      match (Header.read (b.drop 14) (b.drop 14).length).run header with
      | .ok _ header => .ok true (report header { r with hdrlen := 14 + Header.length header })
      | .error e _ => .error e r := by
  have htype : (readEth b eth).type = etherType := (carries_iff h.1 eth etherType).mp h
  refine (run_bind_ok (onLocal_ok (detectEthernet_ok h.1 eth ⟨0, 0⟩) r)).trans ?_
  simp only [htype, if_true, sizeSub_of_le h.1, ← List.length_drop]
  cases hr : (Header.read (b.drop 14) (b.drop 14).length).run header with
  | ok u header' => exact run_bind_ok (onLocal_ok hr r)
  | error e header' => exact run_bind_error (onLocal_error hr r)

end Detectors

section Agreement

/-- A packet class with an Ethernet header and one header of class `H` behind it. -/
structure Stack (M H : Type) [PacketClass M] [Header H] where
  getEth : M → EthernetHeader
  putEth : EthernetHeader → M → M
  get : M → H
  put : H → M → M
  headers_eq : (headers : List (HeaderPtr M)) = [.member getEth putEth, .member get put]
  getEth_putEth : ∀ h m, getEth (putEth h m) = h
  get_put : ∀ h m, get (put h m) = h

variable {M H : Type} [PacketClass M] [Header H]

/-- The detector's verdict on `b` is the one of decoding `b` into the object `p`. -/
structure Agrees (detect : Exec Report Bool) (etherType : UInt16) (protocol : M → Option UInt16)
    (p : Packet M) (b : Bytes) : Prop where
  fails : ∀ r e, verdict (detect.run r) = some e ↔
    (b.length < 14 ∧ e = ethTooShort) ∨
      (Carries b etherType ∧ verdict ((Packet.analyze b b.length).run p) = some e)
  finds : ∀ r, (∃ r', detect.run r = .ok true r') ↔
    Carries b etherType ∧ ∃ p', (Packet.analyze b b.length).run p = .ok () p'
  reports : ∀ r r' p', detect.run r = .ok true r' →
    (Packet.analyze b b.length).run p = .ok () p' →
      r'.hdrlen = p'.headerLength ∧ r'.hdrlen ≤ b.length ∧
        r'.proto = (protocol p'.members).getD r.proto

theorem Stack.headerLength_eq (st : Stack M H) (p : Packet M) :
    p.headerLength = 14 + Header.length (st.get p.members) := by
  rw [Packet.headerLength, st.headers_eq]
  rfl

/-- Decoding reads the second header where the detector does. -/
theorem Stack.analyze_run (st : Stack M H) {b : Bytes} (hlen : 14 ≤ b.length) (p : Packet M)
    (hle : ∀ h : H, (Header.read (b.drop 14) (b.drop 14).length).run
      (st.get (st.putEth (readEth b (st.getEth p.members)) p.members)) = .ok () h →
        Header.length h ≤ (b.drop 14).length) :
    (Packet.analyze b b.length).run p =
      match (Header.read (b.drop 14) (b.drop 14).length).run
        (st.get (st.putEth (readEth b (st.getEth p.members)) p.members)) with
      | .ok _ h => .ok () ⟨st.put h (st.putEth (readEth b (st.getEth p.members)) p.members),
          p.raw.setContent ((b.drop 14).drop (Header.length h))⟩
      | .error e h => .error e
          ⟨st.put h (st.putEth (readEth b (st.getEth p.members)) p.members), p.raw⟩ := by
  have heth := readHeaders_ok_cons [.member st.get st.put]
    (st.getEth_putEth (readEth b (st.getEth p.members)) p.members) hlen
    (readEth_ok hlen (st.getEth p.members))
  rw [← st.headers_eq] at heth
  cases hr : (Header.read (b.drop 14) (b.drop 14).length).run
      (st.get (st.putEth (readEth b (st.getEth p.members)) p.members)) with
  | ok u h =>
    have hrest := readHeaders_ok_cons [] (st.get_put h _) (hle h hr) hr
    exact analyze_of_ok (heth.trans hrest)
  | error e h => exact analyze_of_error (heth.trans (readHeaders_error_cons [] hr))

/-- A detector that never finds its type agrees with decoding that never succeeds. -/
theorem Agrees.of_silent {detect : Exec Report Bool} {etherType : UInt16}
    {protocol : M → Option UInt16} {p : Packet M} {b : Bytes}
    (hsilent : ∀ r r', detect.run r ≠ .ok true r')
    (hfails : ∀ r e, verdict (detect.run r) = some e ↔
      (b.length < 14 ∧ e = ethTooShort) ∨
        (Carries b etherType ∧ verdict ((Packet.analyze b b.length).run p) = some e))
    (hno : ¬ (Carries b etherType ∧ ∃ p', (Packet.analyze b b.length).run p = .ok () p')) :
    Agrees detect etherType protocol p b where
  fails := hfails
  finds r := iff_of_false (fun ⟨r', h⟩ => hsilent r r' h) hno
  reports r r' _ hd := absurd hd (hsilent r r')

variable (st : Stack M H) {etherType : UInt16} (report : H → Report → Report)
  (protocol : H → Option UInt16) (eth : EthernetHeader) (header : H) (p : Packet M) {b : Bytes}

theorem agrees_of_short (hlen : b.length < 14) :
    Agrees (detectHeader etherType report eth header b b.length) etherType
      (fun m => protocol (st.get m)) p b := by
  have hnot : ¬ Carries b etherType := fun h => absurd h.1 (Nat.not_le.mpr hlen)
  have hdetect (r : Report) :
      (detectHeader etherType report eth header b b.length).run r = .error ethTooShort r :=
    detectHeader_short report eth header hlen r
  apply Agrees.of_silent
  · simp [hdetect]
  · simp [hdetect, verdict, hlen, hnot, eq_comm]
  · simp [hnot]

theorem agrees_of_other (hlen : 14 ≤ b.length) (hother : ¬ Carries b etherType) :
    Agrees (detectHeader etherType report eth header b b.length) etherType
      (fun m => protocol (st.get m)) p b := by
  have hdetect := detectHeader_other report eth header hlen hother
  apply Agrees.of_silent
  · simp [hdetect]
  · simp [hdetect, verdict, Nat.not_lt.mpr hlen, hother]
  · simp [hother]

variable [ReadsBytes H]

/-- The two reads of a second header start from different objects and end in the same way. -/
theorem agrees_of_carries (hcarries : Carries b etherType)
    (hreport : ∀ h r, (report h r).hdrlen = r.hdrlen ∧
      (report h r).proto = (protocol h).getD r.proto)
    (hprotocol : ∀ b (h h' : H),
      protocol (ReadsBytes.decoded b h) = protocol (ReadsBytes.decoded b h')) :
    Agrees (detectHeader etherType report eth header b b.length) etherType
      (fun m => protocol (st.get m)) p b := by
  have hlen := Nat.not_lt.mpr hcarries.1
  have hdetect := detectHeader_carries report eth header hcarries
  have hanalyze := st.analyze_run hcarries.1 p fun h hr => (ReadsBytes.read_eq_ok hr).2
  have hsame := ReadsBytes.verdict_eq (b.drop 14) header
    (st.get (st.putEth (readEth b (st.getEth p.members)) p.members))
  cases hr : (Header.read (b.drop 14) (b.drop 14).length).run header with
  | error e₁ h₁ =>
    rw [hr] at hsame hdetect
    obtain ⟨h₂, hr₂⟩ := verdict_eq_some.mp hsame.symm
    rw [hr₂] at hanalyze
    apply Agrees.of_silent
    · simp [hdetect]
    · simp [hdetect, hanalyze, verdict, hlen, hcarries]
    · simp [hanalyze]
  | ok u h₁ =>
    rw [hr] at hsame hdetect
    obtain ⟨_, h₂, hr₂⟩ := verdict_eq_none.mp hsame.symm
    rw [hr₂] at hanalyze
    obtain ⟨rfl, hle⟩ := ReadsBytes.read_eq_ok hr
    obtain ⟨rfl, -⟩ := ReadsBytes.read_eq_ok hr₂
    constructor
    · simp [hdetect, hanalyze, verdict, hlen]
    · simp [hdetect, hanalyze, hcarries]
    · intro r r' p' hd ha
      cases (hdetect r).symm.trans hd
      cases hanalyze.symm.trans ha
      obtain ⟨hhdrlen, hproto⟩ := hreport (ReadsBytes.decoded (b.drop 14) header)
        { r with hdrlen := 14 + Header.length (ReadsBytes.decoded (b.drop 14) header) }
      rw [List.length_drop] at hle
      refine ⟨?_, ?_, ?_⟩
      · rw [hhdrlen, st.headerLength_eq, st.get_put, ReadsBytes.length_decoded]
      · rw [hhdrlen]
        change 14 + _ ≤ _
        have hge := hcarries.1
        omega
      · rw [hproto, st.get_put, hprotocol]

/-- A detector agrees with a packet class whose second header it reads. -/
theorem agrees_of_stack (etherType : UInt16)
    (hreport : ∀ h r, (report h r).hdrlen = r.hdrlen ∧
      (report h r).proto = (protocol h).getD r.proto)
    (hprotocol : ∀ b (h h' : H),
      protocol (ReadsBytes.decoded b h) = protocol (ReadsBytes.decoded b h')) (b : Bytes) :
    Agrees (detectHeader etherType report eth header b b.length) etherType
      (fun m => protocol (st.get m)) p b := by
  rcases Nat.lt_or_ge b.length 14 with hlen | hlen
  · exact agrees_of_short st report protocol eth header p hlen
  by_cases hcarries : Carries b etherType
  · exact agrees_of_carries st report protocol eth header p hcarries hreport hprotocol
  · exact agrees_of_other st report protocol eth header p hlen hcarries

end Agreement

section Classes

def arpStack : Stack Arp ArpHeader :=
  ⟨Arp.eth, Arp.putEth, Arp.arp, Arp.putArp, rfl, fun _ _ => rfl, fun _ _ => rfl⟩

def ipv4Stack : Stack Ipv4 Ipv4Header :=
  ⟨Ipv4.eth, Ipv4.putEth, Ipv4.ip, Ipv4.putIp, rfl, fun _ _ => rfl, fun _ _ => rfl⟩

def ipv6Stack : Stack Ipv6 Ipv6Header :=
  ⟨Ipv6.eth, Ipv6.putEth, Ipv6.ip, Ipv6.putIp, rfl, fun _ _ => rfl, fun _ _ => rfl⟩

theorem protocol_readIp (b : Bytes) (h : Ipv4Header) :
    (readIp b h).protocol = (Ip.layout.dec (b.take Ip.layout.size)).protocol := rfl

theorem protocol_decoded (b : Bytes) (h h' : Ipv4Header) :
    some (ReadsBytes.decoded b h).protocol.toUInt16 =
      some (ReadsBytes.decoded b h').protocol.toUInt16 := by
  change some (readIp b h).protocol.toUInt16 = some (readIp b h').protocol.toUInt16
  rw [protocol_readIp, protocol_readIp]

theorem Carries.unique {b : Bytes} {etherType etherType' : UInt16} (h : Carries b etherType)
    (h' : Carries b etherType') : etherType = etherType' :=
  UInt16.toNat_inj.mp (h.2.symm.trans h'.2)

def Detects (detect : Exec Report Bool) : Prop := ∃ r r', detect.run r = .ok true r'

/-- Two detectors of different types do not both find theirs in a frame. -/
theorem Agrees.exclusive {M M' : Type} [PacketClass M] [PacketClass M']
    {detect detect' : Exec Report Bool} {etherType etherType' : UInt16}
    {protocol : M → Option UInt16} {protocol' : M' → Option UInt16}
    {p : Packet M} {p' : Packet M'} {b : Bytes} (h : Agrees detect etherType protocol p b)
    (h' : Agrees detect' etherType' protocol' p' b) (hne : etherType ≠ etherType') :
    ¬ (Detects detect ∧ Detects detect') := by
  rintro ⟨⟨r, hr⟩, r', hr'⟩
  exact hne (((h.finds r).mp hr).1.unique ((h'.finds r').mp hr').1)

/-- Each detector has the verdict of decoding the frame with its packet class, whatever the objects
on either side held before, and at most one of them finds its type in a frame. -/
theorem detectors_agree (b : Bytes) (eth : EthernetHeader) (arp : ArpHeader) (ipv4 : Ipv4Header)
    (ipv6 : Ipv6Header) (p : Packet Arp) (p₄ : Packet Ipv4) (p₆ : Packet Ipv6) :
    Agrees (detectArp eth arp b b.length) etherTypeArp (fun _ => none) p b ∧
      Agrees (detectIpv4 eth ipv4 b b.length) etherTypeIp
        (fun m => some m.ip.protocol.toUInt16) p₄ b ∧
      Agrees (detectIpv6 eth ipv6 b b.length) etherTypeIpv6
        (fun m => some m.ip.nextHeader.toUInt16) p₆ b ∧
      [Detects (detectArp eth arp b b.length), Detects (detectIpv4 eth ipv4 b b.length),
        Detects (detectIpv6 eth ipv6 b b.length)].Pairwise fun P Q => ¬ (P ∧ Q) := by
  have harp : Agrees (detectArp eth arp b b.length) etherTypeArp (fun _ => none) p b :=
    agrees_of_stack arpStack _ (fun _ => none) eth arp p etherTypeArp (fun _ _ => ⟨rfl, rfl⟩)
      (fun _ _ _ => rfl) b
  have hipv4 : Agrees (detectIpv4 eth ipv4 b b.length) etherTypeIp
      (fun m => some m.ip.protocol.toUInt16) p₄ b :=
    agrees_of_stack ipv4Stack (fun h r => { r with proto := h.protocol.toUInt16 })
      (fun h => some h.protocol.toUInt16) eth ipv4 p₄ etherTypeIp (fun _ _ => ⟨rfl, rfl⟩)
      protocol_decoded b
  have hipv6 : Agrees (detectIpv6 eth ipv6 b b.length) etherTypeIpv6
      (fun m => some m.ip.nextHeader.toUInt16) p₆ b :=
    agrees_of_stack ipv6Stack (fun h r => { r with proto := h.nextHeader.toUInt16 })
      (fun h => some h.nextHeader.toUInt16) eth ipv6 p₆ etherTypeIpv6 (fun _ _ => ⟨rfl, rfl⟩)
      (fun _ _ _ => rfl) b
  refine ⟨harp, hipv4, hipv6, ?_⟩
  simp only [List.pairwise_cons, List.forall_mem_cons, List.not_mem_nil, false_implies,
    implies_true, and_true, List.Pairwise.nil]
  exact ⟨⟨harp.exclusive hipv4 (by decide), harp.exclusive hipv6 (by decide)⟩,
    hipv4.exclusive hipv6 (by decide)⟩

end Classes

end Pgen.ModuleDetect
