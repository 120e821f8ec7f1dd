import Pgen.PacketLayout

/-!
# Encoding a packet and decoding it

Every header is read from exactly the bytes it was written to, whatever follows them and whatever
the object held before. So the decoder finds each header where the one before it ends, and a
packet that is compiled and analyzed comes back.
-/
namespace Pgen.PacketCodec
open ByteMemory StructLayout CoreAddress CorePacket ProtocolHeaders ProtocolIp ProtocolPackets

section Segments

variable {P : Type}

/-- A header of a packet: the pointer to it, its encoding and what reading that establishes. -/
structure Segment (P : Type) where
  ptr : HeaderPtr P
  bytes : Bytes
  Holds : P → Prop

namespace Segment

/-- Reading takes exactly the encoding from what it is given. -/
structure Reads (s : Segment P) : Prop where
  length_eq : ∀ {p : P}, s.Holds p → s.ptr.length p = s.bytes.length
  read_ok : ∀ (p : P) (rest : Bytes), ∃ p',
    (s.ptr.read (s.bytes ++ rest) (s.bytes ++ rest).length).run p = .ok () p' ∧ s.Holds p'

/-- Reading `s` leaves alone what reading `other` established. -/
structure Keeps (s other : Segment P) : Prop where
  holds : ∀ {p p' : P} {buffer : Bytes} {n : ℕ},
    (s.ptr.read buffer n).run p = .ok () p' → other.Holds p → other.Holds p'

end Segment

theorem readHeaders_keeps {segments : List (Segment P)} {other : Segment P}
    (hkeeps : ∀ s ∈ segments, s.Keeps other) {buffer : Bytes} {n : ℕ} {r : Bytes × ℕ} {p p' : P}
    (h : (Packet.readHeaders (segments.map Segment.ptr) buffer n).run p = .ok r p')
    (hp : other.Holds p) : other.Holds p' := by
  induction segments generalizing buffer n p with
  | nil =>
    cases h
    exact hp
  | cons s segments ih =>
    obtain ⟨_, p₁, h₁, h₂⟩ := bind_eq_ok.mp h
    rw [run_bind_ok (run_get p₁)] at h₂
    exact ih (fun t ht => hkeeps t (by simp [ht])) h₂ ((hkeeps s (by simp)).holds h₁ hp)

/-- The loop of `analyze` on a list of encodings stops behind the last one. -/
theorem readHeaders_segments {segments : List (Segment P)} (hreads : ∀ s ∈ segments, s.Reads)
    (hkeeps : segments.Pairwise fun a b => b.Keeps a) (p : P) (rest : Bytes) :
    ∃ p', (Packet.readHeaders (segments.map Segment.ptr)
        ((segments.map Segment.bytes).flatten ++ rest)
        ((segments.map Segment.bytes).flatten ++ rest).length).run p = .ok (rest, rest.length) p' ∧
      ∀ s ∈ segments, s.Holds p' := by
  induction segments generalizing p with
  | nil => exact ⟨p, rfl, by simp⟩
  | cons s segments ih =>
    obtain ⟨hhead, htail⟩ := List.pairwise_cons.mp hkeeps
    obtain ⟨p₁, hread, hp₁⟩ := (hreads s (by simp)).read_ok p
      ((segments.map Segment.bytes).flatten ++ rest)
    have hlen := (hreads s (by simp)).length_eq hp₁
    obtain ⟨p', hrest, hall⟩ := ih (fun t ht => hreads t (by simp [ht])) htail p₁
    have hsub : sizeSub (s.bytes ++ ((segments.map Segment.bytes).flatten ++ rest)).length
        s.bytes.length = ((segments.map Segment.bytes).flatten ++ rest).length := by
      rw [sizeSub_of_le (by simp), List.length_append, Nat.add_sub_cancel_left]
    refine ⟨p', ?_, List.forall_mem_cons.mpr ⟨readHeaders_keeps hhead hrest hp₁, hall⟩⟩
    rw [List.map_cons, List.map_cons, List.flatten_cons, List.append_assoc, Packet.readHeaders,
      run_bind_ok hread, run_bind_ok (run_get p₁), hlen, hsub, List.drop_left' rfl]
    exact hrest

end Segments

section HeaderCodecs

/-- A class of headers that are read from what they were written to. `Same` is what a header that
was read has in common with the one that was written. -/
class HeaderCodec (H : Type) [Header H] where
  Valid : H → Prop
  Same : H → H → Prop
  enc : H → Bytes
  emits : ∀ {h : H}, Valid h → Emits (Header.length h) (Header.write h) (enc h)
  length_eq : ∀ {h h' : H}, Same h h' → Header.length h' = Header.length h
  read_ok : ∀ {h : H}, Valid h → ∀ (h₀ : H) (rest : Bytes), ∃ h',
    (Header.read (enc h ++ rest) (enc h ++ rest).length).run h₀ = .ok () h' ∧ Same h h'

/-- A header that is one struct is filled again from the struct it wrote. -/
abbrev codecOfStruct {S H : Type} [Header H] (L : Layout S) {readText writeText : String}
    {fill : S → H → H} {toStruct : H → S} (Valid : H → Prop)
    (hlen : ∀ h : H, Header.length h = L.size)
    (hread : (Header.read : _ → _ → Exec H Unit) = readStruct L L.size readText fill)
    (hwrite : ∀ h : H, Header.write h = writeStruct L L.size writeText (toStruct h))
    (hfill : ∀ h h₀, Valid h → fill (toStruct h) h₀ = h) : HeaderCodec H where
  Valid := Valid
  Same := Eq
  enc h := L.enc (toStruct h)
  emits {h} _ := by
    rw [hlen, hwrite]
    exact writeStruct_emits L writeText (toStruct h)
  length_eq := by
    rintro h _ rfl
    rfl
  read_ok {h} hv h₀ rest := by
    refine ⟨_, ?_, rfl⟩
    rw [hread, readStruct_ok L readText fill h₀ (by simp) (Nat.le_refl _), L.dec_take_enc,
      hfill h h₀ hv]

instance : HeaderCodec EthernetHeader :=
  codecOfStruct Eth.layout (fun h => h.dst.Named ∧ h.src.Named) (fun _ => rfl) rfl (fun _ => rfl)
    (by
      rintro h h₀ ⟨hdst, hsrc⟩
      simp only [EthernetHeader.ofEth, EthernetHeader.toEth, MacAddress.copytoarray, ntohs_htons,
        MacAddress.setbyarray_raw hdst, MacAddress.setbyarray_raw hsrc])

instance : HeaderCodec ArpHeader :=
  codecOfStruct ArpStruct.layout
    (fun h => h.hwsrc.Named ∧ h.psrc.Named ∧ h.hwdst.Named ∧ h.pdst.Named) (fun _ => rfl) rfl
    (fun _ => rfl) (by
      rintro h h₀ ⟨hwsrc, psrc, hwdst, pdst⟩
      simp only [ArpHeader.ofArpStruct, ArpHeader.toArpStruct, MacAddress.copytoarray,
        Ipv4Address.copytoarray, ntohs_htons, MacAddress.setbyarray_raw hwsrc,
        MacAddress.setbyarray_raw hwdst, Ipv4Address.setbyarray_raw psrc,
        Ipv4Address.setbyarray_raw pdst])

instance : HeaderCodec UdpHeader :=
  codecOfStruct UdpStruct.layout (fun _ => True) (fun _ => rfl) rfl (fun _ => rfl) (by
    intro h h₀ _
    simp only [UdpHeader.ofUdpStruct, UdpHeader.toUdpStruct, ntohs_htons])

end HeaderCodecs

section Ipv4Codec

open Ipv4Header

/-- All members but the option area are equal, and of that the bytes the header length covers. -/
structure SameIp (h h' : Ipv4Header) : Prop where
  members : { h' with option := h.option } = h
  option :
    h'.option.toList.take (h.length - minLength) = h.option.toList.take (h.length - minLength)

variable {h : Ipv4Header}

theorem ofIp_toIp (hsrc : h.src.Named) (hdst : h.dst.Named) (h₀ : Ipv4Header) :
    { ofIp h.toIp h₀ with option := h.option } = h := by
  simp only [ofIp, toIp, Ipv4Address.copytoarray, ntohs_htons, Ipv4Address.setbyarray_raw hsrc,
    Ipv4Address.setbyarray_raw hdst]

theorem copyOption_ok {data : Bytes} (hle : data.length ≤ 40) (g : Ipv4Header) :
    ∃ option, (copyOption data).run g = .ok () { g with option := option } ∧
      option.toList.take data.length = data := by
  have hle' : data.length ≤ maxLength - minLength := hle
  have hrun : (copyOption data).run g =
      .ok () { g with option := Vector.ofFn fun i => data.getD i (g.option.get i) } := by
    unfold copyOption
    rw [if_pos hle', run_modify]
  obtain ⟨-, option, heq, htake⟩ := copyOption_eq_ok hrun
  exact ⟨option, heq ▸ hrun, htake⟩

theorem filled_encoding (rest : Bytes) (h₀ : Ipv4Header) :
    filled (h.encoding ++ rest) h₀ = ofIp h.toIp h₀ := by
  rw [filled, encoding, List.append_assoc, Ip.layout.dec_take_enc]

theorem read_encoding (h5 : 5 ≤ h.hlen.toNat) (hsrc : h.src.Named) (hdst : h.dst.Named)
    (h₀ : Ipv4Header) (rest : Bytes) : ∃ h',
    (read (h.encoding ++ rest) (h.encoding ++ rest).length).run h₀ = .ok () h' ∧ SameIp h h' := by
  have hle := h.length_le
  have hl : h.length = h.hlen.toNat * 4 := rfl
  have henc := encoding_length h5
  have hmin : minLength = 20 := rfl
  have hfill : (ofIp h.toIp h₀).length = h.length := rfl
  have hopt : (h.option.toList.take (h.length - minLength)).length = h.length - minLength := by
    rw [List.length_take, Vector.length_toList]
    omega
  have hdrop : ((h.encoding ++ rest).drop minLength).take (h.length - minLength) =
      h.option.toList.take (h.length - minLength) := by
    rw [encoding, List.append_assoc,
      List.drop_left' (show (Ip.layout.enc h.toIp).length = minLength from Ip.layout.enc_length _),
      List.take_left' hopt]
  have hbuf : h.length ≤ (h.encoding ++ rest).length := by
    rw [List.length_append, henc]
    omega
  obtain ⟨option, hcopy, htake⟩ := copyOption_ok
    (show (h.option.toList.take (h.length - minLength)).length ≤ 40 by omega) (ofIp h.toIp h₀)
  rw [hopt] at htake
  refine ⟨{ ofIp h.toIp h₀ with option := option }, ?_, ⟨ofIp_toIp hsrc hdst h₀, htake⟩⟩
  rw [read_run h₀ (by omega) (Nat.le_refl _), filled_encoding, hfill,
    run_bind_ok (throwIf_pass (Nat.not_lt.mpr hbuf) _), sizeSub_of_le (by omega),
    run_bind_ok (load_ok (by omega) _), hdrop, hcopy]

instance : HeaderCodec Ipv4Header where
  Valid h := 5 ≤ h.hlen.toNat ∧ h.src.Named ∧ h.dst.Named
  Same := SameIp
  enc := encoding
  emits hv := write_emits hv.1
  length_eq hsame := by
    have hlen := congrArg Ipv4Header.length hsame.members
    exact hlen
  read_ok hv h₀ rest := read_encoding hv.1 hv.2.1 hv.2.2 h₀ rest

end Ipv4Codec

section Packets

variable {P H H' : Type} [Header H] [Header H'] [HeaderCodec H] [HeaderCodec H']

/-- The segment of the header `h` that is a member. -/
def Segment.member (get : P → H) (put : H → P → P) (h : H) : Segment P where
  ptr := .member get put
  bytes := HeaderCodec.enc h
  Holds p := HeaderCodec.Same h (get p)

theorem Segment.member_reads {get : P → H} {put : H → P → P} {h : H}
    (hget : ∀ h p, get (put h p) = h)
    (hv : HeaderCodec.Valid h) : (Segment.member get put h).Reads where
  length_eq hsame := (HeaderCodec.length_eq hsame).trans (HeaderCodec.emits hv).length_eq.symm
  read_ok p rest := by
    obtain ⟨h', hread, hsame⟩ := HeaderCodec.read_ok hv (get p) rest
    refine ⟨put h' p, onMember_ok hread, ?_⟩
    change HeaderCodec.Same h (get (put h' p))
    rwa [hget]

theorem Segment.member_keeps {get : P → H} {put : H → P → P} {get' : P → H'} {put' : H' → P → P}
    {h : H} {h' : H'} (hget : ∀ h p, get' (put h p) = get' p) :
    (Segment.member get put h).Keeps (Segment.member get' put' h') where
  holds hread hp := by
    obtain ⟨t, -, rfl⟩ := onMember_eq_ok hread
    change HeaderCodec.Same h' (get' (put t _))
    rwa [hget]

theorem forall₂_fills {m : P} {segments : List (Segment P)}
    (hfills : ∀ s ∈ segments, s.ptr.Fills m s.bytes) :
    List.Forall₂ (fun ph w => ph.Fills m w) (segments.map Segment.ptr)
      (segments.map Segment.bytes) := by
  induction segments with
  | nil => exact .nil
  | cons s segments ih =>
    exact .cons (hfills s (by simp)) (ih fun t ht => hfills t (by simp [ht]))

theorem sum_length {m : P} {segments : List (Segment P)} (hreads : ∀ s ∈ segments, s.Reads)
    (hholds : ∀ s ∈ segments, s.Holds m) :
    ((segments.map Segment.ptr).map (·.length m)).sum =
      (segments.map Segment.bytes).flatten.length := by
  induction segments with
  | nil => rfl
  | cons s segments ih =>
    have hs := (hreads s (by simp)).length_eq (hholds s (by simp))
    have hrest := ih (fun t ht => hreads t (by simp [ht])) fun t ht => hholds t (by simp [ht])
    simp only [List.map_cons, List.sum_cons, List.flatten_cons, List.length_append, hs, hrest]

/-- A packet class whose headers have codecs. -/
class CodedPacket (M : Type) [PacketClass M] where
  Valid : M → Prop
  Same : M → M → Prop
  segments : M → List (Segment M)
  ptrs : ∀ m, (segments m).map Segment.ptr = headers
  fills : ∀ {m : M}, Valid m → ∀ s ∈ segments m, s.ptr.Fills m s.bytes
  reads : ∀ {m : M}, Valid m → ∀ s ∈ segments m, s.Reads
  keeps : ∀ m, (segments m).Pairwise fun a b => b.Keeps a
  same : ∀ {m m' : M}, (∀ s ∈ segments m, s.Holds m') → Same m m'

variable {M : Type} [PacketClass M]

/-- A packet of valid headers that is compiled and then analyzed by any packet of its class comes
back: the headers, the contents and the length. -/
def PacketIdentity (M : Type) [PacketClass M] [CodedPacket M] : Prop :=
  ∀ p q : Packet M, CodedPacket.Valid p.members →
    ∃ p' mem n q', Packet.compile.run p = .ok () p' ∧ p'.rawData = .ok mem ∧ p'.length = .ok n ∧
      (Packet.analyze mem n).run q = .ok () q' ∧ CodedPacket.Same p.members q'.members ∧
      q'.contents = p.contents ∧ q'.length = p.length

/-- `analyze` on the encodings of headers takes what follows them for the contents. -/
theorem analyze_segments {segments : List (Segment M)} (hptrs : segments.map Segment.ptr = headers)
    (hreads : ∀ s ∈ segments, s.Reads) (hkeeps : segments.Pairwise fun a b => b.Keeps a)
    (q : Packet M) (rest : Bytes) :
    ∃ m', (Packet.analyze ((segments.map Segment.bytes).flatten ++ rest)
        ((segments.map Segment.bytes).flatten ++ rest).length).run q =
        .ok () ⟨m', q.raw.setContent rest⟩ ∧ ∀ s ∈ segments, s.Holds m' := by
  obtain ⟨m', hread, hholds⟩ := readHeaders_segments hreads hkeeps q.members rest
  refine ⟨m', ?_, hholds⟩
  rw [hptrs] at hread
  unfold Packet.analyze
  rw [run_bind_ok (onMember_ok hread)]
  change (Packet.setContents rest rest.length).run _ = _
  rw [Packet.setContents_ok (Nat.le_refl _), List.take_length]

theorem packetIdentity [CodedPacket M] (hfit : ∀ p : Packet M, p.headerLength ≤ 128) :
    PacketIdentity M := by
  intro p q hv
  have hreads := CodedPacket.reads hv
  have hws := forall₂_fills (CodedPacket.fills hv)
  rw [CodedPacket.ptrs] at hws
  obtain ⟨p', hcompile, -, hlaid, -⟩ := PacketLayout.compile_layout p _ _ hws
    (hfit p) (contents_drop p)
  obtain ⟨m', hanalyze, hholds⟩ := analyze_segments (CodedPacket.ptrs p.members) hreads
    (CodedPacket.keeps p.members) q (p.raw.vec.drop 128)
  have hlen := hlaid.length
  rw [← List.length_flatten, ← List.length_append] at hlen
  -- the headers that were read are as long as those that were written
  have hheader : Packet.headerLength ⟨m', q.raw.setContent (p.raw.vec.drop 128)⟩ =
      p.headerLength := by
    have hsum := sum_length hreads hholds
    rw [CodedPacket.ptrs] at hsum
    exact hsum.trans (flatten_length hws)
  refine ⟨p', _, _, _, hcompile, hlaid.rawData, hlen, hanalyze, CodedPacket.same hholds, ?_, ?_⟩
  · exact (contents_setContent _ _ _).trans (contents_drop p).symm
  · rw [length_eq (vec_eq p) p.raw.length_take_pivot, ← hheader]
    exact length_eq rfl q.raw.length_take_pivot

end Packets

section Classes

open Segment (member_reads member_keeps)

instance : CodedPacket Ethernet where
  Valid m := HeaderCodec.Valid m.eth
  Same m m' := m'.eth = m.eth
  segments m := [.member Ethernet.eth Ethernet.putEth m.eth]
  ptrs _ := rfl
  fills hv := List.forall_mem_singleton.mpr (HeaderCodec.emits hv).fills
  reads hv := List.forall_mem_singleton.mpr (member_reads (fun _ _ => rfl) hv)
  keeps _ := List.pairwise_singleton _ _
  same h := by
    have heth := List.forall_mem_singleton.mp h
    exact heth.symm

instance : CodedPacket Arp where
  Valid m := HeaderCodec.Valid m.eth ∧ HeaderCodec.Valid m.arp
  Same m m' := m'.eth = m.eth ∧ m'.arp = m.arp
  segments m := [.member Arp.eth Arp.putEth m.eth, .member Arp.arp Arp.putArp m.arp]
  ptrs _ := rfl
  fills hv := List.forall_mem_cons.mpr ⟨(HeaderCodec.emits hv.1).fills,
    List.forall_mem_singleton.mpr (HeaderCodec.emits hv.2).fills⟩
  reads hv := List.forall_mem_cons.mpr ⟨member_reads (fun _ _ => rfl) hv.1,
    List.forall_mem_singleton.mpr (member_reads (fun _ _ => rfl) hv.2)⟩
  keeps _ := .cons (List.forall_mem_singleton.mpr (member_keeps fun _ _ => rfl))
    (List.pairwise_singleton _ _)
  same h := by
    obtain ⟨heth, h⟩ := List.forall_mem_cons.mp h
    exact ⟨heth.symm, (List.forall_mem_singleton.mp h).symm⟩

instance : CodedPacket Ipv4 where
  Valid m := HeaderCodec.Valid m.eth ∧ HeaderCodec.Valid m.ip
  Same m m' := m'.eth = m.eth ∧ SameIp m.ip m'.ip
  segments m := [.member Ipv4.eth Ipv4.putEth m.eth, .member Ipv4.ip Ipv4.putIp m.ip]
  ptrs _ := rfl
  fills hv := List.forall_mem_cons.mpr ⟨(HeaderCodec.emits hv.1).fills,
    List.forall_mem_singleton.mpr (HeaderCodec.emits hv.2).fills⟩
  reads hv := List.forall_mem_cons.mpr ⟨member_reads (fun _ _ => rfl) hv.1,
    List.forall_mem_singleton.mpr (member_reads (fun _ _ => rfl) hv.2)⟩
  keeps _ := .cons (List.forall_mem_singleton.mpr (member_keeps fun _ _ => rfl))
    (List.pairwise_singleton _ _)
  same h := by
    obtain ⟨heth, h⟩ := List.forall_mem_cons.mp h
    have hip := List.forall_mem_singleton.mp h
    exact ⟨heth.symm, hip⟩

instance : CodedPacket Udp where
  Valid m := HeaderCodec.Valid m.eth ∧ HeaderCodec.Valid m.ip ∧ HeaderCodec.Valid m.udp
  Same m m' := m'.eth = m.eth ∧ SameIp m.ip m'.ip ∧ m'.udp = m.udp
  segments m := [.member Udp.eth Udp.putEth m.eth, .member Udp.ip Udp.putIp m.ip,
    .member Udp.udp Udp.putUdp m.udp]
  ptrs _ := rfl
  fills hv := List.forall_mem_cons.mpr ⟨(HeaderCodec.emits hv.1).fills,
    List.forall_mem_cons.mpr ⟨(HeaderCodec.emits hv.2.1).fills,
      List.forall_mem_singleton.mpr (HeaderCodec.emits hv.2.2).fills⟩⟩
  reads hv := List.forall_mem_cons.mpr ⟨member_reads (fun _ _ => rfl) hv.1,
    List.forall_mem_cons.mpr ⟨member_reads (fun _ _ => rfl) hv.2.1,
      List.forall_mem_singleton.mpr (member_reads (fun _ _ => rfl) hv.2.2)⟩⟩
  keeps _ := .cons (List.forall_mem_cons.mpr ⟨member_keeps fun _ _ => rfl,
      List.forall_mem_singleton.mpr (member_keeps fun _ _ => rfl)⟩)
    (.cons (List.forall_mem_singleton.mpr (member_keeps fun _ _ => rfl))
      (List.pairwise_singleton _ _))
  same h := by
    obtain ⟨heth, h⟩ := List.forall_mem_cons.mp h
    obtain ⟨hip, h⟩ := List.forall_mem_cons.mp h
    exact ⟨heth.symm, hip, (List.forall_mem_singleton.mp h).symm⟩

theorem packetIdentity_all :
    PacketIdentity Ethernet ∧ PacketIdentity Arp ∧ PacketIdentity Ipv4 ∧ PacketIdentity Udp :=
  ⟨packetIdentity LawfulPacket.headerLength_le, packetIdentity LawfulPacket.headerLength_le,
    packetIdentity LawfulPacket.headerLength_le, packetIdentity LawfulPacket.headerLength_le⟩

-- a stale packet with a longer IP header and other contents takes over a cleared one
theorem packetIdentity_clearedUdp :
    ∃ p' mem n q', Packet.compile.run PacketLayout.clearedUdp = .ok () p' ∧ p'.rawData = .ok mem ∧
      p'.length = .ok n ∧
      (Packet.analyze mem n).run ⟨⟨⟨1, 2, 3, 4⟩, { Ipv4Header.cleared with hlen := 15 },
        ⟨.new, .new, 0⟩⟩, (DataContainer.new 128).setContent [9, 9, 9]⟩ = .ok () q' ∧
      CodedPacket.Same PacketLayout.clearedUdp.members q'.members ∧
      q'.contents = PacketLayout.clearedUdp.contents ∧
      q'.length = PacketLayout.clearedUdp.length :=
  packetIdentity_all.2.2.2 _ _ ⟨⟨rfl, rfl⟩, ⟨by decide, rfl, rfl⟩, trivial⟩

end Classes

end Pgen.PacketCodec
