import Pgen.ProtocolIpv6
import Pgen.ProtocolPackets

/-!
# What a throwing `analyze` leaves behind

`analyze` reads the headers into the members of the object one after the other and takes over the
contents at the end, without a way back. A call that throws leaves the contents alone, but the
headers before the one that throws keep what was read for them, and an IPv4 header that throws for
its options keeps its fixed part.
-/
namespace Pgen.PacketFailure
open ByteMemory StructLayout CorePacket ProtocolHeaders ProtocolIp ProtocolIpv6 ProtocolPackets

section Stacks

variable {P H S : Type} [Header H] {get : P → H} {put : H → P → P} {phs : List (HeaderPtr P)}
  {b : Bytes} {m m' : P} {e : Failure}

theorem readHeaders_cons_error {ph : HeaderPtr P} {n : ℕ}
    (h : (Packet.readHeaders (ph :: phs) b n).run m = .error e m') :
    (ph.read b n).run m = .error e m' ∨ ∃ m₁, (ph.read b n).run m = .ok () m₁ ∧
      (Packet.readHeaders phs (b.drop (ph.length m₁)) (sizeSub n (ph.length m₁))).run m₁ =
        .error e m' := by
  rcases bind_eq_error.mp h with hread | ⟨_, m₁, hread, hrest⟩
  · exact .inl hread
  · rw [run_bind_ok (run_get m₁)] at hrest
    exact .inr ⟨m₁, hread, hrest⟩

/-- A header that is one struct is unchanged, or it is read in full and a later one throws. -/
theorem struct_error {L : Layout S} {tooSmall : String} {fill : S → H → H}
    (hlen : ∀ h : H, Header.length h = L.size)
    (hread : (Header.read : _ → _ → Exec H Unit) = readStruct L L.size tooSmall fill)
    (hput : put (get m) m = m)
    (h : (Packet.readHeaders (.member get put :: phs) b b.length).run m = .error e m') :
    (b.length < L.size ∧ m' = m) ∨ (L.size ≤ b.length ∧
      (Packet.readHeaders phs (b.drop L.size) (b.drop L.size).length).run
        (put (fill (L.dec (b.take L.size)) (get m)) m) = .error e m') := by
  rcases readHeaders_cons_error h with hthrow | ⟨m₁, hok, hrest⟩
  · obtain ⟨t, ht, rfl⟩ := onMember_eq_error hthrow
    rw [hread] at ht
    obtain ⟨hlt, rfl⟩ := readStruct_eq_error (Nat.le_refl _) ht
    exact .inl ⟨hlt, hput⟩
  · obtain ⟨t, ht, rfl⟩ := onMember_eq_ok hok
    rw [hread] at ht
    obtain ⟨hge, rfl⟩ := readStruct_eq_ok (Nat.le_refl _) ht
    change (Packet.readHeaders phs (b.drop (Header.length _)) (sizeSub _ (Header.length _))).run _ =
      _ at hrest
    rw [hlen, sizeSub_of_le hge, ← List.length_drop] at hrest
    exact .inr ⟨hge, hrest⟩

theorem struct_staysIn {L : Layout S} {tooSmall : String} {fill : S → H → H}
    (hlen : ∀ h : H, Header.length h = L.size)
    (hread : (Header.read : _ → _ → Exec H Unit) = readStruct L L.size tooSmall fill) :
    (HeaderPtr.member get put).StaysIn := by
  intro b m m' hr
  obtain ⟨h, hh, rfl⟩ := onMember_eq_ok hr
  rw [hread] at hh
  change Header.length _ ≤ _
  rw [hlen]
  exact (readStruct_eq_ok (Nat.le_refl _) hh).1

/-- A packet class whose headers are no longer than the bytes they are read from. -/
class BoundedPacket (M : Type) [PacketClass M] : Prop where
  staysIn : ∀ ph ∈ (headers : List (HeaderPtr M)), ph.StaysIn

omit [Header H] in
/-- The contents are taken over after the headers, where nothing throws any more. -/
theorem analyze_error {M : Type} [PacketClass M] [BoundedPacket M] {p p' : Packet M}
    (h : (Packet.analyze b b.length).run p = .error e p') :
    p'.raw = p.raw ∧
      (Packet.readHeaders headers b b.length).run p.members = .error e p'.members := by
  rcases bind_eq_error.mp h with hread | ⟨⟨rest, k⟩, p₁, hread, hset⟩
  · obtain ⟨t, ht, rfl⟩ := onMember_eq_error hread
    exact ⟨rfl, ht⟩
  · obtain ⟨t, ht, rfl⟩ := onMember_eq_ok hread
    have hk := readHeaders_length BoundedPacket.staysIn ht
    cases hset.symm.trans (Packet.setContents_ok hk.le _)

end Stacks

section Ipv4Headers

variable {b : Bytes} {h h' : Ipv4Header} {e : Failure}

/-- The header that `read` makes of bytes that hold all of it. -/
def readIp (b : Bytes) (h : Ipv4Header) : Ipv4Header :=
  let fixed := Ipv4Header.filled b h
  { fixed with option := Vector.ofFn fun i =>
      ((b.drop 20).take (fixed.length - 20)).getD i (fixed.option.get i) }

theorem length_readIp (b : Bytes) (h : Ipv4Header) :
    (readIp b h).length = (Ipv4Header.filled b h).length := by
  simp only [readIp, Ipv4Header.length]

/-- A read that throws has stored nothing or, when the options do not fit, the fixed part. -/
theorem ip_eq_error (he : ¬ e.IsFault) (hr : (Ipv4Header.read b b.length).run h = .error e h') :
    (b.length < 20 ∧ h' = h) ∨ (20 ≤ b.length ∧ b.length < (Ipv4Header.filled b h).length ∧
      h' = Ipv4Header.filled b h) := by
  rcases Nat.lt_or_ge b.length 20 with hlt | hge
  · cases hr.symm.trans (run_bind_error (throwIf_fail (show b.length < 20 from hlt) h))
    exact .inl ⟨hlt, rfl⟩
  · rw [Ipv4Header.read_run h hge (Nat.le_refl _)] at hr
    rcases Nat.lt_or_ge b.length (Ipv4Header.filled b h).length with hopt | hopt
    · rw [run_bind_error (throwIf_fail hopt _)] at hr
      cases hr
      exact .inr ⟨hge, hopt, rfl⟩
    · -- what is left to go wrong are accesses outside an object
      rw [run_bind_ok (throwIf_pass (Nat.not_lt.mpr hopt) _)] at hr
      refine absurd ?_ he
      rcases bind_eq_error.mp hr with hload | ⟨data, _, -, hcopy⟩
      · unfold load at hload
        split_ifs at hload
        · cases hload
        · cases hload
          trivial
      · unfold Ipv4Header.copyOption at hcopy
        split_ifs at hcopy
        · cases hcopy
        · cases hcopy
          trivial

theorem ip_eq_ok (hr : (Ipv4Header.read b b.length).run h = .ok () h') :
    20 ≤ b.length ∧ (Ipv4Header.filled b h).length ≤ b.length ∧ h' = readIp b h := by
  obtain ⟨h5, -, -⟩ := Ipv4Header.read_eq_ok (Nat.le_refl _) hr
  obtain ⟨hn, -⟩ := throwIf_bind_eq_ok.mp hr
  have hge : 20 ≤ b.length := Nat.not_lt.mp hn
  rw [Ipv4Header.read_run h hge (Nat.le_refl _)] at hr
  obtain ⟨hlen, h₁⟩ := throwIf_bind_eq_ok.mp hr
  obtain ⟨data, _, hload, hcopy⟩ := bind_eq_ok.mp h₁
  obtain ⟨-, rfl, rfl⟩ := load_eq_ok.mp hload
  refine ⟨hge, Nat.not_lt.mp hlen, ?_⟩
  unfold Ipv4Header.copyOption at hcopy
  split_ifs at hcopy
  swap
  · cases hcopy
  cases hcopy
  have hmin : 20 ≤ (Ipv4Header.filled b h).length := by
    change 5 ≤ (Ipv4Header.filled b h).hlen.toNat at h5
    unfold Ipv4Header.length
    omega
  have hsub : sizeSub (Ipv4Header.filled b h).length Ipv4Header.minLength =
      (Ipv4Header.filled b h).length - 20 := sizeSub_of_le hmin
  rw [hsub]
  rfl

/-- An IPv4 header in front of other headers: it is unchanged, it throws for its options, or it is
read in full and a later one throws. -/
theorem ip_error {P : Type} {get : P → Ipv4Header} {put : Ipv4Header → P → P}
    {phs : List (HeaderPtr P)} {m m' : P} (hget : ∀ h m, get (put h m) = h)
    (hput : put (get m) m = m) (he : ¬ e.IsFault)
    (h : (Packet.readHeaders (.member get put :: phs) b b.length).run m = .error e m') :
    (b.length < 20 ∧ m' = m) ∨
    (20 ≤ b.length ∧ b.length < (Ipv4Header.filled b (get m)).length ∧
      m' = put (Ipv4Header.filled b (get m)) m) ∨
    (20 ≤ b.length ∧ (Ipv4Header.filled b (get m)).length ≤ b.length ∧
      (Packet.readHeaders phs (b.drop (Ipv4Header.filled b (get m)).length)
          (b.drop (Ipv4Header.filled b (get m)).length).length).run (put (readIp b (get m)) m) =
        .error e m') := by
  rcases readHeaders_cons_error h with hthrow | ⟨m₁, hok, hrest⟩
  · obtain ⟨t, ht, rfl⟩ := onMember_eq_error hthrow
    rcases ip_eq_error he ht with ⟨hlt, rfl⟩ | ⟨hge, hopt, rfl⟩
    · exact .inl ⟨hlt, hput⟩
    · exact .inr (.inl ⟨hge, hopt, rfl⟩)
  · obtain ⟨t, ht, rfl⟩ := onMember_eq_ok hok
    obtain ⟨hge, hle, rfl⟩ := ip_eq_ok ht
    have hlen : (HeaderPtr.member get put).length (put (readIp b (get m)) m) =
        (Ipv4Header.filled b (get m)).length := by
      change (get (put (readIp b (get m)) m)).length = _
      rw [hget, length_readIp]
    rw [hlen, sizeSub_of_le hle, ← List.length_drop] at hrest
    exact .inr (.inr ⟨hge, hle, hrest⟩)

theorem ip_staysIn {P : Type} {get : P → Ipv4Header} {put : Ipv4Header → P → P}
    (hget : ∀ h m, get (put h m) = h) : (HeaderPtr.member get put).StaysIn := by
  intro b m m' hr
  obtain ⟨h, hh, rfl⟩ := onMember_eq_ok hr
  obtain ⟨-, hle, rfl⟩ := ip_eq_ok hh
  change (get (put _ m)).length ≤ _
  rwa [hget, length_readIp]

end Ipv4Headers

section Classes

theorem eth_staysIn {P : Type} {get : P → EthernetHeader} {put : EthernetHeader → P → P} :
    (HeaderPtr.member get put).StaysIn := struct_staysIn (L := Eth.layout) (fun _ => rfl) rfl

instance : BoundedPacket Ethernet where
  staysIn := List.forall_mem_singleton.mpr eth_staysIn

instance : BoundedPacket Arp where
  staysIn := List.forall_mem_cons.mpr ⟨eth_staysIn, List.forall_mem_singleton.mpr
    (struct_staysIn (L := ArpStruct.layout) (fun _ => rfl) rfl)⟩

instance : BoundedPacket Ipv4 where
  staysIn := List.forall_mem_cons.mpr ⟨eth_staysIn, List.forall_mem_singleton.mpr
    (ip_staysIn fun _ _ => rfl)⟩

instance : BoundedPacket Ipv6 where
  staysIn := List.forall_mem_cons.mpr ⟨eth_staysIn, List.forall_mem_singleton.mpr
    (struct_staysIn (L := Ipv6Struct.layout) (fun _ => rfl) rfl)⟩

instance : BoundedPacket Udp where
  staysIn := List.forall_mem_cons.mpr ⟨eth_staysIn, List.forall_mem_cons.mpr
    ⟨ip_staysIn fun _ _ => rfl, List.forall_mem_singleton.mpr
      (struct_staysIn (L := UdpStruct.layout) (fun _ => rfl) rfl)⟩⟩

/-- A call that throws leaves the buffer of the object with the contents as it was, and in place
of the members the given ones. -/
def Leaves (M : Type) [PacketClass M] (b : Bytes) (members : M → M) : Prop :=
  ∀ (p p' : Packet M) (e : Failure), ¬ e.IsFault →
    (Packet.analyze b b.length).run p = .error e p' →
    p'.members = members p.members ∧ p'.raw = p.raw ∧ p'.contents = p.contents

theorem leaves_of_readHeaders {M : Type} [PacketClass M] [BoundedPacket M] {b : Bytes}
    {members : M → M} (h : ∀ (m m' : M) (e : Failure), ¬ e.IsFault →
      (Packet.readHeaders headers b b.length).run m = .error e m' → m' = members m) :
    Leaves M b members := by
  intro p p' e he hr
  obtain ⟨hraw, hread⟩ := analyze_error hr
  exact ⟨h _ _ e he hread, hraw, by unfold Packet.contents; rw [hraw]⟩

def readEth (b : Bytes) (h : EthernetHeader) : EthernetHeader :=
  EthernetHeader.ofEth (Eth.layout.dec (b.take 14)) h

/-- The Ethernet header is read where the frame has room for it. -/
def stoppedArp (b : Bytes) (m : Arp) : Arp :=
  if b.length < 14 then m else m.putEth (readEth b m.eth)

def stoppedIpv6 (b : Bytes) (m : Ipv6) : Ipv6 :=
  if b.length < 14 then m else m.putEth (readEth b m.eth)

/-- So is the fixed part of the IPv4 header. -/
def stoppedIpv4 (b : Bytes) (m : Ipv4) : Ipv4 :=
  if b.length < 14 then m
  else if b.length < 34 then m.putEth (readEth b m.eth)
  else (m.putEth (readEth b m.eth)).putIp (Ipv4Header.filled (b.drop 14) m.ip)

def stoppedUdp (b : Bytes) (m : Udp) : Udp :=
  if b.length < 14 then m
  else if b.length < 34 then m.putEth (readEth b m.eth)
  else if b.length < 14 + (Ipv4Header.filled (b.drop 14) m.ip).length then
    (m.putEth (readEth b m.eth)).putIp (Ipv4Header.filled (b.drop 14) m.ip)
  else (m.putEth (readEth b m.eth)).putIp (readIp (b.drop 14) m.ip)

theorem eth_error {P : Type} {get : P → EthernetHeader} {put : EthernetHeader → P → P}
    {phs : List (HeaderPtr P)} {b : Bytes} {m m' : P} {e : Failure} (hput : put (get m) m = m)
    (h : (Packet.readHeaders (.member get put :: phs) b b.length).run m = .error e m') :
    (b.length < 14 ∧ m' = m) ∨ (14 ≤ b.length ∧
      (Packet.readHeaders phs (b.drop 14) (b.drop 14).length).run (put (readEth b (get m)) m) =
        .error e m') :=
  struct_error (L := Eth.layout) (fun _ => rfl) rfl hput h

theorem leaves_ethernet (b : Bytes) : Leaves Ethernet b id := by
  apply leaves_of_readHeaders
  intro m m' e _ h
  rcases eth_error rfl h with ⟨-, rfl⟩ | ⟨-, h⟩
  · rfl
  · cases h

theorem leaves_arp (b : Bytes) : Leaves Arp b (stoppedArp b) := by
  apply leaves_of_readHeaders
  intro m m' e _ h
  rcases eth_error rfl h with ⟨hlt, rfl⟩ | ⟨hge, h⟩
  · exact (if_pos hlt).symm
  · rw [stoppedArp, if_neg (Nat.not_lt.mpr hge)]
    rcases struct_error (L := ArpStruct.layout) (fun _ => rfl) rfl rfl h with ⟨-, rfl⟩ | ⟨-, h⟩
    · rfl
    · cases h

theorem leaves_ipv6 (b : Bytes) : Leaves Ipv6 b (stoppedIpv6 b) := by
  apply leaves_of_readHeaders
  intro m m' e _ h
  rcases eth_error rfl h with ⟨hlt, rfl⟩ | ⟨hge, h⟩
  · exact (if_pos hlt).symm
  · rw [stoppedIpv6, if_neg (Nat.not_lt.mpr hge)]
    rcases struct_error (L := Ipv6Struct.layout) (fun _ => rfl) rfl rfl h with ⟨-, rfl⟩ | ⟨-, h⟩
    · rfl
    · cases h

theorem leaves_ipv4 (b : Bytes) : Leaves Ipv4 b (stoppedIpv4 b) := by
  apply leaves_of_readHeaders
  intro m m' e he h
  rcases eth_error rfl h with ⟨hlt, rfl⟩ | ⟨hge, h⟩
  · exact (if_pos hlt).symm
  · have hdrop : (b.drop 14).length = b.length - 14 := List.length_drop
    rw [stoppedIpv4, if_neg (Nat.not_lt.mpr hge)]
    rcases ip_error (fun _ _ => rfl) rfl he h with ⟨hlt, rfl⟩ | ⟨hip, -, rfl⟩ | ⟨-, -, h⟩
    · rw [if_pos (by omega)]
    · rw [if_neg (by omega)]
      rfl
    · cases h

theorem leaves_udp (b : Bytes) : Leaves Udp b (stoppedUdp b) := by
  apply leaves_of_readHeaders
  intro m m' e he h
  rcases eth_error rfl h with ⟨hlt, rfl⟩ | ⟨hge, h⟩
  · exact (if_pos hlt).symm
  · have hdrop : (b.drop 14).length = b.length - 14 := List.length_drop
    rw [stoppedUdp, if_neg (Nat.not_lt.mpr hge)]
    rcases ip_error (fun _ _ => rfl) rfl he h with ⟨hlt, rfl⟩ | ⟨hip, hopt, rfl⟩ | ⟨hip, hopt, h⟩
    · rw [if_pos (by omega)]
    · change _ < (Ipv4Header.filled (b.drop 14) m.ip).length at hopt
      rw [if_neg (by omega), if_pos (by omega)]
      rfl
    · change (Ipv4Header.filled (b.drop 14) m.ip).length ≤ _ at hopt
      rw [if_neg (by omega), if_neg (by omega)]
      rcases struct_error (L := UdpStruct.layout) (fun _ => rfl) rfl rfl h with ⟨-, rfl⟩ | ⟨-, h⟩
      · rfl
      · cases h

/-- A call that throws does not change `length()`. -/
def LengthStays (M : Type) [PacketClass M] (b : Bytes) : Prop :=
  ∀ (p p' : Packet M) (e : Failure), ¬ e.IsFault →
    (Packet.analyze b b.length).run p = .error e p' → p'.length = p.length

/-- The contents stay, so the length does where all headers have a fixed one. -/
theorem lengthStays_of_fixed {M : Type} [PacketClass M] [BoundedPacket M] {k : ℕ}
    (hlen : ∀ p : Packet M, p.headerLength = k) (b : Bytes) : LengthStays M b := by
  intro p p' e _ hr
  obtain ⟨hraw, -⟩ := analyze_error hr
  unfold Packet.length
  rw [hraw, hlen, hlen]

/-- What a call of `analyze` that throws leaves of an object of each class: the contents as they
were, the headers in front of the one that threw as the bytes say, and the rest as it was but for
the fixed part of an IPv4 header. -/
theorem analyze_leaves (b : Bytes) :
    (Leaves Ethernet b id ∧ Leaves Arp b (stoppedArp b) ∧ Leaves Ipv4 b (stoppedIpv4 b) ∧
      Leaves Udp b (stoppedUdp b) ∧ Leaves Ipv6 b (stoppedIpv6 b)) ∧
    LengthStays Ethernet b ∧ LengthStays Arp b ∧ LengthStays Ipv6 b :=
  ⟨⟨leaves_ethernet b, leaves_arp b, leaves_ipv4 b, leaves_udp b, leaves_ipv6 b⟩,
    lengthStays_of_fixed (k := 14) (fun _ => rfl) b,
    lengthStays_of_fixed (k := 42) (fun _ => rfl) b, lengthStays_of_fixed headerLength_eq b⟩

/-- A UDP object with three bytes of contents. -/
def holdsThree : Packet Udp := ⟨freshUdp, (DataContainer.new 128).setContent [0x01, 0x02, 0x03]⟩

/-- A frame that ends in the UDP header, behind an IPv4 header with an option. -/
theorem analyze_leaves_udp :
    ∃ p', (Packet.analyze (optionDatagram.take 40) 40).run holdsThree =
        .error (.exception "pgen::udp_header::read: buflen is too small") p' ∧
      p'.members = stoppedUdp (optionDatagram.take 40) freshUdp ∧
      p'.contents = holdsThree.contents := by
  have hthrows : ∃ p', (Packet.analyze (optionDatagram.take 40) 40).run holdsThree =
      .error (.exception "pgen::udp_header::read: buflen is too small") p' := ⟨_, rfl⟩
  obtain ⟨p', hp'⟩ := hthrows
  obtain ⟨hmembers, -, hcontents⟩ :=
    (analyze_leaves (optionDatagram.take 40)).1.2.2.2.1 holdsThree p' (.exception _) not_false hp'
  exact ⟨p', hp', hmembers, hcontents⟩

/-- The members of an ARP object before its constructor has run. -/
def freshArp : Arp := ⟨⟨.new, .new, 0⟩, ⟨0, 0, 0, 0, 0, .new, .new, .new, .new⟩⟩

/-- An ARP object takes the type field of a frame of 14 bytes that it rejects. -/
theorem rejected_frame_changes_arp :
    ∃ p p', Packet.clear.run ⟨freshArp, .new 128⟩ = .ok () p ∧
      (Packet.analyze (List.replicate 14 0xff) 14).run p =
        .error (.exception "pgen::arp_header::read: bufferlen is too small") p' ∧
      p.members.eth.type = 0x0806 ∧ p'.members.eth.type = 0xffff :=
  ⟨_, _, rfl, rfl, by decide, by decide⟩

end Classes

end Pgen.PacketFailure
