import Pgen.ProtocolPackets

/-!
# Memory accesses of the IPv4 codec

The header length is a nibble of the frame. The checks compare the buffer with the length it
stands for, but not that length with the 20 bytes of the fixed part.
-/
namespace Pgen.ProtocolBounds
open ByteMemory StructLayout CorePacket ProtocolHeaders ProtocolIp ProtocolPackets

section Header

/-- Where the frame has room for a fixed part at this offset, its header length covers it. -/
def HlenCovers (b : Bytes) (off : ℕ) : Prop :=
  b.length < off + 20 ∨ 5 ≤ (b.getD off 0).toNat % 16

theorem hlen_filled {buffer : Bytes} (h : Ipv4Header) :
    (Ipv4Header.filled buffer h).hlen.toNat = (buffer.getD 0 0).toNat % 16 := by
  change (BitVec.ofNat 4 (((buffer.take 20).take 1).getD 0 0).toNat).toNat = _
  cases buffer with
  | nil => rfl
  | cons b rest => simp

theorem copyOption_inBounds {data : Bytes} {h : Ipv4Header} :
    InBounds ((Ipv4Header.copyOption data).run h) ↔ data.length ≤ 40 := by
  unfold Ipv4Header.copyOption
  split_ifs with hle
  · exact iff_of_true trivial hle
  · exact iff_of_false (fun hb => hb trivial) hle

theorem read_inBounds {buffer : Bytes} {n : ℕ} (h : Ipv4Header) (hbuf : n ≤ buffer.length) :
    InBounds ((Ipv4Header.read buffer n).run h) ↔ n < 20 ∨ 5 ≤ (buffer.getD 0 0).toNat % 16 := by
  rcases Nat.lt_or_ge n 20 with hlt | hge
  · exact iff_of_true (inBounds_throwIf_bind.mpr (.inl hlt)) (.inl hlt)
  · have hlen : (Ipv4Header.filled buffer h).length = (buffer.getD 0 0).toNat % 16 * 4 := by
      rw [Ipv4Header.length, hlen_filled]
    have hmin : Ipv4Header.minLength = 20 := rfl
    rw [Ipv4Header.read_run h hge hbuf, inBounds_throwIf_bind, inBounds_load_bind,
      copyOption_inBounds, hlen, List.length_take, List.length_drop]
    rcases Nat.lt_or_ge ((buffer.getD 0 0).toNat % 16) 5 with h5 | h5
    · rw [sizeSub_of_lt (by omega)]
      omega
    · rw [sizeSub_of_le (by omega)]
      omega

theorem write_inBounds (h : Ipv4Header) (mem : Bytes) :
    InBounds ((h.write mem.length).run mem) ↔ 5 ≤ h.hlen.toNat ∨ mem.length < 4 * h.hlen.toNat := by
  have hlen : h.length = h.hlen.toNat * 4 := rfl
  have hmin : Ipv4Header.minLength = 20 := rfl
  rcases Nat.lt_or_ge mem.length h.length with hlt | hge
  · refine iff_of_true (inBounds_throwIf_bind.mpr (.inl ?_)) (by omega)
    rw [Ipv4Header.shiftLeft_two]
    exact hlt
  · rcases Nat.lt_or_ge h.hlen.toNat 5 with h5 | h5
    · refine iff_of_false (fun hb => ?_) (by omega)
      unfold Ipv4Header.write at hb
      rw [Ipv4Header.shiftLeft_two, inBounds_throwIf_bind, inBounds_bind] at hb
      obtain ⟨hstore, hrest⟩ := hb.resolve_left (Nat.not_lt.mpr hge)
      have h20 : Ip.layout.size ≤ mem.length := by
        have hs := inBounds_store.mp hstore
        rwa [Nat.zero_add, Ip.layout.enc_length] at hs
      have hload := inBounds_load_bind.mp (hrest () _ (Ip.layout.store_ok _ h20))
      rw [sizeSub_of_lt (by omega), Vector.length_toList] at hload
      omega
    · rw [(Ipv4Header.write_emits h5).write_ok (by rw [Ipv4Header.encoding_length h5]; exact hge)
        (Nat.le_refl _)]
      exact iff_of_true trivial (.inl h5)

end Header

section Stacks

/-- Reading through the pointer stays in the buffer. -/
structure Bounded {P : Type} (ph : HeaderPtr P) : Prop where
  read_inBounds : ∀ {p : P} {buffer : Bytes} {n : ℕ}, n ≤ buffer.length →
    InBounds ((ph.read buffer n).run p)

theorem readHeaders_cons_inBounds {P : Type} {ph : HeaderPtr P} {phs : List (HeaderPtr P)}
    {buffer : Bytes} {n : ℕ} {p : P} :
    InBounds ((Packet.readHeaders (ph :: phs) buffer n).run p) ↔
      InBounds ((ph.read buffer n).run p) ∧ ∀ p', (ph.read buffer n).run p = .ok () p' →
        InBounds ((Packet.readHeaders phs (buffer.drop (ph.length p'))
          (sizeSub n (ph.length p'))).run p') := by
  rw [Packet.readHeaders, inBounds_bind]
  constructor
  · rintro ⟨h, hrest⟩
    exact ⟨h, fun p' hp => (inBounds_bind.mp (hrest () p' hp)).2 p' p' (run_get p')⟩
  · rintro ⟨h, hrest⟩
    refine ⟨h, fun _ p' hp => ?_⟩
    rw [run_bind_ok (run_get p')]
    exact hrest p' hp

theorem sizeSub_le_drop {ph : ℕ} {buffer : Bytes} {n : ℕ} (hn : n ≤ buffer.length) (hph : ph ≤ n) :
    sizeSub n ph ≤ (buffer.drop ph).length := by
  rw [sizeSub_of_le hph, List.length_drop]
  omega

theorem readHeaders_inBounds {P : Type} {phs : List (HeaderPtr P)} (hb : ∀ ph ∈ phs, Bounded ph)
    (hd : ∀ ph ∈ phs, ph.Decodes) {buffer : Bytes} {n : ℕ} {p : P} (hn : n ≤ buffer.length) :
    InBounds ((Packet.readHeaders phs buffer n).run p) := by
  induction phs generalizing buffer n p with
  | nil => trivial
  | cons ph phs ih =>
    refine readHeaders_cons_inBounds.mpr ⟨(hb ph (by simp)).read_inBounds hn, fun p' hp => ?_⟩
    obtain ⟨hle, -⟩ := (hd ph (by simp)).read_writes hn hp
    exact ih (fun q hq => hb q (by simp [hq])) (fun q hq => hd q (by simp [hq]))
      (sizeSub_le_drop hn hle)

/-- Taking over the contents stays in the frame, so only the headers matter. -/
theorem analyze_inBounds {M : Type} [PacketClass M] [LawfulPacket M] (p : Packet M) (b : Bytes) :
    InBounds ((Packet.analyze b b.length).run p) ↔
      InBounds ((Packet.readHeaders headers b b.length).run p.members) := by
  unfold Packet.analyze
  rw [inBounds_bind, inBounds_onMember]
  refine and_iff_left_of_imp fun _ => ?_
  rintro ⟨rest, k⟩ p' hr
  obtain ⟨m, hread, rfl⟩ := onMember_eq_ok hr
  obtain ⟨ws, -, hb, hlen⟩ :=
    readHeaders_ok LawfulPacket.decodes LawfulPacket.spares (Nat.le_refl _) hread
  have hl := congrArg List.length hb
  rw [List.length_append] at hl
  have hset := Packet.setContents_ok (show k ≤ rest.length by omega) { p with members := m }
  change InBounds ((Packet.setContents rest k).run _)
  rw [hset]
  trivial

/-- An Ethernet header and an IPv4 header in front of headers whose reads stay in the buffer. -/
theorem stack_inBounds {M : Type} {getEth : M → EthernetHeader} {putEth : EthernetHeader → M → M}
    {getIp : M → Ipv4Header} {putIp : Ipv4Header → M → M} {phs : List (HeaderPtr M)}
    (hget : ∀ h m, getIp (putIp h m) = h) (hb : ∀ ph ∈ phs, Bounded ph)
    (hd : ∀ ph ∈ phs, ph.Decodes) (m : M) (b : Bytes) :
    InBounds ((Packet.readHeaders (.member getEth putEth :: .member getIp putIp :: phs)
      b b.length).run m) ↔ HlenCovers b 14 := by
  have heth : InBounds (((HeaderPtr.member getEth putEth).read b b.length).run m) :=
    inBounds_onMember.mpr (readStruct_inBounds Eth.layout _ _ (Nat.le_refl _) _)
  rw [readHeaders_cons_inBounds]
  rcases Nat.lt_or_ge b.length 14 with hlt | hge
  · refine iff_of_true ⟨heth, fun m' hr => ?_⟩ (.inl (by omega))
    obtain ⟨h, hread, -⟩ := onMember_eq_ok hr
    exact absurd (readStruct_eq_ok (Nat.le_refl _) hread).1 (Nat.not_le.mpr hlt)
  · have hread : ((HeaderPtr.member getEth putEth).read b b.length).run m = .ok () _ :=
      onMember_ok (readStruct_ok Eth.layout _ _ _ hge (Nat.le_refl _))
    generalize putEth _ m = m₁ at hread
    have hsub : sizeSub b.length 14 ≤ (b.drop 14).length := sizeSub_le_drop (Nat.le_refl _) hge
    calc _ ↔ InBounds ((Packet.readHeaders (.member getIp putIp :: phs) (b.drop 14)
          (sizeSub b.length 14)).run m₁) := by
          refine ⟨fun h => h.2 m₁ hread, fun h => ⟨heth, fun m' hm => ?_⟩⟩
          cases hread.symm.trans hm
          exact h
      _ ↔ InBounds (((HeaderPtr.member getIp putIp).read (b.drop 14)
          (sizeSub b.length 14)).run m₁) := by
          rw [readHeaders_cons_inBounds]
          refine and_iff_left_of_imp fun _ m₂ hm => ?_
          obtain ⟨hle, -⟩ := (HeaderPtr.member_decodes hget).read_writes hsub hm
          exact readHeaders_inBounds hb hd (sizeSub_le_drop hsub hle)
      _ ↔ HlenCovers b 14 := by
          change InBounds ((onMember getIp putIp (Ipv4Header.read _ _)).run m₁) ↔ _
          rw [inBounds_onMember, read_inBounds _ hsub, sizeSub_of_le hge, HlenCovers]
          simp only [List.getD_eq_getElem?_getD, List.getElem?_drop, Nat.add_zero]
          omega

theorem udp_bounded : Bounded (HeaderPtr.member Udp.udp Udp.putUdp) where
  read_inBounds hn := inBounds_onMember.mpr (readStruct_inBounds UdpStruct.layout _ _ hn _)

theorem ipv4_analyze_inBounds (p : Packet Ipv4) (b : Bytes) :
    InBounds ((Packet.analyze b b.length).run p) ↔ HlenCovers b 14 := by
  rw [analyze_inBounds]
  exact stack_inBounds (fun _ _ => rfl) (by simp) (by simp) p.members b

theorem udp_analyze_inBounds (p : Packet Udp) (b : Bytes) :
    InBounds ((Packet.analyze b b.length).run p) ↔ HlenCovers b 14 := by
  rw [analyze_inBounds]
  exact stack_inBounds (fun _ _ => rfl) (List.forall_mem_singleton.mpr udp_bounded)
    (List.forall_mem_singleton.mpr (HeaderPtr.member_decodes fun _ _ => rfl)) p.members b

/-- A `clear` that returns leaves the accesses of the constructor to `analyze`. -/
theorem construct_inBounds {M : Type} [PacketClass M] {Q : Prop} {b : Bytes}
    (hclear : Returns (PacketClass.clear : Exec M Unit))
    (h : ∀ p : Packet M, InBounds ((Packet.analyze b b.length).run p) ↔ Q) (fresh : M) :
    InBounds (Packet.construct fresh b b.length) ↔ Q := by
  obtain ⟨_, cleared, hc⟩ := hclear fresh
  unfold Packet.construct Packet.clear
  rw [run_bind_ok (onMember_ok hc)]
  exact h _

theorem returns_clear_ip : Returns Ipv4Header.clear := fun h => ⟨(), _, Ipv4Header.clear_run h⟩

theorem returns_clear_ipv4 : Returns (PacketClass.clear : Exec Ipv4 Unit) :=
  EthernetHeader.returns_clear.onMember.bind fun _ => (Returns.modify _).bind fun _ =>
    returns_clear_ip.onMember

theorem returns_clear_udp : Returns (PacketClass.clear : Exec Udp Unit) :=
  EthernetHeader.returns_clear.onMember.bind fun _ => (Returns.modify _).bind fun _ =>
    returns_clear_ip.onMember.bind fun _ => (Returns.modify _).bind fun _ =>
      (Returns.modify _).bind fun _ => UdpHeader.returns_clear.onMember

/-- Where the IPv4 codec and the constructors stay inside the buffer and the option array. -/
theorem ipv4_inBounds_iff (b : Bytes) :
    (∀ h : Ipv4Header, InBounds ((Ipv4Header.read b b.length).run h) ↔ HlenCovers b 0) ∧
    (∀ h : Ipv4Header, InBounds ((h.write b.length).run b) ↔
      5 ≤ h.hlen.toNat ∨ b.length < 4 * h.hlen.toNat) ∧
    (∀ p : Packet Ipv4, InBounds ((Packet.analyze b b.length).run p) ↔ HlenCovers b 14) ∧
    (∀ p : Packet Udp, InBounds ((Packet.analyze b b.length).run p) ↔ HlenCovers b 14) ∧
    (∀ fresh : Ipv4, InBounds (Packet.construct fresh b b.length) ↔ HlenCovers b 14) ∧
    (∀ fresh : Udp, InBounds (Packet.construct fresh b b.length) ↔ HlenCovers b 14) := by
  refine ⟨fun h => ?_, (write_inBounds · b), (ipv4_analyze_inBounds · b),
    (udp_analyze_inBounds · b), ?_, ?_⟩
  · rw [read_inBounds h (Nat.le_refl _), HlenCovers, Nat.zero_add]
  · exact construct_inBounds returns_clear_ipv4 (ipv4_analyze_inBounds · b)
  · exact construct_inBounds returns_clear_udp (udp_analyze_inBounds · b)

/-- A header of 20 bytes that gives its length as 16 bytes. -/
theorem read_shortHlen_outside :
    ¬ InBounds ((Ipv4Header.read (0x44 :: List.replicate 19 0) 20).run Ipv4Header.cleared) := by
  decide

end Stacks

end Pgen.ProtocolBounds
