import Pgen.ProtocolIpv6

/-!
# Copy construction and assignment of packets

The contents live in the buffer of the base class. The copy constructor of the base takes it over,
its assignment operator does not; each packet class decides which of the two its own copies go
through.
-/
namespace Pgen.PacketCopies
open ByteMemory CorePacket ProtocolHeaders ProtocolIp ProtocolPackets ProtocolIpv6

section Writing

/-- Where writing into its own length returns at all, a header fills it. -/
class RegularHeader (H : Type) [Header H] : Prop where
  write_fills : ∀ {h : H} {mem mem' : Bytes},
    (Header.write h (Header.length h)).run mem = .ok () mem' →
      ∃ w, Fills (Header.length h) (Header.write h) w

instance : RegularHeader EthernetHeader := ⟨fun _ => ⟨_, (writeStruct_emits Eth.layout _ _).fills⟩⟩

instance : RegularHeader ArpHeader :=
  ⟨fun _ => ⟨_, (writeStruct_emits ArpStruct.layout _ _).fills⟩⟩

instance : RegularHeader UdpHeader :=
  ⟨fun _ => ⟨_, (writeStruct_emits UdpStruct.layout _ _).fills⟩⟩

instance : RegularHeader Ipv6Header :=
  ⟨fun _ => ⟨_, (writeStruct_emits Ipv6Struct.layout _ _).fills⟩⟩

/-- With a shorter header length the option copy would be one of nearly `2^64` bytes. -/
theorem write_eq_ok {h : Ipv4Header} {n : ℕ} {mem mem' : Bytes}
    (hw : (h.write n).run mem = .ok () mem') : 5 ≤ h.hlen.toNat := by
  have hlen : h.length = h.hlen.toNat * 4 := rfl
  have hmin : Ipv4Header.minLength = 20 := rfl
  obtain ⟨-, hw⟩ := throwIf_bind_eq_ok.mp hw
  obtain ⟨_, mem₁, -, hw⟩ := bind_eq_ok.mp hw
  obtain ⟨data, mem₂, hload, -⟩ := bind_eq_ok.mp hw
  obtain ⟨hin, -, -⟩ := load_eq_ok.mp hload
  rw [Vector.length_toList] at hin
  by_contra hlt
  rw [sizeSub_of_lt (by omega)] at hin
  omega

instance : RegularHeader Ipv4Header :=
  ⟨fun hw => ⟨_, (Ipv4Header.write_emits (write_eq_ok hw)).fills⟩⟩

/-- A packet class of such headers, which fit into the headroom. -/
class RegularPacket (M : Type) [PacketClass M] : Prop where
  write_fills : ∀ ph ∈ (headers : List (HeaderPtr M)), ∀ {m : M} {mem mem' : Bytes},
    (ph.write m (ph.length m)).run mem = .ok () mem' → ∃ w, ph.Fills m w
  headerLength_le : ∀ p : Packet M, p.headerLength ≤ 128

theorem member_write_fills {M H : Type} [Header H] [RegularHeader H] {get : M → H}
    {put : H → M → M} {m : M} {mem mem' : Bytes}
    (hw : ((HeaderPtr.member get put).write m ((HeaderPtr.member get put).length m)).run mem =
      .ok () mem') : ∃ w, (HeaderPtr.member get put).Fills m w :=
  RegularHeader.write_fills hw

instance : RegularPacket Ethernet where
  write_fills := List.forall_mem_singleton.mpr member_write_fills
  headerLength_le := LawfulPacket.headerLength_le

instance : RegularPacket Arp where
  write_fills := List.forall_mem_cons.mpr ⟨member_write_fills,
    List.forall_mem_singleton.mpr member_write_fills⟩
  headerLength_le := LawfulPacket.headerLength_le

instance : RegularPacket Ipv4 where
  write_fills := List.forall_mem_cons.mpr ⟨member_write_fills,
    List.forall_mem_singleton.mpr member_write_fills⟩
  headerLength_le := LawfulPacket.headerLength_le

instance : RegularPacket Ipv6 where
  write_fills := List.forall_mem_cons.mpr ⟨member_write_fills,
    List.forall_mem_singleton.mpr member_write_fills⟩
  headerLength_le p := by rw [headerLength_eq]; norm_num

instance : RegularPacket Udp where
  write_fills := List.forall_mem_cons.mpr ⟨member_write_fills,
    List.forall_mem_cons.mpr ⟨member_write_fills,
      List.forall_mem_singleton.mpr member_write_fills⟩⟩
  headerLength_le := LawfulPacket.headerLength_le

variable {M : Type}

/-- A loop of `compile` that returns has returned from every write. -/
theorem compileLoop_writes {m : M} {phs : List (HeaderPtr M)} {pointer : ℤ} {mem mem' : Bytes}
    (h : (Packet.compileLoop m phs pointer).run mem = .ok () mem') :
    ∀ ph ∈ phs, ∃ mem₁ mem₂, (ph.write m (ph.length m)).run mem₁ = .ok () mem₂ := by
  induction phs generalizing pointer mem with
  | nil => simp
  | cons ph phs ih =>
    obtain ⟨_, mem₁, hwrite, hrest⟩ := bind_eq_ok.mp h
    refine List.forall_mem_cons.mpr ⟨?_, ih hrest⟩
    unfold Packet.atPointer at hwrite
    split_ifs at hwrite
    · obtain ⟨-, tail, htail, -⟩ := atOffset_eq_ok hwrite
      exact ⟨_, _, htail⟩
    · obtain ⟨tail, htail, -⟩ := onMember_eq_ok hwrite
      exact ⟨_, _, htail⟩

theorem onVec_eq_ok {pivot : ℕ} {α : Type} {act : Exec Bytes α} {hact : KeepsLength act}
    {c c' : DataContainer pivot} {a : α} (h : (DataContainer.onVec act hact).run c = .ok a c') :
    ∃ vec, act.run c.vec = .ok a vec := by
  cases hr : act.run c.vec with
  | ok b vec =>
    obtain ⟨c'', hok, -⟩ := DataContainer.onVec_ok hact hr
    cases h.symm.trans hok
    exact ⟨vec, rfl⟩
  | error e vec =>
    change DataContainer.onVec act hact c = _ at h
    simp only [DataContainer.onVec, hr] at h
    cases h

theorem exists_forall₂ {α β : Type} {R : α → β → Prop} {as : List α} (h : ∀ a ∈ as, ∃ b, R a b) :
    ∃ bs, List.Forall₂ R as bs := by
  induction as with
  | nil => exact ⟨[], .nil⟩
  | cons a as ih =>
    obtain ⟨b, hb⟩ := h a (by simp)
    obtain ⟨bs, hbs⟩ := ih fun x hx => h x (by simp [hx])
    exact ⟨b :: bs, .cons hb hbs⟩

variable [PacketClass M] [RegularPacket M]

/-- Headers that `compile` returned from write bytes that depend on nothing else. -/
theorem compile_eq_ok {p p' : Packet M} (h : Packet.compile.run p = .ok () p') :
    ∃ ws, List.Forall₂ (fun ph w => ph.Fills p.members w) headers ws := by
  unfold Packet.compile at h
  rw [run_bind_ok (run_get p)] at h
  obtain ⟨raw, hraw, -⟩ := onMember_eq_ok h
  obtain ⟨vec, hloop⟩ := onVec_eq_ok hraw
  refine exists_forall₂ fun ph hph => ?_
  obtain ⟨mem₁, mem₂, hwrite⟩ := compileLoop_writes hloop ph (List.mem_reverse.mpr hph)
  exact RegularPacket.write_fills ph hph hwrite

end Writing

section Equality

variable {M : Type} [PacketClass M]

/-- `q` is equal to `p`: the header fields, the length, the contents and, after compiling both, the
raw bytes. -/
structure EqualPackets (p q : Packet M) : Prop where
  members : q.members = p.members
  length : q.length = p.length
  contents : q.contents = p.contents
  compiled : ∀ {p'}, Packet.compile.run p = .ok () p' →
    ∃ q', Packet.compile.run q = .ok () q' ∧ q'.rawData = p'.rawData ∧ q'.length = p'.length

theorem EqualPackets.refl (p : Packet M) : EqualPackets p p :=
  ⟨rfl, rfl, rfl, fun h => ⟨_, h, rfl, rfl⟩⟩

/-- What lies in the headroom does not matter. -/
theorem equalPackets_iff [RegularPacket M] {p q : Packet M} :
    EqualPackets p q ↔ q.members = p.members ∧ q.contents = p.contents := by
  refine ⟨fun h => ⟨h.members, h.contents⟩, ?_⟩
  rintro ⟨hmem, hcontents⟩
  have hp := contents_drop p
  have hq := hcontents.trans hp
  have hdrop : q.raw.vec.drop 128 = p.raw.vec.drop 128 :=
    Except.ok.inj ((contents_drop q).symm.trans hq)
  have hheader : q.headerLength = p.headerLength := by
    rw [Packet.headerLength, hmem, Packet.headerLength]
  refine ⟨hmem, ?_, hcontents, fun {p'} h => ?_⟩
  · rw [length_eq (vec_eq p) p.raw.length_take_pivot, length_eq (vec_eq q) q.raw.length_take_pivot,
      hdrop, hheader]
  · obtain ⟨ws, hws⟩ := compile_eq_ok h
    obtain ⟨p₁, hrun, -, hlaid, -⟩ := PacketLayout.compile_layout p ws _ hws
      (RegularPacket.headerLength_le p) hp
    obtain ⟨q₁, hrun', -, hlaid', -⟩ := PacketLayout.compile_layout q ws _ (hmem ▸ hws)
      (RegularPacket.headerLength_le q) hq
    cases h.symm.trans hrun
    exact ⟨q₁, hrun', hlaid'.rawData.trans hlaid.rawData.symm,
      hlaid'.length.trans hlaid.length.symm⟩

end Equality

section Classes

/-- The packet classes. -/
inductive Kind
  | ethernet
  | arp
  | ipv4
  | ipv6
  | udp
  deriving DecidableEq, Repr

/-- The header members of an object of the class. -/
abbrev Members : Kind → Type
  | .ethernet => Ethernet
  | .arp => Arp
  | .ipv4 => Ipv4
  | .ipv6 => Ipv6
  | .udp => Udp

instance (k : Kind) : PacketClass (Members k) :=
  match k with
  | .ethernet => inferInstanceAs (PacketClass Ethernet)
  | .arp => inferInstanceAs (PacketClass Arp)
  | .ipv4 => inferInstanceAs (PacketClass Ipv4)
  | .ipv6 => inferInstanceAs (PacketClass Ipv6)
  | .udp => inferInstanceAs (PacketClass Udp)

instance (k : Kind) : RegularPacket (Members k) :=
  match k with
  | .ethernet => inferInstanceAs (RegularPacket Ethernet)
  | .arp => inferInstanceAs (RegularPacket Arp)
  | .ipv4 => inferInstanceAs (RegularPacket Ipv4)
  | .ipv6 => inferInstanceAs (RegularPacket Ipv6)
  | .udp => inferInstanceAs (RegularPacket Udp)

end Classes

section CopyConstruction

/-- The object that `packet::packet(const packet&)` leaves: the buffer is copied. -/
def copyBase {M : Type} (fresh : M) (rhs : Packet M) : Packet M := ⟨fresh, rhs.raw⟩

/-- The assignment of one header member. -/
def assignMember {M H : Type} (put : H → M → M) (h : H) : Exec (Packet M) Unit :=
  modify fun p => { p with members := put h p.members }

def Ethernet.copy (fresh : Ethernet) (rhs : Packet Ethernet) : Outcome (Packet Ethernet) Unit :=
  (assignMember Ethernet.putEth rhs.members.eth).run (copyBase fresh rhs)

/-- It delegates to the default constructor. -/
def Arp.copy (fresh : Arp) (rhs : Packet Arp) : Outcome (Packet Arp) Unit :=
  (do
    Packet.clear
    assignMember Arp.putEth rhs.members.eth
    assignMember Arp.putArp rhs.members.arp : Exec (Packet Arp) Unit).run ⟨fresh, .new 128⟩

def Ipv4.copy (fresh : Ipv4) (rhs : Packet Ipv4) : Outcome (Packet Ipv4) Unit :=
  (do
    assignMember Ipv4.putEth rhs.members.eth
    assignMember Ipv4.putIp rhs.members.ip : Exec (Packet Ipv4) Unit).run (copyBase fresh rhs)

def Ipv6.copy (fresh : Ipv6) (rhs : Packet Ipv6) : Outcome (Packet Ipv6) Unit :=
  (do
    assignMember Ipv6.putEth rhs.members.eth
    assignMember Ipv6.putIp rhs.members.ip : Exec (Packet Ipv6) Unit).run (copyBase fresh rhs)

def Udp.copy (fresh : Udp) (rhs : Packet Udp) : Outcome (Packet Udp) Unit :=
  (do
    assignMember Udp.putUdp rhs.members.udp
    assignMember Udp.putEth rhs.members.eth
    assignMember Udp.putIp rhs.members.ip : Exec (Packet Udp) Unit).run (copyBase fresh rhs)

/-- The copy constructor of each class; `fresh` holds the members before they are assigned. -/
def copy : (k : Kind) → Members k → Packet (Members k) → Outcome (Packet (Members k)) Unit
  | .ethernet => Ethernet.copy
  | .arp => Arp.copy
  | .ipv4 => Ipv4.copy
  | .ipv6 => Ipv6.copy
  | .udp => Udp.copy

theorem returns_clear_arp : Returns (PacketClass.clear : Exec Arp Unit) :=
  EthernetHeader.returns_clear.onMember.bind fun _ => (Returns.modify _).bind fun _ =>
    ArpHeader.returns_clear.onMember

theorem clear_ok {M : Type} [PacketClass M] (hclear : Returns (PacketClass.clear : Exec M Unit))
    (p : Packet M) : ∃ m, Packet.clear.run p = .ok () ⟨m, p.raw⟩ := by
  obtain ⟨_, m, hm⟩ := hclear p.members
  exact ⟨m, onMember_ok hm⟩

/-- The copy of an ARP packet has the headers and an empty buffer. -/
theorem arp_copy_ok (fresh : Arp) (p : Packet Arp) :
    Arp.copy fresh p = .ok () ⟨p.members, .new 128⟩ := by
  have hclear := clear_ok returns_clear_arp ⟨fresh, .new 128⟩
  obtain ⟨m, hm⟩ := hclear
  unfold Arp.copy
  rw [run_bind_ok hm]
  rfl

theorem contents_new {M : Type} (m : M) : Packet.contents ⟨m, .new 128⟩ = .ok [] :=
  contents_eq (show _ = List.replicate 128 0 ++ [] from (List.append_nil _).symm)
    List.length_replicate

/-- The copy is equal to the packet except for an ARP packet with contents. -/
theorem copy_equal_iff (k : Kind) (fresh : Members k) (p : Packet (Members k)) :
    (∃ q, copy k fresh p = .ok () q ∧ EqualPackets p q) ↔ k ≠ .arp ∨ p.contents = .ok [] := by
  cases k with
  | ethernet => exact iff_of_true ⟨p, rfl, .refl p⟩ (.inl (by decide))
  | ipv4 => exact iff_of_true ⟨p, rfl, .refl p⟩ (.inl (by decide))
  | ipv6 => exact iff_of_true ⟨p, rfl, .refl p⟩ (.inl (by decide))
  | udp => exact iff_of_true ⟨p, rfl, .refl p⟩ (.inl (by decide))
  | arp =>
    have hcopy : copy .arp fresh p = .ok () ⟨p.members, .new 128⟩ := arp_copy_ok fresh p
    constructor
    · rintro ⟨q, hq, heq⟩
      cases hq.symm.trans hcopy
      exact .inr (heq.contents.symm.trans (contents_new _))
    · intro h
      have hcontents := h.resolve_left (by simp)
      exact ⟨_, hcopy, equalPackets_iff.mpr ⟨rfl, (contents_new _).trans hcontents.symm⟩⟩

/-- A new ARP packet that was given one byte of contents. -/
theorem arp_copy_loses :
    let fresh : Arp := ⟨⟨.new, .new, 0⟩, ⟨0, 0, 0, 0, 0, .new, .new, .new, .new⟩⟩
    ∃ p : Packet Arp,
      (do Packet.clear; Packet.setContents [0x01] 1 : Exec (Packet Arp) Unit).run
        ⟨fresh, .new 128⟩ = .ok () p ∧
      ¬ ∃ q, copy .arp fresh p = .ok () q ∧ EqualPackets p q := by
  intro fresh
  have hclear := clear_ok returns_clear_arp ⟨fresh, .new 128⟩
  obtain ⟨m, hm⟩ := hclear
  refine ⟨⟨m, (DataContainer.new 128).setContent [0x01]⟩, ?_, ?_⟩
  · rw [run_bind_ok hm]
    rfl
  · rintro ⟨q, hq, heq⟩
    cases hq.symm.trans (arp_copy_ok fresh _)
    have hone := contents_setContent m (.new 128) [0x01]
    have hcontents := (contents_new _).symm.trans (heq.contents.trans hone)
    cases hcontents

end CopyConstruction

section Assignment

variable {M : Type} [PacketClass M]

/-- The assignment through two `header&`: what the compiler copies of a class without data
members. -/
def headerAssign (_lhs _rhs : HeaderPtr M) : Exec (Packet M × Packet M) Unit := pure ()

def assignLoop : List (HeaderPtr M) → List (HeaderPtr M) → Exec (Packet M × Packet M) Unit
  | lhs :: lhss, rhs :: rhss => do
    headerAssign lhs rhs
    assignLoop lhss rhss
  | _, _ => pure ()

/-- `packet::operator=`; the state are the objects on its left and on its right. -/
def packetAssign : Exec (Packet M × Packet M) Unit := do
  throwIf ((headers : List (HeaderPtr M)).length ≠ (headers : List (HeaderPtr M)).length)
    "pgen::packet::operator=: not same packet type"
  assignLoop headers headers

/-- The assignment that the compiler generates for a packet class: the base, then the members. -/
def objectAssign : Exec (Packet M × Packet M) Unit := do
  packetAssign
  modify fun s => ({ s.1 with members := s.2.members }, s.2)

omit [PacketClass M] in
theorem assignLoop_ok (lhss rhss : List (HeaderPtr M)) (s : Packet M × Packet M) :
    (assignLoop lhss rhss).run s = .ok () s := by
  induction lhss generalizing rhss with
  | nil => rfl
  | cons lhs lhss ih =>
    cases rhss with
    | nil => rfl
    | cons rhs rhss => exact ih rhss

theorem packetAssign_ok (s : Packet M × Packet M) : packetAssign.run s = .ok () s := by
  unfold packetAssign
  rw [run_bind_ok (throwIf_pass (not_not.mpr rfl) s), assignLoop_ok]

theorem objectAssign_ok (a b : Packet M) :
    objectAssign.run (b, a) = .ok () (⟨a.members, b.raw⟩, a) := by
  unfold objectAssign
  rw [run_bind_ok (packetAssign_ok (b, a))]
  rfl

/-- Objects are equal after an assignment when their contents were before it, and objects that are
assigned through references when they were equal before it. -/
theorem assign_equal_iff (k : Kind) (a b : Packet (Members k)) :
    ((∃ b', objectAssign.run (b, a) = .ok () (b', a) ∧ EqualPackets a b') ↔
      b.contents = a.contents) ∧
    ((∃ b', packetAssign.run (b, a) = .ok () (b', a) ∧ EqualPackets a b') ↔
      b.members = a.members ∧ b.contents = a.contents) := by
  have hobject := objectAssign_ok a b
  have hpacket := packetAssign_ok (b, a)
  refine ⟨⟨?_, fun h => ⟨_, hobject, equalPackets_iff.mpr ⟨rfl, h⟩⟩⟩,
    ⟨?_, fun h => ⟨_, hpacket, equalPackets_iff.mpr h⟩⟩⟩
  · rintro ⟨b', hb', heq⟩
    cases hb'.symm.trans hobject
    exact heq.contents
  · rintro ⟨b', hb', heq⟩
    cases hb'.symm.trans hpacket
    exact equalPackets_iff.mp heq

/-- One byte of contents is assigned neither to an object nor through a reference. -/
theorem assign_loses :
    let a : Packet Ethernet := ⟨⟨⟨.new, .new, 0x0800⟩⟩, (DataContainer.new 128).setContent [0x01]⟩
    let b : Packet Ethernet := ⟨⟨⟨.new, .new, 0x0806⟩⟩, .new 128⟩
    (¬ ∃ b', objectAssign.run (b, a) = .ok () (b', a) ∧ EqualPackets a b') ∧
    ¬ ∃ b', packetAssign.run (b, a) = .ok () (b', a) ∧ EqualPackets a b' := by
  intro a b
  have hone : a.contents = .ok [0x01] := contents_setContent _ _ _
  constructor
  · rintro ⟨b', hb', heq⟩
    cases hb'.symm.trans (objectAssign_ok a b)
    cases (contents_new _).symm.trans (heq.contents.trans hone)
  · rintro ⟨b', hb', heq⟩
    cases hb'.symm.trans (packetAssign_ok (b, a))
    cases (contents_new _).symm.trans (heq.contents.trans hone)

end Assignment

end Pgen.PacketCopies
