import Pgen.PcapngBodies

/-!
# The total length of a block that is given several packets

`set_packet` replaces the packet but adds its length to the total length, which the constructor
alone sets. The length is right after the first call, and after a later one only if the packets
before it were empty.
-/
namespace Pgen.PcapngPacketLength
open ByteMemory StructLayout PcapngBlocks PcapngBodies

/-- `w` is an enhanced packet block with this packet, captured whole, and any padding. -/
def Encodes (p w : Bytes) : Prop :=
  ∃ (total : UInt32) (pad : Bytes), total.toNat = w.length ∧ pad.length = padLength p ∧
    w = PcapngBlockHead.layout.enc ⟨PcapngType.EPB, total⟩ ++
      (EpbStruct.layout.enc ⟨0, 0, 0, UInt32.ofNat p.length, UInt32.ofNat p.length⟩ ++ (p ++ pad) ++
        PcapngBlockTail.layout.enc ⟨total⟩)

/-- The total length is that of the parts, and a buffer of that size takes the block with its
packet. -/
structure LengthKept (block : PcapngBlock PcapngEPB) (p : Bytes) : Prop where
  totalLength_eq : block.totalLength.toNat =
    8 + block.body.bodyLength + block.option.length + 4
  written : ∀ mem : Bytes, mem.length = block.totalLength.toNat →
    ∃ w, (PcapngBlocks.write block mem.length).run mem = .ok () w ∧ Encodes p w

/-- The length is kept after each of these calls of `set_packet`. -/
def LengthsKept : PcapngBlock PcapngEPB → List Bytes → Prop
  | _, [] => True
  | block, p :: packets => LengthKept (PcapngEPB.setPacket p block) p ∧
      LengthsKept (PcapngEPB.setPacket p block) packets

/-- The size of the block for this packet. -/
def blockSize (p : Bytes) : ℕ := 32 + p.length + padLength p

/-- A call adds the packet with its padding to the total length. -/
theorem totalLength_after {p : Bytes} (h : p.length < 2^32) (block : PcapngBlock PcapngEPB) :
    (PcapngEPB.setPacket p block).totalLength.toNat =
      (block.totalLength.toNat + p.length + padLength p) % 2^32 := by
  have hcap : (UInt32.ofNat p.length).toNat = p.length :=
    UInt32.toNat_ofNat_of_lt' (by simpa using h)
  have hpad : (UInt32.ofNat (4 - p.length % 4)).toNat = 4 - p.length % 4 :=
    UInt32.toNat_ofNat_of_lt' (by simp only [UInt32.size]; omega)
  unfold padLength
  simp only [PcapngEPB.setPacket]
  split_ifs <;> simp only [UInt32.toNat_add, hcap, hpad] <;> omega

/-- The body, on the other hand, is that of the last packet. -/
theorem bodyLength_after {p : Bytes} (h : p.length < 2^32) (block : PcapngBlock PcapngEPB) :
    (PcapngEPB.setPacket p block).body.bodyLength = 20 + p.length + padLength p :=
  bodyLength_setPacket h

theorem setPacket_nil : PcapngEPB.setPacket [] PcapngEPB.new = PcapngEPB.new := rfl

theorem lengthKept_new {p : Bytes} (h : blockSize p < 2^32) :
    LengthKept (PcapngEPB.setPacket p PcapngEPB.new) p := by
  unfold blockSize at h
  have hlt : p.length < 2^32 := by omega
  have hbody := bodyLength_setPacket hlt
  have htotal := totalLength_setPacket hlt
  rw [Nat.mod_eq_of_lt h] at htotal
  have hcap := captureLength_toNat hlt
  have hopt : (PcapngEPB.setPacket p PcapngEPB.new).option.length = 0 := rfl
  refine ⟨by omega, fun mem hmem => ?_⟩
  obtain ⟨mem', hw⟩ := write_ok (isBody_epb_iff.mpr ⟨hcap.le, _,
    List.length_replicate (n := (PcapngEPB.setPacket p PcapngEPB.new).body.padding)
      (a := (0 : UInt8)), rfl⟩) (by change _ = 12 + PcapngEPB.bodyLength _ + _; omega)
    hmem.ge (Nat.le_refl _)
  obtain ⟨-, w, himg, rfl⟩ := write_eq_ok (Nat.le_refl _) hw
  rw [List.drop_eq_nil_of_le (by rw [himg.1, hmem]), List.append_nil] at hw
  refine ⟨w, hw, ?_⟩
  obtain ⟨hlen, body, hbodyw, rfl⟩ := himg
  obtain ⟨-, pad, hpad, rfl⟩ := isBody_epb_iff.mp hbodyw
  refine ⟨_, pad, hlen.symm, ?_, ?_⟩
  · have hsum := (PcapngEPB.setPacket p PcapngEPB.new).body.bodyLength_eq
    omega
  · have hcaptured : (PcapngEPB.setPacket p PcapngEPB.new).body.captured = p := by
      unfold PcapngEPB.captured
      rw [hcap]
      exact List.take_length
    rw [hcaptured]
    rfl

/-- A packet behind one that is not empty gets too large a total length. -/
theorem not_lengthKept_second {p q : Bytes} (hp : blockSize p < 2^32) (hq : blockSize q < 2^32)
    (hne : p ≠ []) :
    ¬ LengthKept (PcapngEPB.setPacket q (PcapngEPB.setPacket p PcapngEPB.new)) q := by
  unfold blockSize at hp hq
  have hpos := List.length_pos_of_ne_nil hne
  have hfirst := totalLength_setPacket (show p.length < 2^32 by omega)
  have hsecond := totalLength_after (show q.length < 2^32 by omega)
    (PcapngEPB.setPacket p PcapngEPB.new)
  have hbody := bodyLength_after (show q.length < 2^32 by omega)
    (PcapngEPB.setPacket p PcapngEPB.new)
  rintro ⟨hkept, -⟩
  rw [hsecond, hfirst, hbody] at hkept
  change _ = 8 + (20 + q.length + padLength q) + 0 + 4 at hkept
  omega

/-- The total length is right after every call exactly when no packet but the last has a byte. -/
theorem lengthsKept_iff (packets : List Bytes) (hsize : ∀ p ∈ packets, blockSize p < 2^32) :
    LengthsKept PcapngEPB.new packets ↔ ∀ p ∈ packets.dropLast, p = [] := by
  induction packets with
  | nil => exact iff_of_true trivial (by simp)
  | cons p packets ih =>
    have hp : blockSize p < 2^32 := hsize p (by simp)
    have hfirst : LengthsKept PcapngEPB.new (p :: packets) ↔
        LengthsKept (PcapngEPB.setPacket p PcapngEPB.new) packets :=
      and_iff_right (lengthKept_new hp)
    rw [hfirst]
    cases packets with
    | nil => exact iff_of_true trivial (by simp)
    | cons q packets =>
      rw [List.dropLast_cons_cons, List.forall_mem_cons]
      by_cases hne : p = []
      · subst hne
        rw [setPacket_nil, ih fun r hr => hsize r (by simp [hr])]
        exact (and_iff_right rfl).symm
      · refine iff_of_false (fun h => ?_) fun h => hne h.1
        exact not_lengthKept_second hp (hsize q (by simp)) hne h.1

theorem lengthsKept_two_packets :
    LengthsKept PcapngEPB.new [[], [1, 2, 3]] ↔
      ∀ p ∈ ([[], [1, 2, 3]] : List Bytes).dropLast, p = [] :=
  lengthsKept_iff [[], [1, 2, 3]] (by decide)

/-- The second of two packets of one byte: 40 bytes are declared for a block of 36. -/
theorem second_packet_not_kept :
    (PcapngEPB.setPacket [2] (PcapngEPB.setPacket [1] PcapngEPB.new)).totalLength = 40 ∧
    ¬ LengthsKept PcapngEPB.new [[1], [2]] :=
  ⟨rfl, fun h => not_lengthKept_second (by decide) (by decide) (by decide) h.2.1⟩

end Pgen.PcapngPacketLength
