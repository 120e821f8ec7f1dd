import Pgen.IpChecksum
import Pgen.ProtocolHeaders

/-!
# `udp_header::calc_checksum`

The checksum is computed over a buffer on the stack: a pseudo header made of the fields of the IP
header, the UDP header and the data. The datagram verifies when one carry fold is enough and leaves
no all-ones word. The buffer does not depend on what the stack held before; the accumulator of
`checksum` does, here as in the checksum of the IP header.
-/
namespace Pgen.UdpChecksum
open ByteMemory StructLayout OnesComplement UtilChecksum CoreAddress CorePacket
open ProtocolIp ProtocolHeaders
open UdpHeader (minLength)

section Code

structure PseudoHeader where
  ipSrc : Vector UInt8 4
  ipDst : Vector UInt8 4
  zero : UInt8
  ipProto : UInt8
  ipLen : UInt16
  deriving DecidableEq, Repr

def PseudoHeader.layout : Layout PseudoHeader :=
  ((Layout.array 4).pair ((Layout.array 4).pair (Layout.u8.pair (Layout.u8.pair
    Layout.u16)))).rename
  ⟨fun p => (p.ipSrc, p.ipDst, p.zero, p.ipProto, p.ipLen), fun (a, b, c, d, e) => ⟨a, b, c, d, e⟩,
    fun _ => rfl, fun _ => rfl⟩

theorem pseudoHeader_size : PseudoHeader.layout.size = 12 := rfl

/-- The difference of the two lengths is taken in 64 bits and cut to 16. -/
def pseudoHeader (iph : Ipv4Header) : PseudoHeader where
  ipSrc := iph.src.copytoarray
  ipDst := iph.dst.copytoarray
  zero := 0x00
  ipProto := iph.protocol
  ipLen := htons (UInt16.ofNat (sizeSub iph.totLen.toNat iph.length))

/-- Fill the buffer; the result is the offset behind the data. -/
def fillBuffer (iph : Ipv4Header) (data : Bytes) (datalen : ℕ) (h : UdpHeader) (size : ℕ) :
    Exec Bytes ℕ := do
  store 0 (List.replicate size 0)
  PseudoHeader.layout.store 0 (pseudoHeader iph)
  let p := PseudoHeader.layout.size
  atOffset p (Header.write h (sizeSub size PseudoHeader.layout.size))
  let p := p + Header.length h
  let bytes ← load data 0 (sizeSub (sizeSub size PseudoHeader.layout.size) (Header.length h))
  store p bytes
  pure (p + datalen)

variable {σ : Type}

/-- `sum` is the uninitialised accumulator of `checksum` and `fresh` what the array on the stack
holds before it is cleared. -/
def calcChecksum (sum : UInt32) (fresh : ℕ → UInt8) (iph : Ipv4Header) (data : Bytes)
    (datalen : ℕ) (h : UdpHeader) : Exec σ UInt16 := do
  let size := PseudoHeader.layout.size + Header.length h + datalen
  let (p, buffer) ← onLocal ((List.range size).map fresh) (fillBuffer iph data datalen h size)
  throwIf (size ≠ p) "pgen::udp_header::calc_checksum: error"
  pure (ntohs (checksum sum buffer))

/-- What the buffer holds when the checksum is taken. -/
def message (iph : Ipv4Header) (h : UdpHeader) (data : Bytes) : Bytes :=
  PseudoHeader.layout.enc (pseudoHeader iph) ++ (UdpStruct.layout.enc h.toUdpStruct ++ data)

theorem udpStruct_size : UdpStruct.layout.size = 8 := rfl

theorem length_eq (h : UdpHeader) : Header.length h = 8 := rfl

theorem write_emits (h : UdpHeader) :
    Emits 8 (Header.write h) (UdpStruct.layout.enc h.toUdpStruct) :=
  writeStruct_emits UdpStruct.layout _ h.toUdpStruct

theorem fillBuffer_ok (iph : Ipv4Header) (h : UdpHeader) (data : Bytes) {mem : Bytes}
    (hmem : mem.length = 20 + data.length) :
    (fillBuffer iph data data.length h (20 + data.length)).run mem =
      .ok (20 + data.length) (message iph h data) := by
  have hsize : sizeSub (20 + data.length) 12 = 8 + data.length := by
    rw [sizeSub_of_le (by omega)]
    omega
  have hrest : sizeSub (8 + data.length) 8 = data.length := by
    rw [sizeSub_of_le (by omega), Nat.add_sub_cancel_left]
  have hzero : (store 0 (List.replicate (20 + data.length) 0)).run mem =
      .ok () (List.replicate (20 + data.length) 0) := by
    rw [store_ok (by simp [hmem]), splice_zero, List.length_replicate,
      List.drop_of_length_le (by omega), List.append_nil]
  have hpseudo : (PseudoHeader.layout.store 0 (pseudoHeader iph)).run
      (List.replicate (20 + data.length) 0) =
      .ok ()
        (PseudoHeader.layout.enc (pseudoHeader iph) ++ List.replicate (8 + data.length) 0) := by
    rw [PseudoHeader.layout.store_ok _ (by simp [pseudoHeader_size]; omega), List.drop_replicate,
      pseudoHeader_size, show 20 + data.length - 12 = 8 + data.length by omega]
  have hwrite : (Header.write h (8 + data.length)).run (List.replicate (8 + data.length) 0) =
      .ok () (UdpStruct.layout.enc h.toUdpStruct ++ List.replicate data.length 0) := by
    rw [(write_emits h).write_ok (by simp [udpStruct_size]) (by simp), List.drop_replicate,
      UdpStruct.layout.enc_length, udpStruct_size, Nat.add_sub_cancel_left]
  have hpre : (PseudoHeader.layout.enc (pseudoHeader iph)).length = 12 :=
    PseudoHeader.layout.enc_length _
  have hhead : (PseudoHeader.layout.enc (pseudoHeader iph) ++
      UdpStruct.layout.enc h.toUdpStruct).length = 12 + 8 := by
    rw [List.length_append, hpre, UdpStruct.layout.enc_length, udpStruct_size]
  unfold fillBuffer
  rw [pseudoHeader_size, length_eq, hsize, hrest, run_bind_ok hzero, run_bind_ok hpseudo,
    run_bind_ok (atOffset_ok hpre hwrite), run_bind_ok (load_ok (by omega) _), List.drop_zero,
    List.take_length, ← List.append_assoc, run_bind_ok (store_append_ok hhead (by simp)),
    List.drop_of_length_le (by simp), List.append_nil, List.append_assoc]
  rfl

/-- Every byte of the buffer is written before it is read. -/
theorem calcChecksum_ok (sum : UInt32) (fresh : ℕ → UInt8) (iph : Ipv4Header) (data : Bytes)
    (h : UdpHeader) (s : σ) :
    (calcChecksum sum fresh iph data data.length h).run s =
      .ok (ntohs (checksum sum (message iph h data))) s := by
  have hfill := fillBuffer_ok iph h data
    (show ((List.range (20 + data.length)).map fresh).length = 20 + data.length by simp)
  unfold calcChecksum
  rw [pseudoHeader_size, length_eq, run_bind_ok (onLocal_ok hfill s)]
  exact run_bind_ok (throwIf_pass (not_not.mpr rfl) s)

end Code

section Verification

def withCheck (h : UdpHeader) (check : UInt16) : UdpHeader := { h with check := check }

/-- The pseudo header that RFC 768 puts in front of a datagram. -/
def rfcPseudoHeader (iph : Ipv4Header) (h : UdpHeader) : PseudoHeader where
  ipSrc := iph.src.raw
  ipDst := iph.dst.raw
  zero := 0
  ipProto := iph.protocol
  ipLen := htons h.len

/-- The computed checksum is not zero, and the datagram that got it has the ones' complement sum
`0xffff`, which is the same in either byte order. -/
def Verifies (fresh : ℕ → UInt8) (iph : Ipv4Header) (h : UdpHeader) (payload : Bytes) : Prop :=
  ∃ check, (calcChecksum 0 fresh iph payload payload.length h).run h = .ok check h ∧ check ≠ 0 ∧
    ∀ mem : Bytes, mem.length = Header.length h →
      ∃ w, (Header.write (withCheck h check) (Header.length h)).run mem = .ok () w ∧
        internetSum (PseudoHeader.layout.enc (rfcPseudoHeader iph h) ++ (w ++ payload)) = 0xffff

/-- The total of the 16-bit words of pseudo header, header and payload, with a checksum of zero. -/
def datagramTotal (iph : Ipv4Header) (h : UdpHeader) (payload : Bytes) : ℕ :=
  wordTotal (message iph (withCheck h 0) payload)

theorem wordTotal_udpStruct (p : UdpStruct) (rest : Bytes) :
    wordTotal (UdpStruct.layout.enc p ++ rest) =
      p.src.toNat + (p.dst.toNat + (p.len.toNat + (p.check.toNat + wordTotal rest))) := by
  have henc : UdpStruct.layout.enc p ++ rest = Layout.u16.enc p.src ++ (Layout.u16.enc p.dst ++
      (Layout.u16.enc p.len ++ (Layout.u16.enc p.check ++ rest))) := by
    simp only [UdpStruct.layout, Layout.rename, Layout.pair, Equiv.coe_fn_mk, List.append_assoc]
  rw [henc, IpChecksum.wordTotal_u16, IpChecksum.wordTotal_u16, IpChecksum.wordTotal_u16,
    IpChecksum.wordTotal_u16]

theorem wordTotal_message (iph : Ipv4Header) (h : UdpHeader) (payload : Bytes) :
    wordTotal (message iph h payload) = wordTotal (PseudoHeader.layout.enc (pseudoHeader iph)) +
      ((htons h.src).toNat + ((htons h.dst).toNat + ((htons h.len).toNat +
        ((htons h.check).toNat + wordTotal payload)))) := by
  have heven : (PseudoHeader.layout.enc (pseudoHeader iph)).length % 2 = 0 := by
    rw [PseudoHeader.layout.enc_length, pseudoHeader_size]
  rw [message, wordTotal_append heven, wordTotal_udpStruct]
  rfl

theorem wordTotal_withCheck (iph : Ipv4Header) (h : UdpHeader) (payload : Bytes) (check : UInt16) :
    wordTotal (message iph (withCheck h check) payload) =
      datagramTotal iph h payload + (htons check).toNat := by
  have h0 : (htons 0).toNat = 0 := rfl
  rw [datagramTotal, wordTotal_message, wordTotal_message]
  simp only [withCheck, h0]
  omega

section Lengths

variable {iph : Ipv4Header} {h : UdpHeader} {payload : Bytes}

/-- The length fields of the two headers are those of the datagram. -/
structure LengthsFit (iph : Ipv4Header) (h : UdpHeader) (payload : Bytes) : Prop where
  totLen : iph.totLen.toNat = iph.length + 8 + payload.length
  len : h.len.toNat = 8 + payload.length

theorem pseudoHeader_eq (hfit : LengthsFit iph h payload) :
    pseudoHeader iph = rfcPseudoHeader iph h := by
  have hsub : sizeSub iph.totLen.toNat iph.length = h.len.toNat := by
    have htot := hfit.totLen
    have hlen := hfit.len
    rw [sizeSub_of_le (by omega)]
    omega
  simp only [pseudoHeader, rfcPseudoHeader, hsub, UInt16.ofNat_toNat, Ipv4Address.copytoarray]

theorem datagramTotal_lt (hfit : LengthsFit iph h payload) :
    datagramTotal iph h payload < 2^32 := by
  have hle := wordTotal_le (message iph (withCheck h 0) payload)
  have hlt := h.len.toNat_lt
  have hlen := hfit.len
  rw [message, List.length_append, List.length_append, PseudoHeader.layout.enc_length,
    UdpStruct.layout.enc_length, pseudoHeader_size, udpStruct_size] at hle
  rw [datagramTotal, message]
  omega

/-- The length field is not zero. -/
theorem datagramTotal_pos (hfit : LengthsFit iph h payload) :
    0 < datagramTotal iph h payload := by
  have hlen := hfit.len
  have hlt := h.len.toNat_lt
  have hswap := htons_toNat h.len
  rw [datagramTotal, wordTotal_message]
  simp only [withCheck]
  omega

end Lengths

/-- The complement of a folded total makes up a multiple of `65535` unless the fold left a carry,
and it is zero when the fold left the all-ones word. -/
theorem complement_iff {R : ℕ} (hR : R < 2^32) :
    65535 - fold 65536 R % 65536 ≠ 0 ∧ 65535 ∣ R + (65535 - fold 65536 R % 65536) ↔
      fold 65536 R < 65535 := by
  have hcarry := fold_add_carry 65536 R (by norm_num)
  have hf : fold 65536 R ≤ 131070 := by
    unfold fold
    omega
  generalize fold 65536 R = f at hcarry hf
  generalize R / 65536 = q at hcarry
  rcases Nat.lt_or_ge f 65536 with hlt | hge
  · rw [Nat.mod_eq_of_lt hlt]
    omega
  · rw [Nat.mod_eq_sub_mod hge, Nat.mod_eq_of_lt (by omega)]
    omega

theorem ntohs_ne_zero (c : UInt16) : ntohs c ≠ 0 ↔ c.toNat ≠ 0 := by
  rw [Ne, IpChecksum.htons_eq_iff, htons_ntohs]
  rfl

theorem write_withCheck {h : UdpHeader} (check : UInt16) {mem : Bytes}
    (hmem : mem.length = Header.length h) :
    (Header.write (withCheck h check) (Header.length h)).run mem =
      .ok () (UdpStruct.layout.enc (withCheck h check).toUdpStruct) :=
  (write_emits (withCheck h check)).write_exact hmem

theorem internetSum_withCheck {iph : Ipv4Header} {h : UdpHeader} {payload : Bytes}
    (hfit : LengthsFit iph h payload) (c : UInt16) :
    internetSum (PseudoHeader.layout.enc (rfcPseudoHeader iph h) ++
      (UdpStruct.layout.enc (withCheck h (ntohs c)).toUdpStruct ++ payload)) = 0xffff ↔
      65535 ∣ datagramTotal iph h payload + c.toNat := by
  have hpos := datagramTotal_pos hfit
  rw [← pseudoHeader_eq hfit, internetSum_eq_residue]
  change residue 65536 (wordTotal (message iph (withCheck h (ntohs c)) payload)) = _ ↔ _
  rw [wordTotal_withCheck, htons_ntohs]
  exact (residue_eq_ones _ (by norm_num)).trans (and_iff_right (by omega))

/-- A computed checksum is the one of RFC 768 exactly when folding the total of the words once
gives a word other than `0xffff`. -/
theorem calcChecksum_isRfc768_iff (fresh : ℕ → UInt8) (iph : Ipv4Header) (h : UdpHeader)
    (payload : Bytes) (hcheck : h.check = 0)
    (htot : iph.totLen.toNat = iph.length + 8 + payload.length)
    (hlen : h.len.toNat = 8 + payload.length) :
    Verifies fresh iph h payload ↔ fold 65536 (datagramTotal iph h payload) < 65535 := by
  have hfit : LengthsFit iph h payload := ⟨htot, hlen⟩
  have hlt := datagramTotal_lt hfit
  have hmsg : message iph h payload = message iph (withCheck h 0) payload := by
    rw [withCheck, ← hcheck]
  have hmod : (0 + datagramTotal iph h payload) % 2^32 = datagramTotal iph h payload := by omega
  have hsum : (checksum 0 (message iph h payload)).toNat =
      65535 - fold 65536 (datagramTotal iph h payload) % 65536 := by
    rw [checksum_toNat, UInt32.toNat_zero, hmsg, ← datagramTotal, hmod]
  have hrun := calcChecksum_ok 0 fresh iph payload h h
  rw [← complement_iff hlt, ← hsum, ← internetSum_withCheck hfit, ← ntohs_ne_zero]
  generalize checksum 0 (message iph h payload) = c at hrun
  constructor
  · rintro ⟨check, hcalc, hne, hall⟩
    cases hcalc.symm.trans hrun
    obtain ⟨w, hw, hs⟩ := hall (List.replicate 8 0) rfl
    cases hw.symm.trans (write_withCheck _ rfl)
    exact ⟨hne, hs⟩
  · rintro ⟨hne, hs⟩
    exact ⟨_, hrun, hne, fun mem hmem => ⟨_, write_withCheck _ hmem, hs⟩⟩

theorem calcChecksum_isRfc768_odd :
    Verifies (fun _ => 0) { Ipv4Header.cleared with totLen := 29, protocol := 17 } ⟨53, 53, 9, 0⟩
      [0x61] :=
  (calcChecksum_isRfc768_iff _ { Ipv4Header.cleared with totLen := 29, protocol := 17 }
    ⟨53, 53, 9, 0⟩ [0x61] rfl rfl rfl).mpr (by decide)

/-- A datagram whose words add up to `0xffff` gets the checksum zero, which stands for none. -/
theorem zero_checksum_not_verifies :
    LengthsFit { Ipv4Header.cleared with totLen := 30, protocol := 17 } ⟨53, 53, 10, 0⟩
      [0xff, 0x70] ∧
    ¬ Verifies (fun _ => 0) { Ipv4Header.cleared with totLen := 30, protocol := 17 }
      ⟨53, 53, 10, 0⟩ [0xff, 0x70] := by
  refine ⟨⟨rfl, rfl⟩, ?_⟩
  rintro ⟨check, hcalc, hne, -⟩
  cases hcalc.symm.trans (calcChecksum_ok 0 _ _ [0xff, 0x70] _ _)
  exact hne (by decide)

end Verification

end Pgen.UdpChecksum
