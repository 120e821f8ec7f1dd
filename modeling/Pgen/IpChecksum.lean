import Pgen.ProtocolIp
import Pgen.UtilChecksum

/-!
# `ipv4_header::calc_checksum`

The checksum is computed over the header with the old value of its checksum field, and with one
carry fold. The header verifies at the receiver in the cases in which neither matters or both
losses make up for each other.
-/
namespace Pgen.IpChecksum
open ByteMemory StructLayout OnesComplement UtilChecksum CorePacket ProtocolIp

section Code

variable {σ : Type}

/-- `sum` is the uninitialised accumulator of `checksum` and `fresh` what the array on the stack
holds before the header is written to it. -/
def calcChecksum (sum : UInt32) (fresh : ℕ → UInt8) (h : Ipv4Header) : Exec σ UInt16 := do
  let (_, buffer) ← onLocal ((List.range h.length).map fresh) (h.write h.length)
  pure (ntohs (checksum sum buffer))

theorem calcChecksum_ok (sum : UInt32) (fresh : ℕ → UInt8) {h : Ipv4Header}
    (h5 : 5 ≤ h.hlen.toNat) (s : σ) :
    (calcChecksum sum fresh h).run s = .ok (ntohs (checksum sum h.encoding)) s := by
  have hw : (h.write h.length).run ((List.range h.length).map fresh) = .ok () h.encoding :=
    (Ipv4Header.write_emits h5).write_exact (by simp)
  unfold calcChecksum
  rw [run_bind_ok (onLocal_ok hw s)]
  rfl

end Code

section Verification

def withCheck (h : Ipv4Header) (check : UInt16) : Ipv4Header := { h with check := check }

/-- The header that got the computed checksum has the ones' complement sum `0xffff`, which is the
same in either byte order. -/
def Verifies (fresh : ℕ → UInt8) (h : Ipv4Header) : Prop :=
  ∃ check, (calcChecksum 0 fresh h).run h = .ok check h ∧
    ∀ mem : Bytes, mem.length = h.length →
      ∃ w, ((withCheck h check).write h.length).run mem = .ok () w ∧ internetSum w = 0xffff

/-- The total of the 16-bit words of the header apart from the checksum field. -/
def fieldTotal (h : Ipv4Header) : ℕ := wordTotal (withCheck h 0).encoding

theorem wordTotal_u16 (x : UInt16) (rest : Bytes) :
    wordTotal (Layout.u16.enc x ++ rest) = x.toNat + wordTotal rest := by
  have hx := x.toNat_lt
  change wordTotal (_ :: _ :: rest) = _
  rw [wordTotal_cons_cons, UInt8.toNat_ofNat', UInt8.toNat_ofNat']
  omega

/-- The checksum field stands at an even offset. -/
theorem encoding_withCheck (h : Ipv4Header) : ∃ pre post : Bytes, pre.length % 2 = 0 ∧
    ∀ check, (withCheck h check).encoding = pre ++ (Layout.u16.enc (htons check) ++ post) := by
  refine ⟨Layout.nibbles.enc (h.hlen, h.version) ++ Layout.u8.enc h.tos ++
    Layout.u16.enc (htons h.totLen) ++ Layout.u16.enc (htons h.id) ++
    Layout.u16.enc (htons h.fragOff) ++ Layout.u8.enc h.ttl ++ Layout.u8.enc h.protocol,
    (Layout.array 4).enc h.src.copytoarray ++ (Layout.array 4).enc h.dst.copytoarray ++
      h.option.toList.take (h.length - Ipv4Header.minLength), ?_, fun check => ?_⟩
  · simp only [List.length_append, Layout.enc_length]
    rfl
  simp only [Ipv4Header.encoding, Ipv4Header.toIp, withCheck, Ip.layout, Layout.rename,
    Layout.pair, Equiv.coe_fn_mk, List.append_assoc]
  rfl

theorem wordTotal_withCheck (h : Ipv4Header) (check : UInt16) :
    wordTotal (withCheck h check).encoding = fieldTotal h + (htons check).toNat := by
  obtain ⟨pre, post, heven, henc⟩ := encoding_withCheck h
  have h0 : (htons 0).toNat = 0 := rfl
  rw [fieldTotal, henc, henc, wordTotal_append heven, wordTotal_append heven, wordTotal_u16,
    wordTotal_u16, h0]
  omega

theorem wordTotal_encoding (h : Ipv4Header) :
    wordTotal h.encoding = fieldTotal h + (htons h.check).toNat := wordTotal_withCheck h h.check

/-- The first byte of a header is not zero. -/
theorem fieldTotal_pos {h : Ipv4Header} (h5 : 5 ≤ h.hlen.toNat) : 0 < fieldTotal h := by
  have hl := h.hlen.isLt
  have hv := h.version.isLt
  change 0 < wordTotal (UInt8.ofNat (h.hlen.toNat + 16 * h.version.toNat) :: h.tos :: _)
  rw [wordTotal_cons_cons, UInt8.toNat_ofNat']
  omega

theorem wordTotal_encoding_le {h : Ipv4Header} (h5 : 5 ≤ h.hlen.toNat) :
    wordTotal h.encoding ≤ 65535 * 30 := by
  have hle := wordTotal_le h.encoding
  have hlen := h.length_le
  rw [Ipv4Header.encoding_length h5] at hle
  omega

theorem verifies_iff_dvd (fresh : ℕ → UInt8) {h : Ipv4Header} (h5 : 5 ≤ h.hlen.toNat) :
    Verifies fresh h ↔ 65535 ∣ fieldTotal h + (checksum 0 h.encoding).toNat := by
  have hpos := fieldTotal_pos h5
  have hsum : internetSum (withCheck h (ntohs (checksum 0 h.encoding))).encoding = 0xffff ↔
      65535 ∣ fieldTotal h + (checksum 0 h.encoding).toNat := by
    rw [internetSum_eq_residue, wordTotal_withCheck, htons_ntohs]
    refine (residue_eq_ones _ (by norm_num)).trans (and_iff_right (by omega))
  rw [← hsum]
  have hwrite (c : UInt16) (mem : Bytes) (hmem : mem.length = h.length) :
      ((withCheck h c).write h.length).run mem = .ok () (withCheck h c).encoding :=
    (Ipv4Header.write_emits (show 5 ≤ (withCheck h c).hlen.toNat from h5)).write_exact hmem
  constructor
  · rintro ⟨check, hrun, hall⟩
    cases hrun.symm.trans (calcChecksum_ok 0 fresh h5 h)
    obtain ⟨w, hw, hs⟩ := hall (List.replicate h.length 0) (by simp)
    cases hw.symm.trans (hwrite _ _ (by simp))
    exact hs
  · intro hs
    exact ⟨_, calcChecksum_ok 0 fresh h5 h, fun mem hmem => ⟨_, hwrite _ mem hmem, hs⟩⟩

/-- For totals of a header, the folded checksum is the residue's complement up to what the second
carry loses. -/
theorem dvd_iff_of_le {R C : ℕ} (hC : C < 65536) (hle : R + C ≤ 65535 * 30) :
    65535 ∣ R + (65535 - fold 65536 (R + C) % 65536) ↔
      (C = 0 ∧ fold 65536 R < 65536) ∨ (C = 65535 ∧ fold 65536 (R + 65535) < 65536) ∨
      (C = 1 ∧ 65536 ≤ fold 65536 (R + 1)) := by
  have h0 : C = 0 ∧ fold 65536 R < 65536 ↔ C = 0 ∧ fold 65536 (R + C) < 65536 :=
    and_congr_right fun h => by rw [h, Nat.add_zero]
  have h1 : C = 65535 ∧ fold 65536 (R + 65535) < 65536 ↔
      C = 65535 ∧ fold 65536 (R + C) < 65536 := and_congr_right fun h => by rw [h]
  have h2 : C = 1 ∧ 65536 ≤ fold 65536 (R + 1) ↔ C = 1 ∧ 65536 ≤ fold 65536 (R + C) :=
    and_congr_right fun h => by rw [h]
  have hcarry := fold_add_carry 65536 (R + C) (by norm_num)
  have hf : fold 65536 (R + C) < 65536 + 30 := by
    unfold fold
    omega
  rw [h0, h1, h2]
  generalize fold 65536 (R + C) = f at hcarry hf
  generalize (R + C) / 65536 = q at hcarry
  rcases Nat.lt_or_ge f 65536 with hlt | hge
  · rw [Nat.mod_eq_of_lt hlt]
    omega
  · rw [Nat.mod_eq_sub_mod hge, Nat.mod_eq_of_lt (by omega)]
    omega

theorem htons_eq_iff (x y : UInt16) : x = y ↔ (htons x).toNat = (htons y).toNat := by
  constructor
  · rintro rfl
    rfl
  · intro h
    rw [← ntohs_htons x, ← ntohs_htons y, UInt16.toNat_inj.mp h]

/-- A computed checksum verifies exactly when the old value of the field counts for nothing and
one carry fold is enough, or the old value is the carry that the fold loses. -/
theorem calcChecksum_verifies_iff (fresh : ℕ → UInt8) (h : Ipv4Header) (h5 : 5 ≤ h.hlen.toNat) :
    Verifies fresh h ↔
      (h.check = 0x0000 ∧ fold 65536 (fieldTotal h) < 65536) ∨
      (h.check = 0xffff ∧ fold 65536 (fieldTotal h + 65535) < 65536) ∨
      (h.check = 0x0100 ∧ 65536 ≤ fold 65536 (fieldTotal h + 1)) := by
  have hle := wordTotal_encoding_le h5
  have hmod : (0 + wordTotal h.encoding) % 2^32 = wordTotal h.encoding := by omega
  rw [verifies_iff_dvd fresh h5, checksum_toNat, UInt32.toNat_zero, hmod]
  rw [wordTotal_encoding] at hle ⊢
  rw [dvd_iff_of_le (htons h.check).toNat_lt hle, htons_eq_iff h.check, htons_eq_iff h.check,
    htons_eq_iff h.check]
  rfl

/-- A header with a record route option and an identification, the words of which have a carry. -/
def carrying : Ipv4Header :=
  { Ipv4Header.cleared with
    hlen := 7
    totLen := 0x0054
    id := 0x12fe
    option := (((Vector.replicate 40 0).set 0 0x07).set 1 0x07).set 2 0x04 }

theorem calcChecksum_verifies_carrying :
    65536 ≤ fieldTotal carrying ∧ Verifies (fun _ => 0xa5) carrying :=
  ⟨by decide, (calcChecksum_verifies_iff _ carrying (by decide)).mpr (by decide)⟩

/-- A cleared header whose checksum field holds an old value. -/
theorem oldCheck_not_verifies : ¬ Verifies (fun _ => 0) { Ipv4Header.cleared with check := 1 } := by
  rw [verifies_iff_dvd _ (by decide)]
  decide

-- with the field zero, words whose folded total has a second carry
example : ¬ Verifies (fun _ => 0) { Ipv4Header.cleared with id := 0x7beb, fragOff := 0xffff } := by
  rw [verifies_iff_dvd _ (by decide)]
  decide

end Verification

end Pgen.IpChecksum
