import Pgen.OnesComplement

/-!
# `pgen::checksum`

The accumulator of the source is not initialised; its first value is a parameter here. The loop
adds 16-bit words into 32 bits and the carries are folded back once, which is compared with the
RFC 1071 checksum.
-/
namespace Pgen.UtilChecksum
open ByteMemory OnesComplement

def readAsLittleEndian (p0 p1 : UInt8) : UInt16 := p0.toUInt16 ||| (p1.toUInt16 <<< 8)

/-- The words, then an odd last byte, are added to the accumulator. -/
def checksumLoop : Bytes → UInt32 → UInt32
  | p0 :: p1 :: rest, sum => checksumLoop rest (sum + (readAsLittleEndian p0 p1).toUInt32)
  | [tmp], sum => sum + tmp.toUInt32
  | [], sum => sum

/-- `sum` is what the uninitialised accumulator holds on entry. -/
def checksum (sum : UInt32) (data : Bytes) : UInt16 :=
  let sum := checksumLoop data sum
  let overflowd : UInt16 := (sum >>> 16).toUInt16
  let sum := sum &&& 0x0000ffff
  let sum := sum + overflowd.toUInt32
  (~~~sum).toUInt16

theorem readAsLittleEndian_toNat (p0 p1 : UInt8) :
    (readAsLittleEndian p0 p1).toNat = p0.toNat + 256 * p1.toNat := by
  have h0 := p0.toNat_lt
  have h1 := p1.toNat_lt
  have hl : p1.toNat * 2 ^ 8 % 65536 = 2 ^ 8 * p1.toNat := by omega
  simp only [readAsLittleEndian, UInt16.toNat_or, UInt16.toNat_shiftLeft, UInt8.toNat_toUInt16,
    UInt16.reduceToNat, Nat.reduceMod, Nat.reducePow]
  rw [Nat.shiftLeft_eq, hl, Nat.or_comm, ← Nat.two_pow_add_eq_or_of_lt (by omega)]
  omega

/-- The loop computes the word total modulo the accumulator's width. -/
theorem checksumLoop_toNat (data : Bytes) (sum : UInt32) :
    (checksumLoop data sum).toNat = (sum.toNat + wordTotal data) % 2^32 := by
  induction data using words.induct generalizing sum with
  | case1 =>
    have := sum.toNat_lt
    simp only [checksumLoop, wordTotal, words, List.sum_nil]
    omega
  | case2 a =>
    simp [checksumLoop, wordTotal, words, UInt32.toNat_add]
  | case3 a b rest ih =>
    rw [checksumLoop, ih, wordTotal_cons_cons, UInt32.toNat_add, UInt16.toNat_toUInt32,
      readAsLittleEndian_toNat]
    omega

theorem checksum_toNat (sum : UInt32) (data : Bytes) :
    (checksum sum data).toNat =
      65535 - fold 65536 ((sum.toNat + wordTotal data) % 2^32) % 65536 := by
  have hs := (checksumLoop data sum).toNat_lt
  have hand : (checksumLoop data sum).toNat &&& 65535 = (checksumLoop data sum).toNat % 65536 :=
    Nat.and_two_pow_sub_one_eq_mod _ 16
  rw [← checksumLoop_toNat]
  simp only [checksum, fold, UInt32.toNat_toUInt16, UInt32.toNat_not, UInt32.toNat_add,
    UInt32.toNat_and, UInt16.toNat_toUInt32, UInt32.toNat_shiftRight, UInt32.reduceToNat,
    UInt32.size, hand,
    Nat.shiftRight_eq_div_pow, Nat.reduceMod, Nat.reducePow]
  omega

/-- The word totals for which one carry fold of 32 bits gives the end-around-carry sum: nothing is
lost at the accumulator's limit and the fold leaves no carry, or the two losses make up for each
other, which takes a total of at least `65534 * 2^32`. -/
def OneFoldSuffices (total : ℕ) : Prop :=
  total = 0 ∨
  (0 < total % 2^32 ∧ fold 65536 (total % 2^32) < 65536 ∧ 65535 ∣ total / 2^32) ∨
  (65536 < fold 65536 (total % 2^32) ∧ 65535 ∣ total / 2^32 + 1)

/-- Cutting the total to 32 bits takes its multiple of `2^32` from the class modulo `65535`. -/
theorem fold_mod_two_pow (total : ℕ) :
    fold 65536 (total % 2^32) + total / 2^32 ≡ total [MOD 65535] := by
  have hf := fold_modEq (B := 65536) (total % 2^32) (by norm_num)
  have hq : total / 2^32 ≡ 2^32 * (total / 2^32) [MOD 65535] := by
    conv_lhs => rw [← Nat.one_mul (total / 2^32)]
    exact Nat.ModEq.mul_right _ (by decide)
  have h := hf.add hq
  rwa [Nat.mod_add_div] at h

theorem fold_mod_eq_residue_iff (total : ℕ) :
    fold 65536 (total % 2^32) % 65536 = residue 65536 total ↔ OneFoldSuffices total := by
  have hm := fold_mod_two_pow total
  have hr := residue_modEq (B := 65536) total
  have hlt := residue_lt (B := 65536) total (by norm_num)
  have hz := residue_eq_zero (B := 65536) total
  have hfz := fold_eq_zero (B := 65536) (total % 2^32) (by norm_num)
  have hf : fold 65536 (total % 2^32) ≤ 131070 := by unfold fold; omega
  unfold OneFoldSuffices
  generalize fold 65536 (total % 2^32) = f at hm hf hfz ⊢
  generalize residue 65536 total = r at hr hlt hz ⊢
  unfold Nat.ModEq at hm hr
  have h0 : total = 0 → total % 2^32 = 0 := by rintro rfl; rfl
  by_cases ht : total = 0
  · have hf0 := hfz.mpr (h0 ht)
    simp [ht, hz.mpr ht, hf0]
  · rw [Nat.dvd_iff_mod_eq_zero, Nat.dvd_iff_mod_eq_zero]
    generalize total / 2^32 = q at hm ⊢
    have hrpos : 0 < r := by omega
    rcases Nat.lt_or_ge f 65536 with hc | hc
    · omega
    · omega

theorem checksum_eq_internetChecksum_iff (data : Bytes) :
    checksum 0 data = internetChecksum data ↔ OneFoldSuffices (wordTotal data) := by
  have hr := residue_lt (B := 65536) (wordTotal data) (by norm_num)
  rw [← fold_mod_eq_residue_iff, ← UInt16.toNat_inj, checksum_toNat, internetChecksum_toNat]
  simp only [UInt32.toNat_zero, Nat.zero_add]
  omega

/-- The words `0xffff`, `0xffff` and `0x0001` leave a carry after the fold. -/
theorem checksum_second_carry :
    checksum 0 [0xff, 0xff, 0xff, 0xff, 0x01, 0x00] ≠
      internetChecksum [0xff, 0xff, 0xff, 0xff, 0x01, 0x00] := by
  decide

end Pgen.UtilChecksum
