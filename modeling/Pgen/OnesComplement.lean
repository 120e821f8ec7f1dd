import Pgen.ByteMemory

/-!
# Ones' complement sums

Addition with end-around carry over words of base `B`, as RFC 1071 uses it with `B = 2^16`. A sum
is determined by the integer total of its words: it is the representative of that total modulo
`B - 1`, and it is zero only for the zero total.
-/
namespace Pgen.OnesComplement
open ByteMemory

/-- Add what overflowed the low word back at its low end. -/
def fold (B n : ℕ) : ℕ := n % B + n / B

def add (B a b : ℕ) : ℕ := fold B (a + b)

def sum (B : ℕ) (ws : List ℕ) : ℕ := ws.foldl (add B) 0

/-- The word that stands for the total `n`. -/
def residue (B n : ℕ) : ℕ := if n = 0 then 0 else (n - 1) % (B - 1) + 1

section Residue

variable {B : ℕ}

theorem fold_add_carry (B n : ℕ) (hB : 1 ≤ B) : fold B n + (B - 1) * (n / B) = n := by
  have h := Nat.mod_add_div n B
  obtain ⟨C, rfl⟩ : ∃ C, B = C + 1 := ⟨B - 1, by omega⟩
  simp only [fold, Nat.add_sub_cancel]
  nlinarith

theorem fold_modEq (n : ℕ) (hB : 1 ≤ B) : fold B n ≡ n [MOD B - 1] := by
  have h := fold_add_carry B n hB
  unfold Nat.ModEq
  conv_rhs => rw [← h]
  rw [Nat.add_mul_mod_self_left]

theorem fold_eq_zero (n : ℕ) (hB : 1 ≤ B) : fold B n = 0 ↔ n = 0 := by
  constructor
  · intro h
    have hf := fold_add_carry B n hB
    have hd : n / B = 0 := (Nat.add_eq_zero_iff.mp h).2
    simp only [h, hd, Nat.mul_zero, Nat.add_zero] at hf
    exact hf.symm
  · rintro rfl
    simp [fold]

theorem residue_lt (n : ℕ) (hB : 2 ≤ B) : residue B n < B := by
  unfold residue
  split_ifs
  · omega
  · have := Nat.mod_lt (n - 1) (show 0 < B - 1 by omega)
    omega

theorem residue_eq_zero (n : ℕ) : residue B n = 0 ↔ n = 0 := by
  unfold residue
  split_ifs with h <;> simp [h]

theorem residue_modEq (n : ℕ) : residue B n ≡ n [MOD B - 1] := by
  unfold residue
  split_ifs with h
  · rw [h]
  · have hm := (Nat.mod_modEq (n - 1) (B - 1)).add_right 1
    rwa [Nat.sub_add_cancel (by omega)] at hm

/-- A word is the residue of a total as soon as it agrees with it modulo `B - 1` and is zero
only together with it. -/
theorem eq_residue {n r : ℕ} (hB : 2 ≤ B) (hr : r < B) (hz : r = 0 ↔ n = 0)
    (hm : r ≡ n [MOD B - 1]) : r = residue B n := by
  have hm' : r ≡ residue B n [MOD B - 1] := hm.trans (residue_modEq n).symm
  have hz' : r = 0 ↔ residue B n = 0 := hz.trans (residue_eq_zero n).symm
  have hlt := residue_lt n hB
  by_cases h0 : r = 0
  · rw [h0, hz'.mp h0]
  · have h1 : r - 1 ≡ residue B n - 1 [MOD B - 1] := by
      apply Nat.ModEq.add_right_cancel' 1
      rwa [Nat.sub_add_cancel (by omega), Nat.sub_add_cancel (by omega)]
    have h2 := h1.eq_of_lt_of_lt (by omega) (by omega)
    omega

theorem residue_congr {m n : ℕ} (hB : 2 ≤ B) (hz : m = 0 ↔ n = 0) (hm : m ≡ n [MOD B - 1]) :
    residue B m = residue B n :=
  eq_residue hB (residue_lt _ hB) ((residue_eq_zero _).trans hz) ((residue_modEq _).trans hm)

theorem residue_of_lt {n : ℕ} (hB : 2 ≤ B) (h : n < B) : residue B n = n :=
  (eq_residue hB h Iff.rfl rfl).symm

/-- The all-ones word stands for the positive multiples of `B - 1`. -/
theorem residue_eq_ones (n : ℕ) (hB : 2 ≤ B) : residue B n = B - 1 ↔ 0 < n ∧ B - 1 ∣ n := by
  constructor
  · intro h
    have hm := residue_modEq (B := B) n
    rw [h] at hm
    refine ⟨?_, ?_⟩
    · have hz := residue_eq_zero (B := B) n
      omega
    · exact (Nat.modEq_zero_iff_dvd).mp (hm.symm.trans (by simp [Nat.ModEq]))
  · rintro ⟨hpos, hd⟩
    refine (eq_residue hB (by omega) (by omega) ?_).symm
    exact Nat.ModEq.trans (by simp [Nat.ModEq]) (Nat.modEq_zero_iff_dvd.mpr hd).symm

end Residue

section Sums

variable {B : ℕ}

theorem add_lt {a b : ℕ} (ha : a < B) (hb : b < B) : add B a b < B := by
  have hm := Nat.mod_add_div (a + b) B
  unfold add fold
  rcases Nat.lt_or_ge (a + b) B with h | h
  · rw [Nat.mod_eq_of_lt h, Nat.div_eq_of_lt h]
    omega
  · have hd : (a + b) / B = 1 := Nat.div_eq_of_lt_le (by omega) (by omega)
    rw [hd] at hm ⊢
    omega

theorem foldl_add_eq_residue {ws : List ℕ} {s : ℕ} (hB : 2 ≤ B) (hs : s < B)
    (hw : ∀ w ∈ ws, w < B) : ws.foldl (add B) s = residue B (s + ws.sum) := by
  induction ws generalizing s with
  | nil => simpa using (residue_of_lt hB hs).symm
  | cons w ws ih =>
    have hwB := hw w (by simp)
    have ht : ∀ v ∈ ws, v < B := fun v hv => hw v (by simp [hv])
    rw [List.foldl_cons, ih (add_lt hs hwB) ht, List.sum_cons, ← Nat.add_assoc]
    refine residue_congr hB ?_ ((fold_modEq _ (by omega)).add_right _)
    have hz := fold_eq_zero (s + w) (show 1 ≤ B by omega)
    unfold add
    omega

/-- The ones' complement sum of words is the residue of their integer total. -/
theorem sum_eq_residue {ws : List ℕ} (hB : 2 ≤ B) (hw : ∀ w ∈ ws, w < B) :
    sum B ws = residue B ws.sum := by
  simpa [sum] using foldl_add_eq_residue (s := 0) hB (by omega) hw

end Sums

section InternetWords

/-- 16-bit words, least significant byte first; an odd last byte is padded with a zero byte. -/
def words : Bytes → List ℕ
  | [] => []
  | [a] => [a.toNat]
  | a :: b :: rest => (a.toNat + 256 * b.toNat) :: words rest

def wordTotal (b : Bytes) : ℕ := (words b).sum

/-- The RFC 1071 sum of a byte sequence. -/
def internetSum (b : Bytes) : ℕ := sum 65536 (words b)

/-- The RFC 1071 checksum: the ones' complement of that sum. -/
def internetChecksum (b : Bytes) : UInt16 := ~~~UInt16.ofNat (internetSum b)

theorem words_lt (b : Bytes) : ∀ w ∈ words b, w < 65536 := by
  induction b using words.induct with
  | case1 => simp [words]
  | case2 a =>
    have := a.toNat_lt
    simp [words]
    omega
  | case3 a b rest ih =>
    have ha := a.toNat_lt
    have hb := b.toNat_lt
    intro w hw
    rcases List.mem_cons.mp hw with rfl | hw
    · omega
    · exact ih w hw

theorem internetSum_eq_residue (b : Bytes) : internetSum b = residue 65536 (wordTotal b) :=
  sum_eq_residue (by norm_num) (words_lt b)

theorem internetSum_lt (b : Bytes) : internetSum b < 65536 := by
  rw [internetSum_eq_residue]
  exact residue_lt _ (by norm_num)

theorem internetChecksum_toNat (b : Bytes) :
    (internetChecksum b).toNat = 65535 - residue 65536 (wordTotal b) := by
  have h := internetSum_lt b
  rw [internetChecksum, UInt16.toNat_not, UInt16.toNat_ofNat_of_lt' (by simpa using h),
    internetSum_eq_residue]
  rfl

theorem wordTotal_cons_cons (a b : UInt8) (rest : Bytes) :
    wordTotal (a :: b :: rest) = a.toNat + 256 * b.toNat + wordTotal rest := by
  simp [wordTotal, words]

/-- Words do not straddle a boundary at an even offset. -/
theorem wordTotal_append {b : Bytes} (h : b.length % 2 = 0) (c : Bytes) :
    wordTotal (b ++ c) = wordTotal b + wordTotal c := by
  induction b using words.induct with
  | case1 => simp [wordTotal, words]
  | case2 a => simp at h
  | case3 a b rest ih =>
    have hr : rest.length % 2 = 0 := by simpa [Nat.add_assoc] using h
    rw [List.cons_append, List.cons_append, wordTotal_cons_cons, wordTotal_cons_cons, ih hr]
    omega

/-- A sum over few bytes stays below a 32-bit accumulator's limit. -/
theorem wordTotal_le (b : Bytes) : wordTotal b ≤ 65535 * ((b.length + 1) / 2) := by
  induction b using words.induct with
  | case1 => simp [wordTotal, words]
  | case2 a =>
    have := a.toNat_lt
    simp [wordTotal, words]
    omega
  | case3 a b rest ih =>
    have ha := a.toNat_lt
    have hb := b.toNat_lt
    rw [wordTotal_cons_cons]
    simp only [List.length_cons]
    omega

end InternetWords

end Pgen.OnesComplement
