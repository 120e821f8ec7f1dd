import Pgen.PcapngStream

/-!
# What `read_block` checks of a block

`read_block` compares the total length in front of a block with the one at its end, but the
exception it makes for unequal ones is not thrown. A block whose tail disagrees with its head is
returned like any other, and `recv` passes over it where it is of another type.
-/
namespace Pgen.PcapngFraming
open ByteMemory StdioFile StructLayout PcapngBlocks PcapngStream

/-- The call of `read_block` validates the block: what it returns are the next bytes of the file,
with their number at both ends, and a whole block whose two lengths differ makes it throw. -/
structure Validates (buffer : Bytes) (f : File) : Prop where
  returned : ∀ {n : ℕ} {buffer' : Bytes} {f' : File},
    (readBlock buffer).run f = .ok (n, buffer') f' →
    n ≤ f.rest.length ∧ buffer'.take n = f.rest.take n ∧ f'.rest = f.rest.drop n ∧
      f'.tell = f.tell + n ∧ (leadingLength (f.rest.take n)).toNat = n ∧
      (trailingLength (f.rest.take n)).toNat = n
  differ : ∀ {t : ℕ}, (leadingLength f.rest).toNat = t → 12 ≤ t → t ≤ f.rest.length →
    trailingLength (f.rest.take t) ≠ leadingLength f.rest →
    ∃ what f', (readBlock buffer).run f = .error (.exception what) f'

/-- A whole block with something between head and tail, whose two lengths differ. -/
def Mismatched (bytes : Bytes) : Prop :=
  12 < (leadingLength bytes).toNat ∧ (leadingLength bytes).toNat ≤ bytes.length ∧
    trailingLength (bytes.take (leadingLength bytes).toNat) ≠ leadingLength bytes

instance : DecidablePred Mismatched := fun _ => inferInstanceAs (Decidable (_ ∧ _ ∧ _))

section Blocks

variable {buffer buffer' : Bytes} {f f' : File} {n : ℕ}

theorem leadingLength_take {bytes : Bytes} (h : 8 ≤ n) :
    leadingLength (bytes.take n) = leadingLength bytes := by
  rw [leadingLength, leadingLength, List.take_take, Nat.min_eq_left h]

theorem leadingLength_framed {head : PcapngBlockHead} {w : Bytes} (hw : IsFramed head w) :
    leadingLength w = head.totalLength := by
  rw [leadingLength, hw.1, Layout.dec_enc]

/-- The declared bytes of a long enough block are framed. -/
theorem isFramed_take {bytes : Bytes} (hpos : 12 < (leadingLength bytes).toNat)
    (hlen : (leadingLength bytes).toNat ≤ bytes.length) :
    IsFramed (PcapngBlockHead.layout.dec (bytes.take 8))
      (bytes.take (leadingLength bytes).toNat) := by
  refine ⟨?_, ?_, ?_⟩
  · rw [List.take_take, Nat.min_eq_left (by omega)]
    exact (PcapngBlockHead.layout.enc_dec_take (by rw [head_size]; omega)).symm
  · rw [List.length_take, Nat.min_eq_left hlen]
    rfl
  · rw [List.length_take, Nat.min_eq_left hlen]
    exact hpos

/-- What is returned is the declared number of bytes, whatever stands at their end. -/
theorem readBlock_returned (hbuf : buffer.length < 2^64)
    (h : (readBlock buffer).run f = .ok (n, buffer') f') :
    n = (leadingLength f.rest).toNat ∧ 12 < n ∧ n ≤ f.rest.length ∧
      buffer'.take n = f.rest.take n ∧ f'.rest = f.rest.drop n ∧ f'.tell = f.tell + n := by
  have hframe := readBlock_eq_ok hbuf h
  obtain ⟨head, w, hw, hrest, hfit, rfl, rfl⟩ := hframe
  have hok := readBlock_ok hw hrest hfit
  obtain ⟨f'', hrun, -, htell⟩ := hok
  cases h.symm.trans hrun
  have htake : leadingLength ((w ++ f'.rest).take w.length) = leadingLength (w ++ f'.rest) :=
    leadingLength_take (by have := hw.2.2; omega)
  rw [List.take_left] at htake
  rw [hrest]
  refine ⟨?_, hw.2.2, by simp, by simp, by simp, htell⟩
  rw [← htake, leadingLength_framed hw, hw.2.1]

/-- A block that declares 12 bytes leaves none for the body, and a read of no byte throws. -/
theorem readBlock_empty (hlead : (leadingLength f.rest).toNat = 12) (hlen : 12 ≤ f.rest.length)
    (hfit : 12 ≤ buffer.length) :
    ∃ what f', (readBlock buffer).run f = .error (.exception what) f' := by
  let head := PcapngBlockHead.layout.dec (f.rest.take 8)
  have hbody : bodylen head = 0 := by
    rw [bodylen_of_le (show 12 ≤ head.totalLength.toNat from hlead.ge)]
    change (leadingLength f.rest).toNat - 12 = 0
    omega
  have hsplice : (splice buffer 0 (f.rest.take 8)).length = buffer.length :=
    splice_length (by rw [List.length_take]; omega)
  have hread : (FileStream.read (splice buffer 0 (f.rest.take 8)) 8 0).run (f.advance 8) =
      .error (.exception "pgen::file_stream::fread::fread: ") ((f.advance 8).advance 0) := by
    rw [FileStream.read_run, if_pos (by rw [hsplice]; omega), if_neg (by omega)]
  rw [readBlock_head (by omega) (by omega)]
  unfold readBlockRest
  rw [head_size, hbody]
  exact ⟨_, _, run_bind_error hread⟩

end Blocks

section Validation

/-- Where nothing is mismatched, what is returned has its number of bytes at both ends. -/
theorem validates_of_matched {buffer : Bytes} {f : File} (hbuf : buffer.length < 2^64)
    (hfit : (leadingLength f.rest).toNat ≤ buffer.length) (h : ¬ Mismatched f.rest) :
    Validates buffer f where
  returned := by
    intro n buffer' f' hrun
    obtain ⟨rfl, hpos, hlen, hstored, hrest, htell⟩ := readBlock_returned hbuf hrun
    have htrail : trailingLength (f.rest.take (leadingLength f.rest).toNat) =
        leadingLength f.rest := by
      by_contra hne
      exact h ⟨hpos, hlen, hne⟩
    refine ⟨hlen, hstored, hrest, htell, ?_, by rw [htrail]⟩
    rw [leadingLength_take (by omega)]
  differ := by
    rintro t rfl hpos hlen hne
    rcases Nat.lt_or_ge 12 (leadingLength f.rest).toNat with hlt | hge
    · exact absurd ⟨hlt, hlen, hne⟩ h
    · exact readBlock_empty (by omega) (by omega) (by omega)

/-- A mismatched block that fits the buffer is returned. -/
theorem readBlock_mismatched {buffer : Bytes} {f : File}
    (hfit : (leadingLength f.rest).toNat ≤ buffer.length) (h : Mismatched f.rest) :
    ∃ buffer' f', (readBlock buffer).run f = .ok ((leadingLength f.rest).toNat, buffer') f' := by
  obtain ⟨hpos, hlen, -⟩ := h
  have hl : (f.rest.take (leadingLength f.rest).toNat).length = (leadingLength f.rest).toNat := by
    rw [List.length_take, Nat.min_eq_left hlen]
  have hok := readBlock_ok (isFramed_take hpos hlen) (List.take_append_drop _ _).symm
    (hl.le.trans hfit)
  obtain ⟨f', hrun, -⟩ := hok
  rw [hl] at hrun
  exact ⟨_, f', hrun⟩

/-- In a buffer with room for the declared block, `read_block` validates the block exactly when
it is not a mismatched one. -/
theorem readBlock_validates_iff {buffer : Bytes} {f : File} (hbuf : buffer.length < 2^64)
    (hfit : (leadingLength f.rest).toNat ≤ buffer.length) :
    Validates buffer f ↔ ¬ Mismatched f.rest := by
  constructor
  · intro hv h
    obtain ⟨buffer', f', hrun⟩ := readBlock_mismatched hfit h
    have htrail := (hv.returned hrun).2.2.2.2.2
    exact h.2.2 (UInt32.toNat_inj.mp htrail)
  · exact validates_of_matched hbuf hfit

/-- A block of 16 bytes with its length at both ends. -/
theorem readBlock_validates_sixteen : Validates (List.replicate 16 0)
    (File.start [10, 0, 0, 0, 16, 0, 0, 0, 1, 2, 3, 4, 16, 0, 0, 0]) :=
  (readBlock_validates_iff (by decide) (by decide)).mpr (by decide)

/-- The same block with 20 at its end. -/
def misframed : File := File.start [10, 0, 0, 0, 16, 0, 0, 0, 1, 2, 3, 4, 20, 0, 0, 0]

theorem misframed_not_validated : ¬ Validates (List.replicate 16 0) misframed := by
  intro h
  have hm : Mismatched misframed.rest := by decide
  have hfit : (leadingLength misframed.rest).toNat ≤ (List.replicate 16 (0 : UInt8)).length := by
    decide
  obtain ⟨buffer', f', hrun⟩ := readBlock_mismatched hfit hm
  have htrail := (h.returned hrun).2.2.2.2.2
  exact absurd htrail (by decide)

end Validation

end Pgen.PcapngFraming
