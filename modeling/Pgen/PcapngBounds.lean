import Pgen.PcapngStream

/-!
# Where `read_block` stores

The declared length of a block is not compared with the buffer. The stores of `read_block` stay
inside it exactly when the block, or what the file has of it, fits, and `recv` stores inside its
scratch memory exactly when this holds of every block it comes to.
-/
namespace Pgen.PcapngBounds
open ByteMemory StdioFile StructLayout FileStream PcapngBlocks PcapngBodies PcapngStream

/-- How far `read_block` stores when the file has the bytes: a declared length of 12 leaves it at
the head, since a read of no byte reports an error, and the lengths below 12 wrap around. -/
def blockExtent (bytes : Bytes) : ℕ :=
  let t := (PcapngBlockHead.layout.dec (bytes.take 8)).totalLength.toNat
  if t = 12 then 8 else if t < 12 then 2^64 + t else t

section OneBlock

/-- What follows a read runs when the file has the bytes. -/
theorem storesInBounds_read_bind {α : Type} {mem : Bytes} {off n : ℕ} {g : Bytes → Exec File α}
    {f : File} :
    StoresInBounds ((read mem off n >>= g).run f) ↔
      off + min n f.rest.length ≤ mem.length ∧ (0 < n → n ≤ f.rest.length →
        StoresInBounds ((g (splice mem off (f.rest.take n))).run (f.advance n))) := by
  rw [EStateM.run_bind, read_run]
  split_ifs with h₁ h₂
  · exact ⟨fun h => ⟨h₁, fun _ _ => h⟩, fun h => h.2 h₂.1 h₂.2⟩
  · exact ⟨fun _ => ⟨h₁, fun hp hn => absurd ⟨hp, hn⟩ h₂⟩,
      fun _ he => Failure.noConfusion he⟩
  · exact ⟨fun h => absurd rfl h, fun h => absurd h.1 h₁⟩

theorem storeSafe_loadHead (buffer : Bytes) :
    StoreSafe (do
      let head ← PcapngBlockHead.layout.load buffer 0
      pure (head.totalLength.toNat, buffer) : Exec File (ℕ × Bytes)) :=
  StoreSafe.bind (StoreSafe.bind (StoreSafe.load _ _ _) fun _ => StoreSafe.pure _)
    fun _ => StoreSafe.pure _

theorem storesInBounds_readBlockRest {head : PcapngBlockHead} {buffer : Bytes} {f : File} :
    StoresInBounds ((readBlockRest head buffer).run f) ↔
      8 + min (bodylen head) f.rest.length ≤ buffer.length ∧
        (0 < bodylen head → bodylen head ≤ f.rest.length →
          8 + bodylen head + min 4 (f.rest.length - bodylen head) ≤ buffer.length) := by
  unfold readBlockRest
  rw [storesInBounds_read_bind, head_size, tail_size]
  refine and_congr_right fun hfit => ?_
  refine forall_congr' fun hpos => forall_congr' fun hlen => ?_
  have hsplice : (splice buffer 8 (f.rest.take (bodylen head))).length = buffer.length :=
    splice_length (by rw [List.length_take]; exact hfit)
  rw [storesInBounds_read_bind, hsplice, rest_advance, List.length_drop]
  exact and_iff_left fun _ _ => storeSafe_loadHead _ _

/-- The bytes between head and tail, compared with what `read_block` has stored in the end. -/
theorem bodylen_extent {head : PcapngBlockHead} {left room : ℕ} (hleft : 8 ≤ left) :
    (8 + min (bodylen head) (left - 8) ≤ room ∧ (0 < bodylen head → bodylen head ≤ left - 8 →
      8 + bodylen head + min 4 (left - 8 - bodylen head) ≤ room)) ↔
    min left (if head.totalLength.toNat = 12 then 8 else if head.totalLength.toNat < 12
      then 2^64 + head.totalLength.toNat else head.totalLength.toNat) ≤ room := by
  rcases Nat.lt_or_ge head.totalLength.toNat 12 with hlt | hge
  · rw [bodylen_of_lt hlt]
    split_ifs <;> omega
  · rw [bodylen_of_le hge]
    split_ifs <;> omega

theorem readBlock_storesInBounds_iff {buffer : Bytes} {f : File} :
    StoresInBounds ((readBlock buffer).run f) ↔
      min f.rest.length (blockExtent f.rest) ≤ buffer.length := by
  have hext : 8 ≤ blockExtent f.rest := by
    unfold blockExtent
    dsimp only
    split_ifs <;> omega
  have hhead : StoresInBounds ((readBlock buffer).run f) →
      min 8 f.rest.length ≤ buffer.length := by
    unfold readBlock
    rw [storesInBounds_read_bind, head_size, Nat.zero_add]
    exact And.left
  rcases Nat.lt_or_ge f.rest.length 8 with hshort | hlong
  · rw [Nat.min_eq_left (by omega)]
    refine ⟨fun h => by simpa [Nat.min_eq_right hshort.le] using hhead h, fun h => ?_⟩
    unfold readBlock
    rw [storesInBounds_read_bind, head_size]
    exact ⟨by omega, fun _ hle => absurd hshort (Nat.not_lt.mpr hle)⟩
  · rcases Nat.lt_or_ge buffer.length 8 with hsmall | hfit
    · exact iff_of_false (fun h => by have := hhead h; omega) (by omega)
    · have hsplice : (splice buffer 0 (f.rest.take 8)).length = buffer.length :=
        splice_length (by rw [List.length_take]; omega)
      rw [readBlock_head hlong hfit, storesInBounds_readBlockRest, hsplice, rest_advance,
        List.length_drop, bodylen_extent hlong]
      exact Iff.rfl

end OneBlock

section WholeCalls

/-- Every block of a run of blocks without packets, and the block behind them, fits `limit` as far
as the file has it. -/
inductive BlocksFit (limit : ℕ) : Bytes → Prop
  | intro {bytes : Bytes} : min bytes.length (blockExtent bytes) ≤ limit →
      (∀ head w rest, IsFramed head w → bytes = w ++ rest → head.type ≠ PcapngType.EPB →
        head.type ≠ PcapngType.SPB → BlocksFit limit rest) → BlocksFit limit bytes

theorem storeSafe_load {S σ : Type} (L : Layout S) (buffer : Bytes) (off : ℕ) :
    StoreSafe (L.load buffer off : Exec σ S) :=
  .bind (.load _ _ _) fun _ => .pure _

theorem storeSafe_readBody (buffer : Bytes) (n : ℕ) :
    StoreSafe (PcapngEPB.readBody buffer n) := by
  unfold PcapngEPB.readBody
  refine .bind .get fun _ => .bind (.throwIf _ _) fun _ => .bind (.throwIf _ _) fun _ => ?_
  refine .bind (storeSafe_load _ _ _) fun _ => .bind (.modify _) fun _ => ?_
  exact .bind .get fun _ => .bind (.throwIf _ _) fun _ => .modify _

/-- Decoding a block stores nothing but the members of the object. -/
theorem storeSafe_read (buffer : Bytes) (n : ℕ) :
    StoreSafe (PcapngBlocks.read buffer n : Exec (PcapngBlock PcapngEPB) Unit) := by
  have hhead : StoreSafe (readHead buffer n : Exec (PcapngBlock PcapngEPB) Unit) :=
    .bind (.throwIf _ _) fun _ => .bind (storeSafe_load _ _ _) fun _ => .modify _
  have hoption (b : Bytes) (m : ℕ) :
      StoreSafe (readOption b m : Exec (PcapngBlock PcapngEPB) Unit) :=
    .bind .get fun _ => .bind (.throwIf _ _) fun _ => .bind .get fun _ =>
      .bind (.resize _ _) fun _ => .bind (.modify _) fun _ => .bind (.load _ _ _) fun _ => .modify _
  have htail (b : Bytes) (m : ℕ) :
      StoreSafe (readTail b m : Exec (PcapngBlock PcapngEPB) Unit) :=
    .bind (.throwIf _ _) fun _ => .bind (storeSafe_load _ _ _) fun _ => .bind .get fun _ =>
      .throwIf _ _
  unfold PcapngBlocks.read
  refine .bind hhead fun _ => .bind (storeSafe_readBody _ _) fun _ => .bind .get fun _ => ?_
  exact .bind (hoption _ _) fun _ => .bind .get fun _ => .bind (htail _ _) fun _ => .throwIf _ _

/-- What `recv` does with a block stores inside the caller's buffer: it copies no more than the
buffer has room for. -/
theorem storeSafe_recvBlock (blocklen : ℕ) (tmpBuffer buffer : Bytes) :
    StoreSafe (recvBlock blocklen tmpBuffer buffer) := by
  unfold recvBlock
  have hdetect : StoreSafe (detectPcapngBlocktype tmpBuffer blocklen) :=
    .bind (.throwIf _ _) fun _ => .bind (storeSafe_load _ _ _) fun _ => .pure _
  refine .bind hdetect fun type => ?_
  split_ifs with hepb hspb
  · refine .bind (fun s => storesInBounds_onLocal (storeSafe_read _ _ _)) fun epb => ?_
    intro s
    refine storesInBounds_bind (StoreSafe.load _ _ _ s) fun data s' hdata => ?_
    obtain ⟨hview, rfl, rfl⟩ := load_eq_ok.mp hdata
    have hroom : (if buffer.length < epb.2.body.packetLength.toNat then
        UInt32.ofNat buffer.length else epb.2.body.packetLength).toNat ≤ buffer.length := by
      split_ifs with hm
      · rw [UInt32.toNat_ofNat']
        exact Nat.mod_le _ _
      · exact Nat.not_lt.mp hm
    rw [Nat.zero_add] at hview
    rw [run_bind_ok (onLocal_ok (store_ok (by simp only [List.length_take]; omega)) s')]
    trivial
  · exact fun s he => Failure.noConfusion he
  · exact .pure _

theorem isFramed_unique {head head' : PcapngBlockHead} {w w' rest rest' : Bytes}
    (hw : IsFramed head w) (hw' : IsFramed head' w') (h : w ++ rest = w' ++ rest') :
    head = head' ∧ w = w' ∧ rest = rest' := by
  obtain ⟨hhead, hlen, hpos⟩ := hw
  obtain ⟨hhead', hlen', hpos'⟩ := hw'
  have htake : (w ++ rest).take 8 = (w' ++ rest').take 8 := by rw [h]
  rw [List.take_append_of_le_length (by omega), List.take_append_of_le_length (by omega), hhead,
    hhead'] at htake
  obtain rfl := PcapngBlockHead.layout.enc_injective htake
  exact ⟨rfl, List.append_inj h (by omega)⟩

theorem blockExtent_framed {head : PcapngBlockHead} {w : Bytes} (hw : IsFramed head w)
    (rest : Bytes) : blockExtent (w ++ rest) = w.length := by
  obtain ⟨hhead, hlen, hpos⟩ := hw
  unfold blockExtent
  rw [List.take_append_of_le_length (by omega), hhead, Layout.dec_enc, hlen]
  dsimp only
  split_ifs <;> omega

theorem storesInBounds_recvPass {tmpBuffer : Scratch} {buffer : Bytes} {f : File} :
    StoresInBounds ((recvPass tmpBuffer buffer).run f) ↔
      min f.rest.length (blockExtent f.rest) ≤ 1000 := by
  cases hrest : f.rest with
  | nil =>
    rw [recvPass_end hrest]
    exact iff_of_true (fun he => Failure.noConfusion he) (by simp)
  | cons c bytes =>
    have hb : StoresInBounds ((readBlock tmpBuffer.toList).run (probed f)) ↔ _ :=
      readBlock_storesInBounds_iff
    rw [rest_probed, hrest, Vector.length_toList] at hb
    unfold recvPass
    rw [run_bind_ok (feof_run f), run_bind_ok (throwIf_pass (by simp [hrest]) _), ← hb]
    constructor
    · intro h
      cases hr : (readBlock tmpBuffer.toList).run (probed f) with
      | ok r f' => trivial
      | error e f' =>
        rw [run_bind_error hr] at h
        exact h
    · exact fun h => storesInBounds_bind h fun r f' _ => storeSafe_recvBlock _ _ _ f'

/-- A pass over a whole block of another type goes on with what follows it. -/
theorem recvPass_goesOn {head : PcapngBlockHead} {w rest : Bytes} {f : File}
    (hw : IsFramed head w) (hrest : f.rest = w ++ rest)
    (hfit : min f.rest.length (blockExtent f.rest) ≤ 1000) (hepb : head.type ≠ PcapngType.EPB)
    (hspb : head.type ≠ PcapngType.SPB) (tmpBuffer : Scratch) (buffer : Bytes) :
    ∃ f', f'.rest = rest ∧ (recvPass tmpBuffer buffer).run f = .ok none f' := by
  have hle : w.length ≤ 1000 := by
    rw [hrest, blockExtent_framed hw, List.length_append] at hfit
    omega
  obtain ⟨f', hf', hpass⟩ := recvPass_framed hw hrest hle tmpBuffer buffer
  exact ⟨f', hf', by rw [hpass, recvBlock_skip hw hepb hspb]⟩

/-- Where the loop ends, only the block it ends at counts. -/
theorem blocksFit_of_end {tmpBuffer : Scratch} {buffer : Bytes} {f : File}
    (hend : ∀ f', (recvPass tmpBuffer buffer).run f ≠ .ok none f') :
    BlocksFit 1000 f.rest ↔ min f.rest.length (blockExtent f.rest) ≤ 1000 := by
  constructor
  · rintro ⟨hfit, -⟩
    exact hfit
  · intro hfit
    refine .intro hfit fun head w rest hw hrest hepb hspb => ?_
    obtain ⟨f', -, hpass⟩ := recvPass_goesOn hw hrest hfit hepb hspb tmpBuffer buffer
    exact absurd hpass (hend f')

theorem storesInBounds_recv {tmpBuffers : ℕ → Scratch} {buffer : Bytes} {f : File} :
    StoresInBounds ((recv tmpBuffers buffer).run f) ↔ BlocksFit 1000 f.rest := by
  induction hn : f.rest.length using Nat.strong_induction_on generalizing f tmpBuffers with
  | _ n ih =>
    have hone : StoresInBounds ((recvPass (tmpBuffers 0) buffer).run f) ↔ _ :=
      storesInBounds_recvPass
    cases hpass : (recvPass (tmpBuffers 0) buffer).run f with
    | error e f' =>
      rw [hpass] at hone
      rw [recv_of_error hpass, blocksFit_of_end fun f'' h => by rw [hpass] at h; cases h]
      exact hone
    | ok r f' =>
      rw [hpass] at hone
      have hfit := hone.mp trivial
      cases r with
      | some r =>
        rw [recv_of_some hpass, blocksFit_of_end fun f'' h => by rw [hpass] at h; cases h]
        exact iff_of_true trivial hfit
      | none =>
        obtain ⟨head, w, hw, hrest, -, hepb, hspb⟩ := recvPass_eq_none hpass
        have hpos := hw.2.2
        rw [recv_of_none hpass, ih f'.rest.length (by
          rw [← hn, hrest, List.length_append]
          omega) rfl]
        constructor
        · intro h
          refine .intro hfit fun head' w' rest' hw' hrest' _ _ => ?_
          obtain ⟨-, -, rfl⟩ := isFramed_unique hw hw' (hrest.symm.trans hrest')
          exact h
        · rintro ⟨-, hnext⟩
          exact hnext head w _ hw hrest hepb hspb

/-- `read_block` stays inside the buffer exactly when what the file has of the block fits, and
`recv` inside its scratch memory exactly when this holds of the blocks it comes to. -/
theorem block_reads_inBounds (tmpBuffers : ℕ → Scratch) (buffer : Bytes) (f : File) :
    (StoresInBounds ((readBlock buffer).run f) ↔
      min f.rest.length (blockExtent f.rest) ≤ buffer.length) ∧
    (StoresInBounds ((recv tmpBuffers buffer).run f) ↔ BlocksFit 1000 f.rest) :=
  ⟨readBlock_storesInBounds_iff, storesInBounds_recv⟩

/-- A file with one block of 1004 bytes. -/
def longBlock : Bytes := PcapngBlockHead.layout.enc ⟨10, 1004⟩ ++ List.replicate 996 0

/-- A block of 20 bytes does not fit a buffer of 16, nor one of 1004 bytes the scratch memory. -/
theorem readBlock_stores_outside :
    ¬ StoresInBounds ((readBlock (List.replicate 16 0)).run
      (File.start ([10, 0, 0, 0, 20, 0, 0, 0] ++ List.replicate 8 0 ++ [20, 0, 0, 0]))) ∧
    ¬ StoresInBounds ((recv (fun _ => Vector.replicate 1000 0) []).run
      (File.start longBlock)) := by
  refine ⟨by decide, ?_⟩
  have hlen : longBlock.length = 1004 := by
    rw [longBlock, List.length_append, head_length, List.length_replicate]
  have hext : blockExtent longBlock = 1004 := by
    unfold blockExtent longBlock
    rw [List.take_left' (head_length _), Layout.dec_enc]
    rfl
  rw [storesInBounds_recv, rest_start]
  rintro ⟨hfit, -⟩
  rw [hlen, hext] at hfit
  exact absurd hfit (by decide)

end WholeCalls

end Pgen.PcapngBounds
