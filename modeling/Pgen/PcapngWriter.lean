import Pgen.PcapngStream

/-!
# The files `pcapng_stream` writes

A stream opened for writing holds a section header, an interface description and one enhanced
packet block for every call of `send` that returned. The total length of a block is kept in 32
bits; where it wraps around, the block no longer fits the memory allocated for it and nothing is
written.
-/
namespace Pgen.PcapngWriter
open ByteMemory StdioFile FileStream StructLayout PcapngBlocks PcapngBodies PcapngStream

section Code

/-- `::fwrite(buf, size, 1, fd)` of which the file takes all or nothing. -/
def fwriteOr (accepts : Bool) (data : Bytes) : Exec File ℕ :=
  if accepts then fwrite data else pure 0

def writeOr (accepts : Bool) (buf : Bytes) : Exec File Unit := do
  let numberOfWrite ← fwriteOr accepts buf
  throwIf (numberOfWrite ≠ 1) "pgen::file_stream::fwirte::fwite: "

def writeBlockOr {B : Type} [PcapngBody B] (accepts : Bool) (block : PcapngBlock B) :
    Exec File Unit := do
  let rawData ← resize [] block.totalLength.toNat
  let (_, rawData) ← onLocal rawData (PcapngBlocks.write block rawData.length)
  writeOr accepts rawData

/-- `send` on a stream whose file may refuse the bytes. -/
def sendOr (accepts : Bool) (buf : Bytes) : Exec File Unit :=
  writeBlockOr accepts (PcapngEPB.setPacket buf PcapngEPB.new)

/-- A file that takes everything is the one that `send` writes to. -/
theorem sendOr_true (buf : Bytes) : sendOr true buf = send buf := rfl

/-- The stream after calls of `send`; a caller goes on after an exception. -/
def sendAll (calls : List (Bool × Bytes)) (f : File) : File :=
  calls.foldl (fun f call => finalState ((sendOr call.1 call.2).run f)) f

/-- The packets of the calls that returned. -/
def sentPackets : List (Bool × Bytes) → File → List Bytes
  | [], _ => []
  | (accepts, p) :: calls, f =>
    match (sendOr accepts p).run f with
    | .ok () f' => p :: sentPackets calls f'
    | .error _ f' => sentPackets calls f'

end Code

section Format

/-- `w` is the enhanced packet block of the packet `p`. -/
structure IsEnhancedPacket (p w : Bytes) : Prop where
  bytes : ∃ totalLength captureLength : UInt32, totalLength.toNat = w.length ∧
    captureLength.toNat = p.length ∧
    w = PcapngBlockHead.layout.enc ⟨PcapngType.EPB, totalLength⟩ ++
      (EpbStruct.layout.enc ⟨0, 0, 0, captureLength, captureLength⟩ ++
        (p ++ List.replicate (padLength p) 0)) ++
      PcapngBlockTail.layout.enc ⟨totalLength⟩
  aligned : 4 ∣ w.length

/-- The file is a section header, an interface description and the blocks of the packets. -/
def WellFormed (packets : List Bytes) (content : Bytes) : Prop :=
  ∃ shb idb blocks, IsImage PcapngSHB.new shb ∧ 4 ∣ shb.length ∧
    IsImage PcapngIDB.new idb ∧ 4 ∣ idb.length ∧
    List.Forall₂ IsEnhancedPacket packets blocks ∧ content = shb ++ idb ++ blocks.flatten

end Format

section OneBlock

variable {p : Bytes}

/-- The body of the block that a packet is sent as. -/
def packetBody (p : Bytes) : Bytes :=
  EpbStruct.layout.enc ⟨0, 0, 0, UInt32.ofNat p.length, UInt32.ofNat p.length⟩ ++
    (p ++ List.replicate (padLength p) 0)

/-- The block that a packet below the limit is sent as. -/
def packetBlock (p : Bytes) : Bytes :=
  PcapngBlockHead.layout.enc ⟨PcapngType.EPB, UInt32.ofNat (32 + p.length + padLength p)⟩ ++
    packetBody p ++ PcapngBlockTail.layout.enc ⟨UInt32.ofNat (32 + p.length + padLength p)⟩

theorem packetBody_length (p : Bytes) : (packetBody p).length = 20 + p.length + padLength p := by
  simp only [packetBody, List.length_append, epbStruct_length, List.length_replicate]
  omega

theorem packetBlock_length (p : Bytes) : (packetBlock p).length = 32 + p.length + padLength p := by
  simp only [packetBlock, List.length_append, head_length, tail_length, packetBody_length]
  omega

theorem isEnhancedPacket_packetBlock (h : p.length + 35 < 2^32) :
    IsEnhancedPacket p (packetBlock p) := by
  have hpad := padLength_le p
  have hlen := packetBlock_length p
  refine ⟨⟨_, _, ?_, UInt32.toNat_ofNat_of_lt' (by simp only [UInt32.size]; omega), rfl⟩, ?_⟩
  · rw [hlen, UInt32.toNat_ofNat_of_lt' (by simp only [UInt32.size]; omega)]
  · rw [hlen, Nat.add_assoc]
    exact (by norm_num : 4 ∣ 32).add (add_padLength p)

theorem totalLength_eq (h : p.length + 35 < 2^32) :
    (PcapngEPB.setPacket p PcapngEPB.new).totalLength =
      UInt32.ofNat (32 + p.length + padLength p) := by
  have hpad := padLength_le p
  apply UInt32.toNat_inj.mp
  rw [totalLength_setPacket (by omega), UInt32.toNat_ofNat']

/-- The packet and its padding in zeroed memory. -/
theorem writeBody_packet (h : p.length < 2^32) {k : ℕ} (hk : (packetBody p).length ≤ k) :
    (PcapngEPB.writeBody (PcapngEPB.setPacket p PcapngEPB.new) k).run (List.replicate k 0) =
      .ok () (packetBody p ++ (List.replicate k 0).drop (packetBody p).length) := by
  have hcap := captureLength_toNat h
  have hcaptured : (PcapngEPB.setPacket p PcapngEPB.new).body.captured = p := by
    unfold PcapngEPB.captured
    rw [hcap]
    exact List.take_length
  have hzeros : List.replicate (padLength p) (0 : UInt8) ++
      List.replicate (k - (packetBody p).length) 0 = List.replicate (k - (20 + p.length)) 0 := by
    rw [packetBody_length] at hk ⊢
    rw [List.replicate_append_replicate]
    congr 1
    omega
  rw [writeBody_epb_ok (hcap.le.trans (Nat.le_refl _))
    (by rw [bodyLength_setPacket h, ← packetBody_length]; exact hk)
    (by rw [List.length_replicate]), hcaptured, hcap, List.drop_replicate, ← hzeros,
    List.drop_replicate, packetBody]
  simp only [List.append_assoc]
  rfl

/-- The block of a packet below the limit fills the zeroed memory allocated for it. -/
theorem write_packet (h : p.length + 35 < 2^32) :
    (PcapngBlocks.write (PcapngEPB.setPacket p PcapngEPB.new) (packetBlock p).length).run
      (List.replicate (packetBlock p).length 0) = .ok () (packetBlock p) := by
  have hpad := padLength_le p
  have hblock := packetBlock_length p
  have hlen := packetBody_length p
  have hbl : (packetBody p).length = (PcapngEPB.setPacket p PcapngEPB.new).body.bodyLength :=
    hlen.trans (bodyLength_setPacket (by omega)).symm
  have htotal : (PcapngEPB.setPacket p PcapngEPB.new).totalLength.toNat =
      (packetBlock p).length := by
    rw [totalLength_setPacket (by omega), hblock, Nat.mod_eq_of_lt (by omega)]
  have hparts : (PcapngEPB.setPacket p PcapngEPB.new).totalLength.toNat =
      12 + (PcapngEPB.setPacket p PcapngEPB.new).body.bodyLength + 0 := by
    rw [htotal, ← hbl]
    omega
  have hbody := writeBody_packet (show p.length < 2^32 by omega)
    (show (packetBody p).length ≤ (packetBlock p).length - 8 by omega)
  rw [← List.drop_replicate] at hbody
  rw [write_run hbody hbl hparts htotal.le (by simp), htotal, List.drop_replicate, Nat.sub_self,
    totalLength_eq h, packetBlock]
  simp only [List.append_assoc, List.replicate_zero, List.append_nil]
  rfl

/-- Memory that is too small for the body is refused. -/
theorem write_small {block : PcapngBlock PcapngEPB} {n : ℕ} {mem : Bytes}
    (hn : block.totalLength.toNat ≤ n) (hmem : n ≤ mem.length)
    (hsmall : n < 8 + block.body.bodyLength) :
    ∃ what mem', (PcapngBlocks.write block n).run mem = .error (.exception what) mem' := by
  unfold PcapngBlocks.write
  rw [run_bind_ok (throwIf_pass (Nat.not_lt.mpr hn) _)]
  rcases Nat.lt_or_ge n 8 with hlt | hge
  · have hhead : (writeHead block n).run mem = _ := run_bind_error (throwIf_fail hlt mem)
    exact ⟨_, _, run_bind_error hhead⟩
  · have hsub : sizeSub n PcapngBlockHead.layout.size = n - 8 := sizeSub_of_le hge
    have hbody : (writeBody block (n - 8)).run (mem.drop 8) = _ :=
      run_bind_error (throwIf_fail (show n - 8 < block.body.bodyLength by omega) _)
    rw [run_bind_ok (writeHead_ok block hge (hge.trans hmem)), hsub]
    exact ⟨_, _, run_bind_error (atOffset_error (head_length _) hbody)⟩

end OneBlock

section Sending

/-- What a call of `send` does to the stream: it throws and leaves it as it is, or it appends the
block of the packet. -/
def SendStep (accepts : Bool) (p : Bytes) (f : File) : Prop :=
  (∃ what, (sendOr accepts p).run f = .error (.exception what) f) ∨
  ∃ f' w, (sendOr accepts p).run f = .ok () f' ∧ IsEnhancedPacket p w ∧
    f'.content = f.content ++ w ∧ AtEnd f'

theorem writeOr_false (w : Bytes) (f : File) :
    (writeOr false w).run f = .error (.exception "pgen::file_stream::fwirte::fwite: ") f := by
  have hzero : (fwriteOr false w).run f = .ok 0 f := rfl
  unfold writeOr
  rw [run_bind_ok hzero]
  exact throwIf_fail (by decide) f

/-- The call comes to the write of the block when this fits its total length. -/
theorem sendOr_run (accepts : Bool) {p : Bytes} (h : p.length + 35 < 2^32) (f : File) :
    (sendOr accepts p).run f = (writeOr accepts (packetBlock p)).run f := by
  have hpad := padLength_le p
  have htotal := totalLength_setPacket (show p.length < 2^32 by omega)
  rw [Nat.mod_eq_of_lt (by omega), ← packetBlock_length p] at htotal
  unfold sendOr writeBlockOr
  rw [run_bind_ok (resize_totalLength (PcapngEPB.setPacket p PcapngEPB.new).totalLength f),
    List.length_replicate, htotal, run_bind_ok (onLocal_ok (write_packet h) f)]

/-- A packet below the limit is appended. -/
theorem send_appends {f : File} (hend : AtEnd f) {p : Bytes} (h : p.length + 35 < 2^32) :
    ∃ f' w, (send p).run f = .ok () f' ∧ IsEnhancedPacket p w ∧ f'.content = f.content ++ w ∧
      AtEnd f' := by
  have hpos : 0 < (packetBlock p).length := by
    rw [packetBlock_length]
    omega
  obtain ⟨f', hrun, hcontent, hend'⟩ := write_ok hend (packetBlock p) hpos
  exact ⟨f', _, (sendOr_run true h f).trans hrun, isEnhancedPacket_packetBlock h, hcontent, hend'⟩

theorem send_step {f : File} (hend : AtEnd f) (accepts : Bool) {p : Bytes} (h : p.length < 2^32) :
    SendStep accepts p f := by
  rcases Nat.lt_or_ge (p.length + 35) (2^32) with hlt | hge
  · cases accepts with
    | false => exact .inl ⟨_, (sendOr_run false hlt f).trans (writeOr_false _ f)⟩
    | true =>
      obtain ⟨f', w, hrun, hw, hcontent, hend'⟩ := send_appends hend hlt
      rw [← sendOr_true] at hrun
      exact .inr ⟨f', w, hrun, hw, hcontent, hend'⟩
  · -- the total length has wrapped around
    have hpad := padLength_le p
    have htotal := totalLength_setPacket h
    have hbl := bodyLength_setPacket h
    have hmod : (32 + p.length + padLength p) % 2^32 = 32 + p.length + padLength p - 2^32 := by
      have hdvd := add_padLength p
      omega
    obtain ⟨what, mem', hwrite⟩ := write_small (Nat.le_refl _) (List.length_replicate.ge)
      (show (PcapngEPB.setPacket p PcapngEPB.new).totalLength.toNat < 8 + _ by omega)
    unfold SendStep sendOr writeBlockOr
    rw [run_bind_ok (resize_totalLength (PcapngEPB.setPacket p PcapngEPB.new).totalLength f),
      List.length_replicate]
    exact .inl ⟨what, run_bind_error (onLocal_error hwrite f)⟩

end Sending

section Run

variable {packets : List Bytes} {content p w : Bytes}

@[simp] theorem sendAll_nil (f : File) : sendAll [] f = f := rfl

theorem sendAll_cons (call : Bool × Bytes) (calls : List (Bool × Bytes)) (f : File) :
    sendAll (call :: calls) f =
      sendAll calls (finalState ((sendOr call.1 call.2).run f)) := rfl

theorem WellFormed.append (h : WellFormed packets content) (hw : IsEnhancedPacket p w) :
    WellFormed (packets ++ [p]) (content ++ w) := by
  obtain ⟨shb, idb, blocks, hshb, hshb₄, hidb, hidb₄, hblocks, rfl⟩ := h
  refine ⟨shb, idb, blocks ++ [w], hshb, hshb₄, hidb, hidb₄, ?_, ?_⟩
  · exact List.rel_append hblocks (.cons hw .nil)
  · simp only [List.flatten_append, List.flatten_singleton, List.append_assoc]

/-- A stream that writes at the end of a well formed file goes on doing so. -/
theorem sendAll_wellFormed {calls : List (Bool × Bytes)} {f : File} (hend : AtEnd f)
    (h : WellFormed packets f.content) (hcalls : ∀ call ∈ calls, call.2.length < 2^32) :
    AtEnd (sendAll calls f) ∧
      WellFormed (packets ++ sentPackets calls f) (sendAll calls f).content := by
  induction calls generalizing f packets with
  | nil => exact ⟨hend, by simpa [sentPackets] using h⟩
  | cons call calls ih =>
    obtain ⟨accepts, p⟩ := call
    have hrest : ∀ call ∈ calls, call.2.length < 2^32 :=
      fun call hcall => hcalls call (List.mem_cons_of_mem _ hcall)
    rcases send_step hend accepts (hcalls _ List.mem_cons_self) with ⟨what, hrun⟩ |
      ⟨f', w, hrun, hw, hcontent, hend'⟩
    · rw [sendAll_cons, sentPackets, hrun]
      exact ih hend h hrest
    · have hwell : WellFormed (packets ++ [p]) f'.content := by
        rw [hcontent]
        exact h.append hw
      have hlater := ih hend' hwell hrest
      rw [List.append_assoc] at hlater
      rw [sendAll_cons, sentPackets, hrun]
      exact hlater

theorem openStream_wellFormed {name : String} {disk : Option Bytes} {tmpBuffer : Scratch}
    {f f₀ : File} (hopen : (openStream name .pcapngWrite disk tmpBuffer).run f = .ok () f₀) :
    AtEnd f₀ ∧ WellFormed [] f₀.content := by
  cases disk with
  | none => cases hopen
  | some old =>
    obtain ⟨f', shb, idb, hrun, hshb, hidb, hcontent, hend⟩ :=
      openStream_images name old tmpBuffer f
    rw [hrun] at hopen
    cases hopen
    refine ⟨hend, shb, idb, [], hshb, ?_, hidb, ?_, .nil, by simpa using hcontent⟩
    · rw [hshb.1]
      decide
    · rw [hidb.1]
      decide

/-- After any calls on a stream opened for writing the file holds the packets of the calls that
returned, and the next call again throws and changes nothing or appends one block; it does append
one when the packet is below the limit and the file takes the bytes. -/
theorem sends_wellFormed {name : String} {disk : Option Bytes} {tmpBuffer : Scratch}
    {f f₀ : File} (hopen : (openStream name .pcapngWrite disk tmpBuffer).run f = .ok () f₀)
    {calls : List (Bool × Bytes)} (hcalls : ∀ call ∈ calls, call.2.length < 2^32) :
    WellFormed (sentPackets calls f₀) (sendAll calls f₀).content ∧
      (∀ accepts (p : Bytes), p.length < 2^32 → SendStep accepts p (sendAll calls f₀)) ∧
      ∀ p : Bytes, p.length + 35 < 2^32 → ∃ f' w, (send p).run (sendAll calls f₀) = .ok () f' ∧
        IsEnhancedPacket p w ∧ f'.content = (sendAll calls f₀).content ++ w := by
  obtain ⟨hend, hwell⟩ := openStream_wellFormed hopen
  obtain ⟨hend', hfile⟩ := sendAll_wellFormed hend hwell hcalls
  refine ⟨hfile, fun accepts p hp => send_step hend' accepts hp, fun p hp => ?_⟩
  obtain ⟨f', w, hrun, hw, hcontent, -⟩ := send_appends hend' hp
  exact ⟨f', w, hrun, hw, hcontent⟩

/-- A packet, one that the file refuses and an empty one, and then one more. -/
theorem sends_wellFormed_three : ∃ f₀,
    (openStream "out" .pcapngWrite (some []) (Vector.replicate 1000 0)).run (File.start []) =
      .ok () f₀ ∧
    WellFormed (sentPackets [(true, [1, 2, 3]), (false, [7]), (true, [])] f₀)
      (sendAll [(true, [1, 2, 3]), (false, [7]), (true, [])] f₀).content ∧
    SendStep false [7] (sendAll [(true, [1, 2, 3]), (false, [7]), (true, [])] f₀) ∧
    ∃ f' w, (send [9]).run (sendAll [(true, [1, 2, 3]), (false, [7]), (true, [])] f₀) =
      .ok () f' ∧ IsEnhancedPacket [9] w := by
  have hopen := openStream_images "out" [] (Vector.replicate 1000 0) (File.start [])
  obtain ⟨f₀, _, _, hopen, -⟩ := hopen
  have hall := sends_wellFormed hopen
    (show ∀ call ∈ [(true, [1, 2, 3]), (false, [7]), (true, ([] : Bytes))], call.2.length < 2^32 by
      simp)
  obtain ⟨f', w, hrun, hw, -⟩ := hall.2.2 [9] (by simp)
  exact ⟨f₀, hopen, hall.1, hall.2.1 false [7] (by simp), f', w, hrun, hw⟩

end Run

end Pgen.PcapngWriter
