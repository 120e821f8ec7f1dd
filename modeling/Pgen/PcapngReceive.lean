import Pgen.PcapngCapture
import Pgen.PcapngFraming
import Pgen.WhileLoop

/-!
# The loop of `recv`

Every pass that goes on takes a whole block from the file, so `recv` ends on every file. Blocks of
other types are passed over with one exception: a block without a body, which `read_block` cannot
read, since a read of no byte reports an error.
-/
namespace Pgen.PcapngReceive
open ByteMemory StdioFile StructLayout FileStream PcapngBlocks PcapngBodies PcapngStream
  PcapngCapture PcapngFraming WhileLoop

section Termination

/-- A pass that goes on consumes a head and more. -/
theorem rest_of_recvPass_none {tmpBuffer : Scratch} {buffer : Bytes} {f f' : File}
    (h : (recvPass tmpBuffer buffer).run f = .ok none f') :
    f'.rest.length + 8 ≤ f.rest.length := by
  have hframe := recvPass_eq_none h
  obtain ⟨head, w, hw, hrest, -⟩ := hframe
  have hpos := hw.2.2
  rw [hrest, List.length_append]
  omega

variable {σ : Type}

theorem avoids_throwIf (p : Prop) [Decidable p] (what : String) :
    Avoids .outOfFuel (throwIf p what : Exec σ Unit) := by
  unfold throwIf
  split_ifs
  · exact .throw (by simp)
  · exact .pure ()

theorem avoids_load (buffer : Bytes) (off n : ℕ) :
    Avoids .outOfFuel (load buffer off n : Exec σ Bytes) := by
  unfold load
  split_ifs
  · exact .pure _
  · exact .throw (by simp)

theorem avoids_layoutLoad {S : Type} (L : Layout S) (buffer : Bytes) (off : ℕ) :
    Avoids .outOfFuel (L.load buffer off : Exec σ S) :=
  .bind (avoids_load _ _ _) fun _ => .pure _

theorem avoids_resize (vec : Bytes) (n : ℕ) :
    Avoids .outOfFuel (resize vec n : Exec σ Bytes) := by
  unfold resize
  split_ifs
  · exact .throw (by simp)
  · exact .pure _

theorem avoids_store (off : ℕ) (data : Bytes) : Avoids .outOfFuel (store off data) := by
  intro mem mem' h
  by_cases hfit : off + data.length ≤ mem.length
  · rw [store_ok hfit] at h
    cases h
  · rw [store_fault (Nat.not_le.mp hfit)] at h
    cases h

theorem avoids_read (mem : Bytes) (off buflen : ℕ) :
    Avoids .outOfFuel (FileStream.read mem off buflen) := by
  intro f f' h
  rw [read_run] at h
  split_ifs at h <;> cases h

theorem avoids_feof : Avoids .outOfFuel FileStream.feof := by
  intro f f' h
  rw [feof_run] at h
  cases h

theorem avoids_readBlock (buffer : Bytes) : Avoids .outOfFuel (readBlock buffer) := by
  unfold readBlock readBlockRest
  refine .bind (avoids_read _ _ _) fun _ => .bind (avoids_layoutLoad _ _ _) fun _ => ?_
  refine .bind (avoids_read _ _ _) fun _ => .bind (avoids_read _ _ _) fun _ => ?_
  exact .bind (avoids_layoutLoad _ _ _) fun _ => .pure _

theorem avoids_readBody (buffer : Bytes) (n : ℕ) :
    Avoids .outOfFuel (PcapngEPB.readBody buffer n) := by
  unfold PcapngEPB.readBody
  refine .bind .get fun _ => .bind (avoids_throwIf _ _) fun _ => ?_
  refine .bind (avoids_throwIf _ _) fun _ => ?_
  refine .bind (avoids_layoutLoad _ _ _) fun _ => .bind (.modify _) fun _ => ?_
  exact .bind .get fun _ => .bind (avoids_throwIf _ _) fun _ => .modify _

theorem avoids_readHead (buffer : Bytes) (n : ℕ) :
    Avoids .outOfFuel (readHead buffer n : Exec (PcapngBlock PcapngEPB) Unit) :=
  .bind (avoids_throwIf _ _) fun _ => .bind (avoids_layoutLoad _ _ _) fun _ => .modify _

theorem avoids_readOption (buffer : Bytes) (n : ℕ) :
    Avoids .outOfFuel (readOption buffer n : Exec (PcapngBlock PcapngEPB) Unit) := by
  unfold readOption
  refine .bind .get fun _ => .bind (avoids_throwIf _ _) fun _ => .bind .get fun _ => ?_
  refine .bind (avoids_resize _ _) fun _ => .bind (.modify _) fun _ => ?_
  exact .bind (avoids_load _ _ _) fun _ => .modify _

theorem avoids_readTail (buffer : Bytes) (n : ℕ) :
    Avoids .outOfFuel (readTail buffer n : Exec (PcapngBlock PcapngEPB) Unit) :=
  .bind (avoids_throwIf _ _) fun _ => .bind (avoids_layoutLoad _ _ _) fun _ =>
    .bind .get fun _ => avoids_throwIf _ _

theorem avoids_blockRead (buffer : Bytes) (n : ℕ) :
    Avoids .outOfFuel (PcapngBlocks.read buffer n : Exec (PcapngBlock PcapngEPB) Unit) := by
  unfold PcapngBlocks.read
  refine .bind (avoids_readHead _ _) fun _ => .bind (avoids_readBody _ _) fun _ => ?_
  refine .bind .get fun _ => .bind (avoids_readOption _ _) fun _ => .bind .get fun _ => ?_
  exact .bind (avoids_readTail _ _) fun _ => avoids_throwIf _ _

theorem avoids_recvBlock (blocklen : ℕ) (tmpBuffer buffer : Bytes) :
    Avoids .outOfFuel (recvBlock blocklen tmpBuffer buffer) := by
  unfold recvBlock detectPcapngBlocktype
  refine .bind ?_ fun type => ?_
  · exact .bind (avoids_throwIf _ _) fun _ => .bind (avoids_layoutLoad _ _ _) fun _ => .pure _
  · split_ifs with hepb hspb
    · refine .bind (.onLocal (avoids_blockRead _ _)) fun _ => .bind (avoids_load _ _ _) fun _ => ?_
      exact .bind (.onLocal (avoids_store _ _)) fun _ => .pure _
    · exact .throw (by simp)
    · exact .pure _

theorem avoids_recvPass (tmpBuffer : Scratch) (buffer : Bytes) :
    Avoids .outOfFuel (recvPass tmpBuffer buffer) :=
  .bind avoids_feof fun _ => .bind (avoids_throwIf _ _) fun _ =>
    .bind (avoids_readBlock _) fun _ => avoids_recvBlock _ _ _

/-- Whatever the loop comes to from some pass on, `recv` comes to with its own fuel. -/
theorem recv_of_runs {tmpBuffers later : ℕ → Scratch} {buffer : Bytes} {i : ℕ} {f : File}
    {r : Outcome File (ℕ × Bytes)} (h : Runs (fun i => recvPass (tmpBuffers i) buffer) i f r)
    (hlater : ∀ k, later k = tmpBuffers (i + k)) : (recv later buffer).run f = r := by
  induction h generalizing later with
  | returns hp => exact recv_of_some (by rw [hlater 0]; exact hp)
  | throws hp => exact recv_of_error (by rw [hlater 0]; exact hp)
  | goesOn hp _ ih =>
    rw [recv_of_none (by rw [hlater 0]; exact hp)]
    refine ih fun k => ?_
    rw [hlater, Nat.add_assoc, Nat.add_comm 1]

/-- `recv` ends on every file: a pass that goes on takes at least a head from what is left, so the
loop has exactly one run, which is that of `recv`, and it returns or throws. -/
theorem recv_terminates (tmpBuffers : ℕ → Scratch) (buffer : Bytes) (f : File) :
    (∀ i f₁ f₂, (recvPass (tmpBuffers i) buffer).run f₁ = .ok none f₂ →
      f₂.rest.length + 8 ≤ f₁.rest.length) ∧
    (∀ r, Runs (fun i => recvPass (tmpBuffers i) buffer) 0 f r ↔
      r = (recv tmpBuffers buffer).run f) ∧
    ((∃ r f', (recv tmpBuffers buffer).run f = .ok r f') ∨
      ∃ e f', (recv tmpBuffers buffer).run f = .error e f' ∧ e ≠ .outOfFuel) := by
  have hshift : ∀ k, tmpBuffers k = tmpBuffers (0 + k) := fun k => by rw [Nat.zero_add]
  obtain ⟨r, hr⟩ : ∃ r, Runs (fun i => recvPass (tmpBuffers i) buffer) 0 f r := by
    refine runs_total (fun f => f.rest.length) (fun i f₁ f₂ h => ?_) 0 f
    have hleft := rest_of_recvPass_none h
    omega
  have hrecv : (recv tmpBuffers buffer).run f = r := recv_of_runs hr hshift
  refine ⟨fun i f₁ f₂ => rest_of_recvPass_none, fun r' => ⟨fun h => ?_, ?_⟩, ?_⟩
  · exact (recv_of_runs h hshift).symm
  · rintro rfl
    exact hrecv ▸ hr
  · rw [hrecv]
    cases r with
    | ok r f' => exact .inl ⟨r, f', rfl⟩
    | error e f' =>
      refine .inr ⟨e, f', rfl, ?_⟩
      rintro rfl
      exact hr.avoids (fun i => avoids_recvPass _ _) f' rfl

end Termination

section OtherBlocks

/-- A well-formed block that carries no packet and fits the scratch memory. -/
structure OtherBlock where
  type : UInt32
  body : Bytes
  type_ne_epb : type ≠ PcapngType.EPB
  type_ne_spb : type ≠ PcapngType.SPB
  aligned : 4 ∣ body.length
  fits : 12 + body.length ≤ 1000

def OtherBlock.totalLength (b : OtherBlock) : UInt32 := UInt32.ofNat (12 + b.body.length)

/-- The block in a file. -/
def OtherBlock.bytes (b : OtherBlock) : Bytes :=
  PcapngBlockHead.layout.enc ⟨b.type, b.totalLength⟩ ++
    (b.body ++ PcapngBlockTail.layout.enc ⟨b.totalLength⟩)

theorem OtherBlock.totalLength_toNat (b : OtherBlock) :
    b.totalLength.toNat = 12 + b.body.length := by
  have hfits := b.fits
  exact UInt32.toNat_ofNat_of_lt' (by simp only [UInt32.size]; omega)

@[simp] theorem OtherBlock.length_bytes (b : OtherBlock) :
    b.bytes.length = 12 + b.body.length := by
  simp only [OtherBlock.bytes, List.length_append, head_length, tail_length]
  omega

theorem OtherBlock.isFramed (b : OtherBlock) (hbody : b.body ≠ []) :
    IsFramed ⟨b.type, b.totalLength⟩ b.bytes := by
  refine ⟨List.take_left' (head_length _), ?_, ?_⟩
  · rw [b.totalLength_toNat, b.length_bytes]
  · have hpos := List.length_pos_of_ne_nil hbody
    rw [b.length_bytes]
    omega

/-- A block with a body is passed over. -/
theorem recv_skips {b : OtherBlock} (hbody : b.body ≠ []) {post : Bytes} {f : File}
    (hrest : f.rest = b.bytes ++ post) (tmpBuffers : ℕ → Scratch) (buffer : Bytes) :
    ∃ f', f'.rest = post ∧ f'.tell = f.tell + b.bytes.length ∧
      (recv tmpBuffers buffer).run f = (recv (fun i => tmpBuffers (i + 1)) buffer).run f' := by
  have hw := b.isFramed hbody
  have hfits : b.bytes.length ≤ 1000 := by
    rw [b.length_bytes]
    exact b.fits
  obtain ⟨f', hf', htell, hpass⟩ := recvPass_framed_tell hw hrest hfits (tmpBuffers 0) buffer
  rw [recvBlock_skip hw b.type_ne_epb b.type_ne_spb] at hpass
  exact ⟨f', hf', htell, recv_of_none hpass⟩

/-- A block without a body ends the call: `read_block` asks for no byte and reports an error. -/
theorem recv_emptyBody {b : OtherBlock} (hbody : b.body = []) {post : Bytes} {f : File}
    (hrest : f.rest = b.bytes ++ post) (tmpBuffers : ℕ → Scratch) (buffer : Bytes) :
    ∃ what f', (recv tmpBuffers buffer).run f = .error (.exception what) f' := by
  have hlen : b.bytes.length = 12 := by rw [b.length_bytes, hbody, List.length_nil]
  have hne : f.rest.isEmpty = false := by
    rw [hrest, List.isEmpty_eq_false_iff]
    intro he
    simp [List.append_eq_nil_iff.mp he] at hlen
  have hlead : (leadingLength (probed f).rest).toNat = 12 := by
    rw [rest_probed, hrest, OtherBlock.bytes, List.append_assoc, leadingLength_enc,
      b.totalLength_toNat, hbody, List.length_nil]
  obtain ⟨what, f', hr⟩ : ∃ what f',
      (readBlock (tmpBuffers 0).toList).run (probed f) = .error (.exception what) f' :=
    readBlock_empty hlead (by rw [rest_probed, hrest, List.length_append]; omega) (by simp)
  refine ⟨what, f', recv_of_error ?_⟩
  unfold recvPass
  rw [run_bind_ok (feof_run f), run_bind_ok (throwIf_pass (by simp [hne]) _), run_bind_error hr]

/-- The blocks in a file, one behind the other. -/
def otherBytes (others : List OtherBlock) : Bytes := (others.map OtherBlock.bytes).flatten

@[simp] theorem otherBytes_cons (b : OtherBlock) (others : List OtherBlock) :
    otherBytes (b :: others) = b.bytes ++ otherBytes others := rfl

variable {block : PcapngBlock PcapngEPB} {w post : Bytes} {f : File}

/-- The call passes over the blocks and returns the packet behind them. -/
def Reaches (block : PcapngBlock PcapngEPB) (skipped post : Bytes) (tmpBuffers : ℕ → Scratch)
    (buffer : Bytes) (f : File) : Prop :=
  ∃ f', (recv tmpBuffers buffer).run f = .ok (block.body.packetLength.toNat,
      block.body.captured ++ buffer.drop block.body.packetLength.toNat) f' ∧
    f'.rest = post ∧ f'.tell = f.tell + skipped.length

theorem reaches_packet (hw : IsPacketBlock block w)
    (hlen : block.body.packetLength = block.body.captureLength) (hrest : f.rest = w ++ post)
    (tmpBuffers : ℕ → Scratch) {buffer : Bytes}
    (hroom : block.body.packetLength.toNat ≤ buffer.length) :
    Reaches block w post tmpBuffers buffer f := by
  have hcap := (hw.view []).1
  obtain ⟨f', more, hf', htell, hr⟩ := recv_packetBlock_tell hw hrest tmpBuffers buffer
    (Nat.min_eq_right hroom).symm
  rw [hlen] at hr
  refine ⟨f', ?_, hf', htell⟩
  rw [hr, if_pos (by rw [List.length_append]; omega), List.take_left' hcap, hlen]

/-- One call passes over any blocks without a packet to the packet behind them exactly when all of
these blocks have a body. -/
theorem recv_reaches_iff (others : List OtherBlock) (hw : IsPacketBlock block w)
    (hlen : block.body.packetLength = block.body.captureLength)
    (hrest : f.rest = otherBytes others ++ (w ++ post)) (tmpBuffers : ℕ → Scratch) {buffer : Bytes}
    (hroom : block.body.packetLength.toNat ≤ buffer.length) :
    Reaches block (otherBytes others ++ w) post tmpBuffers buffer f ↔
      ∀ b ∈ others, b.body ≠ [] := by
  induction others generalizing f tmpBuffers with
  | nil => exact iff_of_true (reaches_packet hw hlen hrest tmpBuffers hroom) (by simp)
  | cons b others ih =>
    rw [otherBytes_cons, List.append_assoc] at hrest
    rw [List.forall_mem_cons]
    by_cases hbody : b.body = []
    · refine iff_of_false ?_ fun h => h.1 hbody
      rintro ⟨f', hr, -⟩
      obtain ⟨what, f'', he⟩ := recv_emptyBody hbody hrest tmpBuffers buffer
      rw [hr] at he
      cases he
    · obtain ⟨f₁, hf₁, htell, hrecv⟩ := recv_skips hbody hrest tmpBuffers buffer
      have hnext := ih hf₁ (fun i => tmpBuffers (i + 1))
      rw [and_iff_right hbody, ← hnext]
      unfold Reaches
      rw [hrecv, htell, otherBytes_cons]
      simp only [List.length_append, Nat.cast_add, add_assoc]

/-- A captured packet of one byte. -/
def wholeBlock : PcapngBlock PcapngEPB where
  type := PcapngType.EPB
  totalLength := 36
  option := []
  body := ⟨⟨0, 0, 0, 1, 1⟩, [0xaa]⟩

def wholeBlockBytes : Bytes :=
  [6, 0, 0, 0, 36, 0, 0, 0, 0, 0, 0, 0, 0, 0, 0, 0, 0, 0, 0, 0, 1, 0, 0, 0, 1, 0, 0, 0,
    0xaa, 0, 0, 0, 36, 0, 0, 0]

theorem isPacketBlock_wholeBlock : IsPacketBlock wholeBlock wholeBlockBytes where
  type_eq := rfl
  image := ⟨by decide, [0, 0, 0, 0, 0, 0, 0, 0, 0, 0, 0, 0, 1, 0, 0, 0, 1, 0, 0, 0,
    0xaa, 0, 0, 0], ⟨by decide, [0, 0, 0], by decide, by decide⟩, by decide⟩
  fits := by decide

/-- A name resolution block that says nothing. -/
def nameBlock (body : Bytes) (aligned : 4 ∣ body.length) (fits : 12 + body.length ≤ 1000) :
    OtherBlock where
  type := PcapngType.NRB
  body := body
  type_ne_epb := by decide
  type_ne_spb := by decide
  aligned := aligned
  fits := fits

theorem recv_reaches_nameBlock :
    Reaches wholeBlock (otherBytes [nameBlock [0, 0, 0, 0] (by decide) (by decide)] ++
        wholeBlockBytes) [] (fun _ => Vector.replicate 1000 0) [7]
      (File.start (otherBytes [nameBlock [0, 0, 0, 0] (by decide) (by decide)] ++
        wholeBlockBytes)) ↔
      ∀ b ∈ [nameBlock [0, 0, 0, 0] (by decide) (by decide)], b.body ≠ [] :=
  recv_reaches_iff [nameBlock [0, 0, 0, 0] (by decide) (by decide)] isPacketBlock_wholeBlock rfl
    (by rw [rest_start, List.append_nil]) (fun _ => Vector.replicate 1000 0) (by decide)

/-- A file with a block of 12 bytes in front of the packet. -/
def emptyBody : OtherBlock := nameBlock [] (by decide) (by decide)

theorem emptyBody_not_passed :
    IsPacketBlock wholeBlock wholeBlockBytes ∧
    ¬ Reaches wholeBlock (otherBytes [emptyBody] ++ wholeBlockBytes) []
      (fun _ => Vector.replicate 1000 0) [7]
      (File.start (otherBytes [emptyBody] ++ wholeBlockBytes)) := by
  refine ⟨isPacketBlock_wholeBlock, ?_⟩
  rintro ⟨f', hr, -⟩
  obtain ⟨what, f'', he⟩ := recv_emptyBody (show emptyBody.body = [] from rfl)
    (show (File.start (otherBytes [emptyBody] ++ wholeBlockBytes)).rest =
      emptyBody.bytes ++ wholeBlockBytes by rw [rest_start]; rfl)
    (fun _ => Vector.replicate 1000 0) [7]
  rw [hr] at he
  cases he

end OtherBlocks

end Pgen.PcapngReceive
