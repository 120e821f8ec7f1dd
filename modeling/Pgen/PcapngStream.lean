import Pgen.FileStream
import Pgen.PcapngBodies

/-!
# `pcapng_stream`

Blocks are framed by their own total length: `read_block` takes the head, as many bytes as it
declares and the tail, and `recv` goes on until it has taken an enhanced packet block. The scratch
memory of a call is indeterminate, so it is a parameter.
-/
namespace Pgen.PcapngStream
open ByteMemory StdioFile StructLayout FileStream PcapngBlocks PcapngBodies

/-- `sizeof tmp_buffer` -/
abbrev Scratch := Vector UInt8 1000

/-- Write a block to the scratch memory and its first `total_length` bytes from there. -/
def writeThrough {B : Type} [PcapngBody B] (tmpBuffer : Bytes) (block : PcapngBlock B) :
    Exec File Bytes := do
  let (_, tmpBuffer) ← onLocal tmpBuffer (PcapngBlocks.write block tmpBuffer.length)
  let data ← load tmpBuffer 0 block.totalLength.toNat
  FileStream.write data
  pure tmpBuffer

def openStream (name : String) (mode : OpenMode) (disk : Option Bytes) (tmpBuffer : Scratch) :
    Exec File Unit :=
  match mode with
  | .pcapngWrite => do
    fopen name .wb disk
    let tmpBuffer ← writeThrough tmpBuffer.toList PcapngSHB.new
    let _ ← writeThrough tmpBuffer PcapngIDB.new
  | .pcapngRead => fopen name .rb disk
  | _ => throw (.exception "pgen::pcapng_stream::open: unknown mode \n")

def writeBlock {B : Type} [PcapngBody B] (block : PcapngBlock B) : Exec File Unit := do
  let rawData ← resize [] block.totalLength.toNat
  let (_, rawData) ← onLocal rawData (PcapngBlocks.write block rawData.length)
  FileStream.write rawData

def send (buf : Bytes) : Exec File Unit := writeBlock (PcapngEPB.setPacket buf PcapngEPB.new)

/-- The number of bytes between head and tail, in `size_t`. -/
def bodylen (head : PcapngBlockHead) : ℕ :=
  sizeSub (sizeSub head.totalLength.toNat PcapngBlockHead.layout.size) PcapngBlockTail.layout.size

/-- What `read_block` does when it has the head: the body and the tail follow in the buffer, and
the total length is read back from there. -/
def readBlockRest (head : PcapngBlockHead) (buffer : Bytes) : Exec File (ℕ × Bytes) := do
  let buffer ← read buffer PcapngBlockHead.layout.size (bodylen head)
  let buffer ← read buffer (PcapngBlockHead.layout.size + bodylen head)
    PcapngBlockTail.layout.size
  let head ← PcapngBlockHead.layout.load buffer 0
  pure (head.totalLength.toNat, buffer)

/-- The result is the returned length and the buffer after the call. The source counts the room
left in the buffer down but never looks at it, and for unequal total lengths it makes an exception
object that it does not throw. -/
def readBlock (buffer : Bytes) : Exec File (ℕ × Bytes) := do
  let buffer ← read buffer 0 PcapngBlockHead.layout.size
  let head ← PcapngBlockHead.layout.load buffer 0
  readBlockRest head buffer

def detectPcapngBlocktype (buffer : Bytes) (bufferlen : ℕ) : Exec File UInt32 := do
  throwIf (bufferlen < PcapngBlockHead.layout.size)
    "pgen::detect_pcapng_blocktype: bufferlen is too small"
  let p ← PcapngBlockHead.layout.load buffer 0
  pure p.type

/-- What a pass of `recv` does with the block it has read: the returned length and the caller's
buffer, or `none` when the loop goes on. -/
def recvBlock (blocklen : ℕ) (tmpBuffer buffer : Bytes) : Exec File (Option (ℕ × Bytes)) := do
  let type ← detectPcapngBlocktype tmpBuffer blocklen
  if type = PcapngType.EPB then
    let (_, epb) ← onLocal PcapngEPB.new (PcapngBlocks.read tmpBuffer blocklen)
    let packetLength := if buffer.length < epb.body.packetLength.toNat
      then UInt32.ofNat buffer.length else epb.body.packetLength
    let data ← load epb.body.packetDataPointer 0 packetLength.toNat
    let (_, buffer) ← onLocal buffer (store 0 data)
    pure (some (packetLength.toNat, buffer))
  else if type = PcapngType.SPB then
    throw (.exception "pgen::pcapng_stream::recv: not implement")
  else
    pure none

/-- One pass of the loop of `recv`. -/
def recvPass (tmpBuffer : Scratch) (buffer : Bytes) : Exec File (Option (ℕ × Bytes)) := do
  let atEnd ← feof
  throwIf (atEnd = true) "pgen::pcapng_stream::recv: is end of file"
  let (blocklen, tmpBuffer) ← readBlock tmpBuffer.toList
  recvBlock blocklen tmpBuffer buffer

/-- `tmpBuffers i` is what the scratch memory of the `i`-th pass holds before it. -/
def recvLoop : ℕ → (ℕ → Scratch) → Bytes → Exec File (ℕ × Bytes)
  | 0, _, _ => throw .outOfFuel
  | fuel + 1, tmpBuffers, buffer => do
    match ← recvPass (tmpBuffers 0) buffer with
    | some r => pure r
    | none => recvLoop fuel (fun i => tmpBuffers (i + 1)) buffer

/-- Every pass that goes on consumes bytes, so the bytes left bound the number of passes. -/
def recv (tmpBuffers : ℕ → Scratch) (buffer : Bytes) : Exec File (ℕ × Bytes) := do
  let f ← get
  recvLoop (f.rest.length + 1) tmpBuffers buffer

section Framing

theorem bodylen_of_le {head : PcapngBlockHead} (h : 12 ≤ head.totalLength.toNat) :
    bodylen head = head.totalLength.toNat - 12 := by
  have s₁ : sizeSub head.totalLength.toNat 8 = head.totalLength.toNat - 8 :=
    sizeSub_of_le (by omega)
  unfold bodylen
  rw [head_size, tail_size, s₁, sizeSub_of_le (by omega)]
  omega

/-- A declared length below 12 wraps around. -/
theorem bodylen_of_lt {head : PcapngBlockHead} (h : head.totalLength.toNat < 12) :
    bodylen head = 2^64 + head.totalLength.toNat - 12 := by
  unfold bodylen sizeSub
  rw [head_size, tail_size]
  split_ifs <;> omega

/-- `w` is framed: its head declares its length, and there is something between head and tail. -/
def IsFramed (head : PcapngBlockHead) (w : Bytes) : Prop :=
  w.take 8 = PcapngBlockHead.layout.enc head ∧ head.totalLength.toNat = w.length ∧ 12 < w.length

/-- The head alone, in a file and a buffer that have room for it. -/
theorem readBlock_head {buffer : Bytes} {f : File} (hlen : 8 ≤ f.rest.length)
    (hfit : 8 ≤ buffer.length) :
    (readBlock buffer).run f = (readBlockRest (PcapngBlockHead.layout.dec (f.rest.take 8))
      (splice buffer 0 (f.rest.take 8))).run (f.advance 8) := by
  have hl : (f.rest.take 8).length = 8 := by
    rw [List.length_take]
    omega
  have hread : (read buffer 0 8).run f = _ := read_eq_ok.mpr ⟨by omega, hlen, by omega, rfl, rfl⟩
  have hload : (PcapngBlockHead.layout.load (splice buffer 0 (f.rest.take 8)) 0).run
      (f.advance 8) = .ok (PcapngBlockHead.layout.dec (f.rest.take 8)) (f.advance 8) := by
    rw [Layout.load_ok _ (by rw [head_size, splice_length (by omega)]; omega), splice_zero,
      List.drop_zero, List.take_left' (by rw [hl, head_size])]
  unfold readBlock
  rw [head_size, run_bind_ok hread, run_bind_ok hload]

/-- Behind the head, the file ends in the body or in the tail. -/
theorem readBlockRest_cut {head : PcapngBlockHead} {buffer : Bytes} {f : File}
    (hpos : 0 < bodylen head) (hshort : f.rest.length < bodylen head + 4)
    (hfit : 8 + f.rest.length ≤ buffer.length) :
    ∃ f', (readBlockRest head buffer).run f =
      .error (.exception "pgen::file_stream::fread::fread: ") f' ∧ f'.rest = [] := by
  unfold readBlockRest
  rw [head_size, tail_size]
  rcases Nat.lt_or_ge f.rest.length (bodylen head) with hlt | hge
  · refine ⟨_, run_bind_error (read_short hlt hfit), ?_⟩
    rw [rest_advance, List.drop_of_length_le hlt.le]
  · have hbody : (read buffer 8 (bodylen head)).run f = _ :=
      read_eq_ok.mpr ⟨hpos, hge, by omega, rfl, rfl⟩
    have hleft : (f.advance (bodylen head)).rest.length < 4 := by
      rw [rest_advance, List.length_drop]
      omega
    have hroom : 8 + bodylen head + (f.advance (bodylen head)).rest.length ≤
        (splice buffer 8 (f.rest.take (bodylen head))).length := by
      rw [splice_length (by rw [List.length_take]; omega), rest_advance, List.length_drop]
      omega
    rw [run_bind_ok hbody]
    refine ⟨_, run_bind_error (read_short hleft hroom), ?_⟩
    rw [rest_advance, List.drop_of_length_le hleft.le]

/-- A framed block is its head, as many bytes as this leaves for a body, and four more. -/
theorem IsFramed.parts {head : PcapngBlockHead} {w : Bytes} (hw : IsFramed head w) :
    ∃ body tail, w = PcapngBlockHead.layout.enc head ++ (body ++ tail) ∧
      body.length = bodylen head ∧ tail.length = 4 := by
  obtain ⟨hhead, hlen, hpos⟩ := hw
  refine ⟨(w.drop 8).take (bodylen head), (w.drop 8).drop (bodylen head), ?_, ?_, ?_⟩
  · rw [List.take_append_drop, ← hhead, List.take_append_drop]
  · rw [List.length_take, List.length_drop, bodylen_of_le (by omega)]
    omega
  · rw [List.length_drop, List.length_drop, bodylen_of_le (by omega)]
    omega

/-- A framed block that fits is stored in front of the untouched rest of the buffer. -/
theorem readBlock_ok {head : PcapngBlockHead} {w post buffer : Bytes} {f : File}
    (hw : IsFramed head w) (hrest : f.rest = w ++ post) (hfit : w.length ≤ buffer.length) :
    ∃ f', (readBlock buffer).run f = .ok (w.length, w ++ buffer.drop w.length) f' ∧
      f'.rest = post ∧ f'.tell = f.tell + w.length := by
  obtain ⟨body, tail, rfl, hbody, htail⟩ := hw.parts
  obtain ⟨-, hlen, hpos⟩ := hw
  simp only [List.length_append, head_length] at hlen hpos hfit
  rw [bodylen_of_le (by omega)] at hbody
  have hbl : bodylen head = body.length := by rw [bodylen_of_le (by omega), hbody]
  simp only [List.append_assoc] at hrest
  have h₁ := read_ok buffer 0 hrest (by rw [head_length]; omega) (by rw [head_length]; omega)
  rw [splice_zero, head_length] at h₁
  have hrest₁ : (f.advance 8).rest = body ++ (tail ++ post) := by
    rw [rest_advance, hrest, List.drop_left' (head_length head)]
  have h₂ := read_append_ok (buffer.drop 8) (head_length head) hrest₁ (by omega)
    (by rw [List.length_drop]; omega)
  have hrest₂ : ((f.advance 8).advance body.length).rest = tail ++ post := by
    rw [rest_advance, hrest₁, List.drop_left]
  have h₃ := read_append_ok ((buffer.drop 8).drop body.length)
    (show (PcapngBlockHead.layout.enc head ++ body).length = 8 + body.length by
      rw [List.length_append, head_length]) hrest₂ (by omega)
    (by rw [List.length_drop, List.length_drop]; omega)
  rw [htail, List.append_assoc, List.append_assoc] at h₃
  refine ⟨((f.advance 8).advance body.length).advance 4, ?_, ?_, ?_⟩
  · unfold readBlock
    rw [head_size, run_bind_ok h₁, run_bind_ok (Layout.load_enc _ _ _ _)]
    unfold readBlockRest
    rw [head_size, tail_size, hbl, run_bind_ok h₂, run_bind_ok h₃,
      run_bind_ok (Layout.load_enc _ _ _ _), hlen]
    simp only [List.length_append, List.append_assoc, List.drop_drop, htail, head_length]
    rw [EStateM.run_pure, Nat.add_assoc]
  · rw [rest_advance, hrest₂, List.drop_left' htail]
  · rw [tell_advance (by rw [hrest₂, List.length_append]; omega),
      tell_advance (by rw [hrest₁, List.length_append]; omega),
      tell_advance (by rw [hrest, List.length_append, head_length]; omega)]
    simp only [List.length_append, head_length, htail]
    push_cast
    ring

/-- What `read_block` returns on a buffer of less than `2^64` bytes is a framed block. -/
theorem readBlock_eq_ok {buffer buffer' : Bytes} {f f' : File} {n : ℕ}
    (hbuf : buffer.length < 2^64) (h : (readBlock buffer).run f = .ok (n, buffer') f') :
    ∃ head w, IsFramed head w ∧ f.rest = w ++ f'.rest ∧ w.length ≤ buffer.length ∧
      n = w.length ∧ buffer' = w ++ buffer.drop w.length := by
  obtain ⟨_, _, h₁, -⟩ := bind_eq_ok.mp h
  obtain ⟨-, hr₁, hb₁, -, -⟩ := read_eq_ok.mp h₁
  rw [head_size] at hr₁ hb₁
  have hl := h
  rw [readBlock_head hr₁ (by omega)] at hl
  have henc := PcapngBlockHead.layout.enc_dec_take hr₁
  rw [head_size] at henc
  have hlen : (f.rest.take 8).length = 8 := by rw [List.length_take]; omega
  generalize PcapngBlockHead.layout.dec (f.rest.take 8) = head at henc hl
  rw [splice_zero, hlen, ← henc] at hl
  obtain ⟨b₂, f₂, h₂, ht⟩ := bind_eq_ok.mp hl
  obtain ⟨hpos, hr₂, hb₂, rfl, rfl⟩ := read_eq_ok.mp h₂
  obtain ⟨b₃, f₃, h₃, -⟩ := bind_eq_ok.mp ht
  obtain ⟨-, hr₃, hb₃, -, -⟩ := read_eq_ok.mp h₃
  rw [splice_length (by rw [List.length_take, Nat.min_eq_left hr₂]; exact hb₂)] at hb₃
  simp only [rest_advance, List.length_drop, List.length_append, head_length, head_size,
    tail_size] at hr₂ hr₃ hb₂ hb₃
  have hT : 12 ≤ head.totalLength.toNat := by
    by_contra hlt
    rw [bodylen_of_lt (by omega)] at hb₃
    omega
  rw [bodylen_of_le hT] at hpos hr₂ hr₃ hb₃
  have hw : (f.rest.take head.totalLength.toNat).length = head.totalLength.toNat := by
    rw [List.length_take]
    omega
  have hframed : IsFramed head (f.rest.take head.totalLength.toNat) := by
    refine ⟨?_, hw.symm, by omega⟩
    rw [List.take_take, Nat.min_eq_left (by omega), henc]
  obtain ⟨f'', hok, hrest, -⟩ := readBlock_ok hframed (List.take_append_drop _ _).symm
    (show _ ≤ buffer.length by omega)
  cases h.symm.trans hok
  exact ⟨head, _, hframed, by rw [hrest, List.take_append_drop], by omega, rfl, rfl⟩

end Framing

section Passes

theorem detect_ok {head : PcapngBlockHead} {w : Bytes} (hw : IsFramed head w) (rest : Bytes)
    (f : File) : (detectPcapngBlocktype (w ++ rest) w.length).run f = .ok head.type f := by
  obtain ⟨hhead, -, hpos⟩ := hw
  have hsplit : w ++ rest = PcapngBlockHead.layout.enc head ++ (w.drop 8 ++ rest) := by
    rw [← hhead, ← List.append_assoc, List.take_append_drop]
  unfold detectPcapngBlocktype
  rw [run_bind_ok (throwIf_pass (by rw [head_size]; omega) _), hsplit,
    run_bind_ok (Layout.load_enc _ _ _ _)]
  rfl

/-- At the end of the file `recv` throws. -/
theorem recvPass_end {tmpBuffer : Scratch} {buffer : Bytes} {f : File} (h : f.rest = []) :
    (recvPass tmpBuffer buffer).run f =
      .error (.exception "pgen::pcapng_stream::recv: is end of file") (probed f) := by
  unfold recvPass
  rw [run_bind_ok (feof_run f), h]
  exact run_bind_error (throwIf_fail rfl _)

/-- A pass over a framed block that fits the scratch memory moves just behind it. -/
theorem recvPass_framed_tell {head : PcapngBlockHead} {w post : Bytes} {f : File}
    (hw : IsFramed head w) (hrest : f.rest = w ++ post) (hfit : w.length ≤ 1000)
    (tmpBuffer : Scratch) (buffer : Bytes) :
    ∃ f', f'.rest = post ∧ f'.tell = f.tell + w.length ∧ (recvPass tmpBuffer buffer).run f =
      (recvBlock w.length (w ++ tmpBuffer.toList.drop w.length) buffer).run f' := by
  have hne : f.rest.isEmpty = false := by
    rw [hrest, List.isEmpty_eq_false_iff]
    have hpos := hw.2.2
    intro he
    simp [List.append_eq_nil_iff.mp he] at hpos
  obtain ⟨f', hr, hf', htell⟩ := readBlock_ok hw ((rest_probed f).trans hrest)
    (show w.length ≤ tmpBuffer.toList.length by simpa using hfit)
  refine ⟨f', hf', by rw [htell, tell_probed], ?_⟩
  unfold recvPass
  rw [run_bind_ok (feof_run f), run_bind_ok (throwIf_pass (by simp [hne]) _), run_bind_ok hr]

theorem recvPass_framed {head : PcapngBlockHead} {w post : Bytes} {f : File}
    (hw : IsFramed head w) (hrest : f.rest = w ++ post) (hfit : w.length ≤ 1000)
    (tmpBuffer : Scratch) (buffer : Bytes) :
    ∃ f', f'.rest = post ∧ (recvPass tmpBuffer buffer).run f =
      (recvBlock w.length (w ++ tmpBuffer.toList.drop w.length) buffer).run f' := by
  obtain ⟨f', hf', -, hpass⟩ := recvPass_framed_tell hw hrest hfit tmpBuffer buffer
  exact ⟨f', hf', hpass⟩

theorem recvBlock_skip {head : PcapngBlockHead} {w : Bytes} (hw : IsFramed head w)
    (hepb : head.type ≠ PcapngType.EPB) (hspb : head.type ≠ PcapngType.SPB) (rest buffer : Bytes)
    (f : File) : (recvBlock w.length (w ++ rest) buffer).run f = .ok none f := by
  unfold recvBlock
  rw [run_bind_ok (detect_ok hw rest f), if_neg hepb, if_neg hspb]
  rfl

/-- A pass goes on only after a framed block of another type. -/
theorem recvPass_eq_none {tmpBuffer : Scratch} {buffer : Bytes} {f f' : File}
    (h : (recvPass tmpBuffer buffer).run f = .ok none f') :
    ∃ head w, IsFramed head w ∧ f.rest = w ++ f'.rest ∧ w.length ≤ 1000 ∧
      head.type ≠ PcapngType.EPB ∧ head.type ≠ PcapngType.SPB := by
  unfold recvPass at h
  rw [run_bind_ok (feof_run f)] at h
  obtain ⟨-, h₁⟩ := throwIf_bind_eq_ok.mp h
  obtain ⟨⟨n, b⟩, f₁, h₂, h₃⟩ := bind_eq_ok.mp h₁
  obtain ⟨head, w, hw, hrest, hfit, rfl, rfl⟩ := readBlock_eq_ok (by simp) h₂
  unfold recvBlock at h₃
  rw [run_bind_ok (detect_ok hw _ f₁)] at h₃
  rw [rest_probed] at hrest
  split_ifs at h₃ with hepb hspb
  · obtain ⟨_, _, _, h₄⟩ := bind_eq_ok.mp h₃
    obtain ⟨_, _, _, h₅⟩ := bind_eq_ok.mp h₄
    obtain ⟨_, _, _, h₆⟩ := bind_eq_ok.mp h₅
    cases h₆
  · cases h₃
  · cases h₃
    exact ⟨head, w, hw, hrest, by simpa using hfit, hepb, hspb⟩

theorem isFramed_of_isImage {B : Type} [BodyFormat B] {block : PcapngBlock B} {w : Bytes}
    (h : IsImage block w) (hpos : 0 < bodyLength block.body) :
    IsFramed ⟨block.type, block.totalLength⟩ w := by
  have hlen := h.length_eq
  obtain ⟨htot, body, -, rfl⟩ := h
  exact ⟨List.take_left' (head_length _), htot.symm, by omega⟩

/-- What `recv` makes of an enhanced packet block, by the packet length and not by the captured
length: it copies from the packet pointer on, and the scratch memory ends the view. -/
theorem recvBlock_epb {block : PcapngBlock PcapngEPB} {w : Bytes} (himg : IsImage block w)
    (htype : block.type = PcapngType.EPB) (rest buffer : Bytes) {k : ℕ}
    (hk : k = min buffer.length block.body.packetLength.toNat) (f : File) :
    (recvBlock w.length (w ++ rest) buffer).run f =
      if k ≤ ((w ++ rest).drop 28).length then
        .ok (some (k, ((w ++ rest).drop 28).take k ++ buffer.drop k)) f
      else .error .loadFault f := by
  have hpos : 0 < bodyLength block.body := by
    have := block.body.bodyLength_eq
    change 0 < block.body.bodyLength
    omega
  obtain ⟨b, hr, hcont⟩ := read_ok himg htype rest (Nat.le_refl _) PcapngEPB.new
  have hptr : b.packetDataPointer = (w ++ rest).drop 28 := packetDataPointer_of_read hr
  have hstruct : b.toEpbStruct = block.body.toEpbStruct :=
    EpbStruct.layout.enc_injective (List.append_inj hcont rfl).1
  have hplen : (if buffer.length < b.packetLength.toNat then UInt32.ofNat buffer.length
      else b.packetLength).toNat = k := by
    have hlt := b.packetLength.toNat_lt
    rw [hk, ← hstruct]
    split_ifs with hm
    · rw [UInt32.toNat_ofNat_of_lt' (hm.trans hlt)]
      omega
    · omega
  unfold recvBlock
  rw [run_bind_ok (detect_ok (isFramed_of_isImage himg hpos) rest f), if_pos htype,
    run_bind_ok (onLocal_ok hr f)]
  simp only [hplen, hptr]
  split_ifs with hview
  · have hdata : (((w ++ rest).drop 28).take k).length = k := by
      rw [List.length_take]
      omega
    rw [run_bind_ok (load_ok (by omega) f), List.drop_zero,
      run_bind_ok (onLocal_ok (store_ok (by omega)) f), splice_zero, hdata]
    rfl
  · exact run_bind_error (load_fault (by omega) f)

end Passes

section Loop

/-- More fuel than bytes left does not change a run. -/
theorem recvLoop_fuel {fuel fuel' : ℕ} {tmpBuffers : ℕ → Scratch} {buffer : Bytes} {f : File}
    (h : f.rest.length < fuel) (h' : f.rest.length < fuel') :
    (recvLoop fuel tmpBuffers buffer).run f = (recvLoop fuel' tmpBuffers buffer).run f := by
  induction fuel generalizing fuel' tmpBuffers f with
  | zero => omega
  | succ fuel ih =>
    cases fuel' with
    | zero => omega
    | succ fuel' =>
      unfold recvLoop
      cases hp : (recvPass (tmpBuffers 0) buffer).run f with
      | error e f' => rw [run_bind_error hp, run_bind_error hp]
      | ok r f' =>
        rw [run_bind_ok hp, run_bind_ok hp]
        cases r with
        | some r => rfl
        | none =>
          obtain ⟨head, w, ⟨-, -, hpos⟩, hrest, -⟩ := recvPass_eq_none hp
          rw [hrest, List.length_append] at h h'
          exact ih (by omega) (by omega)

variable {tmpBuffers : ℕ → Scratch} {buffer : Bytes} {f f' : File}

theorem recv_of_some {r : ℕ × Bytes}
    (h : (recvPass (tmpBuffers 0) buffer).run f = .ok (some r) f') :
    (recv tmpBuffers buffer).run f = .ok r f' := by
  unfold recv
  rw [run_bind_ok (run_get f), recvLoop, run_bind_ok h]
  rfl

theorem recv_of_error {e : Failure}
    (h : (recvPass (tmpBuffers 0) buffer).run f = .error e f') :
    (recv tmpBuffers buffer).run f = .error e f' := by
  unfold recv
  rw [run_bind_ok (run_get f), recvLoop, run_bind_error h]

theorem recv_of_none (h : (recvPass (tmpBuffers 0) buffer).run f = .ok none f') :
    (recv tmpBuffers buffer).run f = (recv (fun i => tmpBuffers (i + 1)) buffer).run f' := by
  obtain ⟨head, w, ⟨-, -, hpos⟩, hrest, -⟩ := recvPass_eq_none h
  have hlt : f'.rest.length < f.rest.length := by
    rw [hrest, List.length_append]
    omega
  unfold recv
  rw [run_bind_ok (run_get f), run_bind_ok (run_get f'), recvLoop, run_bind_ok h]
  exact recvLoop_fuel hlt (Nat.lt_succ_self _)

end Loop

section Writing

variable {B : Type} [BodyFormat B] [LawfulBody B]

/-- The memory `write_block` makes for a block is zeroed, and never too large for a vector. -/
theorem resize_totalLength (total : UInt32) (f : File) :
    (resize [] total.toNat).run f = .ok (List.replicate total.toNat 0) f := by
  have hlt := total.toNat_lt
  rw [resize_ok [] (by unfold vectorMaxSize; omega), List.take_nil, List.nil_append,
    List.length_nil, Nat.sub_zero]

/-- The bytes of a block whose total length is that of its parts go to the end of the file. -/
theorem writeBlock_ok (block : PcapngBlock B) {body : Bytes} (hbody : IsBody block.body body)
    (hlen : block.totalLength.toNat = 12 + bodyLength block.body + block.option.length)
    {f : File} (hend : AtEnd f) :
    ∃ f' w, (writeBlock block).run f = .ok () f' ∧ IsImage block w ∧
      f'.content = f.content ++ w ∧ AtEnd f' := by
  have hres := resize_totalLength block.totalLength f
  have hsize : (List.replicate block.totalLength.toNat (0 : UInt8)).length =
      block.totalLength.toNat := List.length_replicate
  obtain ⟨mem', hw⟩ := write_ok hbody hlen (Nat.le_of_eq hsize.symm) (Nat.le_refl _)
  obtain ⟨-, w, himg, rfl⟩ := write_eq_ok (Nat.le_refl _) hw
  rw [List.drop_eq_nil_of_le (by rw [himg.1, hsize]), List.append_nil] at hw
  obtain ⟨f', hf, hc, he⟩ := FileStream.write_ok hend w (by rw [himg.1]; omega)
  refine ⟨f', w, ?_, himg, hc, he⟩
  unfold writeBlock
  rw [run_bind_ok hres, run_bind_ok (onLocal_ok hw f), hf]

theorem writeThrough_ok (block : PcapngBlock B) {body tmpBuffer : Bytes}
    (hbody : IsBody block.body body)
    (hlen : block.totalLength.toNat = 12 + bodyLength block.body + block.option.length)
    (hfit : block.totalLength.toNat ≤ tmpBuffer.length) {f : File} (hend : AtEnd f) :
    ∃ f' w tmpBuffer', (writeThrough tmpBuffer block).run f = .ok tmpBuffer' f' ∧
      IsImage block w ∧ f'.content = f.content ++ w ∧ AtEnd f' ∧
      tmpBuffer'.length = tmpBuffer.length := by
  obtain ⟨mem', hw⟩ := write_ok hbody hlen hfit (Nat.le_refl _)
  obtain ⟨-, w, himg, rfl⟩ := write_eq_ok (Nat.le_refl _) hw
  obtain ⟨f', hf, hc, he⟩ := FileStream.write_ok hend w (by rw [himg.1]; omega)
  refine ⟨f', w, w ++ tmpBuffer.drop w.length, ?_, himg, hc, he, ?_⟩
  · unfold writeThrough
    rw [run_bind_ok (onLocal_ok hw f), run_bind_ok (load_ok (by
      rw [List.length_append, himg.1]
      omega) f), List.drop_zero, List.take_left' himg.1, run_bind_ok hf]
    rfl
  · rw [List.length_append, List.length_drop, himg.1]
    omega

/-- Opening a file for writing puts a section header and an interface description into it. -/
theorem openStream_images (name : String) (old : Bytes) (tmpBuffer : Scratch) (f : File) :
    ∃ f' shb idb, (openStream name .pcapngWrite (some old) tmpBuffer).run f = .ok () f' ∧
      IsImage PcapngSHB.new shb ∧ IsImage PcapngIDB.new idb ∧ f'.content = shb ++ idb ∧
      AtEnd f' := by
  have hopen : (fopen name .wb (some old)).run f = .ok () (File.start []) := rfl
  obtain ⟨f₁, shb, tmp₁, h₁, himg₁, hc₁, he₁, hl₁⟩ := writeThrough_ok PcapngSHB.new
    ⟨PcapngSHB.layout.enc_length _, [], rfl, (List.append_nil _).symm⟩ rfl
    (show 28 ≤ tmpBuffer.toList.length by simp) (f := File.start []) rfl
  obtain ⟨f₂, idb, tmp₂, h₂, himg₂, hc₂, he₂, -⟩ := writeThrough_ok PcapngIDB.new
    ⟨PcapngIDB.layout.enc_length _, [], rfl, (List.append_nil _).symm⟩ rfl
    (show 20 ≤ tmp₁.length by simp [hl₁]) he₁
  refine ⟨f₂, shb, idb, ?_, himg₁, himg₂, by rw [hc₂, hc₁]; rfl, he₂⟩
  change (fopen name .wb (some old) >>= fun _ => _).run f = _
  rw [run_bind_ok hopen, run_bind_ok h₁, run_bind_ok h₂]
  rfl

end Writing

end Pgen.PcapngStream
