import Pgen.FrameQueue
import Pgen.PcapngStream

/-!
# Whole pcapng files

A file this library writes is a section header, an interface description and one enhanced packet
block for each packet, and it is read back packet by packet, cut to the caller's buffers. Blocks of
other tools are received by their packet length, which is right as long as the caller's buffer or
the capture did not ask for more than was captured.
-/
namespace Pgen.PcapngCapture
open ByteMemory StdioFile StructLayout FileStream FrameQueue PcapngBlocks PcapngBodies PcapngStream

section PacketBlocks

/-- `w` is a well-formed enhanced packet block that fits the scratch memory of `recv`. -/
structure IsPacketBlock (block : PcapngBlock PcapngEPB) (w : Bytes) : Prop where
  type_eq : block.type = PcapngType.EPB
  image : IsImage block w
  fits : w.length ≤ 1000

variable {block : PcapngBlock PcapngEPB} {w : Bytes}

theorem IsPacketBlock.isFramed (h : IsPacketBlock block w) :
    IsFramed ⟨block.type, block.totalLength⟩ w := by
  refine isFramed_of_isImage h.image ?_
  have hbl := block.body.bodyLength_eq
  change 0 < block.body.bodyLength
  omega

/-- The captured bytes stand right where the packet pointer of a received block leads. -/
theorem IsPacketBlock.view (h : IsPacketBlock block w) (rest : Bytes) :
    block.body.captured.length = block.body.captureLength.toNat ∧
      ∃ more, (w ++ rest).drop 28 = block.body.captured ++ more := by
  obtain ⟨-, body, hbody, rfl⟩ := h.image
  obtain ⟨hcap, pad, -, rfl⟩ := isBody_epb_iff.mp hbody
  refine ⟨captured_length hcap, pad ++ (block.option ++
    (PcapngBlockTail.layout.enc ⟨block.totalLength⟩ ++ rest)), ?_⟩
  simp only [List.append_assoc]
  rw [← List.append_assoc (PcapngBlockHead.layout.enc _)]
  exact List.drop_left' (by rw [List.length_append, head_length, epbStruct_length])

theorem recv_packetBlock_tell (h : IsPacketBlock block w) {post : Bytes} {f : File}
    (hrest : f.rest = w ++ post) (tmpBuffers : ℕ → Scratch) (buffer : Bytes) {k : ℕ}
    (hk : k = min buffer.length block.body.packetLength.toNat) :
    ∃ f' more, f'.rest = post ∧ f'.tell = f.tell + w.length ∧ (recv tmpBuffers buffer).run f =
      if k ≤ (block.body.captured ++ more).length then
        .ok (k, (block.body.captured ++ more).take k ++ buffer.drop k) f'
      else .error .loadFault f' := by
  obtain ⟨f', hf', htell, hpass⟩ :=
    recvPass_framed_tell h.isFramed hrest h.fits (tmpBuffers 0) buffer
  obtain ⟨-, more, hview⟩ := h.view ((tmpBuffers 0).toList.drop w.length)
  rw [recvBlock_epb h.image h.type_eq _ buffer hk, hview] at hpass
  refine ⟨f', more, hf', htell, ?_⟩
  split_ifs at hpass ⊢ with hle
  · exact recv_of_some hpass
  · exact recv_of_error hpass

theorem recv_packetBlock (h : IsPacketBlock block w) {post : Bytes} {f : File}
    (hrest : f.rest = w ++ post) (tmpBuffers : ℕ → Scratch) (buffer : Bytes) {k : ℕ}
    (hk : k = min buffer.length block.body.packetLength.toNat) :
    ∃ f' more, f'.rest = post ∧ (recv tmpBuffers buffer).run f =
      if k ≤ (block.body.captured ++ more).length then
        .ok (k, (block.body.captured ++ more).take k ++ buffer.drop k) f'
      else .error .loadFault f' := by
  obtain ⟨f', more, hf', -, hr⟩ := recv_packetBlock_tell h hrest tmpBuffers buffer hk
  exact ⟨f', more, hf', hr⟩

/-- What a receive call with this buffer answers for a packet. -/
def truncated (buffer p : Bytes) : ℕ × Bytes :=
  let k := min buffer.length p.length
  (k, p.take k ++ buffer.drop k)

/-- If the length `recv` goes by does not pass the captured bytes, it returns those. -/
theorem recv_captured (h : IsPacketBlock block w) {post : Bytes} {f : File}
    (hrest : f.rest = w ++ post) (tmpBuffers : ℕ → Scratch) (buffer : Bytes)
    (hk : min buffer.length block.body.packetLength.toNat =
      min buffer.length block.body.captureLength.toNat) :
    ∃ f', (recv tmpBuffers buffer).run f = .ok (truncated buffer block.body.captured) f' ∧
      f'.rest = post := by
  obtain ⟨f', more, hf', hr⟩ := recv_packetBlock h hrest tmpBuffers buffer hk.symm
  have hlen := (h.view []).1
  refine ⟨f', ?_, hf'⟩
  rw [hr, if_pos (by rw [List.length_append]; omega), truncated, hlen,
    List.take_append_of_le_length (by omega)]

/-- `recv` returns the captured bytes, cut to the caller's buffer, exactly when the packet was
captured whole or the caller's buffer has no room for more than was captured. -/
theorem recv_captured_iff (h : IsPacketBlock block w)
    (hle : block.body.captureLength.toNat ≤ block.body.packetLength.toNat) {post : Bytes}
    {f : File} (hrest : f.rest = w ++ post) (tmpBuffers : ℕ → Scratch) (buffer : Bytes) :
    (∃ f', (recv tmpBuffers buffer).run f =
      .ok (min buffer.length block.body.captureLength.toNat,
        block.body.captured.take (min buffer.length block.body.captureLength.toNat) ++
          buffer.drop (min buffer.length block.body.captureLength.toNat)) f') ↔
      block.body.packetLength = block.body.captureLength ∨
        buffer.length ≤ block.body.captureLength.toNat := by
  have hlen := (h.view []).1
  constructor
  · rintro ⟨f', hr⟩
    obtain ⟨f'', more, -, hr'⟩ := recv_packetBlock h hrest tmpBuffers buffer rfl
    rw [hr'] at hr
    split_ifs at hr
    have hk : min buffer.length block.body.packetLength.toNat =
        min buffer.length block.body.captureLength.toNat :=
      congrArg Prod.fst (EStateM.Result.ok.inj hr).1
    rcases Nat.lt_or_ge block.body.captureLength.toNat buffer.length with hm | hm
    · refine .inl (UInt32.toNat_inj.mp ?_)
      omega
    · exact .inr hm
  · intro hor
    have hk : min buffer.length block.body.packetLength.toNat =
        min buffer.length block.body.captureLength.toNat := by
      rcases hor with heq | hm
      · rw [heq]
      · rw [Nat.min_eq_left hm, Nat.min_eq_left (hm.trans hle)]
    obtain ⟨f', hr, -⟩ := recv_captured h hrest tmpBuffers buffer hk
    rw [truncated, hlen] at hr
    exact ⟨f', hr⟩

/-- A packet of two bytes of which one was captured. -/
def cutBlock : PcapngBlock PcapngEPB where
  type := PcapngType.EPB
  totalLength := 36
  option := []
  body := ⟨⟨0, 0, 0, 1, 2⟩, [0xaa]⟩

/-- The cut packet in a file. -/
def cutBlockBytes : Bytes :=
  [6, 0, 0, 0, 36, 0, 0, 0, 0, 0, 0, 0, 0, 0, 0, 0, 0, 0, 0, 0, 1, 0, 0, 0, 2, 0, 0, 0,
    0xaa, 0x55, 0, 0, 36, 0, 0, 0]

theorem isPacketBlock_cutBlock : IsPacketBlock cutBlock cutBlockBytes where
  type_eq := rfl
  image := ⟨by decide, [0, 0, 0, 0, 0, 0, 0, 0, 0, 0, 0, 0, 1, 0, 0, 0, 2, 0, 0, 0,
    0xaa, 0x55, 0, 0], ⟨by decide, [0x55, 0, 0], by decide, by decide⟩, by decide⟩
  fits := by decide

theorem recv_captured_iff_cutBlock :
    (∃ f', (recv (fun _ => Vector.replicate 1000 0) [0]).run (File.start cutBlockBytes) =
      .ok (1, [0xaa]) f') ↔
      cutBlock.body.packetLength = cutBlock.body.captureLength ∨ 1 ≤ 1 :=
  recv_captured_iff isPacketBlock_cutBlock (by decide)
    (show (File.start cutBlockBytes).rest = cutBlockBytes ++ [] by simp) _ [0]

/-- With room for two bytes the cut packet is not received as captured. -/
theorem cutBlock_not_received :
    ¬ ∃ f', (recv (fun _ => Vector.replicate 1000 0) [0, 0]).run (File.start cutBlockBytes) =
      .ok (1, [0xaa, 0]) f' := by
  rintro ⟨f', hr⟩
  obtain ⟨f'', more, -, hr'⟩ := recv_packetBlock isPacketBlock_cutBlock
    (show (File.start cutBlockBytes).rest = cutBlockBytes ++ [] by simp)
    (fun _ => Vector.replicate 1000 0) [0, 0] rfl
  rw [hr'] at hr
  split_ifs at hr
  have hk : 2 = 1 := congrArg Prod.fst (EStateM.Result.ok.inj hr).1
  exact absurd hk (by decide)

end PacketBlocks

section Frames

/-- A frame of the queue: a block that carries no packet, or a whole packet. -/
def IsFrame (w : Bytes) : Option Bytes → Prop
  | none => w.length ≤ 1000 ∧
      ∃ head, IsFramed head w ∧ head.type ≠ PcapngType.EPB ∧ head.type ≠ PcapngType.SPB
  | some p => ∃ block, IsPacketBlock block w ∧ block.body.captured = p ∧
      block.body.packetLength = block.body.captureLength

/-- The queue a reading stream holds. -/
abbrev Holds := HoldsFrames File.rest IsFrame

theorem ne_nil_of_isFrame (w : Bytes) (o : Option Bytes) (h : IsFrame w o) : w ≠ [] := by
  have hpos : ∀ {head}, IsFramed head w → w ≠ [] := by
    rintro head ⟨-, -, hlt⟩ rfl
    simp at hlt
  cases o with
  | none =>
    obtain ⟨-, head, hw, -⟩ := h
    exact hpos hw
  | some p =>
    obtain ⟨block, hw, -⟩ := h
    exact hpos hw.isFramed

/-- `recv` takes the first packet of the queue and the blocks before it. -/
theorem recv_holds {q q' : List (Option Bytes)} {p : Bytes} {f : File} (h : Holds f q)
    (hnext : nextPayload q = some (p, q')) (tmpBuffers : ℕ → Scratch) (buffer : Bytes) :
    ∃ f', (recv tmpBuffers buffer).run f = .ok (truncated buffer p) f' ∧ Holds f' q' := by
  induction q generalizing f tmpBuffers with
  | nil => simp [nextPayload] at hnext
  | cons o q ih =>
    obtain ⟨w, tail, hw, hrest, htail⟩ := holdsFrames_cons h
    cases o with
    | none =>
      obtain ⟨hfit, head, hframed, hepb, hspb⟩ := hw
      obtain ⟨f₁, hf₁, hpass⟩ := recvPass_framed hframed hrest hfit (tmpBuffers 0) buffer
      rw [recvBlock_skip hframed hepb hspb] at hpass
      rw [recv_of_none hpass]
      exact ih (htail f₁ hf₁) hnext _
    | some a =>
      obtain ⟨block, hblock, rfl, hlen⟩ := hw
      simp only [nextPayload, Option.some.injEq, Prod.mk.injEq] at hnext
      obtain ⟨rfl, rfl⟩ := hnext
      obtain ⟨f', hr, hf'⟩ := recv_captured hblock hrest tmpBuffers buffer (by rw [hlen])
      exact ⟨f', hr, htail f' hf'⟩

/-- When no packet is left, `recv` skips what is there and reports the end. -/
theorem recv_holds_end {q : List (Option Bytes)} {f : File} (h : Holds f q)
    (hnext : nextPayload q = none) (tmpBuffers : ℕ → Scratch) (buffer : Bytes) :
    ∃ f', (recv tmpBuffers buffer).run f =
      .error (.exception "pgen::pcapng_stream::recv: is end of file") f' := by
  induction q generalizing f tmpBuffers with
  | nil =>
    obtain ⟨ws, hws, hrest⟩ := h
    cases hws
    exact ⟨_, recv_of_error (recvPass_end (by simpa using hrest))⟩
  | cons o q ih =>
    obtain ⟨w, tail, hw, hrest, htail⟩ := holdsFrames_cons h
    cases o with
    | none =>
      obtain ⟨hfit, head, hframed, hepb, hspb⟩ := hw
      obtain ⟨f₁, hf₁, hpass⟩ := recvPass_framed hframed hrest hfit (tmpBuffers 0) buffer
      rw [recvBlock_skip hframed hepb hspb] at hpass
      rw [recv_of_none hpass]
      exact ih (htail f₁ hf₁) hnext _
    | some a => simp [nextPayload] at hnext

/-- A receive call: what the scratch memory holds in each pass, and the caller's buffer. -/
abbrev Call := (ℕ → Scratch) × Bytes

def recvCall (call : Call) : Exec File (ℕ × Bytes) := recv call.1 call.2

theorem recv_simulates :
    Simulates eof recvCall (fun _ _ => True) (fun call p => truncated call.2 p) Holds where
  eof_run := by
    intro f q h
    refine ⟨probed f, ?_, holdsFrames_of_rest_eq h (rest_probed f)⟩
    rw [eof_run, isEmpty_of_holdsFrames ne_nil_of_isFrame h]
  recv_run := by
    intro f q p q' call h hnext _
    exact recv_holds h hnext call.1 call.2
  recv_end := by
    intro f q call h hnext
    obtain ⟨f', hr⟩ := recv_holds_end h hnext call.1 call.2
    exact ⟨_, f', hr⟩

end Frames

section Writing

theorem isFrame_of_isImage {B : Type} [BodyFormat B] {block : PcapngBlock B} {w : Bytes}
    (himg : IsImage block w) (hpos : 0 < bodyLength block.body) (hfit : w.length ≤ 1000)
    (hepb : block.type ≠ PcapngType.EPB) (hspb : block.type ≠ PcapngType.SPB) :
    IsFrame w none :=
  ⟨hfit, _, isFramed_of_isImage himg hpos, hepb, hspb⟩

/-- Opening a file for writing puts two blocks that carry no packet into it. -/
theorem openStream_write (name : String) (old : Bytes) (tmpBuffer : Scratch) (f : File) :
    ∃ f' w₁ w₂, (openStream name .pcapngWrite (some old) tmpBuffer).run f = .ok () f' ∧
      f'.content = w₁ ++ w₂ ∧ IsFrame w₁ none ∧ IsFrame w₂ none ∧ AtEnd f' := by
  obtain ⟨f', w₁, w₂, hrun, himg₁, himg₂, hc, he⟩ := openStream_images name old tmpBuffer f
  refine ⟨f', w₁, w₂, hrun, hc, ?_, ?_, he⟩
  · exact isFrame_of_isImage himg₁ (by decide) (by rw [himg₁.1]; decide) (by decide) (by decide)
  · exact isFrame_of_isImage himg₂ (by decide) (by rw [himg₂.1]; decide) (by decide) (by decide)

/-- A send appends one enhanced packet block. -/
theorem send_frame {p : Bytes} (hp : p.length ≤ 968) {f : File} (hend : AtEnd f) :
    ∃ f' w, (send p).run f = .ok () f' ∧ f'.content = f.content ++ w ∧
      IsFrame w (some p) ∧ AtEnd f' := by
  let block := PcapngEPB.setPacket p PcapngEPB.new
  have hcap : block.body.captureLength.toNat = p.length := captureLength_toNat (by omega)
  have hlen : block.totalLength.toNat = 12 + block.body.bodyLength :=
    setPacket_totalLength (by omega)
  have hbody := isBody_epb_iff.mpr ⟨Nat.le_of_eq hcap, _,
    List.length_replicate (n := block.body.padding) (a := (0 : UInt8)), rfl⟩
  obtain ⟨f', w, hw, himg, hc, he⟩ := writeBlock_ok block hbody hlen hend
  refine ⟨f', w, hw, hc, ⟨block, ⟨rfl, himg, ?_⟩, ?_, rfl⟩, he⟩
  · have hbl := block.body.bodyLength_eq
    have hpad := block.body.padding_le
    have hmod := block.body.bodyLength_mod
    rw [himg.1, hlen]
    omega
  · change p.take block.body.captureLength.toNat = p
    rw [hcap, List.take_length]

end Writing

section RoundTrip

/-- Open a file for writing and send the packets in order; closing writes nothing more. -/
def writeCapture (name : String) (disk : Option Bytes) (tmpBuffer : Scratch)
    (packets : List Bytes) : Exec File Unit := do
  openStream name .pcapngWrite disk tmpBuffer
  packets.forM send

/-- The file holds two blocks without a packet and then one block for each packet. -/
theorem writeCapture_ok (name : String) (old : Bytes) (tmpBuffer : Scratch)
    {packets : List Bytes} (hpk : ∀ p ∈ packets, p.length ≤ 968) (f : File) :
    ∃ f' ws, (writeCapture name (some old) tmpBuffer packets).run f = .ok () f' ∧
      f'.content = ws.flatten ∧ List.Forall₂ IsFrame ws ([none, none] ++ packets.map some) := by
  obtain ⟨f₁, w₁, w₂, h₁, hc₁, hw₁, hw₂, he₁⟩ := openStream_write name old tmpBuffer f
  obtain ⟨f₂, ws, h₂, hc₂, hws, -⟩ :=
    forM_append_frames (fun p hp _ he => send_frame (hpk p hp) he) he₁
  refine ⟨f₂, w₁ :: w₂ :: ws, ?_, ?_, ?_⟩
  · unfold writeCapture
    rw [run_bind_ok h₁, h₂]
  · rw [hc₂, hc₁, List.flatten_cons, List.flatten_cons, List.append_assoc]
  · exact .cons hw₁ (.cons hw₂ (List.forall₂_map_right_iff.mpr hws))

/-- What is written is read back, cut to the buffers of the caller; the end is reported after the
last packet, and receiving goes no further. -/
theorem pcapng_roundtrip (name : String) (old : Bytes) (tmpBuffer tmpBuffer' : Scratch)
    (f₀ : File) {packets : List Bytes} {calls : List (ℕ × Call)}
    (hpk : ∀ p ∈ packets, p.length ≤ 968) (hcalls : calls.length = packets.length) (n : ℕ)
    (more : Call) :
    ∃ written, (writeCapture name (some old) tmpBuffer packets).run f₀ = .ok () written ∧
    ∃ opened,
      (openStream name .pcapngRead (some written.content) tmpBuffer').run f₀ = .ok () opened ∧
    ∃ finished, (session eof recvCall calls).run opened =
      .ok (List.zipWith (fun c p => (List.replicate c.1 false,
        (min c.2.2.length p.length, p.take (min c.2.2.length p.length) ++
          c.2.2.drop (min c.2.2.length p.length)))) calls packets) finished ∧
    ∃ probed, (probes eof n).run finished =
      .ok (List.replicate n (decide (packets ≠ []))) probed ∧
    ∃ what last, (recvCall more).run probed = .error (.exception what) last := by
  obtain ⟨written, ws, hw, hc, hws⟩ := writeCapture_ok name old tmpBuffer hpk f₀
  have hholds : Holds (File.start written.content) ([none, none] ++ packets.map some) :=
    ⟨ws, hws, by rw [rest_start, hc]⟩
  have hacc : List.Forall₂ (fun (c : ℕ × Call) (_ : Bytes) => True) calls packets := by
    rw [List.forall₂_iff_get]
    exact ⟨hcalls, fun _ _ _ => trivial⟩
  obtain ⟨finished, hs, hf⟩ := session_run recv_simulates hacc [none, none] (by simp) hholds
  obtain ⟨probed, hp, hprobed⟩ := probes_run (fun f => Holds f _) recv_simulates.eof_run n hf
  have hnext : nextPayload (if packets = [] then [none, none] else ([] : List (Option Bytes))) =
      none := by
    split_ifs <;> rfl
  obtain ⟨what, last, hl⟩ : ∃ what last,
    (recvCall more).run probed = .error (.exception what) last :=
    recv_simulates.recv_end hprobed hnext
  refine ⟨written, hw, _, rfl, finished, hs, probed, ?_, what, last, hl⟩
  cases packets with
  | nil => exact hp
  | cons p packets => exact hp

theorem pcapng_roundtrip_two_packets :
    ∃ written, (writeCapture "out.pcapng" (some []) (Vector.replicate 1000 0)
        [[1, 2, 3], []]).run (File.start []) = .ok () written ∧
    ∃ opened, (openStream "out.pcapng" .pcapngRead (some written.content)
        (Vector.replicate 1000 0)).run (File.start []) = .ok () opened ∧
    ∃ finished, (session eof recvCall [(2, fun _ => Vector.replicate 1000 0, [0, 0]),
        (0, fun _ => Vector.replicate 1000 0, [7])]).run opened =
      .ok [([false, false], (2, [1, 2])), ([], (0, [7]))] finished ∧
    ∃ probed, (probes eof 1).run finished = .ok [true] probed ∧
    ∃ what last, (recvCall (fun _ => Vector.replicate 1000 0, [])).run probed =
      .error (.exception what) last :=
  pcapng_roundtrip "out.pcapng" [] (Vector.replicate 1000 0) (Vector.replicate 1000 0)
    (File.start []) (by decide) rfl 1 _

end RoundTrip

end Pgen.PcapngCapture
