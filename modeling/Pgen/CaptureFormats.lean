import Pgen.PcapCapture
import Pgen.PcapRecords
import Pgen.PcapngCapture

/-!
# The two formats of capture files

Both stream classes open a file with blocks that carry no packet, append one block for each frame,
and read frame by frame. What programs do with capture files is stated for both at once.
-/
namespace Pgen.CaptureFormats
open ByteMemory StdioFile FileStream FrameQueue

inductive Format
  | pcap
  | pcapng
  deriving DecidableEq, Repr

namespace Format

section Calls

/-- Open a file for writing. -/
def openWrite (name : String) (disk : Option Bytes) (tmpBuffer : PcapngStream.Scratch) :
    Format → Exec File Unit
  | .pcap => do
    let _ ← PcapStream.openStream name .pcapWrite disk
  | .pcapng => PcapngStream.openStream name .pcapngWrite disk tmpBuffer

/-- Open a file for reading. -/
def openRead (name : String) (disk : Option Bytes) (tmpBuffer : PcapngStream.Scratch) :
    Format → Exec File Unit
  | .pcap => do
    let _ ← PcapStream.openStream name .pcapRead disk
  | .pcapng => PcapngStream.openStream name .pcapngRead disk tmpBuffer

def send : Format → Bytes → Exec File Unit
  | .pcap => PcapStream.send
  | .pcapng => PcapngStream.send

/-- A receive call, for pcapng with what the scratch memory holds in each pass. -/
def recv : Format → PcapngCapture.Call → Exec File (ℕ × Bytes)
  | .pcap, call => PcapStream.recv call.2
  | .pcapng, call => PcapngCapture.recvCall call

/-- Open a file for writing and send the frames in order; closing writes nothing more. -/
def writeFrames (fmt : Format) (name : String) (disk : Option Bytes)
    (tmpBuffer : PcapngStream.Scratch) (frames : List Bytes) : Exec File Unit := do
  fmt.openWrite name disk tmpBuffer
  frames.forM fmt.send

end Calls

section Frames

/-- The longest frame that comes back whole. -/
def maxFrame : Format → ℕ
  | .pcap => 2^32 - 1
  | .pcapng => 968

/-- The frames that the format can carry. -/
def Fits (fmt : Format) (frame : Bytes) : Prop := 0 < frame.length ∧ frame.length ≤ fmt.maxFrame

/-- The blocks that may follow one another in a file. -/
def IsFrame : Format → Bytes → Option Bytes → Prop
  | .pcap => PcapStream.IsRecord
  | .pcapng => PcapngCapture.IsFrame

/-- The blocks without a packet in front of the first frame. -/
def lead : Format → List (Option Bytes)
  | .pcap => []
  | .pcapng => [none, none]

/-- A reading stream holds the queue of frames, and then these bytes. -/
def HoldsThen (fmt : Format) (tail : Bytes) (f : File) (q : List (Option Bytes)) : Prop :=
  ∃ bs, List.Forall₂ fmt.IsFrame bs q ∧ f.rest = bs.flatten ++ tail

/-- What is left of a file behind the last whole block when writing the next one was cut short. -/
def Torn (fmt : Format) (tail : Bytes) : Prop :=
  tail = [] ∨ ∃ frame more, more ≠ [] ∧ fmt.IsFrame (tail ++ more) (some frame)

/-- What a call answers that has room for the frame. -/
def answer (call : PcapngCapture.Call) (frame : Bytes) : ℕ × Bytes :=
  (frame.length, frame ++ call.2.drop frame.length)

end Frames

end Format

section Laws

theorem lead_none (fmt : Format) : ∀ o ∈ fmt.lead, o = none := by
  cases fmt <;> simp [Format.lead]

theorem ne_nil_of_isFrame (fmt : Format) {w : Bytes} {o : Option Bytes} (h : fmt.IsFrame w o) :
    w ≠ [] := by
  cases fmt with
  | pcap =>
    cases o with
    | none => exact h.elim
    | some p =>
      obtain ⟨-, ph, -, rfl⟩ := h
      exact List.append_ne_nil_of_left_ne_nil (List.cons_ne_nil _ _) _
  | pcapng => exact PcapngCapture.ne_nil_of_isFrame w o h

/-- A receive call with room for the frame at the front of the file. -/
theorem recv_frame (fmt : Format) {w p post : Bytes} (hw : fmt.IsFrame w (some p)) {f : File}
    (hrest : f.rest = w ++ post) {call : PcapngCapture.Call} (hroom : p.length ≤ call.2.length) :
    ∃ f', (fmt.recv call).run f = .ok (Format.answer call p) f' ∧ f'.rest = post := by
  cases fmt with
  | pcap =>
    obtain ⟨hpos, ph, hlen, rfl⟩ := hw
    rw [List.append_assoc] at hrest
    exact PcapStream.recv_ok hrest hlen hpos hroom
  | pcapng =>
    obtain ⟨block, hblock, rfl, hlen⟩ := hw
    obtain ⟨f', hr, hf'⟩ := PcapngCapture.recv_captured hblock hrest call.1 call.2 (by rw [hlen])
    rw [PcapngCapture.truncated, Nat.min_eq_right hroom, List.take_length] at hr
    exact ⟨f', hr, hf'⟩

/-- A block without a packet is skipped. -/
theorem recv_skip (fmt : Format) {w post : Bytes} (hw : fmt.IsFrame w none) {f : File}
    (hrest : f.rest = w ++ post) (call : PcapngCapture.Call) :
    ∃ tmpBuffers f', (fmt.recv call).run f = (fmt.recv (tmpBuffers, call.2)).run f' ∧
      f'.rest = post := by
  cases fmt with
  | pcap => exact hw.elim
  | pcapng =>
    obtain ⟨hfit, head, hframed, hepb, hspb⟩ := hw
    obtain ⟨f₁, hf₁, hpass⟩ :=
      PcapngStream.recvPass_framed hframed hrest hfit (call.1 0) call.2
    rw [PcapngStream.recvBlock_skip hframed hepb hspb] at hpass
    exact ⟨_, f₁, PcapngStream.recv_of_none hpass, hf₁⟩

/-- `read_block` on the beginning of a block that fits its buffer throws. -/
theorem readBlock_torn {head : PcapngBlocks.PcapngBlockHead} {part more buffer : Bytes} {f : File}
    (hw : PcapngStream.IsFramed head (part ++ more)) (hmore : more ≠ []) (hrest : f.rest = part)
    (hfit : (part ++ more).length ≤ buffer.length) :
    ∃ what f', (PcapngStream.readBlock buffer).run f = .error (.exception what) f' := by
  obtain ⟨hhead, hlen, hpos⟩ := hw
  have hpart : part.length < (part ++ more).length := by
    rw [List.length_append]
    exact Nat.lt_add_of_pos_right (List.length_pos_iff.mpr hmore)
  have hbody : PcapngStream.bodylen head = (part ++ more).length - 12 := by
    rw [PcapngStream.bodylen_of_le (by omega), hlen]
  have hleft : f.rest.length = part.length := by rw [hrest]
  rcases Nat.lt_or_ge part.length 8 with hlt | hge
  · have hread : (FileStream.read buffer 0 8).run f = _ := read_short (by omega) (by omega)
    exact ⟨_, _, run_bind_error hread⟩
  have htake : f.rest.take 8 = PcapngBlocks.PcapngBlockHead.layout.enc head := by
    rw [hrest, ← hhead, List.take_append_of_le_length hge]
  rw [PcapngStream.readBlock_head (by omega) (by omega), htake, StructLayout.Layout.dec_enc]
  have hmem : (splice buffer 0 (PcapngBlocks.PcapngBlockHead.layout.enc head)).length =
      buffer.length := splice_length (by rw [PcapngBlocks.head_length]; omega)
  have hrest₁ : (f.advance 8).rest.length = part.length - 8 := by
    rw [rest_advance, hrest, List.length_drop]
  generalize splice buffer 0 _ = mem at hmem
  have hcut : ∃ f', (PcapngStream.readBlockRest head mem).run (f.advance 8) = .error _ f' ∧ _ :=
    PcapngStream.readBlockRest_cut (by omega) (by omega) (by omega)
  obtain ⟨f', hr, -⟩ := hcut
  exact ⟨_, f', hr⟩

/-- At the end of the frames, and in a block that was cut short, a receive call throws. -/
theorem recv_torn (fmt : Format) {part : Bytes} (htorn : fmt.Torn part) {f : File}
    (hrest : f.rest = part) (call : PcapngCapture.Call) :
    ∃ what f', (fmt.recv call).run f = .error (.exception what) f' := by
  cases fmt with
  | pcap =>
    rcases Nat.lt_or_ge part.length 16 with hlt | hge
    · have hs := readStruct_short PcapStream.PcapPacketHeader.layout (f := f)
        (by rw [hrest, PcapStream.packetHeader_size]; exact hlt)
      exact ⟨_, _, run_bind_error hs⟩
    · obtain rfl | ⟨frame, more, hmore, hpos, ph, hlen, heq⟩ := htorn
      · simp at hge
      have hdata : part = PcapStream.PcapPacketHeader.layout.enc ph ++ part.drop 16 ∧
          frame.length = (part.drop 16).length + more.length := by
        have henc := PcapStream.PcapPacketHeader.layout.enc_length ph
        rw [PcapStream.packetHeader_size] at henc
        have htake := congrArg (List.take 16) heq
        rw [List.take_append_of_le_length hge, List.take_left' henc] at htake
        have hall := congrArg List.length heq
        simp only [List.length_append, henc] at hall
        refine ⟨by rw [← htake, List.take_append_drop], ?_⟩
        rw [List.length_drop]
        omega
      have hpos' : 0 < more.length := List.length_pos_iff.mpr hmore
      obtain ⟨f', hr, -⟩ := PcapRecords.recv_run (hrest.trans hdata.1) call.2
      by_cases hsmall : call.2.length < ph.originalLen.toNat
      · rw [if_pos hsmall] at hr
        exact ⟨_, f', hr⟩
      · rw [if_neg hsmall, if_neg (by omega)] at hr
        exact ⟨_, f', hr⟩
  | pcapng =>
    by_cases hempty : part = []
    · exact ⟨_, _, PcapngStream.recv_of_error (PcapngStream.recvPass_end (hrest.trans hempty))⟩
    · obtain rfl | ⟨frame, more, hmore, block, hblock, -, -⟩ := htorn
      · exact absurd rfl hempty
      have hfit : (part ++ more).length ≤ (call.1 0).toList.length := by
        rw [Vector.length_toList]
        exact hblock.fits
      obtain ⟨what, f', hread⟩ :=
        readBlock_torn hblock.isFramed hmore ((rest_probed f).trans hrest) hfit
      have hne : f.rest.isEmpty = false := by rwa [hrest, List.isEmpty_eq_false_iff]
      refine ⟨what, f', PcapngStream.recv_of_error ?_⟩
      unfold PcapngStream.recvPass
      rw [run_bind_ok (feof_run f), run_bind_ok (throwIf_pass (by simp [hne]) _),
        run_bind_error hread]

/-- Opening a file for writing puts the lead into it, and a reader finds this in front of the blocks
that were appended. -/
theorem open_holds (fmt : Format) (name : String) (old : Bytes)
    (tmpBuffer tmpBuffer' : PcapngStream.Scratch) (f₀ : File) :
    ∃ f, (fmt.openWrite name (some old) tmpBuffer).run f₀ = .ok () f ∧ AtEnd f ∧
      ∀ {ws : List Bytes} {q : List (Option Bytes)}, List.Forall₂ fmt.IsFrame ws q → ∀ tail,
        ∃ opened, (fmt.openRead name (some (f.content ++ ws.flatten ++ tail)) tmpBuffer').run f₀ =
          .ok () opened ∧ fmt.HoldsThen tail opened (fmt.lead ++ q) := by
  cases fmt with
  | pcap =>
    obtain ⟨f, hf, hc, he⟩ := PcapStream.openStream_write name old f₀
    refine ⟨f, run_bind_ok hf, he, fun {ws q} hws tail => ?_⟩
    obtain ⟨header, opened, ho, hrest⟩ := PcapStream.openStream_read name (ws.flatten ++ tail)
      (PcapStream.PcapFileHeader.layout.enc_length PcapStream.writtenHeader) f₀
    rw [← hc, ← List.append_assoc] at ho
    exact ⟨opened, run_bind_ok ho, ws, hws, hrest⟩
  | pcapng =>
    obtain ⟨f, w₁, w₂, hf, hc, hw₁, hw₂, he⟩ :=
      PcapngCapture.openStream_write name old tmpBuffer f₀
    refine ⟨f, hf, he, fun {ws q} hws tail => ⟨_, rfl, w₁ :: w₂ :: ws, ?_, ?_⟩⟩
    · exact .cons hw₁ (.cons hw₂ hws)
    · simp [rest_start, hc]

/-- A send appends one block. -/
theorem send_frame (fmt : Format) {frame : Bytes} (hfit : fmt.Fits frame) {f : File}
    (hend : AtEnd f) : ∃ f' w, (fmt.send frame).run f = .ok () f' ∧ f'.content = f.content ++ w ∧
      fmt.IsFrame w (some frame) ∧ AtEnd f' := by
  cases fmt with
  | pcap => exact PcapStream.send_ok hfit.1 (Nat.lt_of_le_pred (by norm_num) hfit.2) hend
  | pcapng => exact PcapngCapture.send_frame hfit.2 hend

/-- A file of frames is opened as the queue of these. -/
theorem writeFrames_ok (fmt : Format) (name : String) (old : Bytes)
    (tmpBuffer tmpBuffer' : PcapngStream.Scratch) (f₀ : File) {frames : List Bytes}
    (hfit : ∀ frame ∈ frames, fmt.Fits frame) :
    ∃ written, (fmt.writeFrames name (some old) tmpBuffer frames).run f₀ = .ok () written ∧
      ∃ opened, (fmt.openRead name (some written.content) tmpBuffer').run f₀ = .ok () opened ∧
        fmt.HoldsThen [] opened (fmt.lead ++ frames.map some) := by
  obtain ⟨f, hf, he, hopen⟩ := open_holds fmt name old tmpBuffer tmpBuffer' f₀
  obtain ⟨written, ws, hw, hc, hws, -⟩ :=
    forM_append_frames (fun frame hmem _ he => send_frame fmt (hfit frame hmem) he) he
  obtain ⟨opened, ho, hholds⟩ := hopen (List.forall₂_map_right_iff.mpr hws) []
  rw [List.append_nil, ← hc] at ho
  exact ⟨written, (run_bind_ok hf).trans hw, opened, ho, hholds⟩

variable {fmt : Format} {tail : Bytes} {f : File} {q : List (Option Bytes)}

theorem Format.HoldsThen.cons {o : Option Bytes} (h : fmt.HoldsThen tail f (o :: q)) :
    ∃ w post, fmt.IsFrame w o ∧ f.rest = w ++ post ∧
      ∀ f', f'.rest = post → fmt.HoldsThen tail f' q := by
  obtain ⟨bs, hbs, hrest⟩ := h
  cases hbs with
  | @cons w _ bs _ hw hbs =>
    rw [List.flatten_cons, List.append_assoc] at hrest
    exact ⟨w, _, hw, hrest, fun f' hf' => ⟨bs, hbs, hf'⟩⟩

theorem Format.HoldsThen.of_rest_eq (h : fmt.HoldsThen tail f q) {f' : File}
    (he : f'.rest = f.rest) : fmt.HoldsThen tail f' q := by
  obtain ⟨bs, hbs, hrest⟩ := h
  exact ⟨bs, hbs, he.trans hrest⟩

/-- Probing for the end takes nothing. -/
theorem probes_holdsThen (h : fmt.HoldsThen tail f q) (n : ℕ) : ∃ f',
    (probes eof n).run f = .ok (List.replicate n f.rest.isEmpty) f' ∧ fmt.HoldsThen tail f' q := by
  obtain ⟨f', hr, hf'⟩ := probes_run (fun f' => f'.rest = f.rest)
    (fun {g} hg => ⟨probed g, by rw [eof_run, hg], (rest_probed g).trans hg⟩) n rfl
  exact ⟨f', hr, h.of_rest_eq hf'⟩

/-- As long as a block is left, the end of the file is not seen. -/
theorem Format.HoldsThen.not_isEmpty (h : fmt.HoldsThen tail f q) (hq : q ≠ []) :
    f.rest.isEmpty = false := by
  obtain ⟨o, q, rfl⟩ := List.exists_cons_of_ne_nil hq
  obtain ⟨w, post, hw, hrest, -⟩ := h.cons
  simp [hrest, ne_nil_of_isFrame fmt hw]

/-- The frames are received whatever lies behind the last of them. -/
theorem simulatesFront (fmt : Format) (tail : Bytes) : SimulatesFront eof fmt.recv
    (fun call frame => frame.length ≤ call.2.length) Format.answer (fmt.HoldsThen tail) where
  eof_run := by
    intro f o q h
    refine ⟨probed f, ?_, h.of_rest_eq (rest_probed f)⟩
    rw [eof_run, h.not_isEmpty (List.cons_ne_nil o q)]
  recv_run := by
    intro f q p q' call h hnext hroom
    induction q generalizing f call with
    | nil => simp [nextPayload] at hnext
    | cons o q ih =>
      obtain ⟨w, post, hw, hrest, hpost⟩ := h.cons
      cases o with
      | none =>
        obtain ⟨tmpBuffers, f', hr, hf'⟩ := recv_skip fmt hw hrest call
        rw [hr]
        exact ih (hpost f' hf') hnext hroom
      | some a =>
        simp only [nextPayload, Option.some.injEq, Prod.mk.injEq] at hnext
        obtain ⟨rfl, rfl⟩ := hnext
        obtain ⟨f', hr, hf'⟩ := recv_frame fmt hw hrest hroom
        exact ⟨f', hr, hpost f' hf'⟩

/-- Where no frame is left and the last block was cut short, a receive call throws. -/
theorem recv_front_end (htorn : fmt.Torn tail) (hq : ∀ o ∈ q, o = none)
    (h : fmt.HoldsThen tail f q) (call : PcapngCapture.Call) :
    ∃ what f', (fmt.recv call).run f = .error (.exception what) f' := by
  induction q generalizing f call with
  | nil =>
    obtain ⟨bs, hbs, hrest⟩ := h
    cases hbs
    exact recv_torn fmt htorn hrest call
  | cons o q ih =>
    rw [List.forall_mem_cons] at hq
    obtain ⟨w, post, hw, hrest, hpost⟩ := h.cons
    obtain rfl := hq.1
    obtain ⟨tmpBuffers, f', hr, hf'⟩ := recv_skip fmt hw hrest call
    rw [hr]
    exact ih hq.2 (hpost f' hf') (tmpBuffers, call.2)

end Laws

end Pgen.CaptureFormats
