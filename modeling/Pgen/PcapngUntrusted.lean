import Pgen.PcapngBounds
import Pgen.PcapngCapture
import Pgen.PcapngDecoding
import Pgen.PcapngFraming
import Pgen.Refinement

/-!
# Pcapng files that nobody checked

The relation `Receives` says for every content of a file what one receive call comes to and what it
leaves of the file: blocks without packets are passed over, a packet block is delivered or refused,
a block that the file cuts short is an exception. Nothing is known any more after a request for
more bytes than the scratch memory has, so this ends the known part of a session, as an access
outside it does. What is delivered up to there stands in disjoint packet blocks.
-/
namespace Pgen.PcapngUntrusted
open ByteMemory StdioFile StructLayout FileStream PcapngBlocks PcapngBodies PcapngStream
  PcapngCapture PcapngBounds PcapngDecoding Refinement

section Calls

inductive Call
  | eof
  | recv (tmpBuffers : ℕ → Scratch) (buffer : Bytes)

/-- What a call returns: whether the end was seen, or the length and the caller's buffer. -/
inductive Answer
  | atEnd (b : Bool)
  | received (n : ℕ) (buffer : Bytes)
  deriving DecidableEq, Repr

def act : Call → Exec File Answer
  | .eof => do
    let b ← eof
    pure (.atEnd b)
  | .recv tmpBuffers buffer => do
    let (n, buffer) ← recv tmpBuffers buffer
    pure (.received n buffer)

/-- What the packet pointer of a block leads to: the scratch memory from there on. -/
def pointed (w : Bytes) (tmpBuffer : Scratch) : Bytes :=
  (w ++ tmpBuffer.toList.drop w.length).drop 28

/-- What is left of the file does not start with a whole block. -/
def Unframed (left : Bytes) : Prop := ∀ head w rest, IsFramed head w → left ≠ w ++ rest

/-- The length that stands here makes `read_block` ask for more bytes than the scratch memory has:
it is more than 1000, or it is below 12 and wraps around. -/
def Oversized (left : Bytes) : Prop := 8 ≤ left.length ∧ 1000 < blockExtent left

/-- What a receive call reports of what is left of a file, and what it leaves of it. -/
inductive Receives : (ℕ → Scratch) → Bytes → Bytes → Report Answer → Bytes → Prop
  | passed {tmpBuffers : ℕ → Scratch} {buffer w left rest : Bytes} {report : Report Answer} :
      IsFrame w none → Receives (fun i => tmpBuffers (i + 1)) buffer left report rest →
      Receives tmpBuffers buffer (w ++ left) report rest
  | delivered {tmpBuffers : ℕ → Scratch} {buffer w left : Bytes} {block : PcapngBlock PcapngEPB}
      {n : ℕ} : IsPacketBlock block w → n = min buffer.length block.body.packetLength.toNat →
      n ≤ 972 → Receives tmpBuffers buffer (w ++ left)
        (.returned (.received n ((pointed w (tmpBuffers 0)).take n ++ buffer.drop n))) left
  | outside {tmpBuffers : ℕ → Scratch} {buffer w left : Bytes} {block : PcapngBlock PcapngEPB} :
      IsPacketBlock block w → 972 < min buffer.length block.body.packetLength.toNat →
      Receives tmpBuffers buffer (w ++ left) .undefined left
  | refused {tmpBuffers : ℕ → Scratch} {buffer w left : Bytes} {head : PcapngBlockHead}
      {what : String} : IsFramed head w → w.length ≤ 1000 → head.type = PcapngType.EPB →
      (∀ block : PcapngBlock PcapngEPB, ¬ IsImage block w) →
      Receives tmpBuffers buffer (w ++ left) (.thrown (.exception what)) left
  | simple {tmpBuffers : ℕ → Scratch} {buffer w left : Bytes} {head : PcapngBlockHead} :
      IsFramed head w → w.length ≤ 1000 → head.type = PcapngType.SPB →
      Receives tmpBuffers buffer (w ++ left)
        (.thrown (.exception "pgen::pcapng_stream::recv: not implement")) left
  | atEnd {tmpBuffers : ℕ → Scratch} {buffer : Bytes} :
      Receives tmpBuffers buffer []
        (.thrown (.exception "pgen::pcapng_stream::recv: is end of file")) []
  | cut {tmpBuffers : ℕ → Scratch} {buffer left : Bytes} : left ≠ [] → ¬ Oversized left →
      Unframed left →
      Receives tmpBuffers buffer left
        (.thrown (.exception "pgen::file_stream::fread::fread: "))
        (if blockExtent left = 8 then left.drop 8 else [])
  | overrun {tmpBuffers : ℕ → Scratch} {buffer left rest : Bytes} : Oversized left →
      Receives tmpBuffers buffer left .undefined rest

/-- The reports of a session, as far as they are known. -/
inductive Reads : Bytes → List Call → List (Report Answer) → Prop
  | done {left : Bytes} : Reads left [] []
  | probed {left : Bytes} {calls : List Call} {reports : List (Report Answer)} :
      Reads left calls reports →
      Reads left (.eof :: calls) (.returned (.atEnd left.isEmpty) :: reports)
  | received {tmpBuffers : ℕ → Scratch} {buffer left rest : Bytes} {report : Report Answer}
      {calls : List Call} {reports : List (Report Answer)} : report ≠ .undefined →
      Receives tmpBuffers buffer left report rest → Reads rest calls reports →
      Reads left (.recv tmpBuffers buffer :: calls) (report :: reports)
  | undefined {tmpBuffers : ℕ → Scratch} {buffer left rest : Bytes} {calls : List Call} :
      Receives tmpBuffers buffer left .undefined rest →
      Reads left (.recv tmpBuffers buffer :: calls) [.undefined]

/-- These are the reports of a session, up to where nothing is known any more. -/
inductive Tells : List (Report Answer) → List (Report Answer) → Prop
  | nil : Tells [] []
  | cons {report : Report Answer} {known reports : List (Report Answer)} :
      Tells known reports → Tells (report :: known) (report :: reports)
  | undefined {reports : List (Report Answer)} : Tells [.undefined] reports

/-- The packets among the reports. -/
def packets (reports : List (Report Answer)) : List Bytes :=
  reports.filterMap fun
    | .returned (.received n buffer) => some (buffer.take n)
    | _ => none

end Calls

section Blocks

variable {f : File} {buffer : Bytes}

/-- The options that a buffer has room for are never too large for a vector. -/
theorem readOption_ends {B : Type} [PcapngBody B] {n : ℕ} (hn : n ≤ buffer.length)
    (hmax : n ≤ vectorMaxSize) (obj : PcapngBlock B) :
    (∃ what, (readOption buffer n).run obj = .error (.exception what) obj) ∨
    ∃ option, option.length = optionLength obj ∧ option.length ≤ n ∧
      (readOption buffer n).run obj = .ok () { obj with option := option } := by
  obtain herror | ⟨hle, hlength | ⟨option, hopt, hr⟩⟩ := readOption_cases hn obj
  · exact .inl herror
  · unfold readOption at hlength
    rw [run_bind_ok (run_get obj), run_bind_ok (throwIf_pass (Nat.not_lt.mpr hle) _),
      run_bind_ok (run_get obj), run_bind_ok (resize_ok obj.option (hle.trans hmax) obj)] at hlength
    obtain ⟨hsize, -⟩ := resize_eq_ok (resize_ok obj.option (hle.trans hmax) obj)
    rw [run_bind_ok (run_modify _ _), hsize, run_bind_ok (load_ok (by omega) _)] at hlength
    cases hlength
  · exact .inr ⟨option, hopt, hopt ▸ hle, hr⟩

theorem throwIf_ends {σ : Type} (p : Prop) [Decidable p] (what : String) (s : σ) :
    (∃ s', (throwIf p what).run s = .ok () s') ∨
    ∃ what' s', (throwIf p what).run s = .error (.exception what') s' := by
  by_cases hp : p
  · exact .inr ⟨what, s, throwIf_fail hp s⟩
  · exact .inl ⟨s, throwIf_pass hp s⟩

/-- Decoding the leading bytes of a buffer gives a block or an exception. -/
theorem read_ends {B : Type} [PcapngBody B] [SafeBody B] {n : ℕ} (hn : n ≤ buffer.length)
    (hmax : n ≤ vectorMaxSize) (obj : PcapngBlock B) :
    (∃ block, (PcapngBlocks.read buffer n).run obj = .ok () block) ∨
    ∃ what block, (PcapngBlocks.read buffer n).run obj = .error (.exception what) block := by
  unfold PcapngBlocks.read
  obtain ⟨what, h₁⟩ | ⟨hn₁, type, total, h₁⟩ := readHead_cases hn obj
  · exact .inr ⟨what, _, run_bind_error h₁⟩
  rw [run_bind_ok h₁]
  simp only [head_size, tail_size, sizeSub_of_le hn₁]
  obtain ⟨what, body, h₂⟩ | ⟨body, h₂, hn₂⟩ := SafeBody.readBody_cases
    (show n - 8 ≤ (buffer.drop 8).length by rw [List.length_drop]; omega)
    { obj with type := type, totalLength := total }
  · exact .inr ⟨what, _, run_bind_error h₂⟩
  rw [run_bind_ok h₂, run_bind_ok (run_get _)]
  simp only [sizeSub_of_le hn₂]
  obtain ⟨what, h₃⟩ | ⟨option, -, hn₃, h₃⟩ := readOption_ends
    (show n - 8 - bodyLength body ≤ ((buffer.drop 8).drop (bodyLength body)).length by
      simp only [List.length_drop]; omega) (by omega)
    { obj with type := type, totalLength := total, body := body }
  · exact .inr ⟨what, _, run_bind_error h₃⟩
  rw [run_bind_ok h₃, run_bind_ok (run_get _)]
  simp only [sizeSub_of_le hn₃]
  obtain ⟨what, h₄⟩ | ⟨-, h₄⟩ := readTail_cases
    (show n - 8 - bodyLength body - option.length ≤
      (((buffer.drop 8).drop (bodyLength body)).drop option.length).length by
        simp only [List.length_drop]; omega)
    { obj with type := type, totalLength := total, body := body, option := option }
  · exact .inr ⟨what, _, run_bind_error h₄⟩
  rw [run_bind_ok h₄]
  exact throwIf_ends _ _ _

/-- The block that is decoded from a framed one is this block. -/
theorem isImage_of_read {head : PcapngBlockHead} {w scratch : Bytes} (hw : IsFramed head w)
    {obj block : PcapngBlock PcapngEPB}
    (hr : (PcapngBlocks.read (w ++ scratch) w.length).run obj = .ok () block) :
    IsImage block w := by
  obtain ⟨-, hle, himg⟩ := read_eq_ok (by simp) hr
  have hlen := himg.length_eq
  rw [List.take_append_of_le_length hle] at himg hlen
  have hlead := himg.words.1
  rw [List.length_take, Nat.min_eq_left hle] at hlen
  rw [PcapngFraming.leadingLength_take (by omega), PcapngFraming.leadingLength_framed hw] at hlead
  rw [← hlead, hw.2.1, List.take_length] at himg
  exact himg

/-- A packet block that decodes to nothing is refused. -/
theorem recvBlock_refused {head : PcapngBlockHead} {w : Bytes} (hw : IsFramed head w)
    (hfit : w.length ≤ 1000) (htype : head.type = PcapngType.EPB)
    (hnone : ∀ block : PcapngBlock PcapngEPB, ¬ IsImage block w) (scratch buffer : Bytes)
    (f : File) : ∃ what,
      (recvBlock w.length (w ++ scratch) buffer).run f = .error (.exception what) f := by
  have hmax : w.length ≤ vectorMaxSize := by
    unfold vectorMaxSize
    omega
  unfold recvBlock
  rw [run_bind_ok (detect_ok hw scratch f), if_pos htype]
  obtain ⟨block, hr⟩ | ⟨what, block, hr⟩ :=
    read_ends (show w.length ≤ (w ++ scratch).length by simp) hmax PcapngEPB.new
  · exact absurd (isImage_of_read hw hr) (hnone block)
  · exact ⟨what, run_bind_error (onLocal_error hr f)⟩

theorem le_blockExtent (left : Bytes) : 8 ≤ blockExtent left := by
  unfold blockExtent
  dsimp only
  split_ifs <;> omega

/-- Where the file has no whole block but what it has would fit, the file ends in the block, or the
block declares that it has no body. -/
theorem readBlock_cut (hbuf : buffer.length < 2^64)
    (hfit : min f.rest.length (blockExtent f.rest) ≤ buffer.length)
    (hnone : Unframed f.rest) : ∃ f',
      (readBlock buffer).run f = .error (.exception "pgen::file_stream::fread::fread: ") f' ∧
      f'.rest = if blockExtent f.rest = 8 then f.rest.drop 8 else [] := by
  have hext := le_blockExtent f.rest
  rcases Nat.lt_or_ge f.rest.length 8 with hshort | hlong
  · refine ⟨f.advance 8, ?_, ?_⟩
    · unfold readBlock
      rw [head_size]
      exact run_bind_error (read_short hshort (by omega))
    · rw [rest_advance, List.drop_of_length_le hshort.le, ite_self]
  have hwhole : (leadingLength f.rest).toNat ≤ 12 ∨
      f.rest.length < (leadingLength f.rest).toNat := by
    by_contra h
    push Not at h
    exact hnone _ _ _ (PcapngFraming.isFramed_take h.1 h.2) (List.take_append_drop _ _).symm
  have hsplice : (splice buffer 0 (f.rest.take 8)).length = buffer.length :=
    splice_length (by rw [List.length_take]; omega)
  have hroom : 8 ≤ (splice buffer 0 (f.rest.take 8)).length := by
    rw [hsplice]
    omega
  rw [readBlock_head hlong (by omega)]
  unfold blockExtent at hfit ⊢
  unfold leadingLength at hwhole
  generalize PcapngBlockHead.layout.dec (f.rest.take 8) = head at *
  dsimp only at hfit ⊢
  have hleft : (f.advance 8).rest.length = f.rest.length - 8 := by
    rw [rest_advance, List.length_drop]
  by_cases hnobody : head.totalLength.toNat = 12
  · have hzero : bodylen head = 0 := by rw [bodylen_of_le hnobody.ge, hnobody]
    have hread : (FileStream.read (splice buffer 0 (f.rest.take 8)) 8 0).run (f.advance 8) =
        .error (.exception "pgen::file_stream::fread::fread: ") ((f.advance 8).advance 0) := by
      rw [read_run, if_pos (by omega), if_neg (by omega)]
    rw [if_pos hnobody, if_pos rfl]
    unfold readBlockRest
    rw [head_size, hzero]
    exact ⟨_, run_bind_error hread, by rw [rest_advance, rest_advance, List.drop_zero]⟩
  · rw [if_neg hnobody] at hfit ⊢
    rw [if_neg (by split_ifs <;> omega)]
    rcases Nat.lt_or_ge head.totalLength.toNat 12 with hlt | hge
    · have hlen := bodylen_of_lt hlt
      rw [if_pos hlt] at hfit
      exact readBlockRest_cut (by omega) (by omega) (by omega)
    · have hlen := bodylen_of_le hge
      rw [if_neg (by omega)] at hfit
      exact readBlockRest_cut (by omega) (by omega) (by omega)

end Blocks

section Sessions

variable {tmpBuffers : ℕ → Scratch} {buffer : Bytes} {f : File}

/-- What a caller learns of a receive call that ended so. -/
def report : Outcome File (ℕ × Bytes) → Report Answer
  | .ok (n, buffer) _ => .returned (.received n buffer)
  | .error e _ => if e.IsFault then .undefined else .thrown e

theorem report_thrown {e : Failure} (he : ¬ e.IsFault) (f : File) :
    report (.error e f) = .thrown e := if_neg he

theorem report_fault {e : Failure} (he : e.IsFault) (f : File) :
    report (.error e f) = .undefined := if_pos he

/-- The call on this file ends as the relation says, where this says how it ends. -/
def Ends (tmpBuffers : ℕ → Scratch) (buffer : Bytes) (f : File) : Prop :=
  Receives tmpBuffers buffer f.rest (report ((recv tmpBuffers buffer).run f))
      (finalState ((recv tmpBuffers buffer).run f)).rest ∨
    ∃ rest, Receives tmpBuffers buffer f.rest .undefined rest

theorem ends_of_run {r : Outcome File (ℕ × Bytes)} (hr : (recv tmpBuffers buffer).run f = r)
    (h : Receives tmpBuffers buffer f.rest (report r) (finalState r).rest) :
    Ends tmpBuffers buffer f := by
  unfold Ends
  rw [hr]
  exact .inl h

theorem length_pointed {w : Bytes} (hfit : w.length ≤ 1000) (tmpBuffer : Scratch) :
    (pointed w tmpBuffer).length = 972 := by
  unfold pointed
  rw [List.length_drop, List.length_append, List.length_drop, Vector.length_toList]
  omega

/-- A packet block is delivered unless the packet length leads out of the scratch memory. -/
theorem ends_packet {block : PcapngBlock PcapngEPB} {w left : Bytes}
    (hw : IsPacketBlock block w) (hrest : f.rest = w ++ left) : Ends tmpBuffers buffer f := by
  obtain ⟨f', hf', hpass⟩ := recvPass_framed hw.isFramed hrest hw.fits (tmpBuffers 0) buffer
  rw [recvBlock_epb hw.image hw.type_eq _ buffer rfl] at hpass
  have hview := length_pointed hw.fits (tmpBuffers 0)
  unfold pointed at hview
  rw [hview] at hpass
  split_ifs at hpass with hle
  · refine ends_of_run (recv_of_some hpass) ?_
    have hcall : Receives tmpBuffers buffer (w ++ left) _ left := .delivered hw rfl hle
    rw [← hrest] at hcall
    change Receives tmpBuffers buffer f.rest _ f'.rest
    rw [hf']
    exact hcall
  · refine ends_of_run (recv_of_error hpass) ?_
    have hcall : Receives tmpBuffers buffer (w ++ left) _ left := .outside hw (by omega)
    rw [← hrest] at hcall
    change Receives tmpBuffers buffer f.rest _ f'.rest
    rw [hf']
    exact hcall

/-- A whole block ends the call, or the call goes on with what stands behind it. -/
theorem ends_framed {head : PcapngBlockHead} {w left : Bytes} (hw : IsFramed head w)
    (hrest : f.rest = w ++ left) (hfit : w.length ≤ 1000)
    (hnext : ∀ f', f'.rest = left → Ends (fun i => tmpBuffers (i + 1)) buffer f') :
    Ends tmpBuffers buffer f := by
  obtain ⟨f', hf', hpass⟩ := recvPass_framed hw hrest hfit (tmpBuffers 0) buffer
  by_cases hepb : head.type = PcapngType.EPB
  · by_cases himage : ∃ block : PcapngBlock PcapngEPB, IsImage block w
    · obtain ⟨block, himg⟩ := himage
      have htype : block.type = PcapngType.EPB := by
        have hlen := himg.length_eq
        have hbody : bodyLength block.body = _ := block.body.bodyLength_eq
        have hframed := isFramed_of_isImage himg (by omega)
        have hhead := (isFramed_unique hw hframed (rfl : w ++ [] = w ++ [])).1
        rw [← hepb, hhead]
      exact ends_packet ⟨htype, himg, hfit⟩ hrest
    · push Not at himage
      have hrefused := recvBlock_refused hw hfit hepb himage
        ((tmpBuffers 0).toList.drop w.length) buffer f'
      obtain ⟨what, hr⟩ := hrefused
      rw [hr] at hpass
      refine ends_of_run (recv_of_error hpass) ?_
      change Receives tmpBuffers buffer f.rest (.thrown _) f'.rest
      rw [hrest, hf']
      exact .refused hw hfit hepb himage
  by_cases hspb : head.type = PcapngType.SPB
  · unfold recvBlock at hpass
    rw [run_bind_ok (detect_ok hw _ f'), if_neg hepb, if_pos hspb] at hpass
    refine ends_of_run (recv_of_error hpass) ?_
    change Receives tmpBuffers buffer f.rest (.thrown _) f'.rest
    rw [hrest, hf']
    exact .simple hw hfit hspb
  · rw [recvBlock_skip hw hepb hspb] at hpass
    have hlater := hnext f' hf'
    unfold Ends at hlater ⊢
    rw [recv_of_none hpass, hrest]
    rw [hf'] at hlater
    have hframe : IsFrame w none := ⟨hfit, head, hw, hepb, hspb⟩
    exact hlater.imp (.passed hframe) fun ⟨rest, h⟩ => ⟨rest, .passed hframe h⟩

/-- Where no whole block stands, the call ends. -/
theorem ends_unframed (hne : f.rest ≠ []) (hsize : ¬ Oversized f.rest) (hnone : Unframed f.rest) :
    Ends tmpBuffers buffer f := by
  unfold Oversized at hsize
  have hfit : min (probed f).rest.length (blockExtent (probed f).rest) ≤
      (tmpBuffers 0).toList.length := by
    rw [rest_probed, Vector.length_toList]
    omega
  have hblock : ∃ f', (readBlock (tmpBuffers 0).toList).run (probed f) =
      .error (.exception "pgen::file_stream::fread::fread: ") f' ∧ f'.rest =
        if blockExtent (probed f).rest = 8 then (probed f).rest.drop 8 else [] :=
    readBlock_cut (by simp) hfit (by simpa using hnone)
  obtain ⟨f', hr, hleft⟩ := hblock
  have hpass : (recvPass (tmpBuffers 0) buffer).run f =
      .error (.exception "pgen::file_stream::fread::fread: ") f' := by
    unfold recvPass
    rw [run_bind_ok (feof_run f), run_bind_ok (throwIf_pass (by simpa using hne) _),
      run_bind_error hr]
  refine ends_of_run (recv_of_error hpass) ?_
  change Receives tmpBuffers buffer f.rest (.thrown _) f'.rest
  rw [hleft, rest_probed]
  exact .cut hne hsize hnone

/-- Every receive call ends as the relation says. -/
theorem ends_run (tmpBuffers : ℕ → Scratch) (buffer : Bytes) (f : File) :
    Ends tmpBuffers buffer f := by
  induction hn : f.rest.length using Nat.strong_induction_on generalizing f tmpBuffers with
  | _ n ih =>
    by_cases hnil : f.rest = []
    · refine ends_of_run (recv_of_error (recvPass_end hnil)) ?_
      change Receives tmpBuffers buffer f.rest (.thrown _) (probed f).rest
      rw [rest_probed, hnil]
      exact .atEnd
    by_cases hsize : Oversized f.rest
    · exact .inr ⟨[], .overrun hsize⟩
    by_cases hnone : Unframed f.rest
    · exact ends_unframed hnil hsize hnone
    · unfold Unframed at hnone
      push Not at hnone
      obtain ⟨head, w, left, hw, hrest⟩ := hnone
      have hpos := hw.2.2
      unfold Oversized at hsize
      rw [hrest, blockExtent_framed hw, List.length_append] at hsize
      rw [hrest, List.length_append] at hn
      refine ends_framed hw hrest (by omega) fun f' hf' => ?_
      exact ih left.length (by omega) _ _ (by rw [hf'])

/-- The relation tells this much of the session. -/
def Told (calls : List Call) (f : File) : Prop :=
  ∃ known, Reads f.rest calls known ∧ Tells known (trace act calls f).1

theorem told_undefined {rest : Bytes} (h : Receives tmpBuffers buffer f.rest .undefined rest)
    (calls : List Call) : Told (.recv tmpBuffers buffer :: calls) f := ⟨_, .undefined h, .undefined⟩

/-- One call is answered as the relation says, and the calls behind it go on with what it leaves. -/
theorem told_step (f : File) (c : Call) {calls : List Call} (hnext : ∀ f', Told calls f') :
    Told (c :: calls) f := by
  cases c with
  | eof =>
    have hrun : (act .eof).run f = _ := run_bind_ok (eof_run f)
    obtain ⟨known, hreads, htells⟩ := hnext (probed f)
    rw [rest_probed] at hreads
    exact ⟨_, .probed hreads, by rw [trace_cons_ok hrun]; exact .cons htells⟩
  | recv tmpBuffers buffer =>
    obtain hcall | ⟨rest, hcall⟩ := ends_run tmpBuffers buffer f
    · cases hr : (recv tmpBuffers buffer).run f with
      | ok r f' =>
        obtain ⟨n, received⟩ := r
        have hrun : (act (.recv tmpBuffers buffer)).run f = _ := run_bind_ok hr
        rw [hr] at hcall
        have hdef : (.returned (.received n received) : Report Answer) ≠ .undefined := nofun
        obtain ⟨known, hreads, htells⟩ := hnext f'
        refine ⟨_, .received hdef hcall hreads, ?_⟩
        rw [trace_cons_ok hrun]
        exact .cons htells
      | error e f' =>
        have hrun : (act (.recv tmpBuffers buffer)).run f = _ := run_bind_error hr
        rw [hr] at hcall
        by_cases he : e.IsFault
        · rw [report_fault he] at hcall
          exact told_undefined hcall calls
        · rw [report_thrown he] at hcall
          have hdef : (.thrown e : Report Answer) ≠ .undefined := nofun
          obtain ⟨known, hreads, htells⟩ := hnext f'
          refine ⟨_, .received hdef hcall hreads, ?_⟩
          rw [trace_cons_thrown he hrun]
          exact .cons htells
    · exact told_undefined hcall calls

theorem told_run (calls : List Call) (f : File) : Told calls f := by
  induction calls generalizing f with
  | nil => exact ⟨[], .done, .nil⟩
  | cons c calls ih => exact told_step f c ih

end Sessions

section Bounds

variable {left rest : Bytes} {calls : List Call} {reports : List (Report Answer)}

@[simp] theorem packets_nil : packets [] = [] := rfl

@[simp] theorem packets_received (n : ℕ) (buffer : Bytes) (reports : List (Report Answer)) :
    packets (.returned (.received n buffer) :: reports) = buffer.take n :: packets reports := rfl

@[simp] theorem packets_atEnd (b : Bool) (reports : List (Report Answer)) :
    packets (.returned (.atEnd b) :: reports) = packets reports := rfl

@[simp] theorem packets_thrown (e : Failure) (reports : List (Report Answer)) :
    packets (.thrown e :: reports) = packets reports := rfl

@[simp] theorem packets_undefined (reports : List (Report Answer)) :
    packets (.undefined :: reports) = packets reports := rfl

/-- A packet is no longer than what the packet pointer leads to, and its block has 32 bytes and
more. -/
theorem packets_receives {tmpBuffers : ℕ → Scratch} {buffer : Bytes} {report : Report Answer}
    (h : Receives tmpBuffers buffer left report rest) (reports : List (Report Answer)) :
    packets (report :: reports) = packets reports ∧
        (report ≠ .undefined → rest.length ≤ left.length) ∨
      ∃ p, packets (report :: reports) = p :: packets reports ∧ p.length ≤ 972 ∧
        rest.length + 32 ≤ left.length := by
  induction h with
  | passed _ _ ih =>
    simp only [List.length_append]
    obtain ⟨hsame, hle⟩ | ⟨p, hp, hlen, hle⟩ := ih
    · exact .inl ⟨hsame, fun hdef => (hle hdef).trans (Nat.le_add_left _ _)⟩
    · exact .inr ⟨p, hp, hlen, by omega⟩
  | @delivered tmpBuffers buffer w left block n hw hn hle =>
    have hlen := hw.image.length_eq
    have hbody : bodyLength block.body = _ := block.body.bodyLength_eq
    have hview := length_pointed hw.fits (tmpBuffers 0)
    refine .inr ⟨_, packets_received _ _ _, ?_, ?_⟩
    · rw [List.length_take]
      omega
    · rw [List.length_append]
      omega
  | outside => exact .inl ⟨packets_undefined _, fun hdef => absurd rfl hdef⟩
  | refused => exact .inl ⟨packets_thrown _ _, fun _ => by simp⟩
  | simple => exact .inl ⟨packets_thrown _ _, fun _ => by simp⟩
  | atEnd => exact .inl ⟨packets_thrown _ _, fun _ => Nat.le_refl _⟩
  | cut =>
    refine .inl ⟨packets_thrown _ _, fun _ => ?_⟩
    split_ifs <;> simp
  | overrun => exact .inl ⟨packets_undefined _, fun hdef => absurd rfl hdef⟩

/-- The packets of a session come from disjoint blocks of the file. -/
theorem Reads.packets_le (h : Reads left calls reports) :
    32 * (packets reports).length ≤ left.length ∧ ∀ p ∈ packets reports, p.length ≤ 972 := by
  induction h with
  | done => simp
  | probed _ ih => simpa using ih
  | @received _ _ _ _ report _ reports hdef hcall _ ih =>
    obtain ⟨hcount, hall⟩ := ih
    obtain ⟨hsame, hle⟩ | ⟨p, hp, hlen, hle⟩ := packets_receives hcall reports
    · have hshrinks := hle hdef
      rw [hsame]
      exact ⟨by omega, hall⟩
    · rw [hp, List.length_cons, List.forall_mem_cons]
      exact ⟨by omega, hlen, hall⟩
  | undefined => simp

/-- Opening any file for reading and calling what one likes on it, with the exceptions caught: up to
a request or an access outside an object every call is answered by what stands in the file as the
relation says, and the packets that are delivered, none of them longer than 972 bytes, come from
disjoint packet blocks. -/
theorem untrusted_blocks (name : String) (content : Bytes) (tmpBuffer : Scratch)
    (calls : List Call) (f₀ : File) :
    ∃ opened known,
      (openStream name .pcapngRead (some content) tmpBuffer).run f₀ = .ok () opened ∧
      Reads content calls known ∧ Tells known (trace act calls opened).1 ∧
      32 * (packets known).length ≤ content.length ∧ ∀ p ∈ packets known, p.length ≤ 972 := by
  obtain ⟨known, hreads, htells⟩ := told_run calls (File.start content)
  rw [rest_start] at hreads
  exact ⟨File.start content, known, rfl, hreads, htells, hreads.packets_le⟩

end Bounds

end Pgen.PcapngUntrusted
