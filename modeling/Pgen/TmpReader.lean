import Pgen.PcapRecords
import Pgen.TmpFrames
import Pgen.WhileLoop

/-!
# The reader of the example `pgen_extend`

The program prints the messages of the `tmp` packets of a capture file, up to the first frame that
it fails to decode: only the receive call is inside its `try` block.
-/
namespace Pgen.TmpReader
open ByteMemory StdioFile StructLayout FileStream CorePacket ProtocolHeaders ProtocolIp
  HeaderReads PcapStream WhileLoop FrameReading ExtendTmp TmpFrames

section Model

/-- The local variables of a pass, as indeterminate as they are before it. -/
structure Locals where
  buf : Vector UInt8 10000
  eth : EthernetHeader
  ip : Ipv4Header
  udp : UdpHeader
  pack : Tmp

structure Reader where
  packetStream : File
  printed : List Line

def Reader.putStream (f : File) (s : Reader) : Reader := { s with packetStream := f }

/-- `recv` inside the `try` block: nothing when it throws an exception. -/
def tryRecv (buf : Bytes) : Exec File (Option (ℕ × Bytes)) := fun f =>
  match (recv buf).run f with
  | .ok r f' => .ok (some r) f'
  | .error (.exception _) f' => .ok none f'
  | .error e f' => .error e f'

/-- One pass of the loop of `main`; the result is there when `main` returns. -/
def readerPass (l : Locals) : Exec Reader (Option Unit) := do
  match ← onMember Reader.packetStream Reader.putStream (tryRecv l.buf.toList) with
  | none => return some ()
  | some (recvlen, buf) =>
    if ← isTmpPacket l.eth l.ip l.udp buf recvlen then
      match Packet.construct l.pack buf recvlen with
      | .ok _ pack =>
        modify fun s => { s with
          printed := s.printed ++ [⟨pack.members.tmp.id, pack.members.tmp.msg⟩] }
      | .error e _ => throw e
    return none

def readerOpen (name : String) (disk : Option Bytes) : Exec Reader Unit :=
  onMember Reader.packetStream Reader.putStream do
    let _ ← openStream name .pcapRead disk

/-- How `main` ends for the file of this name: it returns, or an exception leaves it. -/
inductive Reads (locals : ℕ → Locals) (name : String) (disk : Option Bytes) (stream : File) :
    Outcome Reader Unit → Prop
  | refused {e : Failure} {s : Reader} : (readerOpen name disk).run ⟨stream, []⟩ = .error e s →
      Reads locals name disk stream (.error e s)
  | opened {s : Reader} {r : Outcome Reader Unit} :
      (readerOpen name disk).run ⟨stream, []⟩ = .ok () s →
      Runs (fun i => readerPass (locals i)) 0 s r → Reads locals name disk stream r

end Model

section Findings

/-- The frames that are received before `recv` throws for the first time. -/
def frames (left : Bytes) : List Bytes :=
  let n := (PcapPacketHeader.layout.dec (left.take 16)).originalLen.toNat
  if 16 ≤ left.length ∧ 0 < n ∧ n ≤ 10000 ∧ 16 + n ≤ left.length then
    (left.drop 16).take n :: frames (left.drop (16 + n))
  else []
termination_by left.length
decreasing_by
  rw [List.length_drop]
  omega

/-- The findings from pass `k` on; the arrays keep behind the frames what they held before. -/
def findings (locals : ℕ → Locals) : ℕ → List Bytes → List (Except Failure (Option Line))
  | _, [] => []
  | k, b :: bs => finding (b ++ (locals k).buf.toList.drop b.length) b.length ::
      findings locals (k + 1) bs

/-- The lines in front of the first failure. -/
def lines : List (Except Failure (Option Line)) → List Line
  | [] => []
  | .error _ :: _ => []
  | .ok line :: rest => line.toList ++ lines rest

/-- The first failure. -/
def ending : List (Except Failure (Option Line)) → Option Failure
  | [] => none
  | .error e :: _ => some e
  | .ok _ :: rest => ending rest

end Findings

section Passes

variable {f : File} {b : Bytes} {bs : List Bytes}

theorem rest_splits (h : 16 ≤ f.rest.length) :
    f.rest = PcapPacketHeader.layout.enc (PcapPacketHeader.layout.dec (f.rest.take 16)) ++
      f.rest.drop 16 := by
  have henc := PcapPacketHeader.layout.enc_dec_take (show PcapPacketHeader.layout.size ≤ _ from h)
  rw [packetHeader_size] at henc
  rw [henc, List.take_append_drop]

/-- Without another frame `recv` throws. -/
theorem tryRecv_none {buf : Bytes} (hbuf : buf.length = 10000) (h : frames f.rest = []) :
    ∃ f', (tryRecv buf).run f = .ok none f' := by
  suffices hrecv : ∃ what f', (recv buf).run f = .error (.exception what) f' by
    obtain ⟨what, f', hf'⟩ := hrecv
    refine ⟨f', ?_⟩
    change tryRecv buf f = _
    simp only [tryRecv, hf']
  rcases Nat.lt_or_ge f.rest.length 16 with hlt | hge
  · exact ⟨_, _, run_bind_error (readStruct_short PcapPacketHeader.layout hlt)⟩
  obtain ⟨f', hrun, -⟩ := PcapRecords.recv_run (rest_splits hge) buf
  rw [frames] at h
  rw [List.length_drop, hbuf] at hrun
  split_ifs at h with hfits
  split_ifs at hrun with hsmall hin
  · exact ⟨_, f', hrun⟩
  · omega
  · exact ⟨_, f', hrun⟩

/-- The next frame is put in front of what the array held. -/
theorem tryRecv_some {buf : Bytes} (hbuf : buf.length = 10000) (h : frames f.rest = b :: bs) :
    ∃ f', (tryRecv buf).run f = .ok (some (b.length, b ++ buf.drop b.length)) f' ∧
      frames f'.rest = bs ∧ b.length ≤ 10000 := by
  rw [frames] at h
  split_ifs at h with hfits
  obtain ⟨h16, hpos, hle, hin⟩ := hfits
  obtain ⟨rfl, rfl⟩ := List.cons.inj h
  obtain ⟨f', hrun, hrest⟩ := PcapRecords.recv_run (rest_splits h16) buf
  generalize (PcapPacketHeader.layout.dec (f.rest.take 16)).originalLen.toNat = n at *
  have hlen : ((f.rest.drop 16).take n).length = n := by
    rw [List.length_take, List.length_drop]
    omega
  rw [if_neg (by omega), List.drop_drop] at hrest
  rw [if_neg (by omega), if_pos ⟨hpos, by rw [List.length_drop]; omega⟩] at hrun
  refine ⟨f', ?_, by rw [hrest], by rw [hlen]; exact hle⟩
  rw [hlen]
  change tryRecv buf f = _
  simp only [tryRecv, hrun]

/-- What a pass does with the frame that it receives. -/
theorem readerPass_frame (l : Locals) {s : Reader} (h : frames s.packetStream.rest = b :: bs) :
    ∃ f', frames f'.rest = bs ∧ (readerPass l).run s =
      match finding (b ++ l.buf.toList.drop b.length) b.length with
      | .error e => .error e (s.putStream f')
      | .ok line => .ok none { s.putStream f' with printed := s.printed ++ line.toList } := by
  obtain ⟨f', hrecv, hrest, hle⟩ := tryRecv_some l.buf.length_toList h
  have hlen : (b ++ l.buf.toList.drop b.length).length = 10000 := by
    rw [List.length_append, List.length_drop, Vector.length_toList]
    omega
  refine ⟨f', hrest, ?_⟩
  generalize b ++ l.buf.toList.drop b.length = memory at *
  have hn : b.length ≤ memory.length := by omega
  have hmem : memory.length < 2^63 := by omega
  have hfound := isTmpPacket_run hn hmem l.eth l.ip l.udp (s.putStream f')
  refine (run_bind_ok (onMember_ok hrecv)).trans ?_
  unfold finding
  cases hp : payload memory b.length with
  | error e =>
    rw [hp] at hfound
    exact run_bind_error hfound
  | ok found =>
    rw [hp] at hfound
    refine (run_bind_ok hfound).trans ?_
    cases found with
    | none => simp [EStateM.run_pure, Reader.putStream]
    | some o =>
      have hconstruct := construct_run hn hmem hp l.pack
      simp only [Option.isSome_some, if_true]
      cases hm : message memory b.length o with
      | error e =>
        rw [hm] at hconstruct
        obtain ⟨p, hthrows⟩ := hconstruct
        rw [hthrows]
        rfl
      | ok line =>
        rw [hm] at hconstruct
        obtain ⟨p, hreturns, rfl⟩ := hconstruct
        rw [hreturns]
        rfl

theorem readerPass_end (l : Locals) {s : Reader} (h : frames s.packetStream.rest = []) :
    ∃ f', (readerPass l).run s = .ok (some ()) (s.putStream f') := by
  obtain ⟨f', hrecv⟩ := tryRecv_none l.buf.length_toList h
  exact ⟨f', run_bind_ok (onMember_ok hrecv)⟩

/-- The loop prints the lines in front of the first failure and ends with it. -/
theorem runs_lines (locals : ℕ → Locals) (k : ℕ) {s : Reader}
    (h : frames s.packetStream.rest = bs) :
    ∃ r, Runs (fun i => readerPass (locals i)) k s r ∧
      (finalState r).printed = s.printed ++ lines (findings locals k bs) ∧
      verdict r = ending (findings locals k bs) := by
  induction bs generalizing k s with
  | nil =>
    obtain ⟨f', hpass⟩ := readerPass_end (locals k) h
    exact ⟨_, .returns hpass, (List.append_nil _).symm, rfl⟩
  | cons b bs ih =>
    obtain ⟨f', hrest, hpass⟩ := readerPass_frame (locals k) h
    rw [findings]
    cases hb : finding (b ++ (locals k).buf.toList.drop b.length) b.length with
    | error e =>
      rw [hb] at hpass
      exact ⟨_, .throws hpass, (List.append_nil _).symm, rfl⟩
    | ok line =>
      rw [hb] at hpass
      obtain ⟨r, hr, hprinted, hverdict⟩ := ih (k + 1) (s := { s.putStream f' with
        printed := s.printed ++ line.toList }) hrest
      refine ⟨r, .goesOn hpass hr, ?_, hverdict⟩
      rw [hprinted, lines, List.append_assoc]

end Passes

section Files

variable (locals : ℕ → Locals) (name : String) (content : Bytes) (stream : File)

theorem readerOpen_short (h : content.length < 24) :
    ∃ f, (readerOpen name (some content)).run ⟨stream, []⟩ =
      .error (.exception "pgen::file_stream::fread::fread: ") ⟨f, []⟩ := by
  have hopen : (fopen name .rb (some content)).run stream = .ok () (File.start content) := rfl
  have hread := readStruct_short PcapFileHeader.layout (f := File.start content)
    (by rw [rest_start]; exact h)
  have hstream : (openStream name .pcapRead (some content)).run stream = _ :=
    (run_bind_ok hopen).trans hread
  exact ⟨_, onMember_error (run_bind_error hstream)⟩

theorem readerOpen_ok (h : 24 ≤ content.length) :
    ∃ f, (readerOpen name (some content)).run ⟨stream, []⟩ = .ok () ⟨f, []⟩ ∧
      f.rest = content.drop 24 := by
  obtain ⟨header, f, hopen, hrest⟩ := openStream_read name (content.drop 24)
    (List.length_take_of_le h) stream
  rw [List.take_append_drop] at hopen
  exact ⟨f, onMember_ok (run_bind_ok hopen), hrest⟩

/-- The program ends on every file in one way. -/
theorem reads_unique {r r' : Outcome Reader Unit} {disk : Option Bytes}
    (h : Reads locals name disk stream r) (h' : Reads locals name disk stream r') : r' = r := by
  cases h with
  | refused hopen =>
    cases h' with
    | refused hopen' => cases hopen'.symm.trans hopen; rfl
    | opened hopen' => cases hopen'.symm.trans hopen
  | opened hopen hr =>
    cases h' with
    | refused hopen' => cases hopen'.symm.trans hopen
    | opened hopen' hr' =>
      cases hopen'.symm.trans hopen
      exact hr'.unique hr

/-- What was printed and how the program ended, for a file of this content. -/
def Prints (locals : ℕ → Locals) (content : Bytes) (r : Outcome Reader Unit) : Prop :=
  if content.length < 24 then (finalState r).printed = [] ∧
    verdict r = some (.exception "pgen::file_stream::fread::fread: ")
  else (finalState r).printed = lines (findings locals 0 (frames (content.drop 24))) ∧
    verdict r = ending (findings locals 0 (frames (content.drop 24)))

theorem reads_prints :
    ∃ r, Reads locals name (some content) stream r ∧ Prints locals content r := by
  unfold Prints
  by_cases hshort : content.length < 24
  · obtain ⟨f, hopen⟩ := readerOpen_short name content stream hshort
    refine ⟨_, .refused hopen, ?_⟩
    rw [if_pos hshort]
    exact ⟨rfl, rfl⟩
  · obtain ⟨f, hopen, hrest⟩ := readerOpen_ok name content stream (Nat.not_lt.mp hshort)
    obtain ⟨r, hr, hprints⟩ := runs_lines locals 0 (s := ⟨f, []⟩)
      (show frames f.rest = _ from congrArg frames hrest)
    refine ⟨r, .opened hopen hr, ?_⟩
    rw [if_neg hshort]
    exact hprints

theorem prints_of_reads {r : Outcome Reader Unit}
    (h : Reads locals name (some content) stream r) : Prints locals content r := by
  obtain ⟨r', hr', hprints⟩ := reads_prints locals name content stream
  rwa [reads_unique locals name stream h hr'] at hprints

/-- Whatever the file holds and whatever the memory of the program held before, the program ends;
it prints a line for each message in front of the first frame that is not decoded, and ends as
decoding that frame ends: with an exception, or with a read outside of the array. -/
theorem reader_prints :
    (∃ r, Reads locals name (some content) stream r) ∧
      ∀ r, Reads locals name (some content) stream r → Prints locals content r := by
  obtain ⟨r, hr, -⟩ := reads_prints locals name content stream
  exact ⟨⟨r, hr⟩, fun _ => prints_of_reads locals name content stream⟩

end Files

end Pgen.TmpReader
