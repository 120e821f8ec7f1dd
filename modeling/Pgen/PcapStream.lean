import Pgen.FileStream
import Pgen.FrameQueue

/-!
# `pcap_stream`

A pcap file is a 24-byte header and a list of records. Writing and reading back is a simulation of
the queue of packets; reading a file of other tools stays in step as long as no record was cut.
-/
namespace Pgen.PcapStream
open ByteMemory StdioFile StructLayout FileStream FrameQueue

structure PcapFileHeader where
  magic : UInt32
  versionMajor : UInt16
  versionMinor : UInt16
  timezone : UInt32
  sigfigs : UInt32
  snaplen : UInt32
  linktype : UInt32
  deriving DecidableEq, Repr

def PcapFileHeader.layout : Layout PcapFileHeader :=
  (Layout.u32.pair (Layout.u16.pair (Layout.u16.pair (Layout.u32.pair
    (Layout.u32.pair (Layout.u32.pair Layout.u32)))))).rename
  ⟨fun h => (h.magic, h.versionMajor, h.versionMinor, h.timezone, h.sigfigs, h.snaplen, h.linktype),
    fun (a, b, c, d, e, f, g) => ⟨a, b, c, d, e, f, g⟩, fun _ => rfl, fun _ => rfl⟩

structure PcapPacketHeader where
  timestampSec : UInt32
  timestampUsec : UInt32
  includeLen : UInt32
  originalLen : UInt32
  deriving DecidableEq, Repr

def PcapPacketHeader.layout : Layout PcapPacketHeader :=
  (Layout.u32.pair (Layout.u32.pair (Layout.u32.pair Layout.u32))).rename
  ⟨fun h => (h.timestampSec, h.timestampUsec, h.includeLen, h.originalLen),
    fun (a, b, c, d) => ⟨a, b, c, d⟩, fun _ => rfl, fun _ => rfl⟩

/-- What `open` fills `file_header` with for a file it is to write. -/
def writtenHeader : PcapFileHeader where
  magic := 0xa1b2c3d4
  versionMajor := 0x0002
  versionMinor := 0x0004
  timezone := 0x0000
  sigfigs := 0x0000
  snaplen := 0x0000ffff
  linktype := 0x00000001

/-- `pcap_stream::open`; the result is the member `file_header` after the call. -/
def openStream (name : String) (mode : OpenMode) (disk : Option Bytes) :
    Exec File PcapFileHeader :=
  match mode with
  | .pcapWrite => do
    fopen name .wb disk
    write (PcapFileHeader.layout.enc writtenHeader)
    pure writtenHeader
  | .pcapRead => do
    fopen name .rb disk
    readStruct PcapFileHeader.layout
  | _ => throw (.exception "pgen::pcap_stream::open: unknown mode \n")

/-- What `send` fills the header of a record with. -/
def sentHeader (buflen : ℕ) : PcapPacketHeader where
  timestampSec := 0
  timestampUsec := 0
  includeLen := UInt32.ofNat buflen
  originalLen := UInt32.ofNat buflen

def send (buf : Bytes) : Exec File Unit := do
  write (PcapPacketHeader.layout.enc (sentHeader buf.length))
  write buf

/-- The result is the returned length and the caller's buffer after the call. -/
def recv (buf : Bytes) : Exec File (ℕ × Bytes) := do
  let ph ← readStruct PcapPacketHeader.layout
  throwIf (buf.length < ph.originalLen.toNat)
    "pgen::pcap_stream::recv: buffer length is too small"
  let buf ← read buf 0 ph.originalLen.toNat
  pure (ph.originalLen.toNat, buf)

theorem packetHeader_size : PcapPacketHeader.layout.size = 16 := rfl

theorem fileHeader_size : PcapFileHeader.layout.size = 24 := rfl

section Opening

theorem openStream_read (name : String) {header : Bytes} (body : Bytes) (hh : header.length = 24)
    (f : File) :
    ∃ h f', (openStream name .pcapRead (some (header ++ body))).run f = .ok h f' ∧
      f'.rest = body := by
  have hopen : (fopen name .rb (some (header ++ body))).run f =
      .ok () (File.start (header ++ body)) := rfl
  refine ⟨PcapFileHeader.layout.dec header, (File.start (header ++ body)).advance 24, ?_, ?_⟩
  · change (fopen name .rb (some (header ++ body)) >>= fun _ => _).run f = _
    rw [run_bind_ok hopen, readStruct_eq_ok, fileHeader_size]
    refine ⟨by norm_num, by simp [hh], ?_, rfl⟩
    rw [rest_start, List.take_left' hh]
  · rw [rest_advance, rest_start, List.drop_left' hh]

theorem openStream_write (name : String) (old : Bytes) (f : File) :
    ∃ f', (openStream name .pcapWrite (some old)).run f = .ok writtenHeader f' ∧
      f'.content = PcapFileHeader.layout.enc writtenHeader ∧ AtEnd f' := by
  have hopen : (fopen name .wb (some old)).run f = .ok () (File.start []) := rfl
  obtain ⟨f', hw, hc, he⟩ := write_ok (f := File.start []) rfl
    (PcapFileHeader.layout.enc writtenHeader) (by simp [fileHeader_size])
  refine ⟨f', ?_, hc, he⟩
  change (fopen name .wb (some old) >>= fun _ => _).run f = _
  rw [run_bind_ok hopen, run_bind_ok hw]
  rfl

end Opening

section Receiving

/-- A read of a whole record whose two lengths agree on what follows its header. -/
theorem recv_ok {ph : PcapPacketHeader} {data post buf : Bytes} {f : File}
    (hrest : f.rest = PcapPacketHeader.layout.enc ph ++ (data ++ post))
    (hlen : ph.originalLen.toNat = data.length) (hpos : 0 < data.length)
    (hbuf : data.length ≤ buf.length) :
    ∃ f', (recv buf).run f = .ok (data.length, data ++ buf.drop data.length) f' ∧
      f'.rest = post := by
  have hh := readStruct_enc PcapPacketHeader.layout (by rw [packetHeader_size]; norm_num) hrest
  have hrest₁ : (f.advance PcapPacketHeader.layout.size).rest = data ++ post := by
    rw [rest_advance, hrest, List.drop_left' (Layout.enc_length _ _)]
  have hr := read_ok buf 0 hrest₁ hpos (by simpa using hbuf)
  refine ⟨(f.advance PcapPacketHeader.layout.size).advance data.length, ?_, ?_⟩
  · unfold recv
    rw [run_bind_ok hh, run_bind_ok (throwIf_pass (by omega) _), hlen, run_bind_ok hr, splice_zero]
    rfl
  · rw [rest_advance, hrest₁, List.drop_left]

/-- Whatever `recv` returns, it returns as many bytes as the record's original length says. -/
theorem recv_originalLen {ph : PcapPacketHeader} {post buf buf' : Bytes} {f f' : File} {n : ℕ}
    (hrest : f.rest = PcapPacketHeader.layout.enc ph ++ post)
    (h : (recv buf).run f = .ok (n, buf') f') : n = ph.originalLen.toNat := by
  have hh := readStruct_enc PcapPacketHeader.layout (by rw [packetHeader_size]; norm_num) hrest
  unfold recv at h
  rw [run_bind_ok hh] at h
  obtain ⟨_, _, _, h⟩ := bind_eq_ok.mp h
  obtain ⟨_, _, _, h⟩ := bind_eq_ok.mp h
  cases h
  rfl

/-- A frame of the queue: a record whose original length is that of its data. -/
def IsRecord (b : Bytes) : Option Bytes → Prop
  | none => False
  | some p => 0 < p.length ∧
      ∃ ph, ph.originalLen.toNat = p.length ∧ b = PcapPacketHeader.layout.enc ph ++ p

/-- The queue a reading stream holds. -/
abbrev Holds := HoldsFrames File.rest IsRecord

def received (buf p : Bytes) : ℕ × Bytes := (p.length, p ++ buf.drop p.length)

theorem recv_simulates :
    Simulates eof recv (fun buf p => p.length ≤ buf.length) received Holds where
  eof_run := by
    intro f q h
    refine ⟨probed f, ?_, holdsFrames_of_rest_eq h (rest_probed f)⟩
    have hpos : ∀ b o, IsRecord b o → b ≠ [] := by
      rintro b (_ | p) hb
      · exact hb.elim
      · obtain ⟨-, ph, -, rfl⟩ := hb
        exact List.append_ne_nil_of_left_ne_nil (List.cons_ne_nil _ _) _
    rw [eof_run, isEmpty_of_holdsFrames hpos h]
  recv_run := by
    rintro f (_ | ⟨_ | p, q⟩) a q' buf h hnext hacc
    · simp [nextPayload] at hnext
    · obtain ⟨b, tail, hb, -⟩ := holdsFrames_cons h
      exact hb.elim
    · obtain ⟨b, tail, ⟨hpos, ph, hlen, rfl⟩, hrest, hq⟩ := holdsFrames_cons h
      simp only [nextPayload, Option.some.injEq, Prod.mk.injEq] at hnext
      obtain ⟨rfl, rfl⟩ := hnext
      rw [List.append_assoc] at hrest
      obtain ⟨f', hr, hf'⟩ := recv_ok hrest hlen hpos hacc
      exact ⟨f', hr, hq f' hf'⟩
  recv_end := by
    rintro f (_ | ⟨_ | p, q⟩) buf h hnext
    · obtain ⟨bs, hbs, hrest⟩ := h
      cases hbs
      have hs := readStruct_short PcapPacketHeader.layout (f := f)
        (by simp [hrest, packetHeader_size])
      exact ⟨_, _, run_bind_error hs⟩
    · obtain ⟨b, tail, hb, -⟩ := holdsFrames_cons h
      exact hb.elim
    · simp [nextPayload] at hnext

end Receiving

section Sending

/-- A send appends one record. -/
theorem send_ok {p : Bytes} (hpos : 0 < p.length) (hlt : p.length < 2^32) {f : File}
    (hend : AtEnd f) :
    ∃ f' w, (send p).run f = .ok () f' ∧ f'.content = f.content ++ w ∧
      IsRecord w (some p) ∧ AtEnd f' := by
  obtain ⟨f₁, h₁, hc₁, he₁⟩ := write_ok hend
    (PcapPacketHeader.layout.enc (sentHeader p.length))
    (by rw [Layout.enc_length, packetHeader_size]; norm_num)
  obtain ⟨f₂, h₂, hc₂, he₂⟩ := write_ok he₁ p hpos
  refine ⟨f₂, PcapPacketHeader.layout.enc (sentHeader p.length) ++ p, ?_, ?_, ?_, he₂⟩
  · unfold send
    rw [run_bind_ok h₁, h₂]
  · rw [hc₂, hc₁, List.append_assoc]
  · exact ⟨hpos, _, UInt32.toNat_ofNat_of_lt' (by simpa using hlt), rfl⟩

end Sending

end Pgen.PcapStream
