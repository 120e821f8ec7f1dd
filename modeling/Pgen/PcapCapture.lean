import Pgen.PcapStream

/-!
# Whole pcap files

A file this library writes is read back packet by packet. A file of another tool is read in step
exactly when none of its records was cut to a snap length, since `recv` advances by the original
length of a record and not by the number of bytes the record holds.
-/
namespace Pgen.PcapCapture
open ByteMemory StdioFile StructLayout FileStream FrameQueue PcapStream

/-- Open a file for writing and send the packets in order; closing writes nothing more. -/
def writeCapture (name : String) (disk : Option Bytes) (packets : List Bytes) :
    Exec File Unit := do
  let _ ← openStream name .pcapWrite disk
  packets.forM send

/-- The file has the header and a record for each packet. -/
theorem writeCapture_ok (name : String) (old : Bytes) {packets : List Bytes}
    (hpk : ∀ p ∈ packets, 0 < p.length ∧ p.length < 2^32) (f : File) :
    ∃ f' ws, (writeCapture name (some old) packets).run f = .ok () f' ∧
      f'.content = PcapFileHeader.layout.enc writtenHeader ++ ws.flatten ∧
      List.Forall₂ (fun w p => IsRecord w (some p)) ws packets := by
  obtain ⟨f₁, h₁, hc₁, he₁⟩ := openStream_write name old f
  obtain ⟨f₂, ws, h₂, hc₂, hws, -⟩ :=
    forM_append_frames (fun p hp _ he => send_ok (hpk p hp).1 (hpk p hp).2 he) he₁
  refine ⟨f₂, ws, ?_, by rw [hc₂, hc₁], hws⟩
  unfold writeCapture
  rw [run_bind_ok h₁, h₂]

/-- What is written is read back: every packet in full, with the end reported after the last. -/
theorem pcap_roundtrip (name : String) (old : Bytes) (f₀ : File) {packets : List Bytes}
    {calls : List (ℕ × Bytes)} (hpk : ∀ p ∈ packets, 0 < p.length ∧ p.length < 2^32)
    (hbuf : List.Forall₂ (fun c p => p.length ≤ c.2.length) calls packets) (n : ℕ) :
    ∃ written, (writeCapture name (some old) packets).run f₀ = .ok () written ∧
    ∃ header opened,
      (openStream name .pcapRead (some written.content)).run f₀ = .ok header opened ∧
    ∃ finished, (session eof recv calls).run opened =
      .ok (List.zipWith (fun c p => (List.replicate c.1 false,
        (p.length, p ++ c.2.drop p.length))) calls packets) finished ∧
    ∃ probed, (probes eof n).run finished = .ok (List.replicate n true) probed := by
  obtain ⟨written, ws, hw, hc, hws⟩ := writeCapture_ok name old hpk f₀
  obtain ⟨header, opened, ho, hrest⟩ := openStream_read name ws.flatten
    (PcapFileHeader.layout.enc_length writtenHeader) f₀
  have hholds : Holds opened (packets.map some) :=
    ⟨ws, List.forall₂_map_right_iff.mpr hws, hrest⟩
  obtain ⟨finished, hs, hf⟩ := session_run recv_simulates hbuf [] (by simp) hholds
  obtain ⟨probed, hp, -⟩ := probes_run (fun f => Holds f _) recv_simulates.eof_run n hf
  refine ⟨written, hw, header, opened, ?_, finished, hs, probed, ?_⟩
  · rw [hc]
    exact ho
  · simpa using hp

theorem pcap_roundtrip_two_packets :
    ∃ written, (writeCapture "out.pcap" (some []) [[1, 2, 3], [4]]).run (File.start []) =
      .ok () written ∧
    ∃ header opened,
      (openStream "out.pcap" .pcapRead (some written.content)).run (File.start []) =
        .ok header opened ∧
    ∃ finished, (session eof recv [(2, [0, 0, 0, 0]), (0, [0])]).run opened =
      .ok [([false, false], (3, [1, 2, 3, 0])), ([], (1, [4]))] finished ∧
    ∃ probed, (probes eof 1).run finished = .ok [true] probed :=
  pcap_roundtrip "out.pcap" [] (File.start []) (by decide)
    (.cons (by decide) (.cons (by decide) .nil)) 1

section ForeignFiles

/-- A well-formed record of a capture file. -/
structure Record where
  header : PcapPacketHeader
  data : Bytes
  data_length : data.length = header.includeLen.toNat
  includeLen_pos : 0 < header.includeLen.toNat
  includeLen_le : header.includeLen.toNat ≤ header.originalLen.toNat

def Record.bytes (r : Record) : Bytes := PcapPacketHeader.layout.enc r.header ++ r.data

/-- The answer a reader in step gives for a record. -/
def Record.answer (buf : Bytes) (r : Record) : ℕ × Bytes :=
  (r.header.includeLen.toNat, r.data ++ buf.drop r.data.length)

/-- Opening the file and receiving into these buffers returns the records one by one, no probe
sees the end before the last of them, and the next one does. -/
def ReadsInStep (name : String) (f₀ : File) (header : Bytes) (recs : List Record)
    (calls : List (ℕ × Bytes)) : Prop :=
  ∃ h opened finished last,
    (openStream name .pcapRead (some (header ++ recs.flatMap Record.bytes))).run f₀ =
      .ok h opened ∧
    (session eof recv calls).run opened =
      .ok (List.zipWith (fun c r => (List.replicate c.1 false, r.answer c.2)) calls recs)
        finished ∧
    eof.run finished = .ok true last

theorem probes_eof (n : ℕ) {f : File} {left : Bytes} (hrest : f.rest = left) :
    ∃ f', (probes eof n).run f = .ok (List.replicate n left.isEmpty) f' ∧ f'.rest = left :=
  probes_run (fun f => f.rest = left)
    (fun {s} hs => ⟨probed s, by rw [eof_run, hs], by rw [rest_probed, hs]⟩) n hrest

theorem recv_record {r : Record} (h : r.header.includeLen = r.header.originalLen)
    {post buf : Bytes} {f : File} (hrest : f.rest = r.bytes ++ post)
    (hbuf : r.header.originalLen.toNat ≤ buf.length) :
    ∃ f', (recv buf).run f = .ok (r.answer buf) f' ∧ f'.rest = post := by
  have hlen : r.header.originalLen.toNat = r.data.length := by rw [r.data_length, h]
  have hpos : 0 < r.data.length := by rw [r.data_length]; exact r.includeLen_pos
  rw [Record.bytes, List.append_assoc] at hrest
  obtain ⟨f', hr, hf'⟩ := recv_ok hrest hlen hpos (hlen ▸ hbuf)
  exact ⟨f', by rw [hr, Record.answer, r.data_length], hf'⟩

theorem originalLen_of_recv {r : Record} {post buf : Bytes} {f f' : File}
    (hrest : f.rest = r.bytes ++ post) (h : (recv buf).run f = .ok (r.answer buf) f') :
    r.header.includeLen = r.header.originalLen := by
  rw [Record.bytes, List.append_assoc] at hrest
  exact UInt32.toNat_inj.mp (recv_originalLen hrest h)

/-- A session in step leaves no record whose lengths differ. -/
theorem lengths_of_session {recs : List Record} {calls : List (ℕ × Bytes)}
    (hbuf : List.Forall₂ (fun c r => r.header.originalLen.toNat ≤ c.2.length) calls recs)
    {f f' : File} (hrest : f.rest = recs.flatMap Record.bytes)
    (h : (session eof recv calls).run f =
      .ok (List.zipWith (fun c r => (List.replicate c.1 false, r.answer c.2)) calls recs) f') :
    ∀ r ∈ recs, r.header.includeLen = r.header.originalLen := by
  induction hbuf generalizing f with
  | nil => simp
  | @cons c r calls recs hc _ ih =>
    obtain ⟨n, buf⟩ := c
    rw [List.flatMap_cons] at hrest
    obtain ⟨bs, f₁, hp, h⟩ := bind_eq_ok.mp h
    obtain ⟨ans, f₂, hr, h⟩ := bind_eq_ok.mp h
    obtain ⟨rs, f₃, hs, h⟩ := bind_eq_ok.mp h
    cases h
    obtain ⟨f₁', hp', hrest₁⟩ := probes_eof n hrest
    obtain ⟨-, rfl⟩ := EStateM.Result.ok.inj (hp.symm.trans hp')
    have hlen := originalLen_of_recv hrest₁ hr
    obtain ⟨f₂', hr', hrest₂⟩ := recv_record hlen hrest₁ hc
    obtain ⟨-, rfl⟩ := EStateM.Result.ok.inj (hr.symm.trans hr')
    intro r' hr'
    rcases List.mem_cons.mp hr' with rfl | hmem
    · exact hlen
    · exact ih hrest₂ hs r' hmem

/-- Records whose lengths agree are a queue the stream holds. -/
theorem holds_records {recs : List Record}
    (h : ∀ r ∈ recs, r.header.includeLen = r.header.originalLen) {f : File}
    (hrest : f.rest = recs.flatMap Record.bytes) : Holds f ((recs.map Record.data).map some) := by
  refine ⟨recs.map Record.bytes, ?_, by rw [hrest, List.flatMap_def]⟩
  rw [List.map_map, List.forall₂_map_left_iff, List.forall₂_map_right_iff, List.forall₂_same]
  intro r hr
  have hpos : 0 < r.data.length := by rw [r.data_length]; exact r.includeLen_pos
  exact ⟨hpos, r.header, by rw [r.data_length, h r hr], rfl⟩

theorem session_of_lengths {recs : List Record} {calls : List (ℕ × Bytes)}
    (hbuf : List.Forall₂ (fun c r => r.header.originalLen.toNat ≤ c.2.length) calls recs)
    (h : ∀ r ∈ recs, r.header.includeLen = r.header.originalLen) {f : File}
    (hrest : f.rest = recs.flatMap Record.bytes) :
    ∃ f', (session eof recv calls).run f =
        .ok (List.zipWith (fun c r => (List.replicate c.1 false, r.answer c.2)) calls recs) f' ∧
      Holds f' [] := by
  have hacc : List.Forall₂ (fun c p => p.length ≤ c.2.length) calls (recs.map Record.data) := by
    rw [List.forall₂_map_right_iff]
    refine hbuf.imp fun c r hc => ?_
    rw [r.data_length]
    exact r.includeLen_le.trans hc
  obtain ⟨f', hs, hf'⟩ := session_run recv_simulates hacc [] (by simp)
    (holds_records h hrest)
  refine ⟨f', ?_, by simpa using hf'⟩
  rw [hs, List.zipWith_map_right]
  simp only [received, Record.answer, Record.data_length]

/-- Reading stays in step with a capture exactly when no record holds fewer bytes than its
packet had. -/
theorem readsInStep_iff (name : String) (f₀ : File) {header : Bytes} (hh : header.length = 24)
    {recs : List Record} {calls : List (ℕ × Bytes)}
    (hbuf : List.Forall₂ (fun c r => r.header.originalLen.toNat ≤ c.2.length) calls recs) :
    ReadsInStep name f₀ header recs calls ↔
      ∀ r ∈ recs, r.header.includeLen = r.header.originalLen := by
  obtain ⟨h, opened, ho, hrest⟩ := openStream_read name
    (recs.flatMap Record.bytes) hh f₀
  constructor
  · rintro ⟨_, _, finished, _, ho', hs, -⟩
    obtain ⟨-, rfl⟩ := EStateM.Result.ok.inj (ho'.symm.trans ho)
    exact lengths_of_session hbuf hrest hs
  · intro hlen
    obtain ⟨finished, hs, hf⟩ := session_of_lengths hbuf hlen hrest
    obtain ⟨last, hl, -⟩ := recv_simulates.eof_run hf
    exact ⟨h, opened, finished, last, ho, hs, hl⟩

/-- A record of which the snap length left one byte of two. -/
def cutRecord : Record where
  header := ⟨0, 0, 1, 2⟩
  data := [0xaa]
  data_length := rfl
  includeLen_pos := by decide
  includeLen_le := by decide

theorem readsInStep_iff_cutRecord :
    ReadsInStep "in.pcap" (File.start []) (List.replicate 24 0) [cutRecord] [(1, [0, 0])] ↔
      ∀ r ∈ [cutRecord], r.header.includeLen = r.header.originalLen :=
  readsInStep_iff "in.pcap" (File.start []) (by decide) (.cons (by decide) .nil)

/-- The cut record is not read in step: `recv` asks for a byte the file does not have. -/
theorem cutRecord_not_inStep :
    ¬ ReadsInStep "in.pcap" (File.start []) (List.replicate 24 0) [cutRecord] [(1, [0, 0])] := by
  rintro ⟨_, opened, finished, _, ho, hs, -⟩
  obtain ⟨_, opened', ho', hrest⟩ := openStream_read "in.pcap"
    ([cutRecord].flatMap Record.bytes) (show (List.replicate 24 0).length = 24 by decide)
    (File.start [])
  obtain ⟨-, rfl⟩ := EStateM.Result.ok.inj (ho.symm.trans ho')
  have hlen := lengths_of_session (.cons (by decide) .nil) hrest hs cutRecord (by simp)
  exact absurd hlen (by decide)

end ForeignFiles

end Pgen.PcapCapture
