import Pgen.PcapStream

/-!
# Where calls on a pcap file leave the stream

`recv` takes the header of a record before it looks at the caller's buffer, and `send` writes it
before the data. A call that throws in between leaves the stream inside a record: a receive with a
buffer that is too small, and a send of an empty packet.
-/
namespace Pgen.PcapRecords
open ByteMemory StdioFile StructLayout FileStream FrameQueue PcapStream

/-- A well-formed record: it holds as much of its packet as its header says, which may be less
than the packet had. -/
structure WireRecord where
  header : PcapPacketHeader
  data : Bytes
  data_length : data.length = header.includeLen.toNat
  includeLen_le : header.includeLen.toNat ≤ header.originalLen.toNat

namespace WireRecord

def bytes (r : WireRecord) : Bytes := PcapPacketHeader.layout.enc r.header ++ r.data

/-- Nothing of the packet was cut off. -/
def Whole (r : WireRecord) : Prop := r.header.includeLen = r.header.originalLen

@[simp] theorem length_bytes (r : WireRecord) : r.bytes.length = 16 + r.data.length := by
  simp [bytes, packetHeader_size]

theorem whole_iff {r : WireRecord} : r.Whole ↔ r.data.length = r.header.originalLen.toNat := by
  rw [Whole, ← UInt32.toNat_inj, r.data_length]

end WireRecord

/-- The records of a file behind its header. -/
def fileBytes (recs : List WireRecord) : Bytes := recs.flatMap WireRecord.bytes

@[simp] theorem fileBytes_nil : fileBytes [] = [] := rfl

@[simp] theorem fileBytes_cons (r : WireRecord) (recs : List WireRecord) :
    fileBytes (r :: recs) = r.bytes ++ fileBytes recs := rfl

theorem fileBytes_append (recs recs' : List WireRecord) :
    fileBytes (recs ++ recs') = fileBytes recs ++ fileBytes recs' := List.flatMap_append

/-- A record takes up room in a file, so only a file without records is empty. -/
theorem fileBytes_eq_nil {recs : List WireRecord} (h : (fileBytes recs).length = 0) :
    recs = [] := by
  cases recs with
  | nil => rfl
  | cons r recs => simp at h

section Receiving

/-- A receive call at a header, with what it leaves of the bytes behind it. -/
theorem recv_run {ph : PcapPacketHeader} {tail : Bytes} {f : File}
    (hrest : f.rest = PcapPacketHeader.layout.enc ph ++ tail) (buf : Bytes) :
    ∃ f', (recv buf).run f =
        (if buf.length < ph.originalLen.toNat then
          .error (.exception "pgen::pcap_stream::recv: buffer length is too small") f'
        else if 0 < ph.originalLen.toNat ∧ ph.originalLen.toNat ≤ tail.length then
          .ok (ph.originalLen.toNat, tail.take ph.originalLen.toNat ++
            buf.drop ph.originalLen.toNat) f'
        else .error (.exception "pgen::file_stream::fread::fread: ") f') ∧
      f'.rest = if buf.length < ph.originalLen.toNat then tail
        else tail.drop ph.originalLen.toNat := by
  have hh := readStruct_enc PcapPacketHeader.layout (by rw [packetHeader_size]; norm_num) hrest
  have hrest₁ : (f.advance PcapPacketHeader.layout.size).rest = tail := by
    rw [rest_advance, hrest, List.drop_left' (Layout.enc_length _ _)]
  unfold recv
  rw [run_bind_ok hh]
  by_cases hsmall : buf.length < ph.originalLen.toNat
  · refine ⟨f.advance PcapPacketHeader.layout.size, ?_, ?_⟩
    · rw [run_bind_error (throwIf_fail hsmall _), if_pos hsmall]
    · rw [if_pos hsmall, hrest₁]
  · refine ⟨(f.advance PcapPacketHeader.layout.size).advance ph.originalLen.toNat, ?_, ?_⟩
    · have hread := read_run buf 0 ph.originalLen.toNat (f.advance PcapPacketHeader.layout.size)
      rw [if_pos (by omega), hrest₁, splice_zero] at hread
      rw [run_bind_ok (throwIf_pass hsmall _), if_neg hsmall]
      split_ifs at hread ⊢ with hfits
      · rw [run_bind_ok hread, List.length_take, Nat.min_eq_left hfits.2]
        rfl
      · exact run_bind_error hread
    · rw [if_neg hsmall, rest_advance, hrest₁]

/-- At the end of the file `recv` throws and stays there. -/
theorem recv_end {f : File} (hrest : f.rest = []) (buf : Bytes) :
    ∃ what f', (recv buf).run f = .error (.exception what) f' ∧ f'.rest = [] := by
  have hs := readStruct_short PcapPacketHeader.layout (f := f)
    (by simp [hrest, packetHeader_size])
  exact ⟨_, _, run_bind_error hs, by simp [hrest]⟩

/-- The calls stay in step with the records: each returns the data of the record it comes to, or
throws and leaves the stream in front of that record or behind it. -/
inductive InStep : File → List WireRecord → List Bytes → Prop
  | done {f : File} {recs : List WireRecord} : f.rest = fileBytes recs → InStep f recs []
  | received {f f' : File} {r : WireRecord} {recs : List WireRecord} {buf : Bytes}
      {calls : List Bytes} : f.rest = fileBytes (r :: recs) →
      (recv buf).run f = .ok (r.data.length, r.data ++ buf.drop r.data.length) f' →
      InStep f' recs calls → InStep f (r :: recs) (buf :: calls)
  | stayed {f f' : File} {recs : List WireRecord} {buf : Bytes} {calls : List Bytes}
      {what : String} : f.rest = fileBytes recs →
      (recv buf).run f = .error (.exception what) f' →
      InStep f' recs calls → InStep f recs (buf :: calls)
  | skipped {f f' : File} {r : WireRecord} {recs : List WireRecord} {buf : Bytes}
      {calls : List Bytes} {what : String} : f.rest = fileBytes (r :: recs) →
      (recv buf).run f = .error (.exception what) f' →
      InStep f' recs calls → InStep f (r :: recs) (buf :: calls)

theorem InStep.rest_eq {f : File} {recs : List WireRecord} {calls : List Bytes}
    (h : InStep f recs calls) : f.rest = fileBytes recs := by
  cases h <;> assumption

/-- A call keeps step at this record: a buffer that is too small meets a record without data, and
any other a record that is whole or the last one. -/
def Fits (r : WireRecord) (later : List WireRecord) (buf : Bytes) : Prop :=
  if buf.length < r.header.originalLen.toNat then r.data = [] else r.Whole ∨ later = []

/-- The calls, one for each record as long as there are any, all keep step. -/
def AllFit : List WireRecord → List Bytes → Prop
  | r :: recs, buf :: calls => Fits r recs buf ∧ AllFit recs calls
  | _, _ => True

variable {r : WireRecord} {recs : List WireRecord} {buf : Bytes} {f : File}

theorem recv_at (hrest : f.rest = fileBytes (r :: recs)) (buf : Bytes) :
    ∃ f', (recv buf).run f =
        (if buf.length < r.header.originalLen.toNat then
          .error (.exception "pgen::pcap_stream::recv: buffer length is too small") f'
        else if 0 < r.header.originalLen.toNat ∧
            r.header.originalLen.toNat ≤ (r.data ++ fileBytes recs).length then
          .ok (r.header.originalLen.toNat, (r.data ++ fileBytes recs).take
            r.header.originalLen.toNat ++ buf.drop r.header.originalLen.toNat) f'
        else .error (.exception "pgen::file_stream::fread::fread: ") f') ∧
      f'.rest = if buf.length < r.header.originalLen.toNat then r.data ++ fileBytes recs
        else (r.data ++ fileBytes recs).drop r.header.originalLen.toNat := by
  rw [fileBytes_cons, WireRecord.bytes, List.append_assoc] at hrest
  exact recv_run hrest buf

/-- A call that keeps step leaves the stream behind the record it came to. -/
theorem inStep_cons (hrest : f.rest = fileBytes (r :: recs)) (hfit : Fits r recs buf)
    {calls : List Bytes} (hnext : ∀ f', f'.rest = fileBytes recs → InStep f' recs calls) :
    InStep f (r :: recs) (buf :: calls) := by
  obtain ⟨f', hrun, hrest'⟩ := recv_at hrest buf
  have hle := r.includeLen_le
  rw [← r.data_length] at hle
  unfold Fits at hfit
  by_cases hsmall : buf.length < r.header.originalLen.toNat
  · rw [if_pos hsmall] at hrun hrest' hfit
    exact .skipped hrest hrun (hnext f' (by rw [hrest', hfit, List.nil_append]))
  · rw [if_neg hsmall] at hrun hrest' hfit
    by_cases hwhole : r.data.length = r.header.originalLen.toNat
    · rw [← hwhole, List.drop_left] at hrest'
      rw [← hwhole, List.take_left] at hrun
      split_ifs at hrun
      · exact .received hrest hrun (hnext f' hrest')
      · exact .skipped hrest hrun (hnext f' hrest')
    · -- the last record of the file says more than the file has
      have hlast : recs = [] := hfit.resolve_left (mt WireRecord.whole_iff.mp hwhole)
      subst hlast
      rw [fileBytes_nil, List.append_nil, if_neg (by omega)] at hrun
      rw [fileBytes_nil, List.append_nil, List.drop_eq_nil_of_le hle] at hrest'
      exact .skipped hrest hrun (hnext f' hrest')

/-- A call that leaves the stream in front of the record or behind it keeps step. -/
theorem fits_of_thrown {f' : File} {what : String} (hrest : f.rest = fileBytes (r :: recs))
    (hrun : (recv buf).run f = .error (.exception what) f') (hnext : f'.rest = fileBytes recs) :
    Fits r recs buf := by
  obtain ⟨f'', hrun', hrest'⟩ := recv_at hrest buf
  have hle := r.includeLen_le
  rw [← r.data_length] at hle
  rw [hrun] at hrun'
  unfold Fits
  split_ifs at hrun' hrest' ⊢ with hsmall hpos
  all_goals cases hrun'
  all_goals
    rw [hnext] at hrest'
    have hlen := congrArg List.length hrest'
  · rw [List.length_append] at hlen
    exact List.eq_nil_of_length_eq_zero (by omega)
  · rw [List.length_drop] at hlen
    rw [List.length_append] at hlen hpos
    by_cases hzero : r.header.originalLen.toNat = 0
    · exact .inl (WireRecord.whole_iff.mpr (by omega))
    · exact .inr (fileBytes_eq_nil (by omega))

theorem fits_of_received {f' : File} (hrest : f.rest = fileBytes (r :: recs))
    (hrun : (recv buf).run f = .ok (r.data.length, r.data ++ buf.drop r.data.length) f') :
    Fits r recs buf := by
  obtain ⟨f'', hrun', -⟩ := recv_at hrest buf
  rw [hrun] at hrun'
  unfold Fits
  split_ifs at hrun' ⊢ with hsmall hpos
  have hlen := congrArg Prod.fst (EStateM.Result.ok.inj hrun').1
  exact .inl (WireRecord.whole_iff.mpr hlen)

/-- No call leaves the stream in front of the record it came to: the header is gone. -/
theorem recv_moves (hrest : f.rest = fileBytes (r :: recs)) {f' : File} {what : String}
    (hrun : (recv buf).run f = .error (.exception what) f') :
    f'.rest ≠ fileBytes (r :: recs) := by
  obtain ⟨f'', hrun', hrest'⟩ := recv_at hrest buf
  have hle : f''.rest.length ≤ (r.data ++ fileBytes recs).length := by
    rw [hrest']
    split_ifs
    · exact Nat.le_refl _
    · exact (List.drop_sublist _ _).length_le
  rw [hrun] at hrun'
  intro hsame
  split_ifs at hrun'
  all_goals
    cases hrun'
    rw [hsame, fileBytes_cons, List.length_append, List.length_append, r.length_bytes] at hle
    omega

theorem allFit_of_inStep {calls : List Bytes} (h : InStep f recs calls) : AllFit recs calls := by
  induction h with
  | @done f recs hrest => cases recs <;> trivial
  | received hrest hrun _ ih => exact ⟨fits_of_received hrest hrun, ih⟩
  | @stayed f f' recs buf calls what hrest hrun hnext ih =>
    cases recs with
    | nil => trivial
    | cons r recs => exact absurd hnext.rest_eq (recv_moves hrest hrun)
  | skipped hrest hrun hnext ih => exact ⟨fits_of_thrown hrest hrun hnext.rest_eq, ih⟩

theorem inStep_of_allFit {calls : List Bytes} (h : AllFit recs calls)
    (hrest : f.rest = fileBytes recs) : InStep f recs calls := by
  induction calls generalizing recs f with
  | nil => exact .done hrest
  | cons buf calls ih =>
    cases recs with
    | nil =>
      obtain ⟨what, f', hrun, hrest'⟩ := recv_end hrest buf
      exact .stayed hrest hrun (ih (by cases calls <;> trivial) hrest')
    | cons r recs => exact inStep_cons hrest h.1 fun f' hrest' => ih h.2 hrest'

/-- Receiving from a capture file stays in step with its records exactly when no buffer is too
small for the record it is given for, and no record but the last was cut. -/
theorem recv_inStep_iff (name : String) (f₀ : File) {header : Bytes} (hh : header.length = 24)
    (recs : List WireRecord) (calls : List Bytes) :
    ∃ h opened,
      (openStream name .pcapRead (some (header ++ fileBytes recs))).run f₀ = .ok h opened ∧
      (InStep opened recs calls ↔ AllFit recs calls) := by
  obtain ⟨h, opened, ho, hrest⟩ := openStream_read name (fileBytes recs) hh f₀
  exact ⟨h, opened, ho, allFit_of_inStep, fun hfit => inStep_of_allFit hfit hrest⟩

/-- A record of two bytes. -/
def pairRecord : WireRecord where
  header := ⟨0, 0, 2, 2⟩
  data := [1, 2]
  data_length := rfl
  includeLen_le := by decide

theorem recv_inStep_pairRecord :
    ∃ h opened, (openStream "in.pcap" .pcapRead
        (some (List.replicate 24 0 ++ fileBytes [pairRecord, pairRecord]))).run (File.start []) =
      .ok h opened ∧
      (InStep opened [pairRecord, pairRecord] [[0, 0], [7, 7, 7], []] ↔
        AllFit [pairRecord, pairRecord] [[0, 0], [7, 7, 7], []]) :=
  recv_inStep_iff "in.pcap" (File.start []) (by decide) _ _

/-- A record whose payload looks like a record of one byte. -/
def nestedRecord : WireRecord where
  header := ⟨0, 0, 17, 17⟩
  data := [0, 0, 0, 0, 0, 0, 0, 0, 1, 0, 0, 0, 1, 0, 0, 0, 0xbb]
  data_length := rfl
  includeLen_le := by decide

/-- After a call with a buffer that is too small the next one takes the payload for a header. -/
theorem nestedRecord_out_of_step :
    ∃ h opened f₁ f₂, (openStream "in.pcap" .pcapRead
        (some (List.replicate 24 0 ++ fileBytes [nestedRecord]))).run (File.start []) =
      .ok h opened ∧
      (recv []).run opened =
        .error (.exception "pgen::pcap_stream::recv: buffer length is too small") f₁ ∧
      (recv (List.replicate 17 0)).run f₁ = .ok (1, 0xbb :: List.replicate 16 0) f₂ ∧
      ¬ InStep opened [nestedRecord] [[], List.replicate 17 0] := by
  refine ⟨_, _, _, _, rfl, rfl, rfl, ?_⟩
  intro h
  have hfit := (allFit_of_inStep h).1
  rw [Fits, if_pos (by decide)] at hfit
  cases hfit

end Receiving

section Sending

/-- A capture file of whole records with these data, which is read back to its end. -/
structure IsCapture (content : Bytes) (sent : List Bytes) : Prop where
  records : ∃ recs : List WireRecord, (∀ r ∈ recs, r.Whole) ∧ recs.map WireRecord.data = sent ∧
    content = PcapFileHeader.layout.enc writtenHeader ++ fileBytes recs
  readBack : ∀ (name : String) (f₀ : File) (bufs : List Bytes),
    List.Forall₂ (fun buf p => p.length ≤ buf.length) bufs sent →
    ∃ h opened finished last,
      (openStream name .pcapRead (some content)).run f₀ = .ok h opened ∧
      (session eof recv (bufs.map fun buf => (1, buf))).run opened =
        .ok (List.zipWith (fun buf p => ([false], received buf p)) bufs sent) finished ∧
      eof.run finished = .ok true last

/-- Each send appends one complete record or throws and changes nothing, and in every state the
file is a capture of what was sent. -/
inductive AllOrNothing : List Bytes → File → List Bytes → Prop
  | done {sent : List Bytes} {f : File} : IsCapture f.content sent → AllOrNothing sent f []
  | appended {sent : List Bytes} {f f' : File} {r : WireRecord} {packets : List Bytes} :
      IsCapture f.content sent → (send r.data).run f = .ok () f' → r.Whole →
      f'.content = f.content ++ r.bytes → AllOrNothing (sent ++ [r.data]) f' packets →
      AllOrNothing sent f (r.data :: packets)
  | refused {sent : List Bytes} {f f' : File} {p : Bytes} {packets : List Bytes}
      {what : String} : IsCapture f.content sent →
      (send p).run f = .error (.exception what) f' → f'.content = f.content →
      AllOrNothing sent f' packets → AllOrNothing sent f (p :: packets)

variable {f : File}

theorem send_appends (hend : AtEnd f) {p : Bytes} (hpos : 0 < p.length) :
    ∃ f', (send p).run f = .ok () f' ∧
      f'.content = f.content ++ (PcapPacketHeader.layout.enc (sentHeader p.length) ++ p) ∧
      AtEnd f' := by
  obtain ⟨f₁, h₁, hc₁, he₁⟩ := write_ok hend
    (PcapPacketHeader.layout.enc (sentHeader p.length))
    (by rw [Layout.enc_length, packetHeader_size]; norm_num)
  obtain ⟨f₂, h₂, hc₂, he₂⟩ := write_ok he₁ p hpos
  refine ⟨f₂, ?_, by rw [hc₂, hc₁, List.append_assoc], he₂⟩
  unfold send
  rw [run_bind_ok h₁, h₂]

/-- The header of an empty packet is out before its data are refused. -/
theorem send_empty (hend : AtEnd f) :
    ∃ f', (send []).run f = .error (.exception "pgen::file_stream::fwirte::fwite: ") f' ∧
      f'.content = f.content ++ PcapPacketHeader.layout.enc (sentHeader 0) := by
  obtain ⟨f₁, h₁, hc₁, -⟩ := write_ok hend (PcapPacketHeader.layout.enc (sentHeader 0))
    (by rw [Layout.enc_length, packetHeader_size]; norm_num)
  refine ⟨f₁, ?_, hc₁⟩
  unfold send
  rw [List.length_nil, run_bind_ok h₁]
  rfl

/-- The record of a packet whose length fits the header. -/
def sentRecord (p : Bytes) (hlt : p.length < 2^32) : WireRecord where
  header := sentHeader p.length
  data := p
  data_length := (UInt32.toNat_ofNat_of_lt' (by simpa using hlt)).symm
  includeLen_le := Nat.le_refl _

theorem isCapture_of_whole {recs : List WireRecord} (h : ∀ r ∈ recs, r.Whole ∧ 0 < r.data.length) :
    IsCapture (PcapFileHeader.layout.enc writtenHeader ++ fileBytes recs)
      (recs.map WireRecord.data) where
  records := ⟨recs, fun r hr => (h r hr).1, rfl, rfl⟩
  readBack := by
    intro name f₀ bufs hbuf
    obtain ⟨header, opened, ho, hrest⟩ := openStream_read name (fileBytes recs)
      (PcapFileHeader.layout.enc_length writtenHeader) f₀
    have hholds : Holds opened ((recs.map WireRecord.data).map some) := by
      refine ⟨recs.map WireRecord.bytes, ?_, by rw [hrest, fileBytes, List.flatMap_def]⟩
      rw [List.map_map, List.forall₂_map_left_iff, List.forall₂_map_right_iff, List.forall₂_same]
      intro r hr
      obtain ⟨hwhole, hpos⟩ := h r hr
      exact ⟨hpos, r.header, (WireRecord.whole_iff.mp hwhole).symm, rfl⟩
    have hacc : List.Forall₂ (fun (c : ℕ × Bytes) p => p.length ≤ c.2.length)
        (bufs.map fun buf => (1, buf)) (recs.map WireRecord.data) :=
      List.forall₂_map_left_iff.mpr hbuf
    obtain ⟨finished, hs, hf⟩ := session_run recv_simulates hacc [] (by simp) hholds
    obtain ⟨last, hl, -⟩ := recv_simulates.eof_run hf
    refine ⟨header, opened, finished, last, ho, ?_, by simpa using hl⟩
    rw [hs, List.zipWith_map_left]
    rfl

theorem allOrNothing_of_lengths {packets : List Bytes} {recs : List WireRecord}
    (hpk : ∀ p ∈ packets, 0 < p.length ∧ p.length < 2^32)
    (hrecs : ∀ r ∈ recs, r.Whole ∧ 0 < r.data.length)
    (hc : f.content = PcapFileHeader.layout.enc writtenHeader ++ fileBytes recs)
    (hend : AtEnd f) : AllOrNothing (recs.map WireRecord.data) f packets := by
  induction packets generalizing f recs with
  | nil => exact .done (hc ▸ isCapture_of_whole hrecs)
  | cons p packets ih =>
    obtain ⟨hpos, hlt⟩ := hpk p (by simp)
    obtain ⟨f', hsend, hc', hend'⟩ := send_appends hend hpos
    have hcap : IsCapture f.content (recs.map WireRecord.data) := hc ▸ isCapture_of_whole hrecs
    have hrecs' : ∀ r ∈ recs ++ [sentRecord p hlt], r.Whole ∧ 0 < r.data.length := by
      intro r hr
      rcases List.mem_append.mp hr with hr | hr
      · exact hrecs r hr
      · rw [List.mem_singleton.mp hr]
        exact ⟨rfl, hpos⟩
    have hnext := ih (fun q hq => hpk q (by simp [hq])) hrecs'
      (by rw [hc', hc, List.append_assoc, fileBytes_append]; simp [WireRecord.bytes, sentRecord])
      hend'
    rw [List.map_append] at hnext
    exact .appended (r := sentRecord p hlt) hcap hsend rfl hc' hnext

theorem lengths_of_allOrNothing {packets sent : List Bytes} (h : AllOrNothing sent f packets)
    (hend : AtEnd f) : ∀ p ∈ packets, 0 < p.length ∧ p.length < 2^32 := by
  induction h with
  | done => simp
  | @appended sent f f' r packets _ hsend _ _ _ ih =>
    have hpos : 0 < r.data.length := by
      by_contra hzero
      obtain ⟨f'', hempty, -⟩ := send_empty hend
      rw [List.eq_nil_of_length_eq_zero (Nat.eq_zero_of_not_pos hzero), hempty] at hsend
      cases hsend
    obtain ⟨f'', hsend', -, hend'⟩ := send_appends hend hpos
    cases hsend.symm.trans hsend'
    rw [List.forall_mem_cons]
    refine ⟨⟨hpos, ?_⟩, ih hend'⟩
    rw [r.data_length]
    exact r.header.includeLen.toNat_lt
  | @refused sent f f' p packets what _ hsend hsame _ ih =>
    by_cases hpos : 0 < p.length
    · obtain ⟨f'', hsend', -⟩ := send_appends hend hpos
      cases hsend.symm.trans hsend'
    · obtain ⟨f'', hempty, hgrown⟩ := send_empty hend
      rw [List.eq_nil_of_length_eq_zero (Nat.eq_zero_of_not_pos hpos)] at hsend
      cases hsend.symm.trans hempty
      have hlen := congrArg List.length (hsame.symm.trans hgrown)
      simp [packetHeader_size] at hlen

/-- Sending is all or nothing, call after call, exactly when every packet has a byte and a length
that fits the 32 bits of the header. -/
theorem send_allOrNothing_iff (name : String) (old : Bytes) (f₀ : File) (packets : List Bytes) :
    ∃ f, (openStream name .pcapWrite (some old)).run f₀ = .ok writtenHeader f ∧
      (AllOrNothing [] f packets ↔ ∀ p ∈ packets, 0 < p.length ∧ p.length < 2^32) := by
  obtain ⟨f, ho, hc, hend⟩ := openStream_write name old f₀
  refine ⟨f, ho, fun h => lengths_of_allOrNothing h hend, fun hpk => ?_⟩
  have hnone : ∀ r ∈ ([] : List WireRecord), r.Whole ∧ 0 < r.data.length := by simp
  exact allOrNothing_of_lengths hpk hnone (by rw [hc, fileBytes_nil, List.append_nil]) hend

/-- An empty packet leaves its header behind. -/
theorem emptyPacket_leaves_header :
    ∃ f f', (openStream "out.pcap" .pcapWrite (some [])).run (File.start []) =
        .ok writtenHeader f ∧
      (send []).run f = .error (.exception "pgen::file_stream::fwirte::fwite: ") f' ∧
      f'.content = f.content ++ PcapPacketHeader.layout.enc (sentHeader 0) ∧
      ¬ AllOrNothing [] f [[]] := by
  obtain ⟨f, ho, -, hend⟩ := openStream_write "out.pcap" [] (File.start [])
  obtain ⟨f', hsend, hc⟩ := send_empty hend
  refine ⟨f, f', ho, hsend, hc, fun h => ?_⟩
  have hpos := (lengths_of_allOrNothing h hend [] (by simp)).1
  exact absurd hpos (by decide)

end Sending

end Pgen.PcapRecords
