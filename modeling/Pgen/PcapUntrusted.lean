import Pgen.PcapRecords
import Pgen.Refinement

/-!
# Pcap files that nobody checked

The lengths in a file are anything. Whatever they are, a receive call either takes a header and the
packet behind it, or throws and has taken a prefix of what was left.
-/
namespace Pgen.PcapUntrusted
open ByteMemory StdioFile StructLayout FileStream PcapStream Refinement

section Calls

inductive Call
  | eof
  | recv (buf : Bytes)
  deriving DecidableEq, Repr

/-- What a call returns: whether the end was seen, or the length and the caller's buffer. -/
inductive Answer
  | atEnd (b : Bool)
  | received (n : ℕ) (buf : Bytes)
  deriving DecidableEq, Repr

def act : Call → Exec File Answer
  | .eof => do
    let b ← eof
    pure (.atEnd b)
  | .recv buf => do
    let (n, buf) ← recv buf
    pure (.received n buf)

/-- How the calls cut what is left of a file, with their reports and with what they leave of it.
A packet that is delivered is all that its header promises, and stands right behind it. -/
inductive Cuts : Bytes → List Call → List (Report Answer) → Bytes → Prop
  | done {left : Bytes} : Cuts left [] [] left
  | probed {left rest : Bytes} {calls : List Call} {reports : List (Report Answer)} :
      Cuts left calls reports rest →
      Cuts left (.eof :: calls) (.returned (.atEnd left.isEmpty) :: reports) rest
  | delivered {ph : PcapPacketHeader} {packet left buf rest : Bytes} {calls : List Call}
      {reports : List (Report Answer)} : packet.length = ph.originalLen.toNat →
      0 < packet.length → packet.length ≤ buf.length → Cuts left calls reports rest →
      Cuts (PcapPacketHeader.layout.enc ph ++ packet ++ left) (.recv buf :: calls)
        (.returned (.received packet.length (packet ++ buf.drop packet.length)) :: reports) rest
  | noHeader {left buf rest : Bytes} {calls : List Call} {reports : List (Report Answer)} :
      left.length < 16 → Cuts [] calls reports rest →
      Cuts left (.recv buf :: calls)
        (.thrown (.exception "pgen::file_stream::fread::fread: ") :: reports) rest
  | noRoom {ph : PcapPacketHeader} {left buf rest : Bytes} {calls : List Call}
      {reports : List (Report Answer)} : buf.length < ph.originalLen.toNat →
      Cuts left calls reports rest →
      Cuts (PcapPacketHeader.layout.enc ph ++ left) (.recv buf :: calls)
        (.thrown (.exception "pgen::pcap_stream::recv: buffer length is too small") :: reports) rest
  | noPacket {ph : PcapPacketHeader} {left buf rest : Bytes} {calls : List Call}
      {reports : List (Report Answer)} : ph.originalLen.toNat ≤ buf.length →
      ph.originalLen = 0 ∨ left.length < ph.originalLen.toNat →
      Cuts (left.drop ph.originalLen.toNat) calls reports rest →
      Cuts (PcapPacketHeader.layout.enc ph ++ left) (.recv buf :: calls)
        (.thrown (.exception "pgen::file_stream::fread::fread: ") :: reports) rest

/-- The packets among the reports. -/
def packets (reports : List (Report Answer)) : List Bytes :=
  reports.filterMap fun
    | .returned (.received n buf) => some (buf.take n)
    | _ => none

end Calls

section Runs

variable {f : File} {buf : Bytes} {calls : List Call}

/-- What is left of a file is too short for a header, or starts with one. -/
theorem short_or_header (left : Bytes) : left.length < 16 ∨
    ∃ ph tail, left = PcapPacketHeader.layout.enc ph ++ tail := by
  rcases Nat.lt_or_ge left.length 16 with hlt | hge
  · exact .inl hlt
  · refine .inr ⟨PcapPacketHeader.layout.dec (left.take 16), left.drop 16, ?_⟩
    have henc := PcapPacketHeader.layout.enc_dec_take hge
    rw [packetHeader_size] at henc
    rw [henc, List.take_append_drop]

/-- One call cuts off its part, and the calls behind it go on with what it leaves. -/
theorem cuts_step (f : File) (c : Call) : ∃ report f',
    (∀ cs, trace act (c :: cs) f = (report :: (trace act cs f').1, (trace act cs f').2)) ∧
      ∀ {cs reports rest}, Cuts f'.rest cs reports rest →
        Cuts f.rest (c :: cs) (report :: reports) rest := by
  cases c with
  | eof =>
    refine ⟨_, _, trace_cons_ok (run_bind_ok (eof_run f)), fun h => ?_⟩
    rw [rest_probed] at h
    exact .probed h
  | recv buf =>
    obtain hshort | ⟨ph, tail, hrest⟩ := short_or_header f.rest
    · have hs := readStruct_short PcapPacketHeader.layout (f := f) hshort
      have hrun : (act (.recv buf)).run f = _ := run_bind_error (run_bind_error hs)
      refine ⟨_, _, trace_cons_thrown (by simp [Failure.IsFault]) hrun, fun h => ?_⟩
      rw [rest_advance, packetHeader_size, List.drop_of_length_le (by omega)] at h
      exact .noHeader hshort h
    · obtain ⟨f', hr, hrest'⟩ := PcapRecords.recv_run hrest buf
      by_cases hsmall : buf.length < ph.originalLen.toNat
      · rw [if_pos hsmall] at hr hrest'
        refine ⟨_, f', trace_cons_thrown (by simp [Failure.IsFault]) (run_bind_error hr), ?_⟩
        intro cs reports rest h
        rw [hrest'] at h
        rw [hrest]
        exact .noRoom hsmall h
      rw [if_neg hsmall] at hr hrest'
      by_cases hfits : 0 < ph.originalLen.toNat ∧ ph.originalLen.toNat ≤ tail.length
      · rw [if_pos hfits] at hr
        refine ⟨_, f', trace_cons_ok (run_bind_ok hr), ?_⟩
        intro cs reports rest h
        have hlen : (tail.take ph.originalLen.toNat).length = ph.originalLen.toNat := by
          simp [hfits.2]
        have hcut : Cuts _ (.recv buf :: cs) _ rest :=
          .delivered hlen (by omega) (by omega) (hrest' ▸ h)
        rw [List.append_assoc, List.take_append_drop, ← hrest, hlen] at hcut
        exact hcut
      · rw [if_neg hfits] at hr
        refine ⟨_, f', trace_cons_thrown (by simp [Failure.IsFault]) (run_bind_error hr), ?_⟩
        intro cs reports rest h
        rw [hrest'] at h
        rw [hrest]
        refine .noPacket (by omega) ?_ h
        rcases Nat.eq_zero_or_pos ph.originalLen.toNat with hzero | hpos
        · exact .inl (UInt32.toNat_inj.mp hzero)
        · exact .inr (by omega)

/-- Every list of calls is answered to its end. -/
theorem cuts_run (calls : List Call) (f : File) : ∃ reports f',
    trace act calls f = (reports, some f') ∧ Cuts f.rest calls reports f'.rest := by
  induction calls generalizing f with
  | nil => exact ⟨[], f, rfl, .done⟩
  | cons c calls ih =>
    obtain ⟨report, f₁, hstep, hcut⟩ := cuts_step f c
    obtain ⟨reports, f', hr, hcuts⟩ := ih f₁
    refine ⟨report :: reports, f', ?_, hcut hcuts⟩
    rw [hstep, hr]

/-- The packets and their headers are disjoint parts of the file. -/
theorem Cuts.packets_le {left rest : Bytes} {reports : List (Report Answer)}
    (h : Cuts left calls reports rest) :
    ((packets reports).map fun packet => 16 + packet.length).sum + rest.length ≤ left.length := by
  induction h with
  | done => simp [packets]
  | probed _ ih => simpa [packets] using ih
  | @delivered ph packet left buf rest calls reports _ _ _ _ ih =>
    simp only [packets, List.filterMap_cons, List.map_cons, List.sum_cons, List.take_left,
      List.length_append, Layout.enc_length, packetHeader_size] at ih ⊢
    omega
  | noHeader _ _ ih =>
    simp only [packets, List.filterMap_cons, List.length_nil] at ih ⊢
    omega
  | noRoom _ _ ih =>
    simp only [packets, List.filterMap_cons, List.length_append] at ih ⊢
    omega
  | noPacket _ _ _ ih =>
    simp only [packets, List.filterMap_cons, List.length_append, List.length_drop] at ih ⊢
    omega

/-- Opening a file of any content for reading, and any calls after it, with their exceptions caught:
the file must have a file header, and then no call reads or stores outside an object, each packet
delivered is the part of the file behind its header, and the parts do not overlap. -/
theorem untrusted_reads (name : String) (content : Bytes) (calls : List Call) (f₀ : File) :
    if content.length < 24 then
      ∃ f', (openStream name .pcapRead (some content)).run f₀ =
        .error (.exception "pgen::file_stream::fread::fread: ") f'
    else
      ∃ header opened, (openStream name .pcapRead (some content)).run f₀ = .ok header opened ∧
      ∃ reports f', trace act calls opened = (reports, some f') ∧
        Cuts (content.drop 24) calls reports f'.rest ∧
        ((packets reports).map fun packet => 16 + packet.length).sum ≤ content.length - 24 := by
  split_ifs with hshort
  · have hs := readStruct_short PcapFileHeader.layout (f := File.start content)
      (by rw [rest_start, fileHeader_size]; exact hshort)
    exact ⟨_, run_bind_ok (x := fopen name .rb (some content)) rfl |>.trans hs⟩
  · have hheader : (content.take 24).length = 24 := by
      rw [List.length_take]
      omega
    obtain ⟨header, opened, ho, hrest⟩ := openStream_read name (content.drop 24) hheader f₀
    rw [List.take_append_drop] at ho
    obtain ⟨reports, f', hr, hcuts⟩ := cuts_run calls opened
    have hle := hcuts.packets_le
    rw [hrest, List.length_drop] at hle
    exact ⟨header, opened, ho, reports, f', hr, hrest ▸ hcuts, by omega⟩

end Runs

end Pgen.PcapUntrusted
