import Pgen.NetReceive
import Pgen.PacketStreams

/-!
# Packets from one interface to another

`net_stream::send` makes one call of the system's `write` and asks for all bytes to be taken. What a
program compiles and sends, another one that reads the frames from its socket gets back.
-/
namespace Pgen.NetLink
open ByteMemory CorePacket PacketCodec PacketCopies PacketStreams NetStream NetReceive Refinement
  StreamScan

section Sending

/-- What a call of the operating system's `write` ends with: the number of bytes it takes, if there
are as many, or a failure with some `errno`. -/
inductive WriteOutcome
  | wrote (n : ℕ)
  | failure (errno : ℕ)
  deriving DecidableEq, Repr

/-- What has left the interface, `errno`, and how many calls of the system's `write` were made. -/
structure OutState where
  sent : List Bytes
  errno : ℕ
  calls : ℕ
  deriving DecidableEq, Repr

/-- `::write` -/
def osWrite (os : ℕ → WriteOutcome) (buffer : Bytes) : Exec OutState ℤ := do
  let s ← get
  modify fun s => { s with calls := s.calls + 1 }
  match os s.calls with
  | .wrote n =>
    modify fun s => { s with sent := s.sent ++ [buffer.take n] }
    pure (buffer.take n).length
  | .failure errno =>
    modify fun s => { s with errno := errno }
    pure (-1)

/-- A `ssize_t` as a `size_t`. -/
def toSize (n : ℤ) : ℕ := (n % 2^64).toNat

def write (os : ℕ → WriteOutcome) (buffer : Bytes) : Exec OutState Unit := do
  let writeLen ← osWrite os buffer
  throwIf (toSize writeLen ≠ buffer.length) "pgen::net_stream::write::write: write comletion faild"
  throwIf (writeLen < 0) "pgen::net_stream::write::write: "

def send (os : ℕ → WriteOutcome) (buffer : Bytes) : Exec OutState Unit := write os buffer

/-- The state after a call of the system's `write` with this outcome. -/
def OutState.after (s : OutState) (buffer : Bytes) : WriteOutcome → OutState
  | .wrote n => { s with sent := s.sent ++ [buffer.take n], calls := s.calls + 1 }
  | .failure errno => { s with errno := errno, calls := s.calls + 1 }

/-- The system takes all of the bytes. -/
def takes (buffer : Bytes) : WriteOutcome → Bool
  | .wrote n => buffer.length ≤ n
  | .failure _ => false

def notCompleted : Failure := .exception "pgen::net_stream::write::write: write comletion faild"

variable {os : ℕ → WriteOutcome} {s : OutState} {buffer : Bytes}

theorem toSize_natCast {n : ℕ} (h : n < 2^64) : toSize n = n := by
  unfold toSize
  omega

/-- The result of the system's `write`, as a `size_t`, is the length of the buffer exactly when all
of it was taken: no buffer is as long as the failure's -1 would be. -/
theorem osWrite_run (os : ℕ → WriteOutcome) (s : OutState) (hlt : buffer.length < 2^64 - 1) :
    ∃ writeLen : ℤ,
    (osWrite os buffer).run s = .ok writeLen (s.after buffer (os s.calls)) ∧
      (toSize writeLen = buffer.length ↔ takes buffer (os s.calls) = true) ∧
      (toSize writeLen = buffer.length → 0 ≤ writeLen) := by
  cases ho : os s.calls with
  | wrote n =>
    have hrun : (osWrite os buffer).run s =
        .ok ((buffer.take n).length : ℤ) (s.after buffer (.wrote n)) := by
      unfold osWrite
      rw [run_bind_ok (run_get s), run_bind_ok (run_modify _ s)]
      simp only [ho]
      rfl
    have hlen : (buffer.take n).length = min n buffer.length := List.length_take
    refine ⟨_, hrun, ?_, fun _ => by omega⟩
    rw [toSize_natCast (by omega), hlen]
    simp [takes]
  | failure errno =>
    have hrun : (osWrite os buffer).run s = .ok (-1) (s.after buffer (.failure errno)) := by
      unfold osWrite
      rw [run_bind_ok (run_get s), run_bind_ok (run_modify _ s)]
      simp only [ho]
      rfl
    have hsize : toSize (-1) = 2^64 - 1 := by decide
    have hne : toSize (-1) ≠ buffer.length := by omega
    exact ⟨_, hrun, by simp [takes, hne], fun h => absurd h hne⟩

/-- One call of the system's `write`, and an exception if it did not take everything. -/
theorem send_run (os : ℕ → WriteOutcome) (s : OutState) (hlt : buffer.length < 2^64 - 1) :
    (send os buffer).run s =
    if takes buffer (os s.calls) = true then .ok () (s.after buffer (os s.calls))
    else .error notCompleted (s.after buffer (os s.calls)) := by
  obtain ⟨writeLen, hrun, hiff, hpos⟩ := osWrite_run os s hlt
  unfold send write
  rw [run_bind_ok hrun]
  split_ifs with htakes
  · have hlen := hiff.mpr htakes
    have hnonneg := hpos hlen
    rw [run_bind_ok (throwIf_pass (not_not.mpr hlen) _)]
    exact throwIf_pass (by omega) _
  · exact run_bind_error (throwIf_fail (mt hiff.mp htakes) _)

theorem calls_after (o : WriteOutcome) : (s.after buffer o).calls = s.calls + 1 := by
  cases o <;> rfl

/-- What leaves the interface. -/
def departs (buffer : Bytes) : WriteOutcome → List Bytes
  | .wrote n => [buffer.take n]
  | .failure _ => []

theorem sent_after (o : WriteOutcome) : (s.after buffer o).sent = s.sent ++ departs buffer o := by
  cases o <;> simp [OutState.after, departs]

theorem takes_iff_departs (o : WriteOutcome) :
    takes buffer o = true ↔ departs buffer o = [buffer] := by
  cases o with
  | wrote n => simp [takes, departs]
  | failure errno => simp [takes, departs]

/-- What a caller learns of a send. -/
def reported (buffer : Bytes) (o : WriteOutcome) : Report Unit :=
  if takes buffer o = true then .returned () else .thrown notCompleted

theorem returned_iff_departs (o : WriteOutcome) :
    reported buffer o = .returned () ↔ departs buffer o = [buffer] := by
  rw [← takes_iff_departs]
  simp [reported]

theorem trace_send (hlt : buffer.length < 2^64 - 1) (frames : List Bytes) :
    trace (send os) (buffer :: frames) s =
      (reported buffer (os s.calls) :: (trace (send os) frames (s.after buffer (os s.calls))).1,
        (trace (send os) frames (s.after buffer (os s.calls))).2) := by
  have hrun := send_run os s hlt
  unfold reported
  split_ifs at hrun ⊢
  · exact trace_cons_ok hrun frames
  · exact trace_cons_thrown (by simp [notCompleted, Failure.IsFault]) hrun frames

/-- Sends in a row, with exceptions caught between them: each makes one call of the system's `write`
and none is repeated, and a send returns exactly if its frame has left the interface entirely. -/
theorem sends_reported (os : ℕ → WriteOutcome) (s : OutState) {frames : List Bytes}
    (hlt : ∀ frame ∈ frames, frame.length < 2^64 - 1) :
    ∃ s', trace (send os) frames s =
        (frames.mapIdx fun n frame => reported frame (os (s.calls + n)), some s') ∧
      s'.calls = s.calls + frames.length ∧
      s'.sent = s.sent ++ (frames.mapIdx fun n frame => departs frame (os (s.calls + n))).flatten ∧
      ∀ (n : ℕ) (frame : Bytes), frames[n]? = some frame →
        (reported frame (os (s.calls + n)) = .returned () ↔
          departs frame (os (s.calls + n)) = [frame]) := by
  suffices h : ∃ s', trace (send os) frames s =
        (frames.mapIdx fun n frame => reported frame (os (s.calls + n)), some s') ∧
      s'.calls = s.calls + frames.length ∧
      s'.sent = s.sent ++ (frames.mapIdx fun n frame => departs frame (os (s.calls + n))).flatten by
    obtain ⟨s', htrace, hcalls, hsent⟩ := h
    exact ⟨s', htrace, hcalls, hsent, fun n frame _ => returned_iff_departs _⟩
  induction frames generalizing s with
  | nil => exact ⟨s, rfl, rfl, by simp⟩
  | cons frame frames ih =>
    rw [List.forall_mem_cons] at hlt
    obtain ⟨s', htrace, hcalls, hsent⟩ := ih (s.after frame (os s.calls)) hlt.2
    have hshift : ∀ n, os ((s.after frame (os s.calls)).calls + n) = os (s.calls + (n + 1)) := by
      intro n
      rw [calls_after, Nat.add_right_comm, Nat.add_assoc]
    simp only [hshift] at htrace hsent
    refine ⟨s', ?_, ?_, ?_⟩
    · rw [trace_send hlt.1, htrace, List.mapIdx_cons]
      rfl
    · rw [hcalls, calls_after, List.length_cons]
      omega
    · rw [hsent, sent_after, List.mapIdx_cons, List.flatten_cons, List.append_assoc]
      rfl

/-- The first frame is taken, of the second a part, and the third call is interrupted. -/
def someWrites : ℕ → WriteOutcome
  | 0 => .wrote 1500
  | 1 => .wrote 2
  | _ => .failure eintr

theorem sends_reported_three : ∃ s',
    trace (send someWrites) [[1, 2, 3], [4, 5, 6], [7]] ⟨[], 0, 0⟩ =
      ([.returned (), .thrown notCompleted, .thrown notCompleted], some s') ∧
    s'.calls = 3 ∧ s'.sent = [[1, 2, 3], [4, 5]] := by
  have hlt : ∀ frame ∈ ([[1, 2, 3], [4, 5, 6], [7]] : List Bytes), frame.length < 2^64 - 1 := by
    decide
  obtain ⟨s', htrace, hcalls, hsent, -⟩ := sends_reported someWrites ⟨[], 0, 0⟩ hlt
  exact ⟨s', htrace, hcalls, hsent⟩

end Sending

section Receiving

/-- How a frame is received: the array, and the class the packet is constructed in, with what its
members hold before. -/
structure NetReceipt where
  buf : Bytes
  kind : Kind
  fresh : Members kind

/-- Each frame that `recv` returns is made a packet. -/
inductive ReceivesAll (arrivals : ℕ → Arrival) :
    ℕ → ℕ → List NetReceipt → List AnyPacket → ℕ → Prop
  | done {errno i : ℕ} : ReceivesAll arrivals errno i [] [] i
  | received {errno i j recvlen : ℕ} {r : NetReceipt} {receipts : List NetReceipt}
      {packs : List AnyPacket} {s : IoState} {p : Packet (Members r.kind)} :
      Recv (packetSocket arrivals r.buf.length) ⟨r.buf, errno, i⟩ (.ok recvlen s) →
      Packet.construct r.fresh s.buffer recvlen = .ok () p →
      ReceivesAll arrivals s.errno s.calls receipts packs j →
      ReceivesAll arrivals errno i (r :: receipts) (⟨r.kind, p⟩ :: packs) j

/-- The array has room for the frame, and the packet is constructed in its class. -/
def Suits (r : NetReceipt) (pack : AnyPacket) : Prop :=
  r.kind = pack.1 ∧ size pack ≤ r.buf.length ∧ r.buf.length < 2^64 - 1

variable {arrivals : ℕ → Arrival} {errno i : ℕ}

/-- No frame of a packet is as short as the one that `read` mistakes for an interruption. -/
theorem hear_frame {r : NetReceipt} {pack : AnyPacket} (hv : CodedPacket.Valid pack.2.members)
    (hsuits : Suits r pack) :
    hear r.buf.length (.frame (frameOf pack)) = some (.returned (frameOf pack)) := by
  obtain ⟨-, hsize, -⟩ := frameOf_spec hv
  have hge := size_ge pack
  have hroom := hsuits.2.1
  have htake : (frameOf pack).take r.buf.length = frameOf pack :=
    List.take_of_length_le (hsize.trans_le hroom)
  have hne : (frameOf pack).length ≠ eintr := by
    rw [hsize]
    intro h
    rw [h] at hge
    exact absurd hge (by decide)
  simp [hear, htake, hne]

/-- The received bytes are the frame, and become the packet. -/
theorem construct_shown {r : NetReceipt} {pack : AnyPacket} (hv : CodedPacket.Valid pack.2.members)
    (hsuits : Suits r pack) {recvlen : ℕ} {s : IoState}
    (h : Shows r.buf.length (.ok recvlen s) (.returned (frameOf pack))) :
    ∃ p, Packet.construct r.fresh s.buffer recvlen = .ok () p ∧ SamePacket pack ⟨r.kind, p⟩ := by
  obtain ⟨buf, kind, fresh⟩ := r
  obtain ⟨k, p₀⟩ := pack
  obtain ⟨rfl, -, hlt⟩ := hsuits
  generalize hr : (.ok recvlen s : Outcome IoState ℕ) = r' at h
  cases h with
  | @returned s' _ hpre hlen =>
    cases hr
    obtain ⟨rest, hrest⟩ := hpre
    rw [← hrest]
    refine construct_frame hv fresh rest ?_
    rw [hrest, hlen]
    exact hlt.trans (by norm_num)

theorem receivesAll_same {receipts : List NetReceipt} {packs packs' : List AnyPacket} {j : ℕ}
    (hv : ∀ pack ∈ packs, CodedPacket.Valid pack.2.members)
    (hsuits : List.Forall₂ Suits receipts packs)
    (harrivals : ∀ n pack, packs[n]? = some pack → arrivals (i + n) = .frame (frameOf pack))
    (h : ReceivesAll arrivals errno i receipts packs' j) :
    List.Forall₂ SamePacket packs packs' := by
  induction hsuits generalizing errno i packs' with
  | nil =>
    cases h
    exact .nil
  | @cons r pack receipts packs hr _ ih =>
    rw [List.forall_mem_cons] at hv
    have hear := hear_frame hv.1 hr
    rw [← harrivals 0 pack rfl] at hear
    cases h with
    | @received _ _ _ recvlen _ _ packs' s p hrecv hconstruct hrest =>
      obtain ⟨report, hshows, hscan⟩ := recv_scans (s := ⟨r.buf, errno, i⟩) rfl hrecv
      obtain ⟨rfl, hcalls⟩ := (scan_stops hear).mp hscan
      obtain ⟨q, hq, hsame⟩ := construct_shown hv.1 hr hshows
      cases hq.symm.trans hconstruct
      refine .cons hsame (ih hv.2 (fun n pack' hn => ?_) hrest)
      have hnext := harrivals (n + 1) pack' hn
      rwa [← Nat.add_assoc, Nat.add_right_comm, ← hcalls] at hnext

theorem exists_receivesAll {receipts : List NetReceipt} {packs : List AnyPacket}
    (hv : ∀ pack ∈ packs, CodedPacket.Valid pack.2.members)
    (hsuits : List.Forall₂ Suits receipts packs)
    (harrivals : ∀ n pack, packs[n]? = some pack → arrivals (i + n) = .frame (frameOf pack)) :
    ∃ packs' j, ReceivesAll arrivals errno i receipts packs' j := by
  induction hsuits generalizing errno i with
  | nil => exact ⟨[], i, .done⟩
  | @cons r pack receipts packs hr _ ih =>
    rw [List.forall_mem_cons] at hv
    have hear := hear_frame hv.1 hr
    rw [← harrivals 0 pack rfl] at hear
    obtain ⟨r', hshows, hcalls, hrecv⟩ := scan_recvs (s := ⟨r.buf, errno, i⟩) rfl (.stops hear)
    cases hshows with
    | @returned s _ hpre hlen =>
      obtain ⟨p, hp, -⟩ := construct_shown hv.1 hr (.returned hpre hlen)
      have hrest : ∀ n pack', packs[n]? = some pack' →
          arrivals (s.calls + n) = .frame (frameOf pack') := by
        intro n pack' hn
        have hnext := harrivals (n + 1) pack' hn
        rwa [← Nat.add_assoc, Nat.add_right_comm, ← hcalls] at hnext
      obtain ⟨packs', j, hall⟩ := ih hv.2 hrest
      exact ⟨_, j, .received hrecv hp hall⟩

end Receiving

section Link

/-- The system takes each of the packets' frames entirely. -/
def TakesAll (os : ℕ → WriteOutcome) (i : ℕ) (packs : List AnyPacket) : Prop :=
  ∀ n pack, packs[n]? = some pack → ∃ k, os (i + n) = .wrote k ∧ size pack ≤ k

theorem forM_send {os : ℕ → WriteOutcome} {s : OutState} {packs : List AnyPacket}
    (hv : ∀ pack ∈ packs, CodedPacket.Valid pack.2.members)
    (hlt : ∀ pack ∈ packs, size pack < 2^64 - 1) (htakes : TakesAll os s.calls packs) :
    ∃ s', ((packs.map frameOf).forM (send os)).run s = .ok () s' ∧
      s'.sent = s.sent ++ packs.map frameOf := by
  induction packs generalizing s with
  | nil => exact ⟨s, rfl, by simp⟩
  | cons pack packs ih =>
    rw [List.forall_mem_cons] at hv hlt
    obtain ⟨-, hsize, -⟩ := frameOf_spec hv.1
    obtain ⟨k, hos, hk⟩ := htakes 0 pack rfl
    have hos : os s.calls = .wrote k := hos
    have hfits : (frameOf pack).length ≤ k := hsize.trans_le hk
    have hrun := send_run os s (hsize.trans_lt hlt.1)
    rw [hos, if_pos (by simpa [takes] using hfits)] at hrun
    have hsent : (s.after (frameOf pack) (.wrote k)).sent = _ := sent_after _
    rw [departs, List.take_of_length_le hfits] at hsent
    obtain ⟨s', hr, hs'⟩ := ih (s := s.after (frameOf pack) (.wrote k)) hv.2 hlt.2
      fun n pack' hn => by
        rw [calls_after, Nat.add_right_comm, Nat.add_assoc]
        exact htakes (n + 1) pack' hn
    refine ⟨s', (run_bind_ok hrun).trans hr, ?_⟩
    rw [hs', hsent, List.append_assoc]
    rfl

/-- Packets of valid headers that are compiled and sent through one interface leave it as one frame
each, and a socket that finds these frames in this order receives the same packets. -/
theorem link_roundtrip (os : ℕ → WriteOutcome) (s : OutState) {packs : List AnyPacket}
    {receipts : List NetReceipt} (hv : ∀ pack ∈ packs, CodedPacket.Valid pack.2.members)
    (hsuits : List.Forall₂ Suits receipts packs) (htakes : TakesAll os s.calls packs) :
    ∃ s', (packs.forM (compileInsert (send os))).run s = .ok () s' ∧
      s'.sent = s.sent ++ packs.map frameOf ∧
      (∀ pack ∈ packs, ∃ compiled, Packet.compile.run pack.2 = .ok () compiled ∧
        compiled.rawData = .ok (frameOf pack)) ∧
      ∀ (arrivals : ℕ → Arrival) (errno i : ℕ),
        (∀ n pack, packs[n]? = some pack → arrivals (i + n) = .frame (frameOf pack)) →
        (∃ packs' j, ReceivesAll arrivals errno i receipts packs' j) ∧
        ∀ packs' j, ReceivesAll arrivals errno i receipts packs' j →
          List.Forall₂ SamePacket packs packs' := by
  have hlt : ∀ pack ∈ packs, size pack < 2^64 - 1 := by
    intro pack hmem
    obtain ⟨n, hn, rfl⟩ := List.getElem_of_mem hmem
    obtain ⟨-, hroom, hlt⟩ := hsuits.get (hsuits.length_eq ▸ hn) hn
    exact hroom.trans_lt hlt
  obtain ⟨s', hr, hsent⟩ := forM_send hv hlt htakes
  refine ⟨s', by rw [forM_compileInsert hv]; exact hr, hsent, fun pack hmem => ?_, ?_⟩
  · obtain ⟨⟨compiled, hcompile, hraw, -⟩, -⟩ := frameOf_spec (hv pack hmem)
    exact ⟨compiled, hcompile, hraw⟩
  · intro arrivals errno i harrivals
    exact ⟨exists_receivesAll hv hsuits harrivals, fun packs' j h =>
      receivesAll_same hv hsuits harrivals h⟩

/-- Arrays of a hundred bytes for the two packets. -/
def mixedNetReceipts : List NetReceipt :=
  [⟨List.replicate 100 7, .ethernet, ⟨⟨.new, .new, 0⟩⟩⟩,
    ⟨List.replicate 100 7, .udp, PacketLayout.clearedUdp.members⟩]

theorem link_roundtrip_mixed : ∃ s',
    (mixedPackets.forM (compileInsert (send fun _ => .wrote 1500))).run ⟨[], 0, 0⟩ = .ok () s' ∧
      s'.sent = mixedPackets.map frameOf ∧
      (∀ pack ∈ mixedPackets, ∃ compiled, Packet.compile.run pack.2 = .ok () compiled ∧
        compiled.rawData = .ok (frameOf pack)) ∧
      ∀ (arrivals : ℕ → Arrival) (errno i : ℕ),
        (∀ n pack, mixedPackets[n]? = some pack → arrivals (i + n) = .frame (frameOf pack)) →
        (∃ packs' j, ReceivesAll arrivals errno i mixedNetReceipts packs' j) ∧
        ∀ packs' j, ReceivesAll arrivals errno i mixedNetReceipts packs' j →
          List.Forall₂ SamePacket mixedPackets packs' := by
  have hv : ∀ pack ∈ mixedPackets, CodedPacket.Valid pack.2.members :=
    List.forall_mem_cons.mpr ⟨⟨rfl, rfl⟩,
      List.forall_mem_singleton.mpr ⟨⟨rfl, rfl⟩, ⟨by decide, rfl, rfl⟩, trivial⟩⟩
  have hsize : ∀ pack ∈ mixedPackets, size pack ≤ 1500 := by decide
  have hsuits : List.Forall₂ Suits mixedNetReceipts mixedPackets :=
    .cons ⟨rfl, by decide, by decide⟩ (.cons ⟨rfl, by decide, by decide⟩ .nil)
  exact link_roundtrip (fun _ => .wrote 1500) ⟨[], 0, 0⟩ hv hsuits
    fun n pack hn => ⟨1500, rfl, hsize pack (List.mem_of_getElem? hn)⟩

end Link

end Pgen.NetLink
