import Pgen.FrameReading
import Pgen.NetReceive
import Pgen.PacketPrefix
import Pgen.PacketReuse

/-!
# Waiting for an ARP reply

`recv_arp` of the tool `arping` decodes whatever arrives as an Ethernet packet and, where the type
field says so, as an ARP packet, until one of them is a reply.
-/
namespace Pgen.Arping
open ByteMemory StructLayout CorePacket ProtocolHeaders ProtocolPackets PacketCopies PacketReuse
  PacketPrefix PacketFailure HeaderReads ModuleDetect FrameReading NetStream NetReceive Refinement
  StreamScan

section Model

/-- The local variables of a pass, as indeterminate as they are before it. -/
structure Locals where
  buf : Vector UInt8 1000
  eth : Ethernet
  arp : Arp

/-- A pass behind its `recv`: the header of a reply, if it was one. -/
def look (l : Locals) (buf : Bytes) (recvlen : ℕ) : Except Failure (Option ArpHeader) :=
  match Packet.construct l.eth buf recvlen with
  | .error e _ => .error e
  | .ok _ eth =>
    if eth.members.eth.type = 0x0806 then
      match Packet.construct l.arp buf recvlen with
      | .error e _ => .error e
      | .ok _ arp =>
        if arp.members.arp.operation = 2 then .ok (some arp.members.arp) else .ok none
    else .ok none

/-- `recv_arp`, from pass `k` on. -/
inductive RecvArp (arrivals : ℕ → Arrival) (locals : ℕ → Locals) :
    ℕ → ℕ → ℕ → Except Failure ArpHeader → ℕ → Prop
  | failed {k errno i : ℕ} {e : Failure} {s : IoState} :
      Recv (packetSocket arrivals 1000) ⟨(locals k).buf.toList, errno, i⟩ (.error e s) →
      RecvArp arrivals locals k errno i (.error e) s.calls
  | refused {k errno i recvlen : ℕ} {e : Failure} {s : IoState} :
      Recv (packetSocket arrivals 1000) ⟨(locals k).buf.toList, errno, i⟩ (.ok recvlen s) →
      look (locals k) s.buffer recvlen = .error e →
      RecvArp arrivals locals k errno i (.error e) s.calls
  | replied {k errno i recvlen : ℕ} {reply : ArpHeader} {s : IoState} :
      Recv (packetSocket arrivals 1000) ⟨(locals k).buf.toList, errno, i⟩ (.ok recvlen s) →
      look (locals k) s.buffer recvlen = .ok (some reply) →
      RecvArp arrivals locals k errno i (.ok reply) s.calls
  | goesOn {k errno i j recvlen : ℕ} {result : Except Failure ArpHeader} {s : IoState} :
      Recv (packetSocket arrivals 1000) ⟨(locals k).buf.toList, errno, i⟩ (.ok recvlen s) →
      look (locals k) s.buffer recvlen = .ok none →
      RecvArp arrivals locals (k + 1) s.errno s.calls result j →
      RecvArp arrivals locals k errno i result j

end Model

section Frames

/-- The operation field of an ARP packet is the one of a reply. -/
def IsReply (frame : Bytes) : Prop :=
  256 * (frame.getD 20 0).toNat + (frame.getD 21 0).toNat = 2

instance (frame : Bytes) : Decidable (IsReply frame) := by
  unfold IsReply
  infer_instance

instance (frame : Bytes) (etherType : UInt16) : Decidable (Carries frame etherType) := by
  unfold Carries
  infer_instance

/-- The ARP header behind the Ethernet header. -/
def arpIn (frame : Bytes) : ArpHeader :=
  .ofArpStruct (ArpStruct.layout.dec ((frame.drop 14).take 28))
    ⟨0, 0, 0, 0, 0, .new, .new, .new, .new⟩

/-- What a received frame comes to: nothing, an exception, or a reply. -/
def judgeFrame (frame : Bytes) : Except Failure (Option ArpHeader) :=
  if frame.length < 14 then .error ethTooShort
  else if Carries frame etherTypeArp then
    if frame.length < 42 then .error arpTooShort
    else if IsReply frame then .ok (some (arpIn frame)) else .ok none
  else .ok none

variable {frame : Bytes}

/-- The constructor from bytes decodes into the cleared object. -/
theorem construct_run (k : Kind) (fresh : Members k) : ∃ p : Packet (Members k),
    ∀ buffer n, Packet.construct fresh buffer n = (Packet.analyze buffer n).run p := by
  obtain ⟨m₀, hclear, -⟩ := clear_option k fresh
  exact ⟨⟨m₀, .new 128⟩, fun buffer n => run_bind_ok (onMember_ok hclear)⟩

/-- What lies in the buffer behind the received bytes is not looked at. -/
theorem construct_append (k : Kind) (fresh : Members k) (rest : Bytes)
    (hlt : (frame ++ rest).length < 2^64) :
    Packet.construct fresh (frame ++ rest) frame.length =
      Packet.construct fresh frame frame.length := by
  obtain ⟨p, hp⟩ := construct_run k fresh
  rw [hp, hp]
  exact analyze_append p frame rest hlt

theorem construct_short (fresh : Ethernet) (hlen : frame.length < 14) :
    ∃ p, Packet.construct fresh frame frame.length = .error ethTooShort p := by
  obtain ⟨p, hp⟩ := construct_run .ethernet fresh
  exact ⟨_, (hp _ _).trans (analyze_of_error
    (readHeaders_error_cons [] (readEth_error hlen p.members.eth)))⟩

theorem construct_ethernet (fresh : Ethernet) (hlen : 14 ≤ frame.length) :
    ∃ p, Packet.construct fresh frame frame.length = .ok () p ∧
      (p.members.eth.type = 0x0806 ↔ Carries frame etherTypeArp) := by
  obtain ⟨p, hp⟩ := construct_run .ethernet fresh
  have hread : (Packet.readHeaders (headers : List (HeaderPtr Ethernet)) frame frame.length).run
      p.members = .ok (frame.drop 14, (frame.drop 14).length)
        (Ethernet.putEth (readEth frame p.members.eth) p.members) :=
    readHeaders_ok_cons [] rfl hlen (readEth_ok hlen p.members.eth)
  exact ⟨_, (hp _ _).trans (analyze_of_ok hread),
    (carries_iff hlen p.members.eth etherTypeArp).symm⟩

/-- The operation field, in network byte order, as the memory holds it. -/
def operationWord (frame : Bytes) : UInt16 :=
  Layout.u16.dec (((((((frame.drop 14).take 28).drop 2).drop 2).drop 1).drop 1).take 2)

theorem toNat_operationWord (frame : Bytes) : (operationWord frame).toNat =
    (frame.getD 20 0).toNat + 256 * (frame.getD 21 0).toNat := by
  have hlo := (frame.getD 20 0).toNat_lt
  have hhi := (frame.getD 21 0).toNat_lt
  simp only [operationWord, Layout.u16, List.drop_drop, List.getD_eq_getElem?_getD,
    List.getElem?_drop, List.getElem?_take, UInt16.toNat_ofNat']
  simp only [List.getD_eq_getElem?_getD] at hlo hhi
  norm_num
  omega

theorem operation_arpIn : (arpIn frame).operation = 2 ↔ IsReply frame := by
  have hhi := (frame.getD 21 0).toNat_lt
  have hlo := (frame.getD 20 0).toNat_lt
  have hop : (arpIn frame).operation.toNat =
      256 * (frame.getD 20 0).toNat + (frame.getD 21 0).toNat := by
    change (htons (operationWord frame)).toNat = _
    rw [htons_toNat, toNat_operationWord]
    omega
  rw [IsReply, ← hop, ← UInt16.toNat_inj]
  rfl

theorem construct_arp (fresh : Arp) (hlen : 14 ≤ frame.length) :
    ∃ p, Packet.construct fresh frame frame.length =
        (if frame.length < 42 then .error arpTooShort p else .ok () p) ∧
      (42 ≤ frame.length → p.members.arp = arpIn frame) := by
  obtain ⟨p, hp⟩ := construct_run .arp fresh
  have hbody : (frame.drop 14).length = frame.length - 14 := List.length_drop
  have hrun := arpStack.analyze_run hlen p fun h hr => (ReadsBytes.read_eq_ok hr).2
  rw [hp]
  by_cases hshort : frame.length < 42
  · have hread (h : ArpHeader) :
        (Header.read (frame.drop 14) (frame.drop 14).length).run h = .error arpTooShort h :=
      run_bind_error (throwIf_fail (show (frame.drop 14).length < 28 by omega) h)
    rw [hread] at hrun
    exact ⟨_, by rw [if_pos hshort]; exact hrun, fun h => absurd hshort (Nat.not_lt.mpr h)⟩
  · have hread (h : ArpHeader) : (Header.read (frame.drop 14) (frame.drop 14).length).run h =
        .ok () (.ofArpStruct (ArpStruct.layout.dec ((frame.drop 14).take 28)) h) :=
      readStruct_ok ArpStruct.layout _ ArpHeader.ofArpStruct h
        (show 28 ≤ (frame.drop 14).length by omega) (Nat.le_refl _)
    rw [hread] at hrun
    exact ⟨_, by rw [if_neg hshort]; exact hrun, fun _ => rfl⟩

/-- A pass does with the received bytes what they come to. -/
theorem look_eq (l : Locals) (rest : Bytes) (hlt : (frame ++ rest).length < 2^64) :
    look l (frame ++ rest) frame.length = judgeFrame frame := by
  unfold look judgeFrame
  rw [construct_append .ethernet l.eth rest hlt, construct_append .arp l.arp rest hlt]
  rcases Nat.lt_or_ge frame.length 14 with hshort | hlen
  · obtain ⟨p, hp⟩ := construct_short l.eth hshort
    simp [hp, hshort]
  obtain ⟨p, hp, htype⟩ := construct_ethernet l.eth hlen
  simp only [hp, htype, if_neg (Nat.not_lt.mpr hlen)]
  split_ifs with hcarries hshort hreply
  · obtain ⟨q, hq, -⟩ := construct_arp l.arp hlen
    simp [hq, hshort]
  · obtain ⟨q, hq, harp⟩ := construct_arp l.arp hlen
    simp [hq, hshort, harp (Nat.not_lt.mp hshort), operation_arpIn, hreply]
  · obtain ⟨q, hq, harp⟩ := construct_arp l.arp hlen
    simp [hq, hshort, harp (Nat.not_lt.mp hshort), operation_arpIn, hreply]
  · rfl

end Frames

section Loop

variable {arrivals : ℕ → Arrival} {locals : ℕ → Locals} {k errno i j : ℕ}
  {result : Except Failure ArpHeader}

/-- What `recv_arp` makes of what a call of `recv` came to; nothing where it goes on. -/
def classify : Report Bytes → Option (Except Failure ArpHeader)
  | .returned frame =>
    match judgeFrame frame with
    | .error e => some (.error e)
    | .ok (some reply) => some (.ok reply)
    | .ok none => none
  | .thrown e => some (.error e)
  | .undefined => none

/-- What an arrival makes `recv_arp` return or throw, if it does not go on. -/
def judge (a : Arrival) : Option (Except Failure ArpHeader) := (hear 1000 a).bind classify

/-- A pass that received something looks at the received bytes. -/
theorem look_of_shows {l : Locals} {recvlen : ℕ} {s : IoState} {report : Report Bytes}
    (h : Shows 1000 (.ok recvlen s) report) :
    ∃ frame, report = .returned frame ∧ look l s.buffer recvlen = judgeFrame frame := by
  generalize hr : (.ok recvlen s : Outcome IoState ℕ) = r at h
  cases h with
  | thrown => cases hr
  | @returned s' received hpre hlen =>
    cases hr
    obtain ⟨rest, hrest⟩ := hpre
    refine ⟨received, rfl, ?_⟩
    rw [← hrest]
    exact look_eq l rest (by rw [hrest, hlen]; norm_num)

theorem recvArp_scans (h : RecvArp arrivals locals k errno i result j) :
    Scan judge arrivals i result j := by
  have hbuf (k : ℕ) : (locals k).buf.toList.length = 1000 := Vector.length_toList
  induction h with
  | failed hr =>
    obtain ⟨report, hshows, hscan⟩ := recv_scans (hbuf _) hr
    cases hshows
    exact scan_bind_iff.mpr ⟨_, _, hscan, .inl ⟨rfl, rfl⟩⟩
  | refused hr hlook =>
    obtain ⟨report, hshows, hscan⟩ := recv_scans (hbuf _) hr
    obtain ⟨frame, rfl, heq⟩ := look_of_shows hshows
    rw [heq] at hlook
    exact scan_bind_iff.mpr ⟨_, _, hscan, .inl ⟨by simp [classify, hlook], rfl⟩⟩
  | replied hr hlook =>
    obtain ⟨report, hshows, hscan⟩ := recv_scans (hbuf _) hr
    obtain ⟨frame, rfl, heq⟩ := look_of_shows hshows
    rw [heq] at hlook
    exact scan_bind_iff.mpr ⟨_, _, hscan, .inl ⟨by simp [classify, hlook], rfl⟩⟩
  | goesOn hr hlook _ ih =>
    obtain ⟨report, hshows, hscan⟩ := recv_scans (hbuf _) hr
    obtain ⟨frame, rfl, heq⟩ := look_of_shows hshows
    rw [heq] at hlook
    exact scan_bind_iff.mpr ⟨_, _, hscan, .inr ⟨by simp [classify, hlook], ih⟩⟩

theorem scan_recvArp (h : Scan judge arrivals i result j) (k errno : ℕ) :
    RecvArp arrivals locals k errno i result j := by
  induction hleft : j - i using Nat.strong_induction_on generalizing i k errno with
  | _ left ih =>
    obtain ⟨report, i', hscan, hlook⟩ := scan_bind_iff.mp h
    obtain ⟨r, hshows, rfl, hr⟩ :=
      scan_recvs (s := ⟨(locals k).buf.toList, errno, i⟩) Vector.length_toList hscan
    cases r with
    | error e s =>
      cases hshows
      obtain ⟨hsome, rfl⟩ | ⟨hnone, -⟩ := hlook
      · cases hsome
        exact .failed hr
      · cases hnone
    | ok recvlen s =>
      obtain ⟨frame, rfl, heq⟩ := look_of_shows (l := locals k) hshows
      cases hj : judgeFrame frame with
      | error e =>
        rw [hj] at heq
        obtain ⟨hsome, rfl⟩ | ⟨hnone, -⟩ := hlook
        · obtain rfl : .error e = result := by simpa [classify, hj] using hsome
          exact .refused hr heq
        · simp [classify, hj] at hnone
      | ok answer =>
        rw [hj] at heq
        cases answer with
        | some reply =>
          obtain ⟨hsome, rfl⟩ | ⟨hnone, -⟩ := hlook
          · obtain rfl : .ok reply = result := by simpa [classify, hj] using hsome
            exact .replied hr heq
          · simp [classify, hj] at hnone
        | none =>
          obtain ⟨hsome, -⟩ | ⟨-, hrest⟩ := hlook
          · simp [classify, hj] at hsome
          · have hlt := hscan.lt
            have hlt' := hrest.lt
            exact .goesOn hr heq (ih _ (by omega) hrest _ _ rfl)

/-- `recv_arp` ends with the first arrival that is a failed read, a frame too short to be decoded or
an ARP reply, and in what this comes to; frames of other types and ARP requests are passed over, and
frames of four bytes. Without such an arrival it does not end. -/
theorem recvArp_iff_first (arrivals : ℕ → Arrival) (locals : ℕ → Locals) (errno i : ℕ)
    (result : Except Failure ArpHeader) :
    (∃ j, RecvArp arrivals locals 0 errno i result j) ↔
      ∃ n, (∀ m < n, judge (arrivals (i + m)) = none) ∧ judge (arrivals (i + n)) = some result := by
  constructor
  · rintro ⟨j, h⟩
    obtain ⟨n, -, hpass, hstop⟩ := scan_iff.mp (recvArp_scans h)
    exact ⟨n, hpass, hstop⟩
  · rintro ⟨n, hpass, hstop⟩
    exact ⟨_, scan_recvArp (scan_iff.mpr ⟨n, rfl, hpass, hstop⟩) 0 errno⟩

end Loop

end Pgen.Arping
