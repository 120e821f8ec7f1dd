import Pgen.ExtendTmp
import Pgen.FrameReading

/-!
# A frame as the reader of the example `pgen_extend` sees it

The program looks at each frame twice, with `is_tmp_packet` and with the class. The array that the
frame is in is larger than the frame, so a read that goes too far meets what lies behind it there.
-/
namespace Pgen.TmpFrames
open ByteMemory StructLayout CorePacket ProtocolHeaders ProtocolIp ProtocolPackets PacketCopies
  PacketFailure HeaderReads ModuleDetect FrameReading ExtendTmp

/-- `is_tmp_packet`; the header objects are local, with indeterminate members. -/
def isTmpPacket {σ : Type} (eth : EthernetHeader) (ip : Ipv4Header) (udp : UdpHeader) (buf : Bytes)
    (len : ℕ) : Exec σ Bool := do
  let (_, eth) ← onLocal eth (Header.read buf len)
  let buf := buf.drop (Header.length eth)
  let len := sizeSub len (Header.length eth)
  if eth.type ≠ etherTypeIp then return false
  let (_, ip) ← onLocal ip (Header.read buf len)
  let buf := buf.drop (Header.length ip)
  let len := sizeSub len (Header.length ip)
  if ip.protocol ≠ protocolUdp then return false
  let (_, udp) ← onLocal udp (Header.read buf len)
  if ¬ (udp.src = 8888 ∨ udp.dst = 8888) then return false
  return true

/-- What a line shows besides the time. -/
structure Line where
  id : UInt32
  msg : Bytes
  deriving DecidableEq, Repr

section Findings

def tmpTooShort : Failure := .exception "pgen::tmp_header::read: buflen is too small"

/-- Where the data of a datagram from or to port 8888 starts, if the `n` bytes are one. -/
def payload (memory : Bytes) (n : ℕ) : Except Failure (Option ℕ) :=
  if n < 14 then .error ethTooShort
  else if wordAt memory 12 ≠ 0x0800 then .ok none
  else if n < 34 ∨ n < 14 + ipLength memory then .error ipTooShort
  else if ipLength memory < 20 then .error .loadFault
  else if byteAt memory 23 ≠ 17 then .ok none
  else if n < 22 + ipLength memory then .error udpTooShort
  else if wordAt memory (14 + ipLength memory) = 8888 ∨ wordAt memory (16 + ipLength memory) = 8888
  then .ok (some (22 + ipLength memory))
  else .ok none

/-- The message whose header starts at `o`. A header of which the frame holds only a part is read
as it stands in the memory behind the frame; a message that goes beyond the frame then leaves a
length of the contents that wraps around. -/
def message (memory : Bytes) (n o : ℕ) : Except Failure Line :=
  let msglen := wordAt memory (o + 6)
  if n < o + 4 then .error tmpTooShort
  else if o + 8 ≤ n ∧ n < o + 8 + msglen then .error TmpHeader.tooSmall
  else if n < o + 8 ∧ memory.length < o + 8 + msglen then .error .loadFault
  else if n < o + 4 + msglen then .error .lengthError
  else .ok ⟨(dwordAt memory o).toUInt32, ((memory.drop (o + 8)).take msglen).takeWhile (· ≠ 0)⟩

/-- What the first `n` bytes of the memory come to: nothing, a line, or a failure. -/
def finding (memory : Bytes) (n : ℕ) : Except Failure (Option Line) :=
  match payload memory n with
  | .error e => .error e
  | .ok none => .ok none
  | .ok (some o) => (message memory n o).map some

end Findings

section Messages

variable {t : Bytes} {r : ℕ}

theorem htonl_dec (h : 4 ≤ t.length) :
    htonl (Layout.u32.dec (t.take 4)) = (dwordAt t 0).toUInt32 := by
  have henc : Layout.u32.enc (Layout.u32.dec (t.take 4)) = t.take 4 := Layout.u32.enc_dec_take h
  rw [htonl, henc]
  obtain ⟨a, b, c, d, rest, rfl⟩ : ∃ a b c d rest, t = a :: b :: c :: d :: rest := by
    rcases t with _ | ⟨a, _ | ⟨b, _ | ⟨c, _ | ⟨d, rest⟩⟩⟩⟩
    case cons.cons.cons.cons => exact ⟨a, b, c, d, rest, rfl⟩
    all_goals simp at h
  change UInt32.ofNat _ = UInt32.ofNat _
  congr 1
  simp [dwordAt, wordAt, byteAt]
  omega

theorem throwIf_congr {σ : Type} {p q : Prop} [Decidable p] [Decidable q] (h : p ↔ q)
    (what : String) : (throwIf p what : Exec σ Unit) = throwIf q what := by
  simp [throwIf, h]

/-- What is left behind the struct is compared as a `size_t`, so a header that the frame holds only
a part of passes for one with room for any message. -/
theorem sizeSub_lt_iff (hr : r < 2^63) (m : ℕ) (hm : m < 65536) :
    sizeSub r 8 < m ↔ 8 ≤ r ∧ r < 8 + m := by
  rcases Nat.lt_or_ge r 8 with hlt | hge
  · rw [sizeSub_of_lt hlt]
    omega
  · rw [sizeSub_of_le hge]
    omega

/-- The object when `read` comes to the message. -/
def structRead (t : Bytes) (h : TmpHeader) : TmpHeader := .ofTmpS (TmpS.layout.dec (t.take 8)) h

theorem msglen_structRead (t : Bytes) (h : TmpHeader) :
    (structRead t h).msglen.toNat = wordAt t 6 := by
  have hword : (structRead t h).msglen.toNat = wordAt (((t.take 8).drop 4).drop 2) 0 :=
    toNat_htons_dec _
  rw [hword, wordAt_drop, wordAt_drop, wordAt_take (by decide)]

theorem id_structRead (ht : 8 ≤ t.length) (h : TmpHeader) :
    (structRead t h).id = (dwordAt t 0).toUInt32 := by
  have hid := htonl_dec (t := t.take 8) (by rw [List.length_take]; omega)
  rw [dwordAt, wordAt_take (by decide), wordAt_take (by decide)] at hid
  exact hid

theorem readTmp_short (h : TmpHeader) (hr : r < 4) :
    (Header.read t r).run h = .error tmpTooShort h := run_bind_error (throwIf_fail hr h)

/-- The struct is read past the end of the memory. -/
theorem readTmp_fault (h : TmpHeader) (hr : ¬ r < 4) (ht : t.length < 8) :
    (Header.read t r).run h = .error .loadFault h := by
  have hsize : TmpS.layout.size = 8 := rfl
  change (TmpHeader.read t r).run h = _
  unfold TmpHeader.read
  rw [run_bind_ok (throwIf_pass (show ¬ r < TmpHeader.minLength from hr) h)]
  exact run_bind_error (run_bind_error (load_fault (by omega) h))

/-- What remains of `read` behind the struct. -/
def readMsg (t : Bytes) (r : ℕ) : Exec TmpHeader Unit := do
  throwIf (8 ≤ r ∧ r < 8 + wordAt t 6) "pgen::tmp_header::write: buflen is too small"
  let message ← load t 8 (wordAt t 6)
  modify fun h => { h with msg := message.takeWhile (· ≠ 0) }

theorem readTmp_run (h : TmpHeader) (hr : ¬ r < 4) (ht : 8 ≤ t.length) (hlt : r < 2^63) :
    (Header.read t r).run h = (readMsg t r).run (structRead t h) := by
  have hsize : TmpS.layout.size = 8 := rfl
  have hlen := msglen_structRead t h
  have hcond : sizeSub r 8 < (structRead t h).msglen.toNat ↔ 8 ≤ r ∧ r < 8 + wordAt t 6 := by
    rw [hlen]
    exact sizeSub_lt_iff hlt _ wordAt_lt
  change (TmpHeader.read t r).run h = _
  unfold TmpHeader.read readMsg
  rw [run_bind_ok (throwIf_pass (show ¬ r < TmpHeader.minLength from hr) h),
    run_bind_ok (TmpS.layout.load_ok (by omega) h), run_bind_ok (run_modify _ h),
    run_bind_ok (run_get _), List.drop_zero, hsize]
  change (throwIf (sizeSub r 8 < (structRead t h).msglen.toNat) _ >>= fun _ =>
    load t 8 (structRead t h).msglen.toNat >>= fun _ => _).run (structRead t h) = _
  rw [throwIf_congr hcond, hlen]

end Messages

section Detection

variable {memory : Bytes} {n o : ℕ}

theorem protocol_eq_iff {ip : Ipv4Header} (h : ip.protocol.toNat = byteAt memory 23) :
    ip.protocol = protocolUdp ↔ byteAt memory 23 = 17 := by
  rw [← UInt8.toNat_inj, h]
  rfl

/-- The port test of the UDP header that is read behind the two. -/
theorem ports_iff (memory : Bytes) (k : ℕ) (h : UdpHeader) :
    (readUdp (memory.drop (14 + k)) h).src = 8888 ∨ (readUdp (memory.drop (14 + k)) h).dst = 8888 ↔
      wordAt memory (14 + k) = 8888 ∨ wordAt memory (16 + k) = 8888 := by
  have hdst : 14 + k + 2 = 16 + k := by omega
  rw [src_eq_iff, dst_eq_iff, wordAt_drop, wordAt_drop, Nat.add_zero, hdst]

theorem isTmpPacket_run {σ : Type} (hn : n ≤ memory.length) (hmem : memory.length < 2^63)
    (eth : EthernetHeader) (ip : Ipv4Header) (udp : UdpHeader) (s : σ) :
    (isTmpPacket eth ip udp memory n).run s =
      match payload memory n with
      | .error e => .error e s
      | .ok found => .ok found.isSome s := by
  have heth := readEth_run hn eth
  have htype := type_eq_iff memory eth
  have hsize : Header.length (readEth memory eth) = 14 := rfl
  unfold payload
  by_cases h14 : n < 14
  · rw [if_pos h14] at heth ⊢
    exact run_bind_error (onLocal_error heth s)
  rw [if_neg h14] at heth ⊢
  refine (run_bind_ok (onLocal_ok heth s)).trans ?_
  simp only [hsize, sizeSub_of_le (Nat.not_lt.mp h14)]
  by_cases h12 : wordAt memory 12 ≠ 0x0800
  · rw [if_pos h12, if_pos (mt htype.mp h12)]
    rfl
  rw [if_neg h12, if_neg (not_not.mpr (htype.mpr (not_not.mp h12)))]
  obtain ⟨ip', hip, hfields⟩ := readIp_at hn hmem h14 ip
  by_cases hshort : n < 34 ∨ n < 14 + ipLength memory
  · rw [if_pos hshort] at hip ⊢
    exact run_bind_error (onLocal_error hip s)
  rw [if_neg hshort] at hip ⊢
  by_cases hsmall : ipLength memory < 20
  · rw [if_pos hsmall] at hip ⊢
    exact run_bind_error (onLocal_error hip s)
  rw [if_neg hsmall] at hip ⊢
  obtain ⟨hlen, hprotocol⟩ := hfields fun hlt => hshort (.inl hlt)
  have hlen' : Header.length ip' = ipLength memory := hlen
  refine (run_bind_ok (onLocal_ok hip s)).trans ?_
  simp only [hlen', sizeSub_of_le (show ipLength memory ≤ n - 14 by omega)]
  by_cases h23 : byteAt memory 23 ≠ 17
  · rw [if_pos h23, if_pos (mt (protocol_eq_iff hprotocol).mp h23)]
    rfl
  rw [if_neg h23, if_neg (not_not.mpr ((protocol_eq_iff hprotocol).mpr (not_not.mp h23)))]
  have hudp := readUdp_at hn (fun hlt => hshort (.inr hlt)) udp
  by_cases h22 : n < 22 + ipLength memory
  · rw [if_pos h22] at hudp ⊢
    exact run_bind_error (onLocal_error hudp s)
  rw [if_neg h22] at hudp ⊢
  refine (run_bind_ok (onLocal_ok hudp s)).trans ?_
  by_cases hport : wordAt memory (14 + ipLength memory) = 8888 ∨
      wordAt memory (16 + ipLength memory) = 8888
  · rw [if_pos hport, if_neg (not_not.mpr ((ports_iff _ _ _).mpr hport))]
    rfl
  · rw [if_neg hport, if_pos (mt (ports_iff _ _ _).mp hport)]
    rfl

end Detection

section Decoding

variable {memory : Bytes} {n o : ℕ}

/-- What an accepted frame is known to be. -/
theorem payload_some (h : payload memory n = .ok (some o)) :
    ¬ n < 14 ∧ ¬ (n < 34 ∨ n < 14 + ipLength memory) ∧ ¬ ipLength memory < 20 ∧
      ¬ n < 22 + ipLength memory ∧ o = 22 + ipLength memory := by
  unfold payload at h
  split_ifs at h with h14 h12 hip hsmall h23 h22 hport <;> cases h
  exact ⟨h14, hip, hsmall, h22, rfl⟩

/-- The packet class comes to the message of a frame that `is_tmp_packet` accepts. -/
theorem outer_run (hn : n ≤ memory.length) (hmem : memory.length < 2^63)
    (h : payload memory n = .ok (some o)) (m : Tmp) :
    ∃ m', (Packet.readHeaders Tmp.outer memory n).run m = .ok (memory.drop o, n - o) m' := by
  obtain ⟨h14, hip, hsmall, h22, rfl⟩ := payload_some h
  have heth := readEth_run hn m.eth
  rw [if_neg h14] at heth
  obtain ⟨ip, hiprun, hfields⟩ := readIp_at hn hmem h14 m.ip
  rw [if_neg hip, if_neg hsmall] at hiprun
  have hlen : Header.length ip = ipLength memory := (hfields fun hlt => hip (.inl hlt)).1
  have hudp := readUdp_at hn (fun hlt => hip (.inr hlt)) m.udp
  rw [if_neg h22] at hudp
  have hsize : Header.length (readUdp (memory.drop (14 + ipLength memory)) m.udp) = 8 := rfl
  have hsizeEth : Header.length (readEth memory m.eth) = 14 := rfl
  have hfirst : (Packet.readHeaders Tmp.outer memory n).run m = _ :=
    readHeaders_member [.member Tmp.ip Tmp.putIp, .member Tmp.udp Tmp.putUdp] rfl heth
  rw [hsizeEth, sizeSub_of_le (Nat.not_lt.mp h14)] at hfirst
  have hsecond : (Packet.readHeaders [.member Tmp.ip Tmp.putIp, .member Tmp.udp Tmp.putUdp]
      (memory.drop 14) (n - 14)).run (Tmp.putEth (readEth memory m.eth) m) = _ :=
    readHeaders_member [.member Tmp.udp Tmp.putUdp] rfl hiprun
  rw [hlen, sizeSub_of_le (by omega)] at hsecond
  have hthird : (Packet.readHeaders [.member Tmp.udp Tmp.putUdp]
      ((memory.drop 14).drop (ipLength memory)) (n - 14 - ipLength memory)).run
        (Tmp.putIp ip (Tmp.putEth (readEth memory m.eth) m)) = _ := readHeaders_member [] rfl hudp
  have hdrop : ((memory.drop 14).drop (ipLength memory)).drop 8 =
      memory.drop (22 + ipLength memory) := by
    rw [List.drop_drop, List.drop_drop]
    congr 1
    omega
  have hend : n - 14 - ipLength memory - 8 = n - (22 + ipLength memory) := by omega
  rw [hsize, sizeSub_of_le (by omega), hdrop, hend] at hthird
  exact ⟨_, hfirst.trans (hsecond.trans hthird)⟩

/-- The message at `o` in the header object. -/
def readAt (memory : Bytes) (o : ℕ) (h : TmpHeader) : TmpHeader :=
  { structRead (memory.drop o) h with
    msg := ((memory.drop (o + 8)).take (wordAt memory (o + 6))).takeWhile (· ≠ 0) }

theorem length_readAt (memory : Bytes) (o : ℕ) (h : TmpHeader) :
    (readAt memory o h).length = 4 + wordAt memory (o + 6) := by
  rw [← wordAt_drop, ← msglen_structRead _ h]
  rfl

theorem id_readAt (ho : o + 8 ≤ memory.length) (h : TmpHeader) :
    (readAt memory o h).id = (dwordAt memory o).toUInt32 := by
  have hid := id_structRead (t := memory.drop o) (by rw [List.length_drop]; omega) h
  rwa [dwordAt_drop] at hid

theorem readTmp_ok (hlt : n < 2^63) (h4 : o + 4 ≤ n)
    (hfit : o + 8 ≤ n → o + 8 + wordAt memory (o + 6) ≤ n)
    (hin : o + 8 + wordAt memory (o + 6) ≤ memory.length) (h : TmpHeader) :
    (Header.read (memory.drop o) (n - o)).run h = .ok () (readAt memory o h) := by
  have hlen : (memory.drop o).length = memory.length - o := List.length_drop
  have hpass : ¬ (8 ≤ n - o ∧ n - o < 8 + wordAt memory (o + 6)) := by omega
  rw [readTmp_run h (by omega) (by omega) (by omega), readMsg, wordAt_drop,
    run_bind_ok (throwIf_pass hpass _), run_bind_ok (load_ok (by omega) _), List.drop_drop]
  rfl

/-- A message that the frame should hold as a whole. -/
theorem readTmp_tooSmall (hn : n ≤ memory.length) (hlt : n < 2^63) (h8 : o + 8 ≤ n)
    (hshort : n < o + 8 + wordAt memory (o + 6)) (h : TmpHeader) :
    ∃ h', (Header.read (memory.drop o) (n - o)).run h = .error TmpHeader.tooSmall h' := by
  have hlen : (memory.drop o).length = memory.length - o := List.length_drop
  have hfail : 8 ≤ n - o ∧ n - o < 8 + wordAt memory (o + 6) := by omega
  rw [readTmp_run h (by omega) (by omega) (by omega), readMsg, wordAt_drop]
  exact ⟨_, run_bind_error (throwIf_fail hfail _)⟩

/-- A message that the memory does not hold either. -/
theorem readTmp_loadFault (h4 : o + 4 ≤ n) (h8 : n < o + 8)
    (hout : memory.length < o + 8 + wordAt memory (o + 6)) (h : TmpHeader) :
    ∃ h', (Header.read (memory.drop o) (n - o)).run h = .error .loadFault h' := by
  have hlen : (memory.drop o).length = memory.length - o := List.length_drop
  rcases Nat.lt_or_ge (memory.drop o).length 8 with ht | ht
  · exact ⟨h, readTmp_fault h (by omega) ht⟩
  have hpass : ¬ (8 ≤ n - o ∧ n - o < 8 + wordAt memory (o + 6)) := by omega
  rw [readTmp_run h (by omega) ht (by omega), readMsg, wordAt_drop,
    run_bind_ok (throwIf_pass hpass _)]
  exact ⟨_, run_bind_error (load_fault (by omega) _)⟩

theorem returns_clear_tmp : Returns (PacketClass.clear : Exec Tmp Unit) := by
  have hip : Returns Ipv4Header.clear := fun h => ⟨(), _, Ipv4Header.clear_run h⟩
  exact EthernetHeader.returns_clear.onMember.bind fun _ => (Returns.modify _).bind fun _ =>
    hip.onMember.bind fun _ => (Returns.modify _).bind fun _ => (Returns.modify _).bind fun _ =>
    UdpHeader.returns_clear.onMember.bind fun _ => (Returns.modify _).bind fun _ =>
    Returns.modify _

variable (hn : n ≤ memory.length) (hmem : memory.length < 2^63)
  (h : payload memory n = .ok (some o))
include hn hmem h

/-- Once the outer headers are read, decoding is a matter of the last header. -/
theorem readHeaders_tmp (m₀ : Tmp) :
    ∃ m, (Packet.readHeaders (headers : List (HeaderPtr Tmp)) memory n).run m₀ =
      (Packet.readHeaders [.member Tmp.tmp Tmp.putTmp] (memory.drop o) (n - o)).run m := by
  obtain ⟨m, houter⟩ := outer_run hn hmem h m₀
  refine ⟨m, ?_⟩
  change (Packet.readHeaders (Tmp.outer ++ _) _ _).run _ = _
  rw [readHeaders_concat, run_bind_ok houter]

theorem construct_of_error {e : Failure}
    (hr : ∀ g, ∃ g', (Header.read (memory.drop o) (n - o)).run (g : TmpHeader) = .error e g')
    (fresh : Tmp) : ∃ p, Packet.construct fresh memory n = .error e p := by
  obtain ⟨m₀, hclear⟩ := clear_ok returns_clear_tmp ⟨fresh, .new 128⟩
  obtain ⟨m, hheaders⟩ := readHeaders_tmp hn hmem h m₀
  obtain ⟨g, hg⟩ := hr m.tmp
  have hlast : (Packet.readHeaders [.member Tmp.tmp Tmp.putTmp] (memory.drop o) (n - o)).run m =
      .error e (Tmp.putTmp g m) := run_bind_error (onMember_error hg)
  exact ⟨_, (run_bind_ok hclear).trans (run_bind_error (onMember_error (hheaders.trans hlast)))⟩

theorem construct_of_ok
    (hr : ∀ g, (Header.read (memory.drop o) (n - o)).run g = .ok () (readAt memory o g))
    (fresh : Tmp) :
    ∃ p : Packet Tmp, (∃ g, p.members.tmp = readAt memory o g) ∧
      Packet.construct fresh memory n =
        (Packet.setContents ((memory.drop o).drop p.members.tmp.length)
          (sizeSub (n - o) p.members.tmp.length)).run p := by
  obtain ⟨m₀, hclear⟩ := clear_ok returns_clear_tmp ⟨fresh, .new 128⟩
  obtain ⟨m, hheaders⟩ := readHeaders_tmp hn hmem h m₀
  have hlast :
      (Packet.readHeaders [.member Tmp.tmp Tmp.putTmp] (memory.drop o) (n - o)).run m = _ :=
    readHeaders_member [] rfl (hr m.tmp)
  refine ⟨⟨Tmp.putTmp (readAt memory o m.tmp) m, .new 128⟩, ⟨m.tmp, rfl⟩, ?_⟩
  refine (run_bind_ok hclear).trans ?_
  unfold Packet.analyze
  rw [run_bind_ok (onMember_ok (hheaders.trans hlast))]
  rfl

/-- What decoding makes of an accepted frame. -/
theorem construct_run (fresh : Tmp) :
    match message memory n o with
    | .error e => ∃ p, Packet.construct fresh memory n = .error e p
    | .ok line => ∃ p, Packet.construct fresh memory n = .ok () p ∧
        (⟨p.members.tmp.id, p.members.tmp.msg⟩ : Line) = line := by
  have hlt : n < 2^63 := by omega
  unfold message
  generalize hlen : wordAt memory (o + 6) = len
  by_cases h4 : n < o + 4
  · simp only [if_pos h4]
    exact construct_of_error hn hmem h (fun g => ⟨g, readTmp_short g (by omega)⟩) fresh
  by_cases hsmall : o + 8 ≤ n ∧ n < o + 8 + len
  · simp only [if_neg h4, if_pos hsmall]
    exact construct_of_error hn hmem h (readTmp_tooSmall hn hlt hsmall.1 (hlen ▸ hsmall.2)) fresh
  by_cases hout : n < o + 8 ∧ memory.length < o + 8 + len
  · simp only [if_neg h4, if_neg hsmall, if_pos hout]
    exact construct_of_error hn hmem h
      (readTmp_loadFault (Nat.not_lt.mp h4) hout.1 (hlen ▸ hout.2)) fresh
  obtain ⟨p, ⟨g, hg⟩, hrun⟩ := construct_of_ok hn hmem h
    (readTmp_ok hlt (Nat.not_lt.mp h4) (by omega) (by omega)) fresh
  have hlength : p.members.tmp.length = 4 + len := by rw [hg, length_readAt, hlen]
  have hrest : ((memory.drop o).drop (4 + len)).length = memory.length - o - (4 + len) := by
    rw [List.length_drop, List.length_drop]
  rw [hlength] at hrun
  simp only [if_neg h4, if_neg hsmall, if_neg hout]
  by_cases hover : n < o + 4 + len
  · rw [if_pos hover]
    have hmax : vectorMaxSize = 2^63 - 1 := rfl
    rw [sizeSub_of_lt (by omega)] at hrun
    exact ⟨_, hrun.trans (Packet.setContents_wrapped (by omega) (by omega) p)⟩
  · rw [if_neg hover]
    rw [sizeSub_of_le (by omega)] at hrun
    refine ⟨_, hrun.trans (Packet.setContents_ok (by omega) p), ?_⟩
    change (⟨p.members.tmp.id, p.members.tmp.msg⟩ : Line) = _
    rw [hg, id_readAt (by omega), ← hlen]
    rfl

end Decoding

end Pgen.TmpFrames
