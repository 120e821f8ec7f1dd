import Pgen.ModuleDetect
import Pgen.PacketCodec
import Pgen.PacketCopies

/-!
# How the headers of a frame are read

What becomes of a frame that is decoded, as a matter of its bytes: which header refuses it and how,
and where the ones behind it start.
-/
namespace Pgen.FrameReading
open ByteMemory StructLayout CorePacket ProtocolHeaders ProtocolIp ProtocolIpv6 ProtocolPackets
  PacketCopies PacketFailure HeaderReads ModuleDetect

section Fields

def byteAt (b : Bytes) (i : ℕ) : ℕ := (b.getD i 0).toNat

/-- A number of 16 bits in network byte order. -/
def wordAt (b : Bytes) (i : ℕ) : ℕ := 256 * byteAt b i + byteAt b (i + 1)

/-- A number of 32 bits in network byte order. -/
def dwordAt (b : Bytes) (i : ℕ) : ℕ := 65536 * wordAt b i + wordAt b (i + 2)

variable {b t : Bytes} {i k : ℕ}

@[simp] theorem byteAt_drop : byteAt (b.drop k) i = byteAt b (k + i) := by
  simp [byteAt, List.getD_eq_getElem?_getD]

@[simp] theorem wordAt_drop : wordAt (b.drop k) i = wordAt b (k + i) := by
  simp [wordAt, Nat.add_assoc]

@[simp] theorem dwordAt_drop : dwordAt (b.drop k) i = dwordAt b (k + i) := by
  simp [dwordAt, Nat.add_assoc]

theorem byteAt_take (h : i < k) : byteAt (b.take k) i = byteAt b i := by
  simp [byteAt, List.getD_eq_getElem?_getD, h]

theorem wordAt_take (h : i + 1 < k) : wordAt (b.take k) i = wordAt b i := by
  rw [wordAt, wordAt, byteAt_take (by omega), byteAt_take h]

theorem wordAt_lt : wordAt b i < 65536 := by
  have hhi := (b.getD i 0).toNat_lt
  have hlo := (b.getD (i + 1) 0).toNat_lt
  unfold wordAt byteAt
  omega

/-- A number in a struct, swapped to the order of the host. -/
theorem toNat_htons_dec (t : Bytes) : (htons (Layout.u16.dec t)).toNat = wordAt t 0 := by
  have hlo := (t.getD 0 0).toNat_lt
  have hhi := (t.getD 1 0).toNat_lt
  have hdec : (Layout.u16.dec t).toNat = (t.getD 0 0).toNat + 256 * (t.getD 1 0).toNat := by
    change (UInt16.ofNat _).toNat = _
    rw [UInt16.toNat_ofNat', Nat.mod_eq_of_lt (by omega)]
  rw [htons_toNat, hdec]
  change _ = 256 * (t.getD 0 0).toNat + (t.getD 1 0).toNat
  omega

theorem byteAt_append (h : i < b.length) : byteAt (b ++ t) i = byteAt b i := by
  rw [byteAt, byteAt, List.getD_append _ _ _ _ h]

theorem wordAt_append (h : i + 1 < b.length) : wordAt (b ++ t) i = wordAt b i := by
  rw [wordAt, wordAt, byteAt_append (by omega), byteAt_append h]

theorem dwordAt_append (h : i + 3 < b.length) : dwordAt (b ++ t) i = dwordAt b i := by
  rw [dwordAt, dwordAt, wordAt_append (by omega), wordAt_append h]

end Fields

section Headers

def ipTooShort : Failure := .exception "pgen::ipv4_header::read: buflen is too small"

def udpTooShort : Failure := .exception "pgen::udp_header::read: buflen is too small"

def arpTooShort : Failure := .exception "pgen::arp_header::read: bufferlen is too small"

def ipv6TooShort : Failure := .exception "pgen::ipv6_header::read: bufferlen is too small"

/-- The header length of the IPv4 header behind the Ethernet header. -/
def ipLength (memory : Bytes) : ℕ := 4 * (byteAt memory 14 % 16)

variable {memory : Bytes} {n : ℕ}

theorem readEth_run (hn : n ≤ memory.length) (h : EthernetHeader) :
    (Header.read memory n).run h =
      if n < 14 then .error ethTooShort h else .ok () (readEth memory h) := by
  split_ifs with hlt
  · exact run_bind_error (throwIf_fail hlt h)
  · exact readStruct_ok Eth.layout _ EthernetHeader.ofEth h (Nat.not_lt.mp hlt) hn

theorem type_eq_iff (memory : Bytes) (h : EthernetHeader) :
    (readEth memory h).type = etherTypeIp ↔ wordAt memory 12 = 0x0800 := by
  rw [← UInt16.toNat_inj, type_readEth]
  rfl

/-- The UDP header that is read. -/
def readUdp (memory : Bytes) (h : UdpHeader) : UdpHeader :=
  .ofUdpStruct (UdpStruct.layout.dec (memory.take 8)) h

theorem readUdp_run (hn : n ≤ memory.length) (h : UdpHeader) :
    (Header.read memory n).run h =
      if n < 8 then .error udpTooShort h else .ok () (readUdp memory h) := by
  split_ifs with hlt
  · exact run_bind_error (throwIf_fail hlt h)
  · exact readStruct_ok UdpStruct.layout _ UdpHeader.ofUdpStruct h (Nat.not_lt.mp hlt) hn

theorem src_eq_iff (memory : Bytes) (h : UdpHeader) :
    (readUdp memory h).src = 8888 ↔ wordAt memory 0 = 8888 := by
  have hword : (readUdp memory h).src.toNat = wordAt ((memory.take 8).take 2) 0 :=
    toNat_htons_dec _
  rw [← UInt16.toNat_inj, hword, wordAt_take (by decide), wordAt_take (by decide)]
  rfl

theorem dst_eq_iff (memory : Bytes) (h : UdpHeader) :
    (readUdp memory h).dst = 8888 ↔ wordAt memory 2 = 8888 := by
  have hword : (readUdp memory h).dst.toNat = wordAt (((memory.take 8).drop 2).take 2) 0 :=
    toNat_htons_dec _
  rw [← UInt16.toNat_inj, hword, wordAt_take (by decide), wordAt_drop, wordAt_take (by decide)]
  rfl

theorem protocol_filled (memory : Bytes) (h : Ipv4Header) :
    (Ipv4Header.filled memory h).protocol.toNat = byteAt memory 9 := by
  have hfield : (Ipv4Header.filled memory h).protocol.toNat =
      byteAt (((((((memory.take 20).drop 1).drop 1).drop 2).drop 2).drop 2).drop 1) 0 := by
    change byteAt (List.take 1 _) 0 = _
    exact byteAt_take (by decide)
  simp only [hfield, byteAt_drop]
  exact byteAt_take (by decide)

/-- How an IPv4 header is read, and what of it the object holds then. -/
theorem readIp_run (hn : n ≤ memory.length) (hmem : memory.length < 2^63) (h : Ipv4Header) :
    ∃ h', (Header.read memory n).run h =
        (if n < 20 ∨ n < 4 * (byteAt memory 0 % 16) then .error ipTooShort h'
        else if 4 * (byteAt memory 0 % 16) < 20 then .error .loadFault h' else .ok () h') ∧
      (¬ n < 20 → h'.length = 4 * (byteAt memory 0 % 16) ∧
        h'.protocol.toNat = byteAt memory 9) := by
  have hlen : (Ipv4Header.filled memory h).length = 4 * (byteAt memory 0 % 16) :=
    Ipv4Header.length_filled memory h
  have hprotocol := protocol_filled memory h
  generalize 4 * (byteAt memory 0 % 16) = len at hlen ⊢
  by_cases hshort : n < 20
  · have hrun : (Ipv4Header.read memory n).run h = .error ipTooShort h :=
      run_bind_error (throwIf_fail hshort h)
    exact ⟨h, by rw [if_pos (.inl hshort)]; exact hrun, fun hge => absurd hshort hge⟩
  have hrun := Ipv4Header.read_run h (Nat.not_lt.mp hshort) hn
  have hmin : Ipv4Header.minLength = 20 := rfl
  generalize Ipv4Header.filled memory h = g at hlen hprotocol hrun
  rw [hlen] at hrun
  by_cases hopt : n < len
  · rw [run_bind_error (throwIf_fail hopt g)] at hrun
    exact ⟨g, by rw [if_pos (.inr hopt)]; exact hrun, fun _ => ⟨hlen, hprotocol⟩⟩
  rw [run_bind_ok (throwIf_pass hopt g)] at hrun
  by_cases hsmall : len < 20
  · rw [sizeSub_of_lt (by omega), run_bind_error (load_fault (by omega) g)] at hrun
    exact ⟨g, by rw [if_neg (by omega), if_pos hsmall]; exact hrun, fun _ => ⟨hlen, hprotocol⟩⟩
  · have hle := g.length_le
    have hfits : ((memory.drop Ipv4Header.minLength).take (len - Ipv4Header.minLength)).length ≤
        Ipv4Header.maxLength - Ipv4Header.minLength :=
      (List.length_take_le _ _).trans (Nat.sub_le_sub_right (hlen ▸ hle) 20)
    obtain ⟨option, hcopy, -⟩ := PacketCodec.copyOption_ok hfits g
    rw [sizeSub_of_le (by omega), run_bind_ok (load_ok (by omega) g), hcopy] at hrun
    exact ⟨{ g with option := option }, by rw [if_neg (by omega), if_neg hsmall]; exact hrun,
      fun _ => ⟨hlen, hprotocol⟩⟩

/-- The IPv4 header behind the Ethernet header. -/
theorem readIp_at (hn : n ≤ memory.length) (hmem : memory.length < 2^63) (h14 : ¬ n < 14)
    (h : Ipv4Header) :
    ∃ h', (Header.read (memory.drop 14) (n - 14)).run h =
        (if n < 34 ∨ n < 14 + ipLength memory then .error ipTooShort h'
        else if ipLength memory < 20 then .error .loadFault h' else .ok () h') ∧
      (¬ n < 34 → h'.length = ipLength memory ∧ h'.protocol.toNat = byteAt memory 23) := by
  have hlen : (memory.drop 14).length = memory.length - 14 := List.length_drop
  obtain ⟨h', hrun, hfields⟩ := @readIp_run (memory.drop 14) (n - 14) (by omega) (by omega) h
  rw [byteAt_drop, Nat.add_zero] at hrun hfields
  rw [byteAt_drop] at hfields
  refine ⟨h', ?_, fun hge => hfields (by omega)⟩
  rw [hrun]
  have hshort : (n - 14 < 20 ∨ n - 14 < 4 * (byteAt memory 14 % 16)) ↔
      (n < 34 ∨ n < 14 + ipLength memory) := by
    unfold ipLength
    omega
  simp only [hshort]
  rfl

/-- The UDP header behind the two. -/
theorem readUdp_at (hn : n ≤ memory.length) (hip : ¬ n < 14 + ipLength memory) (h : UdpHeader) :
    (Header.read ((memory.drop 14).drop (ipLength memory)) (n - 14 - ipLength memory)).run h =
      if n < 22 + ipLength memory then .error udpTooShort h
      else .ok () (readUdp (memory.drop (14 + ipLength memory)) h) := by
  have hshort : n - 14 - ipLength memory < 8 ↔ n < 22 + ipLength memory := by omega
  rw [List.drop_drop, readUdp_run (by rw [List.length_drop]; omega)]
  simp only [hshort]

/-- A header that is read is skipped, whatever the length that is passed. -/
theorem readHeaders_member {M H : Type} [Header H] {get : M → H} {put : H → M → M} {m : M} {h : H}
    {b : Bytes} (phs : List (HeaderPtr M)) (hget : get (put h m) = h)
    (hr : (Header.read b n).run (get m) = .ok () h) :
    (Packet.readHeaders (.member get put :: phs) b n).run m =
      (Packet.readHeaders phs (b.drop (Header.length h)) (sizeSub n (Header.length h))).run
        (put h m) := by
  have hread : ((HeaderPtr.member get put).read b n).run m = .ok () (put h m) := onMember_ok hr
  rw [Packet.readHeaders, run_bind_ok hread, run_bind_ok (run_get _)]
  change (Packet.readHeaders phs (b.drop (Header.length (get (put h m))))
    (sizeSub n (Header.length (get (put h m))))).run _ = _
  rw [hget]

end Headers

section Refusals

/-- The failure of decoding a frame, if it is refused: an exception of the first header that the
frame is too short for, or the access outside the frame with which a header length of IPv4 below
five words ends. -/
def refusal : Kind → Bytes → Option Failure
  | .ethernet, b => if b.length < 14 then some ethTooShort else none
  | .arp, b =>
    if b.length < 14 then some ethTooShort
    else if b.length < 42 then some arpTooShort
    else none
  | .ipv4, b =>
    if b.length < 14 then some ethTooShort
    else if b.length < 34 ∨ b.length < 14 + ipLength b then some ipTooShort
    else if ipLength b < 20 then some .loadFault
    else none
  | .ipv6, b =>
    if b.length < 14 then some ethTooShort
    else if b.length < 54 then some ipv6TooShort
    else none
  | .udp, b =>
    if b.length < 14 then some ethTooShort
    else if b.length < 34 ∨ b.length < 14 + ipLength b then some ipTooShort
    else if ipLength b < 20 then some .loadFault
    else if b.length < 22 + ipLength b then some udpTooShort
    else none

/-- Reading these headers from the bytes ends with this verdict, whatever the object holds. -/
def Ends {M : Type} (phs : List (HeaderPtr M)) (b : Bytes) (v : Option Failure) : Prop :=
  ∀ m, verdict ((Packet.readHeaders phs b b.length).run m) = v

variable {M H S : Type} [Header H] {get : M → H} {put : H → M → M} {phs : List (HeaderPtr M)}
  {b : Bytes} {v : Option Failure}

theorem ends_nil (b : Bytes) : Ends ([] : List (HeaderPtr M)) b none := fun _ => rfl

theorem ends_struct {L : Layout S} {tooSmall : String} {fill : S → H → H}
    (hget : ∀ h m, get (put h m) = h) (hlen : ∀ h : H, Header.length h = L.size)
    (hread : (Header.read : _ → _ → Exec H Unit) = readStruct L L.size tooSmall fill)
    (h : ¬ b.length < L.size → Ends phs (b.drop L.size) v) :
    Ends (.member get put :: phs) b
      (if b.length < L.size then some (.exception tooSmall) else v) := by
  intro m
  split_ifs with hlt
  · have hthrow : (Header.read b b.length).run (get m) = .error (.exception tooSmall) (get m) := by
      rw [hread]
      exact run_bind_error (throwIf_fail hlt _)
    rw [readHeaders_error_cons phs hthrow]
    rfl
  · have hge := Nat.not_lt.mp hlt
    have hok : (Header.read b b.length).run (get m) =
        .ok () (fill (L.dec (b.take L.size)) (get m)) := by
      rw [hread]
      exact readStruct_ok L tooSmall fill (get m) hge (Nat.le_refl _)
    rw [readHeaders_member phs (hget _ _) hok, hlen, sizeSub_of_le hge, ← List.length_drop]
    exact h hlt _

theorem ends_ip {get : M → Ipv4Header} {put : Ipv4Header → M → M} (hb : b.length < 2^63)
    (hget : ∀ h m, get (put h m) = h)
    (h : ¬ b.length < 4 * (byteAt b 0 % 16) → Ends phs (b.drop (4 * (byteAt b 0 % 16))) v) :
    Ends (.member get put :: phs) b
      (if b.length < 20 ∨ b.length < 4 * (byteAt b 0 % 16) then some ipTooShort
      else if 4 * (byteAt b 0 % 16) < 20 then some .loadFault else v) := by
  intro m
  obtain ⟨ip, hip, hfields⟩ := readIp_run (Nat.le_refl b.length) hb (get m)
  split_ifs at hip ⊢ with hshort hsmall
  · rw [readHeaders_error_cons phs hip]
    rfl
  · rw [readHeaders_error_cons phs hip]
    rfl
  · have hlen : Header.length ip = 4 * (byteAt b 0 % 16) := (hfields (by omega)).1
    rw [readHeaders_member phs (hget _ _) hip, hlen, sizeSub_of_le (by omega), ← List.length_drop]
    exact h (by omega) _

theorem verdict_analyze_of_ends [PacketClass M] [BoundedPacket M]
    (h : Ends (headers : List (HeaderPtr M)) b v) (p : Packet M) :
    verdict ((Packet.analyze b b.length).run p) = v := by
  rw [← h p.members]
  cases hr : (Packet.readHeaders headers b b.length).run p.members with
  | error e m =>
    rw [analyze_of_error hr]
    rfl
  | ok r m =>
    obtain ⟨rest, k⟩ := r
    obtain rfl := readHeaders_length BoundedPacket.staysIn hr
    rw [analyze_of_ok hr]
    rfl

theorem ends_eth {get : M → EthernetHeader} {put : EthernetHeader → M → M}
    (hget : ∀ h m, get (put h m) = h) (h : ¬ b.length < 14 → Ends phs (b.drop 14) v) :
    Ends (.member get put :: phs) b (if b.length < 14 then some ethTooShort else v) :=
  ends_struct hget (fun _ => rfl) rfl h

/-- A header of one struct behind headers of `i` bytes. -/
theorem ends_struct_at {L : Layout S} {tooSmall : String} {fill : S → H → H} {i : ℕ}
    (hi : ¬ b.length < i) (hget : ∀ h m, get (put h m) = h)
    (hlen : ∀ h : H, Header.length h = L.size)
    (hread : (Header.read : _ → _ → Exec H Unit) = readStruct L L.size tooSmall fill) :
    Ends [.member get put] (b.drop i)
      (if b.length < i + L.size then some (.exception tooSmall) else none) := by
  have hends := ends_struct (b := b.drop i) hget hlen hread fun _ => ends_nil _
  have hshort : b.length - i < L.size ↔ b.length < i + L.size := by omega
  simpa only [List.length_drop, hshort] using hends

/-- The IPv4 header behind the Ethernet header. -/
theorem ends_ip_at {get : M → Ipv4Header} {put : Ipv4Header → M → M} (hb : b.length < 2^63)
    (h14 : ¬ b.length < 14) (hget : ∀ h m, get (put h m) = h)
    (h : ¬ b.length < 14 + ipLength b → Ends phs (b.drop (14 + ipLength b)) v) :
    Ends (.member get put :: phs) (b.drop 14)
      (if b.length < 34 ∨ b.length < 14 + ipLength b then some ipTooShort
      else if ipLength b < 20 then some .loadFault else v) := by
  have hlen : (b.drop 14).length = b.length - 14 := List.length_drop
  have hihl : 4 * (byteAt (b.drop 14) 0 % 16) = ipLength b := by
    rw [byteAt_drop]
    rfl
  have hrest : ¬ (b.drop 14).length < 4 * (byteAt (b.drop 14) 0 % 16) →
      Ends phs ((b.drop 14).drop (4 * (byteAt (b.drop 14) 0 % 16))) v := by
    rw [hihl, List.drop_drop]
    exact fun hge => h (by omega)
  have hends := ends_ip (by omega) hget hrest
  have hshort : (b.length - 14 < 20 ∨ b.length - 14 < ipLength b) ↔
      (b.length < 34 ∨ b.length < 14 + ipLength b) := by omega
  simpa only [hihl, hlen, hshort] using hends

/-- The bytes alone decide whether a frame is decoded, and how the call fails otherwise. -/
theorem verdict_analyze (k : Kind) (hb : b.length < 2^63) (p : Packet (Members k)) :
    verdict ((Packet.analyze b b.length).run p) = refusal k b := by
  cases k with
  | ethernet =>
    exact verdict_analyze_of_ends (M := Ethernet) (ends_eth (fun _ _ => rfl) fun _ => ends_nil _) p
  | arp =>
    exact verdict_analyze_of_ends (M := Arp) (ends_eth (fun _ _ => rfl) fun h14 =>
      ends_struct_at h14 (fun _ _ => rfl) (fun _ => rfl) rfl) p
  | ipv4 =>
    exact verdict_analyze_of_ends (M := Ipv4) (ends_eth (fun _ _ => rfl) fun h14 =>
      ends_ip_at hb h14 (fun _ _ => rfl) fun _ => ends_nil _) p
  | ipv6 =>
    exact verdict_analyze_of_ends (M := Ipv6) (ends_eth (fun _ _ => rfl) fun h14 =>
      ends_struct_at h14 (fun _ _ => rfl) (fun _ => rfl) rfl) p
  | udp =>
    refine verdict_analyze_of_ends (M := Udp) (ends_eth (fun _ _ => rfl) fun h14 =>
      ends_ip_at hb h14 (fun _ _ => rfl) fun hip => ?_) p
    have hends : Ends [.member Udp.udp Udp.putUdp] _ _ :=
      ends_struct_at hip (fun _ _ => rfl) (fun _ => rfl) rfl
    have hshort : 14 + ipLength b + 8 = 22 + ipLength b := by omega
    change Ends _ _ (if b.length < 14 + ipLength b + 8 then _ else _) at hends
    rwa [hshort] at hends

end Refusals

end Pgen.FrameReading
