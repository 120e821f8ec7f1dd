import Pgen.HeaderReads
import Pgen.PacketCopies

/-!
# What lies behind the bytes of a frame

Callers receive into an array that is larger than the frame and pass the length of the frame along.
Decoding looks at the bytes up to that length only: whatever the array holds behind them, the call
ends in the same way and leaves the same object.
-/
namespace Pgen.PacketPrefix
open ByteMemory StructLayout CorePacket ProtocolHeaders ProtocolIp ProtocolIpv6 ProtocolPackets
  PacketCopies PacketFailure HeaderReads

section Headers

/-- Reading a header depends on the first `n` bytes, and a header that is read is inside them. -/
class ReadsPrefix (H : Type) [Header H] : Prop where
  read_take : ∀ {buffer : Bytes} {n : ℕ} (h : H), n ≤ buffer.length → buffer.length < 2^64 →
    (Header.read buffer n).run h = (Header.read (buffer.take n) n).run h

theorem readStruct_take {S H : Type} (L : Layout S) (tooSmall : String) (fill : S → H → H)
    {buffer : Bytes} {n : ℕ} (h : H) (hn : n ≤ buffer.length) :
    (readStruct L L.size tooSmall fill buffer n).run h =
      (readStruct L L.size tooSmall fill (buffer.take n) n).run h := by
  rcases Nat.lt_or_ge n L.size with hlt | hge
  · unfold readStruct
    rw [run_bind_error (throwIf_fail hlt h), run_bind_error (throwIf_fail hlt h)]
  · have htake : n ≤ (buffer.take n).length := by rw [List.length_take, Nat.min_eq_left hn]
    rw [readStruct_ok L tooSmall fill h hge hn, readStruct_ok L tooSmall fill h hge htake,
      List.take_take, Nat.min_eq_left hge]

instance : ReadsPrefix EthernetHeader := ⟨fun h hn _ => readStruct_take Eth.layout _ _ h hn⟩

instance : ReadsPrefix ArpHeader := ⟨fun h hn _ => readStruct_take ArpStruct.layout _ _ h hn⟩

instance : ReadsPrefix UdpHeader := ⟨fun h hn _ => readStruct_take UdpStruct.layout _ _ h hn⟩

instance : ReadsPrefix Ipv6Header := ⟨fun h hn _ => readStruct_take Ipv6Struct.layout _ _ h hn⟩

/-- A load inside the first `n` bytes does not see the others, and one of nearly `2^64` bytes is
outside either way. -/
theorem load_option_take {σ : Type} {buffer : Bytes} {n len : ℕ} (hn : n ≤ buffer.length)
    (hbuf : buffer.length < 2^64) (hlen : len ≤ n) (s : σ) :
    (load buffer 20 (sizeSub len 20)).run s = (load (buffer.take n) 20 (sizeSub len 20)).run s := by
  have htake : (buffer.take n).length = n := by rw [List.length_take, Nat.min_eq_left hn]
  rcases Nat.lt_or_ge len 20 with hlt | hge
  · rw [sizeSub_of_lt hlt, load_fault (by omega), load_fault (by omega)]
  · rw [sizeSub_of_le hge, load_ok (by omega), load_ok (by omega), List.drop_take, List.take_take,
      Nat.min_eq_left (by omega)]

instance : ReadsPrefix Ipv4Header where
  read_take := by
    intro buffer n h hn hbuf
    have htake : (buffer.take n).length = n := by rw [List.length_take, Nat.min_eq_left hn]
    change (Ipv4Header.read buffer n).run h = (Ipv4Header.read (buffer.take n) n).run h
    rcases Nat.lt_or_ge n 20 with hlt | hge
    · have hshort : n < Ipv4Header.minLength := hlt
      unfold Ipv4Header.read
      rw [run_bind_error (throwIf_fail hshort h), run_bind_error (throwIf_fail hshort h)]
    have hfilled : Ipv4Header.filled (buffer.take n) h = Ipv4Header.filled buffer h := by
      rw [Ipv4Header.filled, List.take_take, ip_size, Nat.min_eq_left hge, ← ip_size,
        Ipv4Header.filled]
    rw [Ipv4Header.read_run h hge hn, Ipv4Header.read_run h hge htake.ge, hfilled]
    rcases Nat.lt_or_ge n (Ipv4Header.filled buffer h).length with hlt | hfit
    · rw [run_bind_error (throwIf_fail hlt _), run_bind_error (throwIf_fail hlt _)]
    · rw [run_bind_ok (throwIf_pass (Nat.not_lt.mpr hfit) _),
        run_bind_ok (throwIf_pass (Nat.not_lt.mpr hfit) _), EStateM.run_bind, EStateM.run_bind,
        Ipv4Header.minLength, load_option_take hn hbuf hfit]

end Headers

section Stacks

variable {M : Type}

/-- Reading through the pointer depends on the first `n` bytes, and what is read is inside them. -/
structure PrefixOnly (ph : HeaderPtr M) : Prop where
  read_take : ∀ {buffer : Bytes} {n : ℕ} (m : M), n ≤ buffer.length → buffer.length < 2^64 →
    (ph.read buffer n).run m = (ph.read (buffer.take n) n).run m
  length_le : ∀ {b : Bytes} {m m' : M}, (ph.read b b.length).run m = .ok () m' →
    ph.length m' ≤ b.length

theorem prefixOnly_member {H : Type} [Header H] [ReadsBytes H] [ReadsPrefix H] {get : M → H}
    {put : H → M → M} (hget : ∀ h m, get (put h m) = h) :
    PrefixOnly (.member get put) where
  read_take m hn hbuf := by
    change onMember get put _ m = onMember get put _ m
    unfold onMember
    rw [ReadsPrefix.read_take (get m) hn hbuf]
  length_le h := by
    obtain ⟨t, ht, rfl⟩ := onMember_eq_ok h
    obtain ⟨-, hle⟩ := ReadsBytes.read_eq_ok ht
    change Header.length (get (put t _)) ≤ _
    rwa [hget]

/-- How the loop of `analyze` ends on the buffer, given how it ends on its first bytes. -/
def extended (rest : Bytes) : Outcome M (Bytes × ℕ) → Outcome M (Bytes × ℕ)
  | .ok (pointer, n) m => .ok (pointer ++ rest, n) m
  | .error e m => .error e m

theorem readHeaders_append {phs : List (HeaderPtr M)} (h : ∀ ph ∈ phs, PrefixOnly ph)
    (b rest : Bytes) (hbuf : (b ++ rest).length < 2^64) (m : M) :
    (Packet.readHeaders phs (b ++ rest) b.length).run m =
      extended rest ((Packet.readHeaders phs b b.length).run m) := by
  induction phs generalizing b m with
  | nil => rfl
  | cons ph phs ih =>
    rw [List.forall_mem_cons] at h
    have hread := h.1.read_take m (List.length_append ▸ Nat.le_add_right _ _) hbuf
    rw [List.take_left' rfl] at hread
    unfold Packet.readHeaders
    cases hr : (ph.read b b.length).run m with
    | error e m' =>
      rw [run_bind_error (hread.trans hr), run_bind_error hr]
      rfl
    | ok u m' =>
      have hle := h.1.length_le hr
      have hdrop : (b ++ rest).drop (ph.length m') = b.drop (ph.length m') ++ rest :=
        List.drop_append_of_le_length hle
      rw [run_bind_ok (hread.trans hr), run_bind_ok hr, run_bind_ok (run_get m'),
        run_bind_ok (run_get m'), hdrop, sizeSub_of_le hle, ← List.length_drop]
      refine ih h.2 _ ?_ m'
      rw [← hdrop, List.length_drop]
      omega

/-- A packet class whose headers are read from the bytes they are told of. -/
class PrefixPacket (M : Type) [PacketClass M] : Prop where
  prefixOnly : ∀ ph ∈ (headers : List (HeaderPtr M)), PrefixOnly ph

instance (k : Kind) : PrefixPacket (Members k) where
  prefixOnly :=
    match k with
    | .ethernet => List.forall_mem_singleton.mpr (prefixOnly_member fun _ _ => rfl)
    | .arp => List.forall_mem_cons.mpr ⟨prefixOnly_member fun _ _ => rfl,
        List.forall_mem_singleton.mpr (prefixOnly_member fun _ _ => rfl)⟩
    | .ipv4 => List.forall_mem_cons.mpr ⟨prefixOnly_member fun _ _ => rfl,
        List.forall_mem_singleton.mpr (prefixOnly_member fun _ _ => rfl)⟩
    | .ipv6 => List.forall_mem_cons.mpr ⟨prefixOnly_member fun _ _ => rfl,
        List.forall_mem_singleton.mpr (prefixOnly_member fun _ _ => rfl)⟩
    | .udp => List.forall_mem_cons.mpr ⟨prefixOnly_member fun _ _ => rfl,
        List.forall_mem_cons.mpr ⟨prefixOnly_member fun _ _ => rfl,
          List.forall_mem_singleton.mpr (prefixOnly_member fun _ _ => rfl)⟩⟩

/-- `analyze` does not look behind the bytes it is told of. -/
theorem analyze_append [PacketClass M] [PrefixPacket M] (p : Packet M) (b rest : Bytes)
    (hbuf : (b ++ rest).length < 2^64) :
    (Packet.analyze (b ++ rest) b.length).run p = (Packet.analyze b b.length).run p := by
  have hread := readHeaders_append PrefixPacket.prefixOnly b rest hbuf p.members
  unfold Packet.analyze
  cases hr : (Packet.readHeaders headers b b.length).run p.members with
  | error e m =>
    rw [hr] at hread
    rw [run_bind_error (onMember_error hread), run_bind_error (onMember_error hr)]
  | ok r m =>
    obtain ⟨pointer, n⟩ := r
    obtain rfl := readHeaders_length (fun ph hph => (PrefixPacket.prefixOnly ph hph).length_le) hr
    rw [hr] at hread
    rw [run_bind_ok (onMember_ok hread), run_bind_ok (onMember_ok hr)]
    change (Packet.setContents (pointer ++ rest) pointer.length).run _ =
      (Packet.setContents pointer pointer.length).run _
    rw [Packet.setContents_ok (by simp), Packet.setContents_ok (Nat.le_refl _),
      List.take_left' rfl, List.take_length]

end Stacks

section Classes

/-- Two arrays that agree up to the length of the frame are decoded alike into any object, by
`analyze` and by the constructor. -/
theorem decode_prefix (k : Kind) {buffer buffer' : Bytes} {n : ℕ} (hn : n ≤ buffer.length)
    (hn' : n ≤ buffer'.length) (hbuf : buffer.length < 2^64) (hbuf' : buffer'.length < 2^64)
    (heq : buffer.take n = buffer'.take n) (p : Packet (Members k)) (fresh : Members k) :
    (Packet.analyze buffer n).run p = (Packet.analyze buffer' n).run p ∧
      Packet.construct fresh buffer n = Packet.construct fresh buffer' n := by
  have hanalyze (q : Packet (Members k)) :
      (Packet.analyze buffer n).run q = (Packet.analyze buffer' n).run q := by
    have hcut (c : Bytes) (hc : n ≤ c.length) (hlt : c.length < 2^64) :
        (Packet.analyze c n).run q = (Packet.analyze (c.take n) n).run q := by
      have happend := analyze_append q (c.take n) (c.drop n) (by rwa [List.take_append_drop])
      rwa [List.take_append_drop, List.length_take, Nat.min_eq_left hc] at happend
    rw [hcut buffer hn hbuf, hcut buffer' hn' hbuf', heq]
  refine ⟨hanalyze p, ?_⟩
  unfold Packet.construct
  cases hclear : Packet.clear.run (⟨fresh, .new 128⟩ : Packet (Members k)) with
  | ok u q => rw [run_bind_ok hclear, run_bind_ok hclear, hanalyze]
  | error e q => rw [run_bind_error hclear, run_bind_error hclear]

theorem decode_prefix_short :
    let p : Packet (Members .ethernet) := ⟨⟨⟨.new, .new, 0⟩⟩, .new 128⟩
    (Packet.analyze (List.replicate 14 1 ++ [2]) 14).run p =
        (Packet.analyze (List.replicate 14 1 ++ [3, 4]) 14).run p ∧
      Packet.construct p.members (List.replicate 14 1 ++ [2]) 14 =
        Packet.construct p.members (List.replicate 14 1 ++ [3, 4]) 14 :=
  decode_prefix .ethernet (by decide) (by decide) (by decide) (by decide) (by decide) _ _

end Classes

end Pgen.PacketPrefix
