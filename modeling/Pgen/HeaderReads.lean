import Pgen.PacketFailure

/-!
# What reading a header depends on

Whether a header is read and what it holds afterwards is a matter of the bytes and not of what the
object held before, with one exception: the options of an IPv4 header behind those it read.
-/
namespace Pgen.HeaderReads
open ByteMemory StructLayout CorePacket ProtocolHeaders ProtocolIp ProtocolIpv6 ProtocolPackets
  PacketFailure

section Verdicts

variable {σ α β : Type}

/-- How a call failed, if it did. -/
def verdict : Outcome σ α → Option Failure
  | .ok _ _ => none
  | .error e _ => some e

theorem verdict_eq_none {r : Outcome σ α} : verdict r = none ↔ ∃ a s, r = .ok a s := by
  cases r <;> simp [verdict]

theorem verdict_eq_some {r : Outcome σ α} {e : Failure} :
    verdict r = some e ↔ ∃ s, r = .error e s := by
  cases r <;> simp [verdict]

/-- A header class whose `read` ends in the same way for all objects. -/
class ReadsBytes (H : Type) [Header H] where
  decoded : Bytes → H → H
  verdict_eq : ∀ (b : Bytes) (h h' : H),
    verdict ((Header.read b b.length).run h) = verdict ((Header.read b b.length).run h')
  read_eq_ok : ∀ {b : Bytes} {h h' : H}, (Header.read b b.length).run h = .ok () h' →
    h' = decoded b h ∧ Header.length h' ≤ b.length
  length_decoded : ∀ (b : Bytes) (h h' : H),
    Header.length (decoded b h) = Header.length (decoded b h')

end Verdicts

section Structs

variable {S H : Type} [Header H]

omit [Header H] in
theorem verdict_readStruct (L : Layout S) (tooSmall : String) (fill : S → H → H) (b : Bytes)
    (h : H) : verdict ((readStruct L L.size tooSmall fill b b.length).run h) =
      if b.length < L.size then some (.exception tooSmall) else none := by
  split_ifs with hlt
  · rw [readStruct, run_bind_error (throwIf_fail hlt h)]
    rfl
  · rw [readStruct_ok L tooSmall fill h (Nat.not_lt.mp hlt) (Nat.le_refl _)]
    rfl

/-- A class whose header is one struct. -/
@[reducible] def readsBytes_of_struct (L : Layout S) {tooSmall : String} {fill : S → H → H}
    (hlen : ∀ h : H, L.size = Header.length h)
    (hread : readStruct L L.size tooSmall fill = (Header.read : _ → _ → Exec H Unit)) :
    ReadsBytes H where
  decoded b h := fill (L.dec (b.take L.size)) h
  verdict_eq b h h' := by rw [← hread, verdict_readStruct, verdict_readStruct]
  read_eq_ok hr := by
    rw [← hread] at hr
    obtain ⟨hsize, heq⟩ := readStruct_eq_ok (Nat.le_refl _) hr
    exact ⟨heq, by rw [← hlen]; exact hsize⟩
  length_decoded b h h' := by rw [← hlen, ← hlen]

instance : ReadsBytes EthernetHeader :=
  readsBytes_of_struct Eth.layout (fun _ => rfl) rfl

instance : ReadsBytes ArpHeader :=
  readsBytes_of_struct ArpStruct.layout (fun _ => rfl) rfl

instance : ReadsBytes UdpHeader :=
  readsBytes_of_struct UdpStruct.layout (fun _ => rfl) rfl

instance : ReadsBytes Ipv6Header :=
  readsBytes_of_struct Ipv6Struct.layout (fun _ => rfl) rfl

end Structs

section Ipv4

theorem verdict_copyOption (data : Bytes) (h h' : Ipv4Header) :
    verdict ((Ipv4Header.copyOption data).run h) =
      verdict ((Ipv4Header.copyOption data).run h') := by
  unfold Ipv4Header.copyOption
  split_ifs <;> rfl

theorem verdict_readIpv4 (b : Bytes) (h h' : Ipv4Header) :
    verdict ((Ipv4Header.read b b.length).run h) =
      verdict ((Ipv4Header.read b b.length).run h') := by
  rcases Nat.lt_or_ge b.length 20 with hlt | hge
  · have hshort : b.length < Ipv4Header.minLength := hlt
    unfold Ipv4Header.read
    rw [run_bind_error (throwIf_fail hshort h), run_bind_error (throwIf_fail hshort h')]
    rfl
  -- from here on both runs depend on the header length, which the bytes determine
  have hlen : (Ipv4Header.filled b h').length = (Ipv4Header.filled b h).length := rfl
  rw [Ipv4Header.read_run h hge (Nat.le_refl _), Ipv4Header.read_run h' hge (Nat.le_refl _), hlen]
  by_cases hfit : b.length < (Ipv4Header.filled b h).length
  · rw [run_bind_error (throwIf_fail hfit _), run_bind_error (throwIf_fail hfit _)]
    rfl
  rw [run_bind_ok (throwIf_pass hfit _), run_bind_ok (throwIf_pass hfit _)]
  by_cases hin : Ipv4Header.minLength +
      sizeSub (Ipv4Header.filled b h).length Ipv4Header.minLength ≤ b.length
  · rw [run_bind_ok (load_ok hin _), run_bind_ok (load_ok hin _)]
    exact verdict_copyOption _ _ _
  · rw [run_bind_error (load_fault (Nat.not_le.mp hin) _),
      run_bind_error (load_fault (Nat.not_le.mp hin) _)]
    rfl

instance : ReadsBytes Ipv4Header where
  decoded := readIp
  verdict_eq := verdict_readIpv4
  read_eq_ok hr := by
    obtain ⟨-, hle, rfl⟩ := ip_eq_ok hr
    exact ⟨rfl, (length_readIp _ _).trans_le hle⟩
  length_decoded b h h' := (length_readIp b h).trans (length_readIp b h').symm

end Ipv4

section Stacks

variable {M H : Type} [Header H] {get : M → H} {put : H → M → M} {b : Bytes} {m : M} {h : H}
  {e : Failure}

/-- A header that is read is skipped. -/
theorem readHeaders_ok_cons (phs : List (HeaderPtr M)) (hget : get (put h m) = h)
    (hle : Header.length h ≤ b.length)
    (hr : (Header.read b b.length).run (get m) = .ok () h) :
    (Packet.readHeaders (.member get put :: phs) b b.length).run m =
      (Packet.readHeaders phs (b.drop (Header.length h)) (b.drop (Header.length h)).length).run
        (put h m) := by
  have hread : ((HeaderPtr.member get put).read b b.length).run m = .ok () (put h m) :=
    onMember_ok hr
  rw [Packet.readHeaders, run_bind_ok hread, run_bind_ok (run_get _)]
  change (Packet.readHeaders phs (b.drop (Header.length (get (put h m))))
    (sizeSub b.length (Header.length (get (put h m))))).run _ = _
  rw [hget, sizeSub_of_le hle, List.length_drop]

theorem readHeaders_error_cons (phs : List (HeaderPtr M))
    (hr : (Header.read b b.length).run (get m) = .error e h) :
    (Packet.readHeaders (.member get put :: phs) b b.length).run m = .error e (put h m) :=
  run_bind_error (onMember_error hr)

/-- A stack of headers that is read has its first one read. -/
theorem readHeaders_cons_eq_ok [ReadsBytes H] {phs : List (HeaderPtr M)} {r : Bytes × ℕ} {m' : M}
    (hget : ∀ h m, get (put h m) = h)
    (h : (Packet.readHeaders (.member get put :: phs) b b.length).run m = .ok r m') :
    ∃ g, (Header.read b b.length).run (get m) = .ok () g ∧ Header.length g ≤ b.length ∧
      (Packet.readHeaders phs (b.drop (Header.length g)) (b.drop (Header.length g)).length).run
        (put g m) = .ok r m' := by
  cases hr : (Header.read b b.length).run (get m) with
  | error e g => cases (readHeaders_error_cons _ hr).symm.trans h
  | ok u g =>
    obtain ⟨-, hle⟩ := ReadsBytes.read_eq_ok hr
    exact ⟨g, rfl, hle, (readHeaders_ok_cons _ (hget g m) hle hr).symm.trans h⟩

variable [PacketClass M]

theorem analyze_of_ok {p : Packet M} {rest : Bytes} {m' : M}
    (hr : (Packet.readHeaders headers b b.length).run p.members = .ok (rest, rest.length) m') :
    (Packet.analyze b b.length).run p = .ok () ⟨m', p.raw.setContent rest⟩ := by
  refine (run_bind_ok (onMember_ok hr)).trans ?_
  change (Packet.setContents rest rest.length).run _ = _
  rw [Packet.setContents_ok (Nat.le_refl _), List.take_length]

theorem analyze_of_error {p : Packet M} {m' : M}
    (hr : (Packet.readHeaders headers b b.length).run p.members = .error e m') :
    (Packet.analyze b b.length).run p = .error e ⟨m', p.raw⟩ :=
  run_bind_error (onMember_error hr)

end Stacks

section Members

/-- A header member of a packet class. -/
structure Member (M : Type) where
  H : Type
  header : Header H
  readsBytes : ReadsBytes H
  get : M → H
  put : H → M → M
  get_put : ∀ h m, get (put h m) = h

variable {M : Type}

namespace Member

instance (s : Member M) : Header s.H := s.header

instance (s : Member M) : ReadsBytes s.H := s.readsBytes

/-- The member that these access. -/
def of {H : Type} [Header H] [ReadsBytes H] (get : M → H) (put : H → M → M)
    (get_put : ∀ h m, get (put h m) = h) : Member M :=
  ⟨H, inferInstance, inferInstance, get, put, get_put⟩

def ptr (s : Member M) : HeaderPtr M := .member s.get s.put

/-- The members after all headers were read, each from what the ones before it left. -/
def decodeAll : List (Member M) → Bytes → M → M
  | [], _, m => m
  | s :: rest, b, m =>
      let h := ReadsBytes.decoded b (s.get m)
      decodeAll rest (b.drop (Header.length h)) (s.put h m)

end Member

/-- What the headers take of a frame and what they leave of it does not depend on the object. -/
theorem readHeaders_decodeAll {slots : List (Member M)} {b rest : Bytes} {k : ℕ} {m m' : M}
    (h : (Packet.readHeaders (slots.map Member.ptr) b b.length).run m = .ok (rest, k) m') :
    k = rest.length ∧ ∀ m₂, (Packet.readHeaders (slots.map Member.ptr) b b.length).run m₂ =
      .ok (rest, k) (Member.decodeAll slots b m₂) := by
  induction slots generalizing b m with
  | nil =>
    cases h
    exact ⟨rfl, fun m₂ => rfl⟩
  | cons s slots ih =>
    obtain ⟨g, hr, -, hrest⟩ := readHeaders_cons_eq_ok s.get_put h
    obtain ⟨rfl, -⟩ := ReadsBytes.read_eq_ok hr
    obtain ⟨hk, hall⟩ := ih hrest
    refine ⟨hk, fun m₂ => ?_⟩
    have hsame := ReadsBytes.verdict_eq b (s.get m) (s.get m₂)
    rw [hr] at hsame
    obtain ⟨_, g₂, hr₂⟩ := verdict_eq_none.mp hsame.symm
    obtain ⟨rfl, hle₂⟩ := ReadsBytes.read_eq_ok hr₂
    rw [List.map_cons, Member.ptr, readHeaders_ok_cons _ (s.get_put _ m₂) hle₂ hr₂,
      ReadsBytes.length_decoded b (s.get m₂) (s.get m), hall, Member.decodeAll,
      ReadsBytes.length_decoded b (s.get m₂) (s.get m)]

/-- A frame that one object accepts is accepted by all, with the same contents. -/
theorem analyze_decodeAll [PacketClass M] {slots : List (Member M)}
    (hslots : (headers : List (HeaderPtr M)) = slots.map Member.ptr) {b : Bytes} {p p' : Packet M}
    (h : (Packet.analyze b b.length).run p = .ok () p') :
    ∃ rest, ∀ p₂ : Packet M, (Packet.analyze b b.length).run p₂ =
      .ok () ⟨Member.decodeAll slots b p₂.members, p₂.raw.setContent rest⟩ := by
  obtain ⟨rest, k, hread, -⟩ := analyze_readHeaders h
  rw [hslots] at hread
  obtain ⟨rfl, hall⟩ := readHeaders_decodeAll hread
  refine ⟨rest, fun p₂ => analyze_of_ok ?_⟩
  rw [hslots]
  exact hall p₂.members

end Members

end Pgen.HeaderReads
