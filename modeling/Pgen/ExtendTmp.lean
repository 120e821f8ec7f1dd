import Pgen.HeaderReads

/-!
# The packet class of the example `pgen_extend`

The class `tmp` has a header of eight bytes and a message, and `length` counts only four of the
eight. A decoded packet so has the last four bytes of this part in its contents, where `compile`
puts them back when it returns at all; with a message of four bytes or more it does not.
-/
namespace Pgen.ExtendTmp
open ByteMemory StructLayout CorePacket ProtocolHeaders ProtocolIp ProtocolPackets HeaderReads

section Model

/-- Host to network order of a 32-bit word on a little-endian host. -/
def htonl (x : UInt32) : UInt32 := Layout.u32.dec (Layout.u32.enc x).reverse

/-- `struct tmp_s` -/
structure TmpS where
  id : UInt32
  seq : UInt16
  msglen : UInt16
  deriving DecidableEq, Repr

def TmpS.layout : Layout TmpS := (Layout.u32.pair (Layout.u16.pair Layout.u16)).rename
  ⟨fun p => (p.id, p.seq, p.msglen), fun (a, b, c) => ⟨a, b, c⟩, fun _ => rfl, fun _ => rfl⟩

structure TmpHeader where
  id : UInt32
  seq : UInt16
  msglen : UInt16
  msg : Bytes
  deriving DecidableEq, Repr

namespace TmpHeader

def minLength : ℕ := 4

def length (h : TmpHeader) : ℕ := minLength + h.msglen.toNat

def toTmpS (h : TmpHeader) : TmpS := ⟨htonl h.id, htons h.seq, htons h.msglen⟩

def ofTmpS (p : TmpS) (h : TmpHeader) : TmpHeader :=
  { h with id := htonl p.id, seq := htons p.seq, msglen := htons p.msglen }

def write (h : TmpHeader) (bufferlen : ℕ) : Exec Bytes Unit := do
  throwIf (bufferlen < minLength) "pgen::tmp_header::write: buflen is too small"
  TmpS.layout.store 0 h.toTmpS
  let bufferlen := sizeSub bufferlen TmpS.layout.size
  throwIf (bufferlen < h.msglen.toNat) "pgen::tmp_header::write: buflen is too small"
  store TmpS.layout.size h.msg

/-- The message is taken up to its first null byte. -/
def read (buffer : Bytes) (bufferlen : ℕ) : Exec TmpHeader Unit := do
  throwIf (bufferlen < minLength) "pgen::tmp_header::read: buflen is too small"
  let p ← TmpS.layout.load buffer 0
  modify (ofTmpS p)
  let bufferlen := sizeSub bufferlen TmpS.layout.size
  let h ← get
  throwIf (bufferlen < h.msglen.toNat) "pgen::tmp_header::write: buflen is too small"
  let message ← load buffer TmpS.layout.size h.msglen.toNat
  modify fun h => { h with msg := message.takeWhile (· ≠ 0) }

instance : Header TmpHeader where
  length := length
  write := write
  read := read
  keepsLength_write _ _ := .bind (.throwIf _ _) fun _ => .bind (TmpS.layout.keepsLength_store _ _)
    fun _ => .bind (.throwIf _ _) fun _ => .store _ _

end TmpHeader

structure Tmp where
  tmp : TmpHeader
  udp : UdpHeader
  ip : Ipv4Header
  eth : EthernetHeader
  deriving DecidableEq, Repr

namespace Tmp

def putTmp (h : TmpHeader) (p : Tmp) : Tmp := { p with tmp := h }

def putUdp (h : UdpHeader) (p : Tmp) : Tmp := { p with udp := h }

def putIp (h : Ipv4Header) (p : Tmp) : Tmp := { p with ip := h }

def putEth (h : EthernetHeader) (p : Tmp) : Tmp := { p with eth := h }

/-- The headers in front of the last. -/
def outer : List (HeaderPtr Tmp) := [.member eth putEth, .member ip putIp, .member udp putUdp]

/-- `TMP` is not cleared, so the lengths are those of an indeterminate message. -/
instance : PacketClass Tmp where
  headers := outer ++ [.member tmp putTmp]
  clear := do
    onMember eth putEth EthernetHeader.clear
    modify fun p => { p with eth := { p.eth with type := 0x0800 } }
    onMember ip putIp Ipv4Header.clear
    modify fun p => { p with ip := { p.ip with protocol := protocolUdp } }
    modify fun p => { p with ip := { p.ip with
      totLen := (p.ip.length + Header.length p.udp + p.tmp.length).toUInt16 } }
    onMember udp putUdp UdpHeader.clear
    modify fun p => { p with udp := { p.udp with src := 8888, dst := 8888 } }
    modify fun p => { p with udp := { p.udp with
      len := (Header.length p.udp + p.tmp.length).toUInt16 } }

end Tmp

end Model

section Headers

@[simp] theorem htonl_htonl (x : UInt32) : htonl (htonl x) = x := by
  have hlen : (Layout.u32.enc x).reverse.length = Layout.u32.size := by
    rw [List.length_reverse, Layout.enc_length]
  simp [htonl, Layout.u32.enc_dec _ hlen]

namespace TmpHeader

theorem toTmpS_ofTmpS (p : TmpS) (h : TmpHeader) : toTmpS (ofTmpS p h) = p := by
  have hswap (x : UInt16) : htons (htons x) = x := ntohs_htons x
  simp [toTmpS, ofTmpS, hswap]

def tooSmall : Failure := .exception "pgen::tmp_header::write: buflen is too small"

variable {h h' : TmpHeader} {buffer mem : Bytes}

theorem enc_length (h : TmpHeader) : (TmpS.layout.enc h.toTmpS).length = 8 :=
  TmpS.layout.enc_length _

/-- A short message is written, four bytes farther than `length` says. -/
theorem write_ok (hshort : h.msglen.toNat < 4) (hroom : 8 + h.msg.length ≤ mem.length) :
    (h.write h.length).run mem =
      .ok () (TmpS.layout.enc h.toTmpS ++ (h.msg ++ mem.drop (8 + h.msg.length))) := by
  have hsize : TmpS.layout.size = 8 := rfl
  have hlen : h.length = 4 + h.msglen.toNat := rfl
  have hmin : ¬ h.length < minLength := Nat.not_lt.mpr (Nat.le_add_right _ _)
  have hsub : ¬ sizeSub h.length TmpS.layout.size < h.msglen.toNat := by
    rw [sizeSub_of_lt (by omega)]
    omega
  unfold write
  rw [run_bind_ok (throwIf_pass hmin _), run_bind_ok (TmpS.layout.store_ok _ (by omega)),
    run_bind_ok (throwIf_pass hsub _), hsize,
    store_append_ok h.enc_length (by rw [List.length_drop]; omega), List.drop_drop]

theorem write_fault_short (hshort : h.msglen.toNat < 4) (hroom : mem.length < 8 + h.msg.length) :
    ∃ mem', (h.write h.length).run mem = .error .storeFault mem' := by
  have hsize : TmpS.layout.size = 8 := rfl
  have hlen : h.length = 4 + h.msglen.toNat := rfl
  have hmin : ¬ h.length < minLength := Nat.not_lt.mpr (Nat.le_add_right _ _)
  have hsub : ¬ sizeSub h.length TmpS.layout.size < h.msglen.toNat := by
    rw [sizeSub_of_lt (by omega)]
    omega
  unfold write
  rw [run_bind_ok (throwIf_pass hmin _)]
  rcases Nat.lt_or_ge mem.length 8 with hlt | hge
  · exact ⟨mem, run_bind_error (store_fault (by rw [enc_length]; omega))⟩
  · rw [run_bind_ok (TmpS.layout.store_ok _ (by omega)), run_bind_ok (throwIf_pass hsub _)]
    refine ⟨_, store_fault ?_⟩
    rw [List.length_append, enc_length, List.length_drop]
    omega

/-- With a message of four bytes or more, `length` is too small for `write`. -/
theorem write_throws (hlong : 4 ≤ h.msglen.toNat) (hroom : 8 ≤ mem.length) :
    ∃ mem', (h.write h.length).run mem = .error tooSmall mem' := by
  have hsize : TmpS.layout.size = 8 := rfl
  have hlen : h.length = 4 + h.msglen.toNat := rfl
  have hmin : ¬ h.length < minLength := Nat.not_lt.mpr (Nat.le_add_right _ _)
  have hsub : sizeSub h.length TmpS.layout.size < h.msglen.toNat := by
    rw [sizeSub_of_le (by omega)]
    omega
  unfold write
  rw [run_bind_ok (throwIf_pass hmin _), run_bind_ok (TmpS.layout.store_ok _ (by omega))]
  exact ⟨_, run_bind_error (throwIf_fail hsub _)⟩

/-- In front of the buffer there is no room at all. -/
theorem write_nowhere (h : TmpHeader) : (h.write h.length).run [] = .error .storeFault [] := by
  have hmin : ¬ h.length < minLength := Nat.not_lt.mpr (Nat.le_add_right _ _)
  unfold write
  rw [run_bind_ok (throwIf_pass hmin _)]
  refine run_bind_error (store_fault ?_)
  rw [enc_length]
  decide

/-- What was read: the struct, and the message behind it up to a null byte. -/
theorem read_eq_ok (hr : (read buffer buffer.length).run h = .ok () h') :
    8 + h'.msglen.toNat ≤ buffer.length ∧ TmpS.layout.enc h'.toTmpS = buffer.take 8 ∧
      h'.msg = ((buffer.drop 8).take h'.msglen.toNat).takeWhile (· ≠ 0) := by
  have hsize : TmpS.layout.size = 8 := rfl
  unfold read at hr
  obtain ⟨-, hstruct⟩ := throwIf_bind_eq_ok.mp hr
  obtain ⟨p, s, hload, hrest⟩ := bind_eq_ok.mp hstruct
  obtain ⟨hin, rfl, rfl⟩ := TmpS.layout.load_eq_ok.mp hload
  rw [run_bind_ok (run_modify _ _), run_bind_ok (run_get _)] at hrest
  obtain ⟨-, hmessage⟩ := throwIf_bind_eq_ok.mp hrest
  obtain ⟨message, s₁, hload', hset⟩ := bind_eq_ok.mp hmessage
  obtain ⟨hin', rfl, rfl⟩ := load_eq_ok.mp hload'
  cases hset
  refine ⟨hin', ?_, rfl⟩
  change TmpS.layout.enc (toTmpS (ofTmpS _ s)) = _
  rw [toTmpS_ofTmpS, List.drop_zero, TmpS.layout.enc_dec_take (by omega), hsize]

end TmpHeader

end Headers

section Overhang

variable {M : Type} [PacketClass M] {p : Packet M} {phs : List (HeaderPtr M)} {last : HeaderPtr M}
  {ws : List Bytes} {pre tail tail' : Bytes} {e : Failure}

/-- A last header that writes farther than its length goes into the contents; the headers in
front of it are not concerned. -/
theorem compile_overhang (hheaders : headers = phs ++ [last])
    (hws : List.Forall₂ (fun ph w => ph.Fills p.members w) phs ws)
    (hvec : p.raw.vec = pre ++ tail) (hpre : pre.length + last.length p.members = 128)
    (hwrite : (last.write p.members (last.length p.members)).run tail = .ok () tail')
    (hfit : ws.flatten.length ≤ pre.length) :
    ∃ p', Packet.compile.run p = .ok () p' ∧ p'.members = p.members ∧
      p'.raw.vec = pre.take (pre.length - ws.flatten.length) ++ (ws.flatten ++ tail') := by
  have hpointer : (128 : ℤ) - last.length p.members = pre.length := by omega
  have hrev : ws.reverse.flatten.length = ws.flatten.length := by
    rw [List.length_flatten, List.length_flatten, List.map_reverse, List.sum_reverse]
  have hloop : (Packet.compileLoop p.members (headers : List (HeaderPtr M)).reverse 128).run
      p.raw.vec =
        .ok () (pre.take (pre.length - ws.flatten.length) ++ (ws.flatten ++ tail')) := by
    rw [hheaders, List.reverse_append, hvec]
    change (Packet.atPointer _ _ >>= fun _ => Packet.compileLoop _ phs.reverse _).run _ = _
    rw [run_bind_ok (atPointer_ok hpointer hwrite),
      compileLoop_ok (List.rel_reverse hws) hpointer (by rw [hrev]; exact hfit), hrev,
      List.reverse_reverse]
  obtain ⟨raw, hraw, hrvec⟩ :=
    DataContainer.onVec_ok (Packet.keepsLength_compileLoop p.members _ 128) hloop
  exact ⟨{ p with raw }, (run_bind_ok (run_get p)).trans (onMember_ok hraw), rfl, hrvec⟩

/-- The last header is written first, so its failure is that of `compile`. -/
theorem compile_error (hheaders : headers = phs ++ [last]) {mem : Bytes}
    (hwrite : (Packet.atPointer (128 - last.length p.members)
      (last.write p.members (last.length p.members))).run p.raw.vec = .error e mem) :
    ∃ p', Packet.compile.run p = .error e p' := by
  have hloop : (Packet.compileLoop p.members (headers : List (HeaderPtr M)).reverse 128).run
      p.raw.vec = .error e mem := by
    rw [hheaders, List.reverse_append]
    exact run_bind_error hwrite
  obtain ⟨raw, hraw, -⟩ :=
    DataContainer.onVec_error (Packet.keepsLength_compileLoop p.members _ 128) hloop
  exact ⟨{ p with raw }, (run_bind_ok (run_get p)).trans (onMember_error hraw)⟩

theorem atPointer_error {act : Exec Bytes Unit} {pre tail tail' : Bytes} {pointer : ℤ}
    (hp : pointer = pre.length) (h : act.run tail = .error e tail') :
    ∃ mem, (Packet.atPointer pointer act).run (pre ++ tail) = .error e mem := by
  subst hp
  unfold Packet.atPointer
  rw [if_pos (Int.natCast_nonneg _), Int.toNat_natCast]
  exact ⟨_, atOffset_error rfl h⟩

/-- The headers of a class are read one behind the other. -/
theorem readHeaders_concat {P : Type} (phs qs : List (HeaderPtr P)) (b : Bytes) (n : ℕ) :
    Packet.readHeaders (phs ++ qs) b n = (do
      let (pointer, k) ← Packet.readHeaders phs b n
      Packet.readHeaders qs pointer k : Exec P (Bytes × ℕ)) := by
  induction phs generalizing b n with
  | nil => rfl
  | cons ph phs ih => simp [Packet.readHeaders, ih]

end Overhang

section Frames

variable {p p' : Packet Tmp} {b : Bytes}

/-- How an accepted frame lies in the object: the outer headers write its first bytes, and the
contents start four bytes too early behind them. -/
structure Accepted (p : Packet Tmp) (b : Bytes) (ws : List Bytes) (t : Bytes) : Prop where
  outer : List.Forall₂ (fun ph w => ph.Writes p.members w) Tmp.outer ws
  frame : b = ws.flatten ++ t
  fits : 8 + p.members.tmp.msglen.toNat ≤ t.length
  struct : TmpS.layout.enc p.members.tmp.toTmpS = t.take 8
  msg : p.members.tmp.msg = ((t.drop 8).take p.members.tmp.msglen.toNat).takeWhile (· ≠ 0)
  contents : p.raw.vec.drop 128 = t.drop p.members.tmp.length

theorem analyze_accepted (h : (Packet.analyze b b.length).run p = .ok () p') :
    ∃ ws t, Accepted p' b ws t := by
  obtain ⟨m', raw'⟩ := p'
  obtain ⟨rest, k, hread, hvec⟩ := analyze_readHeaders h
  change (Packet.readHeaders (Tmp.outer ++ _) _ _).run _ = _ at hread
  rw [readHeaders_concat] at hread
  obtain ⟨⟨t, n⟩, m₁, houter, hlast⟩ := bind_eq_ok.mp hread
  have hdec : ∀ ph ∈ Tmp.outer, ph.Decodes := by
    refine List.forall_mem_cons.mpr ⟨HeaderPtr.member_decodes fun _ _ => rfl, ?_⟩
    refine List.forall_mem_cons.mpr ⟨HeaderPtr.member_decodes fun _ _ => rfl, ?_⟩
    exact List.forall_mem_singleton.mpr (HeaderPtr.member_decodes fun _ _ => rfl)
  have hsp : Tmp.outer.Pairwise fun a b => b.Spares a := by
    refine .cons (List.forall_mem_cons.mpr ⟨HeaderPtr.member_spares fun _ _ => rfl, ?_⟩) ?_
    · exact List.forall_mem_singleton.mpr (HeaderPtr.member_spares fun _ _ => rfl)
    · refine .cons ?_ (List.pairwise_singleton _ _)
      exact List.forall_mem_singleton.mpr (HeaderPtr.member_spares fun _ _ => rfl)
  obtain ⟨ws, hws, hb, hlen⟩ := readHeaders_ok hdec hsp (Nat.le_refl _) houter
  have hn : n = t.length := by
    have hbl := congrArg List.length hb
    rw [List.length_append] at hbl
    omega
  subst hn
  obtain ⟨_, m₂, hptr, hend⟩ := bind_eq_ok.mp hlast
  obtain ⟨g, hg, rfl⟩ := onMember_eq_ok hptr
  cases hend
  obtain ⟨hfits, hstruct, hmsg⟩ := TmpHeader.read_eq_ok hg
  have hlength : g.length ≤ t.length := by
    have hl : g.length = 4 + g.msglen.toNat := rfl
    omega
  refine ⟨ws, t, ?_, hb, hfits, hstruct, hmsg, ?_⟩
  · -- reading the last header does not touch the others
    cases hws with
    | cons heth hws => cases hws with
      | cons hip hws => cases hws with
        | cons hudp hws => cases hws with
          | nil => exact .cons heth (.cons hip (.cons hudp .nil))
  · change raw'.vec.drop 128 = t.drop g.length
    change raw'.vec = _ ++ (t.drop g.length).take (sizeSub t.length g.length) at hvec
    rw [hvec, sizeSub_of_le hlength, ← List.length_drop, List.take_length,
      List.drop_left' p.raw.length_take_pivot]

theorem flatten_length_le {ws : List Bytes}
    (h : List.Forall₂ (fun ph w => ph.Fills p.members w) Tmp.outer ws) :
    ws.flatten.length ≤ 82 := by
  have hip := p.members.ip.length_le
  rw [flatten_length h]
  change 14 + (p.members.ip.length + (8 + 0)) ≤ 82
  omega

theorem headerLength_eq {ws : List Bytes}
    (h : List.Forall₂ (fun ph w => ph.Fills p.members w) Tmp.outer ws) :
    p.headerLength = ws.flatten.length + p.members.tmp.length := by
  have hflat := flatten_length h
  change (List.map _ (Tmp.outer ++ _)).sum = _
  rw [List.map_append, List.sum_append, ← hflat]
  rfl

/-- Where the last header of a packet is written. -/
theorem vec_slot (p : Packet Tmp) (hfit : p.members.tmp.length ≤ 128) :
    p.raw.vec = p.raw.vec.take (128 - p.members.tmp.length) ++
        p.raw.vec.drop (128 - p.members.tmp.length) ∧
      (p.raw.vec.take (128 - p.members.tmp.length)).length + p.members.tmp.length = 128 := by
  have hroom := p.raw.headroom
  refine ⟨(List.take_append_drop _ _).symm, ?_⟩
  rw [List.length_take]
  omega

/-- With a message of four bytes or more `compile` does not return. -/
theorem compile_long (p : Packet Tmp) (hlong : 4 ≤ p.members.tmp.msglen.toNat) :
    ∃ p', Packet.compile.run p =
      .error (if p.members.tmp.length ≤ 128 then TmpHeader.tooSmall else .storeFault) p' := by
  have hlen : p.members.tmp.length = 4 + p.members.tmp.msglen.toNat := rfl
  split_ifs with hfit
  · obtain ⟨hvec, hpre⟩ := vec_slot p hfit
    have htail : 8 ≤ (p.raw.vec.drop (128 - p.members.tmp.length)).length := by
      have hroom := p.raw.headroom
      rw [List.length_drop]
      omega
    obtain ⟨mem', hwrite⟩ := TmpHeader.write_throws hlong htail
    have hpointer : (128 : ℤ) - p.members.tmp.length =
        (p.raw.vec.take (128 - p.members.tmp.length)).length := by omega
    obtain ⟨mem, hat⟩ := atPointer_error hpointer hwrite
    rw [← hvec] at hat
    exact compile_error rfl hat
  · have hat : (Packet.atPointer (128 - p.members.tmp.length)
        (p.members.tmp.write p.members.tmp.length)).run p.raw.vec =
          .error .storeFault p.raw.vec := by
      unfold Packet.atPointer
      rw [if_neg (by omega)]
      exact onMember_error p.members.tmp.write_nowhere
    exact compile_error rfl hat

/-- With a short message `compile` goes on into the contents, if there are enough of them. -/
theorem compile_short {ws : List Bytes} (hshort : p.members.tmp.msglen.toNat < 4)
    (hws : List.Forall₂ (fun ph w => ph.Fills p.members w) Tmp.outer ws)
    (hroom : 4 + p.members.tmp.msg.length ≤
      p.members.tmp.msglen.toNat + (p.raw.vec.drop 128).length) :
    ∃ p', Packet.compile.run p = .ok () p' ∧ p'.members = p.members ∧
      p'.raw.vec = p.raw.vec.take (128 - p.headerLength) ++ (ws.flatten ++
        (TmpS.layout.enc p.members.tmp.toTmpS ++ (p.members.tmp.msg ++ (p.raw.vec.drop 128).drop
          (4 + p.members.tmp.msg.length - p.members.tmp.msglen.toNat)))) := by
  have hlen : p.members.tmp.length = 4 + p.members.tmp.msglen.toNat := rfl
  have hflat := flatten_length_le hws
  have hheader := headerLength_eq hws
  have hsize := p.raw.headroom
  obtain ⟨hvec, hpre⟩ := vec_slot p (by omega)
  have htail : 8 + p.members.tmp.msg.length ≤
      (p.raw.vec.drop (128 - p.members.tmp.length)).length := by
    rw [List.length_drop] at hroom ⊢
    omega
  have hwrite := TmpHeader.write_ok hshort htail
  rw [List.drop_drop] at hwrite
  obtain ⟨p', hc, hmem, hvec'⟩ := compile_overhang rfl hws hvec hpre hwrite (by omega)
  refine ⟨p', hc, hmem, ?_⟩
  have hrest : 128 - p.members.tmp.length + (8 + p.members.tmp.msg.length) =
      128 + (4 + p.members.tmp.msg.length - p.members.tmp.msglen.toNat) := by omega
  have hfront : min ((p.raw.vec.take (128 - p.members.tmp.length)).length - ws.flatten.length)
      (128 - p.members.tmp.length) = 128 - p.headerLength := by omega
  rw [hvec', List.take_take, hfront, hrest, List.drop_drop]

/-- Without them it writes outside the buffer. -/
theorem compile_short_fault (hshort : p.members.tmp.msglen.toNat < 4)
    (hroom : p.members.tmp.msglen.toNat + (p.raw.vec.drop 128).length <
      4 + p.members.tmp.msg.length) :
    ∃ p', Packet.compile.run p = .error .storeFault p' := by
  have hlen : p.members.tmp.length = 4 + p.members.tmp.msglen.toNat := rfl
  have hsize := p.raw.headroom
  obtain ⟨hvec, hpre⟩ := vec_slot p (by omega)
  have htail : (p.raw.vec.drop (128 - p.members.tmp.length)).length <
      8 + p.members.tmp.msg.length := by
    rw [List.length_drop] at hroom ⊢
    omega
  obtain ⟨mem', hwrite⟩ := TmpHeader.write_fault_short hshort htail
  have hpointer : (128 : ℤ) - p.members.tmp.length =
      (p.raw.vec.take (128 - p.members.tmp.length)).length := by omega
  obtain ⟨mem, hat⟩ := atPointer_error hpointer hwrite
  rw [← hvec] at hat
  exact compile_error rfl hat

/-- A message that was read is where it was read from. -/
theorem Accepted.take_msg {ws : List Bytes} {t : Bytes} (ha : Accepted p b ws t) :
    p.members.tmp.msg = (t.drop 8).take p.members.tmp.msg.length := by
  apply List.prefix_iff_eq_take.mp
  rw [ha.msg]
  exact (List.takeWhile_prefix _).trans (List.take_prefix _ _)

theorem Accepted.length_msg_le {ws : List Bytes} {t : Bytes} (ha : Accepted p b ws t) :
    p.members.tmp.msg.length ≤ p.members.tmp.msglen.toNat := by
  rw [ha.msg]
  exact (List.takeWhile_prefix _).length_le.trans (List.length_take_le _ _)

/-- The bytes that `length` leaves out are in the contents. -/
theorem Accepted.tail {ws : List Bytes} {t : Bytes} (ha : Accepted p b ws t)
    (hshort : p.members.tmp.msglen.toNat < 4) :
    TmpS.layout.enc p.members.tmp.toTmpS ++ (p.members.tmp.msg ++ (p.raw.vec.drop 128).drop
      (4 + p.members.tmp.msg.length - p.members.tmp.msglen.toNat)) = t := by
  have hlen : p.members.tmp.length = 4 + p.members.tmp.msglen.toNat := rfl
  have hrest : p.members.tmp.length +
      (4 + p.members.tmp.msg.length - p.members.tmp.msglen.toNat) =
        8 + p.members.tmp.msg.length := by omega
  have hmsg := ha.take_msg
  generalize p.members.tmp.msg.length = n at hmsg hrest ⊢
  rw [ha.struct, ha.contents, List.drop_drop, hrest, hmsg, ← List.drop_drop,
    List.take_append_drop, List.take_append_drop]

theorem Accepted.fills {ws : List Bytes} {t : Bytes} (ha : Accepted p b ws t) :
    List.Forall₂ (fun ph w => ph.Fills p.members w) Tmp.outer ws :=
  ha.outer.imp fun _ _ hw => hw.fills

/-- A decoded frame is encoded again exactly if its message has less than four bytes; with a longer
one `compile` throws, and from 125 bytes on it first writes in front of its buffer. -/
theorem tmp_frame (h : (Packet.analyze b b.length).run p = .ok () p') :
    p'.contents = .ok (b.drop p'.headerLength) ∧
      (p'.members.tmp.msglen.toNat < 4 → ∃ p'' mem, Packet.compile.run p' = .ok () p'' ∧
        p''.length = .ok b.length ∧ p''.rawData = .ok mem ∧ mem.take b.length = b) ∧
      (4 ≤ p'.members.tmp.msglen.toNat → ∃ p'', Packet.compile.run p' =
        .error (if p'.members.tmp.length ≤ 128 then TmpHeader.tooSmall else .storeFault) p'') := by
  obtain ⟨ws, t, ha⟩ := analyze_accepted h
  have hheader := headerLength_eq ha.fills
  refine ⟨?_, ?_, compile_long p'⟩
  · rw [contents_drop, ha.contents, ha.frame, hheader, ← List.drop_drop, List.drop_left]
  · intro hshort
    have hlen : p'.members.tmp.length = 4 + p'.members.tmp.msglen.toNat := rfl
    have hfits := ha.fits
    have hmsg := ha.length_msg_le
    have hflat := flatten_length_le ha.fills
    have hroom : 4 + p'.members.tmp.msg.length ≤
        p'.members.tmp.msglen.toNat + (p'.raw.vec.drop 128).length := by
      rw [ha.contents, List.length_drop]
      omega
    obtain ⟨p'', hc, hmem, hvec⟩ := compile_short hshort ha.fills hroom
    have hframe := ha.frame
    rw [ha.tail hshort, ← hframe] at hvec
    have hheader'' : p''.headerLength = p'.headerLength := by
      rw [Packet.headerLength, Packet.headerLength, hmem]
    have hfront : (p'.raw.vec.take (128 - p'.headerLength)).length = 128 - p''.headerLength := by
      have hsize := p'.raw.headroom
      rw [List.length_take]
      omega
    have hdrop : p''.raw.vec.drop (128 - p''.headerLength) = b := by
      rw [hvec, List.drop_left' hfront]
    refine ⟨p'', b, hc, ?_, ?_, List.take_length⟩
    · have hcount : (p''.raw.vec.drop 128).length + p''.headerLength = b.length := by
        rw [List.length_drop, hvec, List.length_append, hfront, hframe, List.length_append]
        omega
      rw [length_eq (vec_eq p'') p''.raw.length_take_pivot, hcount]
    · have hpivot := p''.raw.length_take_pivot
      rw [rawData_eq (vec_eq p'') hpivot (by omega),
        ← List.drop_append_of_le_length (by omega), ← vec_eq, hdrop]

/-- A message of two bytes in front of five bytes. -/
def shortTmp : Packet Tmp where
  members := ⟨⟨1, 2, 2, [0x68, 0x69]⟩, ⟨8888, 8888, 18, 0⟩, Ipv4Header.cleared,
    ⟨.new, .new, 0x0800⟩⟩
  raw := (DataContainer.new 128).setContent [1, 2, 3, 4, 5]

def longFrame : Bytes :=
  List.replicate 12 0 ++ [8, 0] ++ (0x45 :: List.replicate 19 0) ++ List.replicate 8 0 ++
    [0, 0, 0, 1, 0, 2, 0, 5, 0x68, 0x65, 0x6c, 0x6c, 0x6f]

theorem tmp_frame_long : ∃ p',
    (Packet.analyze longFrame longFrame.length).run shortTmp = .ok () p' ∧
    p'.contents = .ok (longFrame.drop p'.headerLength) ∧
      (p'.members.tmp.msglen.toNat < 4 → ∃ p'' mem, Packet.compile.run p' = .ok () p'' ∧
        p''.length = .ok longFrame.length ∧ p''.rawData = .ok mem ∧
        mem.take longFrame.length = longFrame) ∧
      (4 ≤ p'.members.tmp.msglen.toNat → ∃ p'', Packet.compile.run p' =
        .error (if p'.members.tmp.length ≤ 128 then TmpHeader.tooSmall else .storeFault) p'') :=
  have h : (Packet.analyze longFrame longFrame.length).run shortTmp = .ok () _ := rfl
  ⟨_, h, tmp_frame h⟩

/-- What the last header writes behind the place that `length` gives it. -/
def overhang (h : TmpHeader) : Bytes := (TmpS.layout.enc h.toTmpS ++ h.msg).drop h.length

theorem length_overhang {h : TmpHeader} (hshort : h.msglen.toNat < 4) :
    (overhang h).length = 4 + h.msg.length - h.msglen.toNat := by
  have hlen : h.length = 4 + h.msglen.toNat := rfl
  rw [overhang, List.length_drop, List.length_append, TmpHeader.enc_length]
  omega

theorem drop_inside {pre mid post : Bytes} {n k : ℕ} (h : pre.length + k = n)
    (hk : k ≤ mid.length) : (pre ++ (mid ++ post)).drop n = mid.drop k ++ post := by
  subst h
  rw [List.drop_length_add_append, List.drop_append_of_le_length hk]

/-- Whatever its headers and contents are, a packet is compiled only with a short message in front
of enough contents, and what `compile` writes over them is at least one byte. -/
theorem tmp_compile (h5 : 5 ≤ p.members.ip.hlen.toNat) :
    ((∃ p', Packet.compile.run p = .ok () p') ↔ p.members.tmp.msglen.toNat < 4 ∧
      (overhang p.members.tmp).length ≤ (p.raw.vec.drop 128).length) ∧
    ∀ p', Packet.compile.run p = .ok () p' → 0 < (overhang p.members.tmp).length ∧
      p'.raw.vec.drop 128 = overhang p.members.tmp ++
        (p.raw.vec.drop 128).drop (overhang p.members.tmp).length := by
  have hws : List.Forall₂ (fun ph w => ph.Fills p.members w) Tmp.outer
      [Eth.layout.enc p.members.eth.toEth, p.members.ip.encoding,
        UdpStruct.layout.enc p.members.udp.toUdpStruct] :=
    .cons (writeStruct_emits Eth.layout _ _).fills (.cons (Ipv4Header.write_emits h5).fills
      (.cons (writeStruct_emits UdpStruct.layout _ _).fills .nil))
  rcases Nat.lt_or_ge p.members.tmp.msglen.toNat 4 with hshort | hlong
  · have hover := length_overhang hshort
    rcases Nat.lt_or_ge (p.raw.vec.drop 128).length (overhang p.members.tmp).length
      with hfew | hroom
    · obtain ⟨p₁, hfault⟩ := compile_short_fault (p := p) hshort (by omega)
      refine ⟨⟨?_, fun h => absurd h.2 (Nat.not_le.mpr hfew)⟩, ?_⟩
      · intro ⟨p', hp⟩
        cases hfault.symm.trans hp
      · intro p' hp
        cases hfault.symm.trans hp
    · obtain ⟨p₁, hc, -, hvec⟩ := compile_short hshort hws (by omega)
      refine ⟨iff_of_true ⟨p₁, hc⟩ ⟨hshort, hroom⟩, ?_⟩
      intro p' hp
      cases hc.symm.trans hp
      refine ⟨by omega, ?_⟩
      have hlen : p.members.tmp.length = 4 + p.members.tmp.msglen.toNat := rfl
      have hheader := headerLength_eq hws
      have hflat := flatten_length_le hws
      have hsize := p.raw.headroom
      have hend : (p.raw.vec.take (128 - p.headerLength) ++ [Eth.layout.enc p.members.eth.toEth,
          p.members.ip.encoding, UdpStruct.layout.enc p.members.udp.toUdpStruct].flatten).length +
            p.members.tmp.length = 128 := by
        rw [List.length_append, List.length_take]
        omega
      have hwritten : p.members.tmp.length ≤
          (TmpS.layout.enc p.members.tmp.toTmpS ++ p.members.tmp.msg).length := by
        rw [List.length_append, TmpHeader.enc_length]
        omega
      rw [hvec, ← hover, ← List.append_assoc, ← List.append_assoc (TmpS.layout.enc _),
        drop_inside hend hwritten]
      rfl
  · obtain ⟨p₁, herror⟩ := compile_long p hlong
    refine ⟨⟨?_, fun h => absurd h.1 (Nat.not_lt.mpr hlong)⟩, ?_⟩
    · intro ⟨p', hp⟩
      cases herror.symm.trans hp
    · intro p' hp
      cases herror.symm.trans hp

theorem tmp_compile_short :
    ((∃ p', Packet.compile.run shortTmp = .ok () p') ↔ shortTmp.members.tmp.msglen.toNat < 4 ∧
      (overhang shortTmp.members.tmp).length ≤ (shortTmp.raw.vec.drop 128).length) ∧
    ∀ p', Packet.compile.run shortTmp = .ok () p' → 0 < (overhang shortTmp.members.tmp).length ∧
      p'.raw.vec.drop 128 = overhang shortTmp.members.tmp ++
        (shortTmp.raw.vec.drop 128).drop (overhang shortTmp.members.tmp).length :=
  tmp_compile (by decide)

end Frames

end Pgen.ExtendTmp
