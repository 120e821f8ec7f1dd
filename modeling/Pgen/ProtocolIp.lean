import Pgen.CoreAddress
import Pgen.CorePacket

/-!
# `ipv4_header`

The header carries its own length in units of four bytes, and options up to it. The wire format of
a header is its fixed part followed by its options.
-/
namespace Pgen.ProtocolIp
open ByteMemory StructLayout CText CoreAddress CorePacket

structure Ipv4Header where
  version : BitVec 4
  hlen : BitVec 4
  tos : UInt8
  totLen : UInt16
  id : UInt16
  fragOff : UInt16
  ttl : UInt8
  protocol : UInt8
  check : UInt16
  src : Ipv4Address
  dst : Ipv4Address
  option : Vector UInt8 40
  deriving DecidableEq, Repr

/-- `struct ip` on a little-endian host. -/
structure Ip where
  hlen : BitVec 4
  version : BitVec 4
  tos : UInt8
  totLen : UInt16
  id : UInt16
  fragOff : UInt16
  ttl : UInt8
  protocol : UInt8
  check : UInt16
  src : Vector UInt8 4
  dst : Vector UInt8 4
  deriving DecidableEq, Repr

def Ip.layout : Layout Ip :=
  (Layout.nibbles.pair (Layout.u8.pair (Layout.u16.pair (Layout.u16.pair (Layout.u16.pair
    (Layout.u8.pair (Layout.u8.pair (Layout.u16.pair
      ((Layout.array 4).pair (Layout.array 4)))))))))).rename
  ⟨fun p => ((p.hlen, p.version), p.tos, p.totLen, p.id, p.fragOff, p.ttl, p.protocol, p.check,
      p.src, p.dst),
    fun ((a, b), c, d, e, f, g, h, i, j, k) => ⟨a, b, c, d, e, f, g, h, i, j, k⟩,
    fun _ => rfl, fun _ => rfl⟩

theorem ip_size : Ip.layout.size = 20 := rfl

namespace Ipv4Header

def minLength : ℕ := 20

def maxLength : ℕ := 60

section Code

def length (h : Ipv4Header) : ℕ := h.hlen.toNat * 4

def clear : Exec Ipv4Header Unit := do
  modify fun h => { h with
    version := 4, hlen := 5, tos := 0x0, totLen := 20, id := 0x0, fragOff := 0x0, ttl := 64
    protocol := 0, check := 0 }
  onMember Ipv4Header.src (fun a h => { h with src := a }) (Ipv4Address.setStr "0.0.0.0".toList)
  onMember Ipv4Header.dst (fun a h => { h with dst := a }) (Ipv4Address.setStr "0.0.0.0".toList)
  modify fun h => { h with option := Vector.replicate 40 0 }

/-- What `write` stores into the struct. -/
def toIp (h : Ipv4Header) : Ip where
  hlen := h.hlen
  version := h.version
  tos := h.tos
  totLen := htons h.totLen
  id := htons h.id
  fragOff := htons h.fragOff
  ttl := h.ttl
  protocol := h.protocol
  check := htons h.check
  src := h.src.copytoarray
  dst := h.dst.copytoarray

/-- The members `read` fills from the struct. -/
def ofIp (p : Ip) (h : Ipv4Header) : Ipv4Header :=
  { h with
    version := p.version, hlen := p.hlen, totLen := ntohs p.totLen, tos := p.tos, id := ntohs p.id
    fragOff := ntohs p.fragOff, ttl := p.ttl, protocol := p.protocol, check := ntohs p.check
    src := h.src.setbyarray p.src, dst := h.dst.setbyarray p.dst }

def write (h : Ipv4Header) (bufferLen : ℕ) : Exec Bytes Unit := do
  throwIf (bufferLen < h.hlen.toNat <<< 2) "pgen::ipv4_header::read: buflen is too small"
  Ip.layout.store 0 h.toIp
  let data ← load h.option.toList 0 (sizeSub h.length minLength)
  store minLength data

/-- `memcpy` into the array `option`. -/
def copyOption (data : Bytes) : Exec Ipv4Header Unit :=
  if data.length ≤ maxLength - minLength then
    modify fun h => { h with option := Vector.ofFn fun i => data.getD i (h.option.get i) }
  else throw .storeFault

def read (buffer : Bytes) (bufferLen : ℕ) : Exec Ipv4Header Unit := do
  throwIf (bufferLen < minLength) "pgen::ipv4_header::read: buflen is too small"
  let p ← Ip.layout.load buffer 0
  modify (ofIp p)
  let h ← get
  throwIf (bufferLen < h.length) "pgen::ipv4_header::read: buflen is too small"
  let data ← load buffer minLength (sizeSub h.length minLength)
  copyOption data

def setOption (buffer : Bytes) (bufferlen : ℕ) : Exec Ipv4Header Unit := do
  throwIf (maxLength - minLength < bufferlen) "pgen::ipv4_header::set_option: option is too lerge"
  let data ← load buffer 0 bufferlen
  copyOption data

/-- The header `clear` leaves. -/
def cleared : Ipv4Header := ⟨4, 5, 0, 20, 0, 0, 64, 0, 0, .new, .new, Vector.replicate 40 0⟩

theorem clear_run (h : Ipv4Header) : clear.run h = .ok () cleared := by
  have hzero : inetPton (cStr "0.0.0.0".toList) = some (Vector.replicate 4 0) := by decide
  have hset := Ipv4Address.setStr_ok hzero
  unfold clear
  rw [run_bind_ok (run_modify _ h), run_bind_ok (onMember_ok (hset _)),
    run_bind_ok (onMember_ok (hset _)), run_modify]
  rfl

end Code

section Encoding

/-- The wire format. -/
def encoding (h : Ipv4Header) : Bytes :=
  Ip.layout.enc h.toIp ++ h.option.toList.take (h.length - minLength)

theorem toIp_ofIp (p : Ip) (h : Ipv4Header) : toIp (ofIp p h) = p := by
  simp [toIp, ofIp, Ipv4Address.copytoarray, Ipv4Address.setbyarray, Ipv4Address.updateName]

theorem length_le (h : Ipv4Header) : h.length ≤ 60 := by
  have := h.hlen.isLt
  unfold length
  omega

theorem shiftLeft_two (h : Ipv4Header) : h.hlen.toNat <<< 2 = h.length := by
  rw [Nat.shiftLeft_eq]
  rfl

theorem encoding_length {h : Ipv4Header} (h5 : 5 ≤ h.hlen.toNat) :
    h.encoding.length = h.length := by
  have hle := h.length_le
  have hl : h.length = h.hlen.toNat * 4 := rfl
  rw [encoding, List.length_append, Ip.layout.enc_length, List.length_take, Vector.length_toList,
    ip_size, minLength]
  omega

theorem write_emits {h : Ipv4Header} (h5 : 5 ≤ h.hlen.toNat) :
    Emits h.length h.write h.encoding where
  length_eq := encoding_length h5
  write_ok := by
    intro mem n hw hn
    have hle := h.length_le
    have hl : h.length = h.hlen.toNat * 4 := rfl
    have hmin : minLength = 20 := rfl
    have hopt : (h.option.toList.take (h.length - minLength)).length = h.length - minLength := by
      rw [List.length_take, Vector.length_toList]
      omega
    rw [encoding_length h5] at hw ⊢
    unfold write
    rw [shiftLeft_two, run_bind_ok (throwIf_pass (by omega) _),
      run_bind_ok (Ip.layout.store_ok _ (by rw [ip_size]; omega)), sizeSub_of_le (by omega),
      run_bind_ok (load_ok (by rw [Vector.length_toList]; omega) _), List.drop_zero,
      store_append_ok (show (Ip.layout.enc h.toIp).length = minLength from Ip.layout.enc_length _)
        (by rw [hopt, List.length_drop, ip_size]; omega),
      encoding, List.append_assoc, List.drop_drop, hopt, ip_size,
      show 20 + (h.length - minLength) = h.length by omega]

theorem copyOption_eq_ok {data : Bytes} {h h' : Ipv4Header}
    (hr : (copyOption data).run h = .ok () h') :
    data.length ≤ 40 ∧ ∃ option, h' = { h with option := option } ∧
      option.toList.take data.length = data := by
  unfold copyOption at hr
  split_ifs at hr with hle
  · cases hr
    have hle' : data.length ≤ 40 := hle
    refine ⟨hle', _, rfl, ?_⟩
    apply List.ext_getElem
    · rw [List.length_take, Vector.length_toList]
      omega
    · intro i _ hi
      simp [hi]
  · cases hr

/-- The members that `read` has filled when it comes to the options. -/
def filled (buffer : Bytes) (h : Ipv4Header) : Ipv4Header :=
  ofIp (Ip.layout.dec (buffer.take Ip.layout.size)) h

theorem length_filled (buffer : Bytes) (h : Ipv4Header) :
    (filled buffer h).length = 4 * ((buffer.getD 0 0).toNat % 16) := by
  have hlen : (filled buffer h).hlen = BitVec.ofNat 4 (buffer.getD 0 0).toNat := by
    change BitVec.ofNat 4 ((((buffer.take 20).take 1).getD 0 0)).toNat = _
    simp [List.getD_eq_getElem?_getD]
  rw [length, hlen, BitVec.toNat_ofNat]
  omega

theorem encoding_filled {buffer : Bytes} (h : Ipv4Header) (hbuf : 20 ≤ buffer.length) :
    Ip.layout.enc (filled buffer h).toIp = buffer.take 20 := by
  rw [filled, toIp_ofIp, Ip.layout.enc_dec_take hbuf, ip_size]

theorem read_run {buffer : Bytes} {n : ℕ} (h : Ipv4Header) (hn : 20 ≤ n)
    (hbuf : n ≤ buffer.length) :
    (read buffer n).run h = (do
      throwIf (n < (filled buffer h).length) "pgen::ipv4_header::read: buflen is too small"
      let data ← load buffer minLength (sizeSub (filled buffer h).length minLength)
      copyOption data : Exec Ipv4Header Unit).run (filled buffer h) := by
  unfold read
  rw [run_bind_ok (throwIf_pass (show ¬ n < minLength from Nat.not_lt.mpr hn) _),
    run_bind_ok (Ip.layout.load_ok (by rw [ip_size]; omega) _), run_bind_ok (run_modify _ _),
    run_bind_ok (run_get _), List.drop_zero]
  rfl

/-- A header length that `read` accepts is at least that of the fixed part: with a smaller one
the option copy would be one of nearly `2^64` bytes. -/
theorem read_eq_ok {buffer : Bytes} {n : ℕ} {h h' : Ipv4Header} (hbuf : n ≤ buffer.length)
    (hr : (read buffer n).run h = .ok () h') :
    5 ≤ h'.hlen.toNat ∧ h'.length ≤ n ∧ h'.encoding = buffer.take h'.length := by
  have hmin : minLength = 20 := rfl
  obtain ⟨hn, -⟩ := throwIf_bind_eq_ok.mp hr
  have henc := encoding_filled h (show 20 ≤ buffer.length by omega)
  rw [read_run h (by omega) hbuf] at hr
  generalize filled buffer h = g at hr henc
  obtain ⟨hlen, h₁⟩ := throwIf_bind_eq_ok.mp hr
  obtain ⟨data, _, hload, hcopy⟩ := bind_eq_ok.mp h₁
  obtain ⟨hin, hdata, hs⟩ := load_eq_ok.mp hload
  rw [hs] at hcopy
  obtain ⟨h40, option, rfl, htake⟩ := copyOption_eq_ok hcopy
  have hdl : data.length = sizeSub g.length minLength := by
    rw [hdata, List.length_take, List.length_drop]
    omega
  have h20 : minLength ≤ g.length := by
    by_contra hlt
    rw [sizeSub_of_lt (by omega)] at hdl
    omega
  have h5 : 5 ≤ g.hlen.toNat := by
    have hgl : g.length = g.hlen.toNat * 4 := rfl
    omega
  refine ⟨h5, Nat.not_lt.mp hlen, ?_⟩
  change Ip.layout.enc g.toIp ++ option.toList.take (g.length - minLength) = buffer.take g.length
  rw [sizeSub_of_le h20] at hdl hdata
  rw [henc, ← hdl, htake, hdata, hmin, ← List.take_add,
    show 20 + (g.length - 20) = g.length from Nat.add_sub_cancel' h20]

instance : Header Ipv4Header where
  length := length
  write := write
  read := read
  keepsLength_write _ _ := .bind (.throwIf _ _) fun _ => .bind (Ip.layout.keepsLength_store _ _)
    fun _ => .bind (.load _ _ _) fun _ => .store _ _

instance : LawfulHeader Ipv4Header where
  read_emits hbuf hr := by
    obtain ⟨h5, hle, henc⟩ := read_eq_ok hbuf hr
    exact ⟨hle, henc ▸ write_emits h5⟩

end Encoding

end Ipv4Header

end Pgen.ProtocolIp
