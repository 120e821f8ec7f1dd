import Pgen.CoreAddress
import Pgen.CorePacket

/-!
# `ethernet_header`, `arp_header` and `udp_header`

A header of fixed length is one struct in network byte order. Reading fills all members from the
struct, so writing gives back the bytes that were read.
-/
namespace Pgen.ProtocolHeaders
open ByteMemory StructLayout CText CoreAddress CorePacket

section StructHeaders

variable {S H : Type}

/-- `write` of a class whose header is one struct. -/
def writeStruct (L : Layout S) (minLength : ℕ) (tooSmall : String) (p : S) (bufferlen : ℕ) :
    Exec Bytes Unit := do
  throwIf (bufferlen < minLength) tooSmall
  L.store 0 p

/-- `read` of a class whose header is one struct. -/
def readStruct (L : Layout S) (minLength : ℕ) (tooSmall : String) (fill : S → H → H)
    (buffer : Bytes) (bufferlen : ℕ) : Exec H Unit := do
  throwIf (bufferlen < minLength) tooSmall
  let p ← L.load buffer 0
  modify (fill p)

theorem keepsLength_writeStruct (L : Layout S) (minLength : ℕ) (tooSmall : String) (p : S)
    (bufferlen : ℕ) : KeepsLength (writeStruct L minLength tooSmall p bufferlen) :=
  .bind (.throwIf _ _) fun _ => L.keepsLength_store 0 p

theorem writeStruct_emits (L : Layout S) (tooSmall : String) (p : S) :
    Emits L.size (writeStruct L L.size tooSmall p) (L.enc p) where
  length_eq := L.enc_length p
  write_ok := by
    intro mem n hw hn
    rw [L.enc_length] at hw
    unfold writeStruct
    rw [run_bind_ok (throwIf_pass (by omega) _), L.store_ok _ (by omega), L.enc_length]

theorem readStruct_ok (L : Layout S) (tooSmall : String) (fill : S → H → H) {buffer : Bytes}
    {n : ℕ} (h : H) (hn : L.size ≤ n) (hbuf : n ≤ buffer.length) :
    (readStruct L L.size tooSmall fill buffer n).run h =
      .ok () (fill (L.dec (buffer.take L.size)) h) := by
  unfold readStruct
  rw [run_bind_ok (throwIf_pass (by omega) _), run_bind_ok (L.load_ok (by omega) _), run_modify,
    List.drop_zero]

theorem readStruct_eq_ok {L : Layout S} {tooSmall : String} {fill : S → H → H} {buffer : Bytes}
    {n : ℕ} {h h' : H} (hbuf : n ≤ buffer.length)
    (hr : (readStruct L L.size tooSmall fill buffer n).run h = .ok () h') :
    L.size ≤ n ∧ h' = fill (L.dec (buffer.take L.size)) h := by
  rcases Nat.lt_or_ge n L.size with hlt | hge
  · cases hr.symm.trans (run_bind_error (throwIf_fail hlt h))
  · cases hr.symm.trans (readStruct_ok L tooSmall fill h hge hbuf)
    exact ⟨hge, rfl⟩

/-- A struct that the buffer has no room for leaves the members as they were. -/
theorem readStruct_eq_error {L : Layout S} {tooSmall : String} {fill : S → H → H} {buffer : Bytes}
    {n : ℕ} {h h' : H} {e : Failure} (hbuf : n ≤ buffer.length)
    (hr : (readStruct L L.size tooSmall fill buffer n).run h = .error e h') :
    n < L.size ∧ h' = h := by
  rcases Nat.lt_or_ge n L.size with hlt | hge
  · cases hr.symm.trans (run_bind_error (throwIf_fail hlt h))
    exact ⟨hlt, rfl⟩
  · cases hr.symm.trans (readStruct_ok L tooSmall fill h hge hbuf)

theorem readStruct_inBounds (L : Layout S) (tooSmall : String) (fill : S → H → H)
    {buffer : Bytes} {n : ℕ} (hbuf : n ≤ buffer.length) (h : H) :
    InBounds ((readStruct L L.size tooSmall fill buffer n).run h) := by
  rcases Nat.lt_or_ge n L.size with hlt | hge
  · exact inBounds_throwIf_bind.mpr (.inl hlt)
  · rw [readStruct_ok L tooSmall fill h hge hbuf]
    trivial

/-- A class whose header is one struct writes what it read, when the struct of its members is the
one they were filled from. -/
theorem lawfulHeader_of_struct [Header H] (L : Layout S) {readText writeText : String}
    {fill : S → H → H} {toStruct : H → S} (hlen : ∀ h : H, Header.length h = L.size)
    (hread : (Header.read : _ → _ → Exec H Unit) = readStruct L L.size readText fill)
    (hwrite : ∀ h : H, Header.write h = writeStruct L L.size writeText (toStruct h))
    (hfill : ∀ p h, toStruct (fill p h) = p) : LawfulHeader H where
  read_emits := by
    intro h h' buffer n hbuf hr
    rw [hread] at hr
    obtain ⟨hsize, rfl⟩ := readStruct_eq_ok hbuf hr
    have hemits := writeStruct_emits L writeText (L.dec (buffer.take L.size))
    rw [L.enc_dec_take (by omega)] at hemits
    rw [hlen, hwrite, hfill]
    exact ⟨hsize, hemits⟩

end StructHeaders

section Ethernet

structure EthernetHeader where
  dst : MacAddress
  src : MacAddress
  type : UInt16
  deriving DecidableEq, Repr

/-- `struct eth` -/
structure Eth where
  dst : Vector UInt8 6
  src : Vector UInt8 6
  type : UInt16
  deriving DecidableEq, Repr

def Eth.layout : Layout Eth :=
  ((Layout.array 6).pair ((Layout.array 6).pair Layout.u16)).rename
  ⟨fun p => (p.dst, p.src, p.type), fun (a, b, c) => ⟨a, b, c⟩, fun _ => rfl, fun _ => rfl⟩

namespace EthernetHeader

def minLength : ℕ := 6 * 2 + 2

def maxLength : ℕ := minLength

def clear : Exec EthernetHeader Unit := do
  onMember EthernetHeader.src (fun a h => { h with src := a })
    (MacAddress.setStr "00:00:00:00:00:00".toList)
  onMember EthernetHeader.dst (fun a h => { h with dst := a })
    (MacAddress.setStr "00:00:00:00:00:00".toList)
  modify fun h => { h with type := 0x0000 }

def toEth (h : EthernetHeader) : Eth where
  dst := h.dst.copytoarray
  src := h.src.copytoarray
  type := htons h.type

def ofEth (p : Eth) (h : EthernetHeader) : EthernetHeader :=
  { h with src := h.src.setbyarray p.src, dst := h.dst.setbyarray p.dst, type := ntohs p.type }

theorem returns_clear : Returns clear := by
  have hzero : sscanfColonHex 6 (cStr "00:00:00:00:00:00".toList) = List.replicate 6 0 := by decide
  have hset : Returns (MacAddress.setStr "00:00:00:00:00:00".toList) :=
    fun a => ⟨(), _, MacAddress.setStr_ok (by decide) hzero rfl a⟩
  exact hset.onMember.bind fun _ => hset.onMember.bind fun _ => .modify _

theorem toEth_ofEth (p : Eth) (h : EthernetHeader) : toEth (ofEth p h) = p := by
  simp [toEth, ofEth, MacAddress.copytoarray, MacAddress.setbyarray, MacAddress.updateName]

instance : Header EthernetHeader where
  length _ := maxLength
  write h := writeStruct Eth.layout minLength
    "pgen::ethernet_header::write: buflen is too small" h.toEth
  read := readStruct Eth.layout Eth.layout.size
    "pgen::ethernet_header::read: Buffer length is too small" ofEth
  keepsLength_write _ _ := keepsLength_writeStruct _ _ _ _ _

instance : LawfulHeader EthernetHeader :=
  lawfulHeader_of_struct Eth.layout (fun _ => rfl) rfl (fun _ => rfl) toEth_ofEth

end EthernetHeader

end Ethernet

section Arp

structure ArpHeader where
  hwtype : UInt16
  ptype : UInt16
  hwlen : UInt8
  plen : UInt8
  operation : UInt16
  hwsrc : MacAddress
  psrc : Ipv4Address
  hwdst : MacAddress
  pdst : Ipv4Address
  deriving DecidableEq, Repr

structure ArpStruct where
  hwtype : UInt16
  ptype : UInt16
  hwlen : UInt8
  plen : UInt8
  operation : UInt16
  hwsrc : Vector UInt8 6
  psrc : Vector UInt8 4
  hwdst : Vector UInt8 6
  pdst : Vector UInt8 4
  deriving DecidableEq, Repr

def ArpStruct.layout : Layout ArpStruct :=
  (Layout.u16.pair (Layout.u16.pair (Layout.u8.pair (Layout.u8.pair (Layout.u16.pair
    ((Layout.array 6).pair ((Layout.array 4).pair
      ((Layout.array 6).pair (Layout.array 4))))))))).rename
  ⟨fun p => (p.hwtype, p.ptype, p.hwlen, p.plen, p.operation, p.hwsrc, p.psrc, p.hwdst, p.pdst),
    fun (a, b, c, d, e, f, g, h, i) => ⟨a, b, c, d, e, f, g, h, i⟩, fun _ => rfl, fun _ => rfl⟩

namespace ArpHeader

def minLength : ℕ := 28

/-- `arp::operation::request` -/
def request : UInt16 := 1

def clear : Exec ArpHeader Unit := do
  modify fun h => { h with
    hwtype := 0x0001, ptype := 0x0800, hwlen := 6, plen := 4, operation := request
    hwsrc := h.hwsrc.clear, psrc := h.psrc.clear }
  onMember ArpHeader.hwdst (fun a h => { h with hwdst := a })
    (MacAddress.setStr "ff:ff:ff:ff:ff:ff".toList)
  modify fun h => { h with pdst := h.pdst.clear }

def toArpStruct (h : ArpHeader) : ArpStruct where
  hwtype := htons h.hwtype
  ptype := htons h.ptype
  hwlen := h.hwlen
  plen := h.plen
  operation := htons h.operation
  hwsrc := h.hwsrc.copytoarray
  psrc := h.psrc.copytoarray
  hwdst := h.hwdst.copytoarray
  pdst := h.pdst.copytoarray

def ofArpStruct (p : ArpStruct) (h : ArpHeader) : ArpHeader where
  hwtype := ntohs p.hwtype
  ptype := ntohs p.ptype
  hwlen := p.hwlen
  plen := p.plen
  operation := ntohs p.operation
  hwsrc := h.hwsrc.setbyarray p.hwsrc
  psrc := h.psrc.setbyarray p.psrc
  hwdst := h.hwdst.setbyarray p.hwdst
  pdst := h.pdst.setbyarray p.pdst

theorem returns_clear : Returns clear := by
  have hscan : sscanfColonHex 6 (cStr "ff:ff:ff:ff:ff:ff".toList) = List.replicate 6 255 := by
    decide
  have hset : Returns (MacAddress.setStr "ff:ff:ff:ff:ff:ff".toList) :=
    fun a => ⟨(), _, MacAddress.setStr_ok (by decide) hscan rfl a⟩
  exact (Returns.modify _).bind fun _ => hset.onMember.bind fun _ => .modify _

theorem toArpStruct_ofArpStruct (p : ArpStruct) (h : ArpHeader) :
    toArpStruct (ofArpStruct p h) = p := by
  simp [toArpStruct, ofArpStruct, MacAddress.copytoarray, MacAddress.setbyarray,
    MacAddress.updateName, Ipv4Address.copytoarray, Ipv4Address.setbyarray, Ipv4Address.updateName]

instance : Header ArpHeader where
  length _ := minLength
  write h := writeStruct ArpStruct.layout minLength
    "pgen::arp_header::write: bufferlen is too small" h.toArpStruct
  read := readStruct ArpStruct.layout minLength
    "pgen::arp_header::read: bufferlen is too small" ofArpStruct
  keepsLength_write _ _ := keepsLength_writeStruct _ _ _ _ _

instance : LawfulHeader ArpHeader :=
  lawfulHeader_of_struct ArpStruct.layout (fun _ => rfl) rfl (fun _ => rfl)
    toArpStruct_ofArpStruct

end ArpHeader

end Arp

section Udp

structure UdpHeader where
  src : UInt16
  dst : UInt16
  len : UInt16
  check : UInt16
  deriving DecidableEq, Repr

structure UdpStruct where
  src : UInt16
  dst : UInt16
  len : UInt16
  check : UInt16
  deriving DecidableEq, Repr

def UdpStruct.layout : Layout UdpStruct :=
  (Layout.u16.pair (Layout.u16.pair (Layout.u16.pair Layout.u16))).rename
  ⟨fun p => (p.src, p.dst, p.len, p.check), fun (a, b, c, d) => ⟨a, b, c, d⟩,
    fun _ => rfl, fun _ => rfl⟩

namespace UdpHeader

def minLength : ℕ := 2 * 4

def clear : Exec UdpHeader Unit := set (⟨53, 53, minLength.toUInt16, 0⟩ : UdpHeader)

def toUdpStruct (h : UdpHeader) : UdpStruct where
  src := htons h.src
  dst := htons h.dst
  len := htons h.len
  check := htons h.check

def ofUdpStruct (p : UdpStruct) (_ : UdpHeader) : UdpHeader where
  src := ntohs p.src
  dst := ntohs p.dst
  len := ntohs p.len
  check := ntohs p.check

theorem returns_clear : Returns clear := fun _ => ⟨(), _, rfl⟩

theorem toUdpStruct_ofUdpStruct (p : UdpStruct) (h : UdpHeader) :
    toUdpStruct (ofUdpStruct p h) = p := by
  simp [toUdpStruct, ofUdpStruct]

instance : Header UdpHeader where
  length _ := minLength
  write h := writeStruct UdpStruct.layout minLength
    "pgen::udp_header::read: buflen is too small" h.toUdpStruct
  read := readStruct UdpStruct.layout minLength
    "pgen::udp_header::read: buflen is too small" ofUdpStruct
  keepsLength_write _ _ := keepsLength_writeStruct _ _ _ _ _

instance : LawfulHeader UdpHeader :=
  lawfulHeader_of_struct UdpStruct.layout (fun _ => rfl) rfl (fun _ => rfl)
    toUdpStruct_ofUdpStruct

end UdpHeader

end Udp

end Pgen.ProtocolHeaders
