import Pgen.CText
import Pgen.StructLayout

/-!
# `macaddress`, `ipv4address` and `ipv6address`

An address keeps its octets and their text side by side.
-/
namespace Pgen.CoreAddress
open ByteMemory StructLayout CText

section Mac

structure MacAddress where
  raw : Vector UInt8 6
  name : Text
  deriving DecidableEq, Repr

namespace MacAddress

def strlength : ℕ := 3 * 6 - 1

def updateName (a : MacAddress) : MacAddress :=
  { a with name := List.intercalate [':'] (a.raw.toList.map hexByte) }

def clear (a : MacAddress) : MacAddress := updateName { a with raw := Vector.replicate 6 0 }

/-- The default constructor. -/
def new : MacAddress := clear ⟨Vector.replicate 6 0, []⟩

/-- `set_str`, which the assignment from text calls. -/
def setStr (s : Text) : Exec MacAddress Unit := do
  throwIf (s.length ≠ strlength) "pgen::macaddress::set_str: Format error"
  let buf := sscanfColonHex 6 (cStr s)
  throwIf (buf.length ≠ 6) "pgen::macaddress::set_str: Format error"
  modify fun a => updateName { a with raw := Vector.ofFn fun i => (buf.getD i 0).toUInt8 }

def setbyarray (array : Vector UInt8 6) (a : MacAddress) : MacAddress :=
  updateName { a with raw := array }

def copytoarray (a : MacAddress) : Vector UInt8 6 := a.raw

/-- `set_octet`; octets are counted from one. -/
def setOctet (index : ℤ) (oct : UInt8) : Exec MacAddress Unit := do
  throwIf (index < 1 ∨ 6 < index) "pgen::macaddress::set_octet: index, 1st-arg is faild"
  modify fun a => updateName { a with raw := a.raw.setIfInBounds (index - 1).toNat oct }

/-- `get_octet`, with the message of the other. -/
def getOctet (index : ℤ) : Exec MacAddress UInt8 := do
  throwIf (index < 1 ∨ 6 < index) "pgen::macaddress::set_octet: index, 1st-arg is faild"
  return (← get).raw.getD (index - 1).toNat 0

/-- The assignment from an address, which the copy constructor calls. -/
def assign (rhs a : MacAddress) : MacAddress := { a with raw := rhs.raw, name := rhs.name }

def setbcast : Exec MacAddress Unit := setStr "ff:ff:ff:ff:ff:ff".toList

/-- `operator==`. -/
def equal (a rhs : MacAddress) : Bool := a.raw == rhs.raw

/-- The text is the one of the octets. Both are private, and every function keeps it so. -/
def Named (a : MacAddress) : Prop := a.updateName = a

/-- Taking over the octets of an address takes over the address. -/
theorem setbyarray_raw {a : MacAddress} (h : a.Named) (b : MacAddress) :
    b.setbyarray a.raw = a := h

theorem setStr_ok {s : Text} {buf : List UInt32} (hs : s.length = strlength)
    (hscan : sscanfColonHex 6 (cStr s) = buf) (hbuf : buf.length = 6) (a : MacAddress) :
    (setStr s).run a =
      .ok () (a.setbyarray (Vector.ofFn fun i => (buf.getD i 0).toUInt8)) := by
  subst hscan
  unfold setStr
  rw [run_bind_ok (throwIf_pass (not_not.mpr hs) a),
    run_bind_ok (throwIf_pass (not_not.mpr hbuf) a), run_modify]
  rfl

end MacAddress

end Mac

section Ipv4

structure Ipv4Address where
  raw : Vector UInt8 4
  name : Text
  deriving DecidableEq, Repr

namespace Ipv4Address

def strlength : ℕ := 3 * 4 + 3

def updateName (a : Ipv4Address) : Ipv4Address :=
  { a with name := List.intercalate ['.'] (a.raw.toList.map decimalByte) }

def clear (a : Ipv4Address) : Ipv4Address := updateName { a with raw := Vector.replicate 4 0 }

/-- The default constructor. -/
def new : Ipv4Address := clear ⟨Vector.replicate 4 0, []⟩

/-- `set_str`, which the assignment from text calls. -/
def setStr (s : Text) : Exec Ipv4Address Unit := do
  match inetPton (cStr s) with
  | some raw => modify fun a => updateName { a with raw := raw }
  | none => throw (.exception "pgen::ipv4address::set_str(IPv4): Format error")

def setbyarray (array : Vector UInt8 4) (a : Ipv4Address) : Ipv4Address :=
  updateName { a with raw := array }

def copytoarray (a : Ipv4Address) : Vector UInt8 4 := a.raw

/-- `set_octet`; octets are counted from one. -/
def setOctet (index : ℤ) (oct : UInt8) : Exec Ipv4Address Unit := do
  throwIf (index < 1 ∨ 4 < index) "pgen::ipv4address::set_octet4: index, 1st-arg is faild"
  modify fun a => updateName { a with raw := a.raw.setIfInBounds (index - 1).toNat oct }

/-- `get_octet`. -/
def getOctet (index : ℤ) : Exec Ipv4Address UInt8 := do
  throwIf (index < 1 ∨ 4 < index) "pgen::ipv4address::set_octet: index, 1st-arg is faild"
  return (← get).raw.getD (index - 1).toNat 0

/-- The constructor from text. -/
def ofStr (s : Text) : Exec Ipv4Address Unit := do
  modify clear
  setStr s

/-- The assignment from an address, which the copy constructor calls. -/
def assign (rhs a : Ipv4Address) : Ipv4Address := { a with raw := rhs.raw, name := rhs.name }

/-- `operator==`. -/
def equal (a rhs : Ipv4Address) : Bool := a.raw == rhs.raw

/-- The text is the one of the octets. Both are private, and every function keeps it so. -/
def Named (a : Ipv4Address) : Prop := a.updateName = a

/-- Taking over the octets of an address takes over the address. -/
theorem setbyarray_raw {a : Ipv4Address} (h : a.Named) (b : Ipv4Address) :
    b.setbyarray a.raw = a := h

theorem setStr_ok {s : Text} {raw : Vector UInt8 4} (h : inetPton (cStr s) = some raw)
    (a : Ipv4Address) : (setStr s).run a = .ok () (a.setbyarray raw) := by
  unfold setStr
  rw [h, run_modify]
  rfl

end Ipv4Address

end Ipv4

section Ipv6

/-- The sections are kept in network byte order. -/
structure Ipv6Address where
  raw : Vector UInt16 8
  name : Text
  deriving DecidableEq, Repr

namespace Ipv6Address

def strlength : ℕ := 2 * 16 + 7

def updateName (a : Ipv6Address) : Ipv6Address :=
  { a with name := List.intercalate [':'] (a.raw.toList.map fun w => hexWord (ntohs w)) }

def clear (a : Ipv6Address) : Ipv6Address := updateName { a with raw := Vector.replicate 8 0 }

/-- The default constructor. -/
def new : Ipv6Address := clear ⟨Vector.replicate 8 0, []⟩

/-- `set_str`, which the assignment from text calls; `inet_pton` leaves the sections in network byte
order. -/
def setStr (s : Text) : Exec Ipv6Address Unit := do
  match inetPton6 (cStr s) with
  | some groups => modify fun a => updateName { a with raw := groups.map htons }
  | none => throw (.exception "pgen::ipv6address::set_str(IPv6): Format error")

/-- The constructor from text. -/
def ofStr (s : Text) : Exec Ipv6Address Unit := do
  modify clear
  setStr s

def setbyarray (array : Vector UInt16 8) (a : Ipv6Address) : Ipv6Address :=
  updateName { a with raw := array }

def copytoarray (a : Ipv6Address) : Vector UInt16 8 := a.raw

/-- `set_section`; sections are counted from one. -/
def setSection (index : ℤ) (num : UInt16) : Exec Ipv6Address Unit := do
  throwIf (index < 1 ∨ 8 < index) "pgen::ipv6address::set_section6: index, 1st-arg is faild"
  modify fun a => updateName { a with raw := a.raw.setIfInBounds (index - 1).toNat num }

/-- `get_section`. -/
def getSection (index : ℤ) : Exec Ipv6Address UInt16 := do
  throwIf (index < 1 ∨ 8 < index) "pgen::ipv6address::get_section6: index, 1st-arg is faild"
  return (← get).raw.getD (index - 1).toNat 0

/-- The assignment from an address, which the copy constructor calls. -/
def assign (rhs a : Ipv6Address) : Ipv6Address := { a with raw := rhs.raw, name := rhs.name }

/-- `operator==`. -/
def equal (a rhs : Ipv6Address) : Bool := a.raw == rhs.raw

/-- The text is the one of the sections. Both are private, and every function keeps it so. -/
def Named (a : Ipv6Address) : Prop := a.updateName = a

/-- Taking over the sections of an address takes over the address. -/
theorem setbyarray_raw {a : Ipv6Address} (h : a.Named) (b : Ipv6Address) :
    b.setbyarray a.raw = a := h

theorem setStr_ok {s : Text} {groups : Vector UInt16 8} (h : inetPton6 (cStr s) = some groups)
    (a : Ipv6Address) : (setStr s).run a = .ok () (a.setbyarray (groups.map htons)) := by
  unfold setStr
  rw [h, run_modify]
  rfl

end Ipv6Address

end Ipv6

end Pgen.CoreAddress
