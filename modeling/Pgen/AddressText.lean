import Pgen.AddressNotation
import Pgen.ObjectClass

/-!
# Text and octets of the addresses agree

The three classes as clients see them: the constructors, the operations and the comparison.
-/
namespace Pgen.AddressText
open ByteMemory StructLayout CText CoreAddress AddressNotation ObjectClass

section Functions

variable {A V R : Type} {Good : A → Prop}

/-- The constructors that every address class has. -/
inductive Construction (A : Type)
  | default
  | copy (rhs : A)
  | text (s : Text)

def Construction.copied : Construction A → List A
  | .copy rhs => [rhs]
  | _ => []

/-- The operations that every address class has; `set_octet` and `set_section` store one part. -/
inductive Operation (A V R : Type)
  | clear
  | assign (rhs : A)
  | assignText (s : Text)
  | setPart (index : ℤ) (part : V)
  | setbyarray (array : R)

def Operation.given : Operation A V R → List A
  | .assign rhs => [rhs]
  | _ => []

variable {clear : A → A} {assign : A → A → A} {ofStr setStr : Text → Exec A Unit}
  {setPart : ℤ → V → Exec A Unit} {setbyarray : R → A → A}

def Construction.run (clear : A → A) (assign : A → A → A) (ofStr : Text → Exec A Unit) :
    Construction A → Exec A Unit
  | .default => modify clear
  | .copy rhs => modify (assign rhs)
  | .text s => ofStr s

def Operation.run (clear : A → A) (assign : A → A → A) (setStr : Text → Exec A Unit)
    (setPart : ℤ → V → Exec A Unit) (setbyarray : R → A → A) : Operation A V R → Exec A Unit
  | .clear => modify clear
  | .assign rhs => modify (assign rhs)
  | .assignText s => setStr s
  | .setPart index part => setPart index part
  | .setbyarray array => modify (setbyarray array)

theorem Construction.makes (hclear : ∀ a, Good (clear a))
    (hassign : ∀ rhs a, Good rhs → Good (assign rhs a)) (htext : ∀ s, Makes Good (ofStr s))
    (c : Construction A) (hcopied : ∀ b ∈ c.copied, Good b) :
    Makes Good (c.run clear assign ofStr) := by
  cases c with
  | default => exact (allOrNothing_modify hclear).makes
  | copy rhs =>
    have hrhs := hcopied rhs List.mem_cons_self
    exact (allOrNothing_modify fun a => hassign rhs a hrhs).makes
  | text s => exact htext s

theorem Operation.allOrNothing (hclear : ∀ a, Good (clear a))
    (hassign : ∀ rhs a, Good rhs → Good (assign rhs a))
    (htext : ∀ s, AllOrNothing Good (setStr s))
    (hpart : ∀ index part, AllOrNothing Good (setPart index part))
    (harray : ∀ array a, Good (setbyarray array a)) (o : Operation A V R)
    (hgiven : ∀ b ∈ o.given, Good b) :
    AllOrNothing Good (o.run clear assign setStr setPart setbyarray) := by
  cases o with
  | clear => exact allOrNothing_modify hclear
  | assign rhs =>
    have hrhs := hgiven rhs List.mem_cons_self
    exact allOrNothing_modify fun a => hassign rhs a hrhs
  | assignText s => exact htext s
  | setPart index part => exact hpart index part
  | setbyarray array => exact allOrNothing_modify (harray array)

end Functions

section Mac

inductive MacOperation
  | common (o : Operation MacAddress UInt8 (Vector UInt8 6))
  | setbcast

def MacOperation.given : MacOperation → List MacAddress
  | .common o => o.given
  | .setbcast => []

def MacOperation.run : MacOperation → Exec MacAddress Unit
  | .common o => o.run MacAddress.clear MacAddress.assign MacAddress.setStr MacAddress.setOctet
      MacAddress.setbyarray
  | .setbcast => MacAddress.setbcast

def macClass : TextClass MacAddress (Construction MacAddress) MacOperation (Vector UInt8 6) where
  construct c := c.run MacAddress.clear MacAddress.assign MacAddress.setStr
  copied := Construction.copied
  operate := MacOperation.run
  given := MacOperation.given
  raw := MacAddress.raw
  name := MacAddress.name
  equal := MacAddress.equal
  ofText := .text
  render := macText
  strlength := MacAddress.strlength

theorem named_macUpdateName (a : MacAddress) : macClass.Named a.updateName := rfl

theorem allOrNothing_macSetStr (s : Text) : AllOrNothing macClass.Named (MacAddress.setStr s) :=
  allOrNothing_throwIf _ _ (allOrNothing_throwIf _ _
    (allOrNothing_modify fun _ => named_macUpdateName _))

theorem allOrNothing_macSetOctet (index : ℤ) (oct : UInt8) :
    AllOrNothing macClass.Named (MacAddress.setOctet index oct) :=
  allOrNothing_throwIf _ _ (allOrNothing_modify fun _ => named_macUpdateName _)

theorem keeps_macClass : macClass.Keeps macClass.Named where
  constructs := Construction.makes (fun _ => named_macUpdateName _) (fun _ _ hrhs => hrhs)
    fun s => (allOrNothing_macSetStr s).makes
  operates o hgiven := by
    cases o with
    | common o =>
      exact Operation.allOrNothing (fun _ => named_macUpdateName _) (fun _ _ hrhs => hrhs)
        allOrNothing_macSetStr allOrNothing_macSetOctet (fun _ _ => named_macUpdateName _) o hgiven
    | setbcast => exact allOrNothing_macSetStr _

theorem laws_macClass : macClass.Laws where
  keeps := keeps_macClass
  equal_raw _ _ := beq_iff_eq
  length_render := length_macText
  parse_render raw memory := ⟨_, MacParser.setStr_macText (isMacText_macText raw) memory, rfl⟩

end Mac

section Ipv4

def ipv4Class : TextClass Ipv4Address (Construction Ipv4Address)
    (Operation Ipv4Address UInt8 (Vector UInt8 4)) (Vector UInt8 4) where
  construct c := c.run Ipv4Address.clear Ipv4Address.assign Ipv4Address.ofStr
  copied := Construction.copied
  operate o := o.run Ipv4Address.clear Ipv4Address.assign Ipv4Address.setStr Ipv4Address.setOctet
    Ipv4Address.setbyarray
  given := Operation.given
  raw := Ipv4Address.raw
  name := Ipv4Address.name
  equal := Ipv4Address.equal
  ofText := .text
  render := ipv4Text
  strlength := Ipv4Address.strlength

theorem named_ipv4UpdateName (a : Ipv4Address) : ipv4Class.Named a.updateName := rfl

theorem allOrNothing_ipv4SetStr (s : Text) :
    AllOrNothing ipv4Class.Named (Ipv4Address.setStr s) := by
  unfold Ipv4Address.setStr
  cases inetPton (cStr s) with
  | none => exact allOrNothing_throw _
  | some raw => exact allOrNothing_modify fun _ => named_ipv4UpdateName _

theorem allOrNothing_ipv4SetOctet (index : ℤ) (oct : UInt8) :
    AllOrNothing ipv4Class.Named (Ipv4Address.setOctet index oct) :=
  allOrNothing_throwIf _ _ (allOrNothing_modify fun _ => named_ipv4UpdateName _)

theorem keeps_ipv4Class : ipv4Class.Keeps ipv4Class.Named where
  constructs := Construction.makes (fun _ => named_ipv4UpdateName _) (fun _ _ hrhs => hrhs)
    fun s => (allOrNothing_ipv4SetStr s).makes.after _
  operates := Operation.allOrNothing (fun _ => named_ipv4UpdateName _) (fun _ _ hrhs => hrhs)
    allOrNothing_ipv4SetStr allOrNothing_ipv4SetOctet fun _ _ => named_ipv4UpdateName _

theorem laws_ipv4Class : ipv4Class.Laws where
  keeps := keeps_ipv4Class
  equal_raw _ _ := beq_iff_eq
  length_render := length_ipv4Text
  parse_render raw memory := by
    have hparse : inetPton (cStr (ipv4Text raw)) = some raw := by
      rw [cStr_ipv4Text, inetPton_ipv4Text]
    exact ⟨_, (run_bind_ok (run_modify _ memory)).trans (Ipv4Address.setStr_ok hparse _), rfl⟩

end Ipv4

section Ipv6

def ipv6Class : TextClass Ipv6Address (Construction Ipv6Address)
    (Operation Ipv6Address UInt16 (Vector UInt16 8)) (Vector UInt16 8) where
  construct c := c.run Ipv6Address.clear Ipv6Address.assign Ipv6Address.ofStr
  copied := Construction.copied
  operate o := o.run Ipv6Address.clear Ipv6Address.assign Ipv6Address.setStr
    Ipv6Address.setSection Ipv6Address.setbyarray
  given := Operation.given
  raw := Ipv6Address.raw
  name := Ipv6Address.name
  equal := Ipv6Address.equal
  ofText := .text
  render raw := ipv6Text (raw.map ntohs)
  strlength := Ipv6Address.strlength

theorem named_ipv6UpdateName (a : Ipv6Address) : ipv6Class.Named a.updateName := by
  change List.intercalate [':'] _ = List.intercalate [':'] _
  rw [Vector.toList_map, List.map_map]
  rfl

theorem allOrNothing_ipv6SetStr (s : Text) :
    AllOrNothing ipv6Class.Named (Ipv6Address.setStr s) := by
  unfold Ipv6Address.setStr
  cases inetPton6 (cStr s) with
  | none => exact allOrNothing_throw _
  | some groups => exact allOrNothing_modify fun _ => named_ipv6UpdateName _

theorem allOrNothing_setSection (index : ℤ) (num : UInt16) :
    AllOrNothing ipv6Class.Named (Ipv6Address.setSection index num) :=
  allOrNothing_throwIf _ _ (allOrNothing_modify fun _ => named_ipv6UpdateName _)

theorem keeps_ipv6Class : ipv6Class.Keeps ipv6Class.Named where
  constructs := Construction.makes (fun _ => named_ipv6UpdateName _) (fun _ _ hrhs => hrhs)
    fun s => (allOrNothing_ipv6SetStr s).makes.after _
  operates := Operation.allOrNothing (fun _ => named_ipv6UpdateName _) (fun _ _ hrhs => hrhs)
    allOrNothing_ipv6SetStr allOrNothing_setSection fun _ _ => named_ipv6UpdateName _

theorem map_htons_ntohs (raw : Vector UInt16 8) : (raw.map ntohs).map htons = raw := by
  apply Vector.ext
  intro i hi
  simp

/-- The constructor keeps the numbers of the groups in network byte order. -/
theorem ofStr_groups {texts : List Text} {v : Vector UInt16 8}
    (h : List.Forall₂ (fun g w => hexGroup g = some w) texts v.toList) (memory : Ipv6Address) :
    (Ipv6Address.ofStr (List.intercalate [':'] texts)).run memory =
      .ok () (memory.clear.setbyarray (v.map htons)) := by
  have hparse : inetPton6 (cStr (List.intercalate [':'] texts)) = some v := by
    rw [cStr_hexGroups h, inetPton6_groups h]
  unfold Ipv6Address.ofStr
  rw [run_bind_ok (run_modify _ memory), Ipv6Address.setStr_ok hparse]

theorem laws_ipv6Class : ipv6Class.Laws where
  keeps := keeps_ipv6Class
  equal_raw _ _ := beq_iff_eq
  length_render _ := length_ipv6Text _
  parse_render raw memory :=
    ⟨_, ofStr_groups (hexGroup_ipv6Text (raw.map ntohs)) memory, map_htons_ntohs raw⟩

end Ipv6

/-- In every object of the three classes that clients can have, text and octets agree. -/
theorem addresses_agree : macClass.Agrees ∧ ipv4Class.Agrees ∧ ipv6Class.Agrees :=
  ⟨laws_macClass.agrees, laws_ipv4Class.agrees, laws_ipv6Class.agrees⟩

end Pgen.AddressText
