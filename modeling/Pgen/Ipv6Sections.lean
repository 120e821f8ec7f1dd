import Pgen.AddressText

/-!
# The sections of an IPv6 address and its text

The parser and the printer take the sections to be in network byte order; `set_section` and
`get_section` hand them over as they are. The two agree on the numbers whose bytes are the same.
-/
namespace Pgen.Ipv6Sections
open ByteMemory StructLayout CText CoreAddress AddressNotation ObjectClass AddressText

section Numbers

/-- The two bytes of the number are the same. -/
def SameBytes (w : UInt16) : Prop := w.toNat / 256 = w.toNat % 256

theorem ntohs_eq_self_iff (w : UInt16) : ntohs w = w ↔ SameBytes w := by
  have hw := w.toNat_lt
  have hswap : (ntohs w).toNat = w.toNat % 256 * 256 + w.toNat / 256 := htons_toNat w
  rw [← UInt16.toNat_inj, hswap, SameBytes]
  omega

theorem eq_map_htons_iff (v : Vector UInt16 8) :
    v = v.map htons ↔ ∀ j : Fin 8, SameBytes v[j] := by
  constructor
  · intro h j
    rw [← ntohs_eq_self_iff]
    have hj := congrArg (fun u : Vector UInt16 8 => u[j]) h
    simp only [Fin.getElem_fin, Vector.getElem_map] at hj
    exact hj.symm
  · intro h
    apply Vector.ext
    intro j hj
    rw [Vector.getElem_map]
    exact ((ntohs_eq_self_iff _).mpr (h ⟨j, hj⟩)).symm

end Numbers

section Accessors

variable {a : Ipv6Address}

/-- The groups of the text. -/
def groups (a : Ipv6Address) : List Text := a.name.splitOn ':'

/-- The sections are counted from one. -/
def index (i : Fin 8) : ℤ := i + 1

/-- `set_section` for each of the eight. -/
def setSections (v : Vector UInt16 8) : Exec Ipv6Address Unit :=
  (List.finRange 8).forM fun i => Ipv6Address.setSection (index i) v[i]

theorem index_in (i : Fin 8) : ¬ (index i < 1 ∨ 8 < index i) := by
  unfold index
  omega

theorem toNat_index (i : Fin 8) : (index i - 1).toNat = i := by
  unfold index
  omega

theorem getSection_run (i : Fin 8) (a : Ipv6Address) :
    (Ipv6Address.getSection (index i)).run a = .ok a.raw[i] a := by
  unfold Ipv6Address.getSection
  rw [run_bind_ok (throwIf_pass (index_in i) a), run_bind_ok (run_get a), toNat_index]
  simp [Vector.getD]

theorem setSection_run (i : Fin 8) (v : UInt16) (a : Ipv6Address) :
    (Ipv6Address.setSection (index i) v).run a = .ok () (a.setbyarray (a.raw.set i v)) := by
  unfold Ipv6Address.setSection
  rw [run_bind_ok (throwIf_pass (index_in i) a), run_modify, toNat_index]
  have hset : a.raw.setIfInBounds i v = a.raw.set i v := by
    apply Vector.ext
    intro j hj
    simp [Vector.getElem_set, Vector.getElem_setIfInBounds]
  rw [hset]
  rfl

theorem groups_eq (h : ipv6Class.Named a) :
    groups a = a.raw.toList.map fun w => hexWord (ntohs w) := by
  have hname : a.name = ipv6Text (a.raw.map ntohs) := h
  unfold groups
  rw [hname, splitOn_ipv6Text, Vector.toList_map, List.map_map]
  rfl

theorem groups_getElem? (h : ipv6Class.Named a) (i : Fin 8) :
    (groups a)[i]? = some (hexWord (ntohs a.raw[i])) := by
  rw [groups_eq h]
  simp

/-- Storing one section changes its group alone, to the number with the bytes swapped. -/
theorem groups_setbyarray (h : ipv6Class.Named a) (i : Fin 8) (v : UInt16) :
    groups (a.setbyarray (a.raw.set i v)) = (groups a).set i (hexWord (ntohs v)) := by
  have hset : ipv6Class.Named (a.setbyarray (a.raw.set i v)) := named_ipv6UpdateName _
  rw [groups_eq hset, groups_eq h, ← List.map_set]
  rfl

/-- Each section is stored once, and storing one leaves the others. -/
theorem forM_setSection (v : Vector UInt16 8) (is : List (Fin 8)) (a : Ipv6Address) :
    ∃ a', (is.forM fun i => Ipv6Address.setSection (index i) v[i]).run a = .ok () a' ∧
      ∀ j : Fin 8, a'.raw[j] = if j ∈ is then v[j] else a.raw[j] := by
  induction is generalizing a with
  | nil => exact ⟨a, rfl, fun j => by simp⟩
  | cons i is ih =>
    obtain ⟨a', hrun, hraw⟩ := ih (a.setbyarray (a.raw.set i v[i]))
    refine ⟨a', (run_bind_ok (setSection_run i v[i] a)).trans hrun, fun j => ?_⟩
    have hset : (a.setbyarray (a.raw.set i v[i])).raw[j] = if i = j then v[i] else a.raw[j] := by
      change (a.raw.set i v[i])[(j : ℕ)] = _
      simp [Vector.getElem_set, Fin.ext_iff]
    rw [hraw j, hset]
    by_cases hj : i = j
    · subst hj
      simp
    · simp [hj, Ne.symm hj]

theorem setSections_run (v : Vector UInt16 8) (a : Ipv6Address) :
    ∃ a', (setSections v).run a = .ok () a' ∧ a'.raw = v := by
  obtain ⟨a', hrun, hraw⟩ := forM_setSection v (List.finRange 8) a
  refine ⟨a', hrun, Vector.ext fun j hj => ?_⟩
  have hraw' := hraw ⟨j, hj⟩
  rwa [if_pos (List.mem_finRange _)] at hraw'

end Accessors

section Agreement

variable {a : Ipv6Address}

/-- `get_section` gives the number that the group shows. -/
def GetAgrees (a : Ipv6Address) (i : Fin 8) : Prop :=
  ∃ text w, (groups a)[i]? = some text ∧ hexGroup text = some w ∧
    (Ipv6Address.getSection (index i)).run a = .ok w a

/-- After `set_section` the group shows the number, and the others are as they were. -/
def SetAgrees (a : Ipv6Address) (i : Fin 8) (v : UInt16) : Prop :=
  ∃ a', (Ipv6Address.setSection (index i) v).run a = .ok () a' ∧
    groups a' = (groups a).set i (hexWord v)

/-- With all sections set the address is the one parsed from the numbers' text. -/
def AllAgree (a : Ipv6Address) (v : Vector UInt16 8) : Prop :=
  ∃ a', (setSections v).run a = .ok () a' ∧
    ∀ texts, List.Forall₂ (fun g w => hexGroup g = some w) texts v.toList →
      ∀ memory, ∃ b, (Ipv6Address.ofStr (List.intercalate [':'] texts)).run memory = .ok () b ∧
        a'.equal b = true

theorem getAgrees_iff (h : ipv6Class.Named a) (i : Fin 8) :
    GetAgrees a i ↔ SameBytes a.raw[i] := by
  rw [← ntohs_eq_self_iff]
  constructor
  · rintro ⟨text, w, htext, hw, hget⟩
    rw [groups_getElem? h] at htext
    cases htext
    rw [hexGroup_hexWord] at hw
    rw [getSection_run] at hget
    injection hget with hget
    exact (Option.some.inj hw).trans hget.symm
  · intro hsame
    refine ⟨_, _, groups_getElem? h i, hexGroup_hexWord _, ?_⟩
    rw [getSection_run, hsame]

theorem setAgrees_iff (h : ipv6Class.Named a) (i : Fin 8) (v : UInt16) :
    SetAgrees a i v ↔ SameBytes v := by
  rw [← ntohs_eq_self_iff]
  constructor
  · rintro ⟨a', hset, hgroups⟩
    rw [setSection_run] at hset
    cases hset
    rw [groups_setbyarray h] at hgroups
    have hlen : (i : ℕ) < (groups a).length := by simp [groups_eq h]
    have hgroup := congrArg (fun l => l[i]?) hgroups
    simp only [Fin.getElem?_fin, List.getElem?_set_self hlen, Option.some.injEq] at hgroup
    exact hexWord_injective hgroup
  · intro hsame
    exact ⟨_, setSection_run i v a, by rw [groups_setbyarray h, hsame]⟩

theorem allAgree_iff (a : Ipv6Address) (v : Vector UInt16 8) :
    AllAgree a v ↔ ∀ j : Fin 8, SameBytes v[j] := by
  obtain ⟨a', hset, rfl⟩ := setSections_run v a
  rw [← eq_map_htons_iff]
  constructor
  · rintro ⟨_, hset', hparsed⟩
    rw [hset] at hset'
    cases hset'
    obtain ⟨b, hrun, hequal⟩ := hparsed _ (hexGroup_ipv6Text a'.raw) a
    rw [ofStr_groups (hexGroup_ipv6Text a'.raw)] at hrun
    cases hrun
    exact beq_iff_eq.mp hequal
  · intro hsame
    exact ⟨a', hset, fun texts htexts memory =>
      ⟨_, ofStr_groups htexts memory, beq_iff_eq.mpr hsame⟩⟩

/-- Accessors and text agree exactly on sections and numbers with two equal bytes. -/
theorem sections_agree_iff (a : Ipv6Address) (h : ipv6Class.Reachable a) :
    (∀ i : Fin 8, GetAgrees a i ↔ SameBytes a.raw[i]) ∧
      (∀ (i : Fin 8) (v : UInt16), SetAgrees a i v ↔ SameBytes v) ∧
      ∀ v : Vector UInt16 8, AllAgree a v ↔ ∀ j : Fin 8, SameBytes v[j] := by
  have hnamed : ipv6Class.Named a := h.good keeps_ipv6Class
  exact ⟨getAgrees_iff hnamed, setAgrees_iff hnamed, allAgree_iff a⟩

theorem reachable_new : ipv6Class.Reachable Ipv6Address.new := by
  have hcopied : ∀ b ∈ ipv6Class.copied .default, ipv6Class.Reachable b := fun _ hb =>
    absurd hb List.not_mem_nil
  have hrun : (ipv6Class.construct .default).run Ipv6Address.new = .ok () Ipv6Address.new := rfl
  exact .constructed hcopied hrun

/-- Only the third and the last number of the array have two equal bytes. -/
def distinctSections : Vector UInt16 8 := #v[0x0120, 0xb80d, 0xabab, 0x0200, 0x0300, 1, 0x3412, 0]

/-- An address set by that array. -/
def distinctAddress : Ipv6Address := Ipv6Address.new.setbyarray distinctSections

theorem reachable_distinctAddress : ipv6Class.Reachable distinctAddress := by
  have hgiven : ∀ b ∈ ipv6Class.given (.setbyarray distinctSections), ipv6Class.Reachable b :=
    fun _ hb => absurd hb List.not_mem_nil
  exact .operated reachable_new hgiven

theorem sections_agree_iff_distinct :
    GetAgrees distinctAddress 2 ∧ ¬ GetAgrees distinctAddress 0 ∧
      SetAgrees distinctAddress 0 0x1212 ∧ ¬ SetAgrees distinctAddress 2 0x1234 ∧
      ¬ AllAgree distinctAddress distinctSections := by
  obtain ⟨hget, hset, hall⟩ := sections_agree_iff distinctAddress reachable_distinctAddress
  exact ⟨(hget 2).mpr rfl, fun h => absurd ((hget 0).mp h) (by unfold SameBytes; decide),
    (hset 0 0x1212).mpr rfl, fun h => absurd ((hset 2 0x1234).mp h) (by unfold SameBytes; decide),
    fun h => absurd ((hall distinctSections).mp h 0) (by unfold SameBytes; decide)⟩

/-- Storing 0x0102 into a new address shows 0201 as its first group. -/
theorem setSection_swapped :
    ipv6Class.Reachable Ipv6Address.new ∧ ¬ SetAgrees Ipv6Address.new 0 0x0102 := by
  refine ⟨reachable_new, fun hset => ?_⟩
  have hsame := (setAgrees_iff (reachable_new.good keeps_ipv6Class) 0 0x0102).mp hset
  exact absurd hsame (by unfold SameBytes; decide)

end Agreement

end Pgen.Ipv6Sections
