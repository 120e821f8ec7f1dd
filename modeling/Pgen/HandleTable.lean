import Mathlib.Data.List.Nodup
import Mathlib.Logic.Function.Basic

/-!
# Owners of handles

Objects come and go, each with room for one handle of the system. A handle is acquired by an object,
released by its owner, or lost when the owner forgets it. As long as owners do not share
handles, every handle that is open is held by one of them or was lost.
-/
namespace Pgen.HandleTable

variable {ι H : Type}

/-- `none` for an object that does not exist, `some none` for one without a handle. -/
structure Table (ι H : Type) where
  slot : ι → Option (Option H)
  opened : List H

namespace Table

def empty : Table ι H := ⟨fun _ => none, []⟩

/-- The object exists and holds this handle. -/
def Holds (t : Table ι H) (i : ι) (h : H) : Prop := t.slot i = some (some h)

/-- The object exists and holds nothing, or does not exist. -/
def Free (t : Table ι H) (i : ι) : Prop := ∀ h, ¬ t.Holds i h

/-- Every open handle has one owner, or is among the lost ones. -/
structure Accounted (t : Table ι H) (lost : List H) : Prop where
  nodup : t.opened.Nodup
  mem_iff : ∀ h, h ∈ t.opened ↔ (∃ i, t.Holds i h) ∨ h ∈ lost
  unique : ∀ i j h, t.Holds i h → t.Holds j h → i = j
  not_lost : ∀ i h, t.Holds i h → h ∉ lost
  lost_nodup : lost.Nodup

variable {t : Table ι H} {i j : ι} {h h' : H} {x : Option (Option H)} {lost : List H}

theorem accounted_empty : (empty : Table ι H).Accounted [] :=
  ⟨.nil, by simp [empty, Holds], by simp [empty, Holds], by simp [empty, Holds], .nil⟩

theorem Holds.inj (hh : t.Holds i h) (hh' : t.Holds i h') : h = h' :=
  Option.some.inj (Option.some.inj (hh.symm.trans hh'))

variable [DecidableEq ι]

def put (t : Table ι H) (i : ι) (x : Option (Option H)) : Table ι H :=
  { t with slot := Function.update t.slot i x }

def acquire (t : Table ι H) (i : ι) (h : H) : Table ι H :=
  ⟨Function.update t.slot i (some (some h)), h :: t.opened⟩

theorem holds_put (hx : ∀ h, x ≠ some (some h)) :
    (t.put i x).Holds j h ↔ j ≠ i ∧ t.Holds j h := by
  by_cases hj : j = i
  · simp [put, Holds, hj, hx]
  · simp [put, Holds, hj]

theorem holds_acquire : (t.acquire i h).Holds j h' ↔ (j = i ∧ h' = h) ∨ (j ≠ i ∧ t.Holds j h') := by
  by_cases hj : j = i
  · simp [acquire, Holds, hj, eq_comm]
  · simp [acquire, Holds, hj]

/-- An object without a handle may be changed. -/
theorem Accounted.put (ha : t.Accounted lost) (hfree : t.Free i) (hx : ∀ h, x ≠ some (some h)) :
    (t.put i x).Accounted lost := by
  have hholds : ∀ j h, (t.put i x).Holds j h ↔ t.Holds j h := by
    intro j h
    rw [holds_put hx]
    constructor
    · exact fun hj => hj.2
    · intro hj
      refine ⟨?_, hj⟩
      rintro rfl
      exact hfree h hj
  refine ⟨ha.nodup, fun h => ?_, ?_, ?_, ha.lost_nodup⟩
  · simp only [hholds]
    exact ha.mem_iff h
  · simpa only [hholds] using ha.unique
  · simpa only [hholds] using ha.not_lost

/-- A handle that is not open may be acquired by an object without one. -/
theorem Accounted.acquire (ha : t.Accounted lost) (hfree : t.Free i) (hnew : h ∉ t.opened) :
    (t.acquire i h).Accounted lost := by
  have hlost : h ∉ lost := fun hmem => hnew ((ha.mem_iff h).mpr (.inr hmem))
  have hheld : ∀ j, ¬ t.Holds j h := fun j hj => hnew ((ha.mem_iff h).mpr (.inl ⟨j, hj⟩))
  have hne : ∀ j h', t.Holds j h' → j ≠ i := by
    rintro j h' hj rfl
    exact hfree h' hj
  refine ⟨List.nodup_cons.mpr ⟨hnew, ha.nodup⟩, fun h' => ?_, ?_, ?_, ha.lost_nodup⟩
  · simp only [holds_acquire]
    simp only [Table.acquire, List.mem_cons, ha.mem_iff]
    constructor
    · rintro (rfl | ⟨j, hj⟩ | hl)
      · exact .inl ⟨i, .inl ⟨rfl, rfl⟩⟩
      · exact .inl ⟨j, .inr ⟨hne j h' hj, hj⟩⟩
      · exact .inr hl
    · rintro (⟨j, ⟨-, rfl⟩ | ⟨-, hj⟩⟩ | hl)
      · exact .inl rfl
      · exact .inr (.inl ⟨j, hj⟩)
      · exact .inr (.inr hl)
  · intro j k h' hj hk
    rw [holds_acquire] at hj hk
    obtain ⟨rfl, rfl⟩ | ⟨-, hj⟩ := hj
    · obtain ⟨rfl, -⟩ | ⟨-, hk⟩ := hk
      · rfl
      · exact absurd hk (hheld k)
    · obtain ⟨-, rfl⟩ | ⟨-, hk⟩ := hk
      · exact absurd hj (hheld j)
      · exact ha.unique j k h' hj hk
  · intro j h' hj
    rw [holds_acquire] at hj
    obtain ⟨-, rfl⟩ | ⟨-, hj⟩ := hj
    · exact hlost
    · exact ha.not_lost j h' hj

/-- A handle whose owner forgets it is lost. -/
theorem Accounted.lose (ha : t.Accounted lost) (hh : t.Holds i h) (hx : ∀ h, x ≠ some (some h)) :
    (t.put i x).Accounted (h :: lost) := by
  refine ⟨ha.nodup, fun h' => ?_, ?_, ?_, List.nodup_cons.mpr ⟨ha.not_lost i h hh, ha.lost_nodup⟩⟩
  · simp only [holds_put hx]
    simp only [Table.put, List.mem_cons, ha.mem_iff]
    constructor
    · rintro (⟨j, hj⟩ | hl)
      · by_cases hji : j = i
        · exact .inr (.inl ((hji ▸ hj).inj hh))
        · exact .inl ⟨j, hji, hj⟩
      · exact .inr (.inr hl)
    · rintro (⟨j, -, hj⟩ | rfl | hl)
      · exact .inl ⟨j, hj⟩
      · exact .inl ⟨i, hh⟩
      · exact .inr hl
  · intro j k h' hj hk
    rw [holds_put hx] at hj hk
    exact ha.unique j k h' hj.2 hk.2
  · intro j h' hj
    rw [holds_put hx] at hj
    rw [List.mem_cons, not_or]
    refine ⟨?_, ha.not_lost j h' hj.2⟩
    rintro rfl
    exact hj.1 (ha.unique j i _ hj.2 hh)

variable [DecidableEq H]

/-- Give the handle back, if there is one. A handle that is not open cannot be given back. -/
def release (t : Table ι H) (i : ι) (x : Option (Option H)) : Option (Table ι H) :=
  match t.slot i with
  | some (some h) =>
    if h ∈ t.opened then some ⟨Function.update t.slot i x, t.opened.erase h⟩ else none
  | _ => some (t.put i x)

/-- An owner can give its handle back. -/
theorem Accounted.release_held (ha : t.Accounted lost) (hh : t.Holds i h)
    (hx : ∀ h, x ≠ some (some h)) :
    (⟨Function.update t.slot i x, t.opened.erase h⟩ : Table ι H).Accounted lost := by
  have hholds : ∀ j h', (⟨Function.update t.slot i x, t.opened.erase h⟩ : Table ι H).Holds j h' ↔
      j ≠ i ∧ t.Holds j h' := fun j h' => holds_put hx
  refine ⟨ha.nodup.erase h, fun h' => ?_, ?_, ?_, ha.lost_nodup⟩
  · simp only [hholds, ha.nodup.mem_erase_iff, ha.mem_iff]
    constructor
    · rintro ⟨hne, ⟨j, hj⟩ | hl⟩
      · refine .inl ⟨j, ?_, hj⟩
        rintro rfl
        exact hne (hj.inj hh)
      · exact .inr hl
    · rintro (⟨j, hji, hj⟩ | hl)
      · refine ⟨?_, .inl ⟨j, hj⟩⟩
        rintro rfl
        exact hji (ha.unique j i _ hj hh)
      · refine ⟨?_, .inr hl⟩
        rintro rfl
        exact ha.not_lost i _ hh hl
  · intro j k h' hj hk
    rw [hholds] at hj hk
    exact ha.unique j k h' hj.2 hk.2
  · intro j h' hj
    rw [hholds] at hj
    exact ha.not_lost j h' hj.2

/-- In a table that is accounted for nothing is given back twice. -/
theorem Accounted.release (ha : t.Accounted lost) (i : ι) (hx : ∀ h, x ≠ some (some h)) :
    ∃ t', t.release i x = some t' ∧ t'.Accounted lost ∧ t'.slot = Function.update t.slot i x := by
  unfold Table.release
  cases hs : t.slot i with
  | none => exact ⟨_, rfl, ha.put (fun h hh => by simp [Holds, hs] at hh) hx, rfl⟩
  | some held =>
    cases held with
    | none => exact ⟨_, rfl, ha.put (fun h hh => by simp [Holds, hs] at hh) hx, rfl⟩
    | some h =>
      have hopen : h ∈ t.opened := (ha.mem_iff h).mpr (.inl ⟨i, hs⟩)
      exact ⟨_, if_pos hopen, ha.release_held hs hx, rfl⟩

end Table

end Pgen.HandleTable
