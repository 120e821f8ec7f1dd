import Mathlib.Data.List.Perm.Basic
import Pgen.HandleTable

/-!
# The handles of streams

`file_stream` keeps a `FILE*` and `net_stream` a descriptor in `_fd`; a null pointer or a negative
number is no handle. All stream classes open and close in the same way, so that a program is a
sequence of calls on any number of stream objects.
-/
namespace Pgen.StreamHandles
open HandleTable

variable {ι H : Type}

section Model

/-- How `open` ends: it does not know the mode, the system gives no handle, or it gives one and then
the writes, reads and ioctls behind it complete, or one of them throws. -/
inductive OpenOutcome (H : Type)
  | unknownMode
  | noHandle
  | completed (h : H)
  | thrown (h : H)
  deriving DecidableEq, Repr

/-- The calls of a program; `copied i j` makes `j` by the copy constructor that the compiler
generates. -/
inductive Event (ι H : Type)
  | defaulted (i : ι)
  | constructed (i : ι) (o : OpenOutcome H)
  | copied (i j : ι)
  | opened (i : ι) (o : OpenOutcome H)
  | closed (i : ι)
  | destroyed (i : ι)
  deriving DecidableEq, Repr

/-- The system gives no handle that is open. -/
def OpenOutcome.Fresh (opened : List H) : OpenOutcome H → Prop
  | .unknownMode | .noHandle => True
  | .completed h | .thrown h => h ∉ opened

instance [DecidableEq H] (opened : List H) : (o : OpenOutcome H) → Decidable (o.Fresh opened)
  | .unknownMode | .noHandle => isTrue trivial
  | .completed h | .thrown h => inferInstanceAs (Decidable (h ∉ opened))

/-- The objects of the event are there, or not yet. -/
def Possible (t : Table ι H) : Event ι H → Prop
  | .defaulted i => t.slot i = none
  | .constructed i o => t.slot i = none ∧ o.Fresh t.opened
  | .copied i j => t.slot i ≠ none ∧ t.slot j = none
  | .opened i o => t.slot i ≠ none ∧ o.Fresh t.opened
  | .closed i | .destroyed i => t.slot i ≠ none

instance [DecidableEq H] (t : Table ι H) : (e : Event ι H) → Decidable (Possible t e)
  | .defaulted i => inferInstanceAs (Decidable (t.slot i = none))
  | .constructed i o => inferInstanceAs (Decidable (t.slot i = none ∧ o.Fresh t.opened))
  | .copied i j => inferInstanceAs (Decidable (t.slot i ≠ none ∧ t.slot j = none))
  | .opened i o => inferInstanceAs (Decidable (t.slot i ≠ none ∧ o.Fresh t.opened))
  | .closed i | .destroyed i => inferInstanceAs (Decidable (t.slot i ≠ none))

/-- A stream is not copied while it is open. -/
def Unshared (t : Table ι H) : Event ι H → Prop
  | .copied i _ => t.slot i = some none
  | _ => True

instance [DecidableEq H] (t : Table ι H) : (e : Event ι H) → Decidable (Unshared t e)
  | .copied i _ => inferInstanceAs (Decidable (t.slot i = some none))
  | .defaulted _ | .constructed _ _ | .opened _ _ | .closed _ | .destroyed _ => isTrue trivial

/-- The handle that an object holds. -/
def held (t : Table ι H) (i : ι) : List H := ((t.slot i).join).toList

/-- The handle that an event makes its object forget. -/
def forgets (t : Table ι H) : Event ι H → List H
  | .opened _ .unknownMode => []
  | .opened i _ => held t i
  | _ => []

variable [DecidableEq ι] [DecidableEq H]

/-- The assignment to `_fd`, whatever it held. -/
def assignFd (i : ι) (found : Option H) (t : Table ι H) : Table ι H :=
  match found with
  | none => t.put i (some none)
  | some h => t.acquire i h

/-- `open`, and whether it returns. -/
def openStream (i : ι) : OpenOutcome H → Table ι H → Table ι H × Bool
  | .unknownMode, t => (t, false)
  | .noHandle, t => (assignFd i none t, false)
  | .completed h, t => (assignFd i (some h) t, true)
  | .thrown h, t => (assignFd i (some h) t, false)

/-- `close`; undefined where the handle has been given back before. -/
def close (i : ι) (t : Table ι H) : Option (Table ι H) := t.release i (some none)

/-- The destructor, behind which there is no object. -/
def destroy (i : ι) (t : Table ι H) : Option (Table ι H) := do
  let t ← close i t
  pure (t.put i none)

/-- The constructor from a name: where `open` throws, what was constructed is destroyed. -/
def construct (i : ι) (o : OpenOutcome H) (t : Table ι H) : Option (Table ι H) :=
  let r := openStream i o (t.put i (some none))
  if r.2 = true then some r.1 else destroy i r.1

def step (t : Table ι H) : Event ι H → Option (Table ι H)
  | .defaulted i => some (t.put i (some none))
  | .constructed i o => construct i o t
  | .copied i j => some (t.put j (t.slot i))
  | .opened i o => some (openStream i o t).1
  | .closed i => close i t
  | .destroyed i => destroy i t

/-- Each event is possible where it happens, and none copies an open stream. -/
def Admissible : Table ι H → List (Event ι H) → Prop
  | _, [] => True
  | t, e :: es => Possible t e ∧ Unshared t e ∧ ∀ t' ∈ step t e, Admissible t' es

instance decidableAdmissible :
    (t : Table ι H) → (es : List (Event ι H)) → Decidable (Admissible t es)
  | _, [] => isTrue trivial
  | t, e :: es =>
    have (t' : Table ι H) : Decidable (Admissible t' es) := decidableAdmissible t' es
    inferInstanceAs (Decidable (Possible t e ∧ Unshared t e ∧ ∀ t' ∈ step t e, Admissible t' es))

/-- The handles that the run makes objects forget. -/
def forgotten : Table ι H → List (Event ι H) → List H
  | _, [] => []
  | t, e :: es => forgets t e ++ (step t e).elim [] fun t' => forgotten t' es

end Model

section Steps

variable {t : Table ι H} {i : ι} {lost : List H}

theorem free_of_held (h : held t i = []) : t.Free i := by
  intro h' hh
  simp [held, show t.slot i = some (some h') from hh] at h

theorem free_of_no_object (h : t.slot i = none) : t.Free i := by
  intro h' hh
  simp [Table.Holds, h] at hh

theorem forgets_opened (h : held t i = []) (o : OpenOutcome H) : forgets t (.opened i o) = [] := by
  cases o <;> simp [forgets, h]

variable [DecidableEq ι]

/-- An assignment to `_fd` loses what it held. -/
theorem accounted_assignFd (ha : t.Accounted lost) {found : Option H}
    (hfresh : ∀ h, found = some h → h ∉ t.opened) :
    (assignFd i found t).Accounted (held t i ++ lost) := by
  -- without a handle first, and then with the one that was found
  have hput : (t.put i (some none)).Accounted (held t i ++ lost) := by
    cases hs : held t i with
    | nil => exact ha.put (free_of_held hs) (by simp)
    | cons h hs' =>
      obtain ⟨hh, rfl⟩ : t.Holds i h ∧ hs' = [] := by
        unfold held at hs
        cases hslot : t.slot i with
        | none => simp [hslot] at hs
        | some fd =>
          cases fd with
          | none => simp [hslot] at hs
          | some h' =>
            obtain ⟨rfl, rfl⟩ : h' = h ∧ [] = hs' := by simpa [hslot] using hs
            exact ⟨hslot, rfl⟩
      exact ha.lose hh (by simp)
  cases found with
  | none => exact hput
  | some h =>
    have hfree : (t.put i (some none)).Free i := by
      intro h' hh
      simp [Table.put, Table.Holds] at hh
    have hacquire := hput.acquire hfree (hfresh h rfl)
    rwa [show (t.put i (some none)).acquire i h = t.acquire i h by
      simp [Table.put, Table.acquire]] at hacquire

theorem accounted_openStream (ha : t.Accounted lost) {o : OpenOutcome H}
    (hfresh : o.Fresh t.opened) :
    (openStream i o t).1.Accounted (forgets t (.opened i o) ++ lost) := by
  cases o with
  | unknownMode => exact ha
  | noHandle =>
    change (assignFd i none t).Accounted (held t i ++ lost)
    exact accounted_assignFd ha (by simp)
  | completed h | thrown h =>
    change (assignFd i (some h) t).Accounted (held t i ++ lost)
    exact accounted_assignFd ha (by simpa [OpenOutcome.Fresh] using hfresh)

variable [DecidableEq H]

theorem accounted_close (ha : t.Accounted lost) (i : ι) :
    ∃ t', close i t = some t' ∧ t'.Accounted lost ∧ t'.Free i := by
  obtain ⟨t', hr, ha', hslot⟩ := ha.release i (x := some none) (by simp)
  refine ⟨t', hr, ha', fun h hh => ?_⟩
  simp [Table.Holds, hslot] at hh

theorem accounted_destroy (ha : t.Accounted lost) (i : ι) :
    ∃ t', destroy i t = some t' ∧ t'.Accounted lost := by
  obtain ⟨t', hr, ha', hfree⟩ := accounted_close ha i
  refine ⟨t'.put i none, ?_, ha'.put hfree (by simp)⟩
  simp [destroy, hr]

/-- A constructor leaves nothing open where it throws, and forgets nothing. -/
theorem accounted_construct (ha : t.Accounted lost) (hnew : t.slot i = none) {o : OpenOutcome H}
    (hfresh : o.Fresh t.opened) : ∃ t', construct i o t = some t' ∧ t'.Accounted lost := by
  have hdefault : (t.put i (some none)).Accounted lost := ha.put (free_of_no_object hnew) (by simp)
  have hheld : held (t.put i (some none)) i = [] := by simp [held, Table.put]
  have hopened := accounted_openStream (i := i) hdefault hfresh
  rw [forgets_opened hheld, List.nil_append] at hopened
  unfold construct
  dsimp only
  split_ifs
  · exact ⟨_, rfl, hopened⟩
  · exact accounted_destroy hopened i

/-- What one call does to the handles. -/
theorem accounted_step (ha : t.Accounted lost) {e : Event ι H} (hp : Possible t e)
    (hu : Unshared t e) : ∃ t', step t e = some t' ∧ t'.Accounted (forgets t e ++ lost) := by
  cases e with
  | defaulted i => exact ⟨_, rfl, ha.put (free_of_no_object hp) (by simp)⟩
  | constructed i o => exact accounted_construct ha hp.1 hp.2
  | copied i j =>
    have hclosed : t.slot i = some none := hu
    exact ⟨_, rfl, ha.put (free_of_no_object hp.2) (by simp [hclosed])⟩
  | opened i o => exact ⟨_, rfl, accounted_openStream ha hp.2⟩
  | closed i =>
    obtain ⟨t', hr, ha', -⟩ := accounted_close ha i
    exact ⟨t', hr, ha'⟩
  | destroyed i => exact accounted_destroy ha i

end Steps

section Runs

variable [DecidableEq ι] [DecidableEq H]

/-- What the calls of a run do to the handles. -/
theorem accounted_run {t : Table ι H} {lost : List H} (ha : t.Accounted lost)
    {es : List (Event ι H)} (hes : Admissible t es) :
    ∃ t' lost', es.foldlM step t = some t' ∧ t'.Accounted lost' ∧
      lost'.Perm (forgotten t es ++ lost) := by
  induction es generalizing t lost with
  | nil => exact ⟨t, lost, rfl, ha, by simp [forgotten]⟩
  | cons e es ih =>
    obtain ⟨hp, hu, hrest⟩ := hes
    obtain ⟨t₁, hstep, ha₁⟩ := accounted_step ha hp hu
    obtain ⟨t', lost', hr, ha', hperm⟩ := ih ha₁ (hrest t₁ hstep)
    refine ⟨t', lost', ?_, ha', ?_⟩
    · rw [List.foldlM_cons, hstep]
      exact hr
    · simp only [forgotten, hstep, Option.elim_some]
      refine hperm.trans ?_
      rw [← List.append_assoc]
      exact List.perm_append_comm.append_right lost

/-- In every run of any number of streams, of which none is copied while it is open, no handle is
closed twice, each open handle has one owner at most, and the handles that stay open without an
owner are those that an `open` on an open stream made it forget. -/
theorem handles_accounted (es : List (Event ι H)) (hes : Admissible .empty es) :
    ∃ t', es.foldlM step .empty = some t' ∧
      (∀ i j h, t'.Holds i h → t'.Holds j h → i = j) ∧
      (∀ h, h ∈ t'.opened ↔ (∃ i, t'.Holds i h) ∨ h ∈ forgotten .empty es) ∧
      (∀ i h, t'.Holds i h → h ∉ forgotten .empty es) ∧
      ((∀ i, t'.slot i = none) → t'.opened.Perm (forgotten .empty es)) := by
  obtain ⟨t', lost, hr, ha, hperm⟩ := accounted_run Table.accounted_empty hes
  rw [List.append_nil] at hperm
  refine ⟨t', hr, ha.unique, fun h => ?_, fun i h hh hmem => ?_, fun hgone => ?_⟩
  · rw [ha.mem_iff, hperm.mem_iff]
  · exact ha.not_lost i h hh (hperm.mem_iff.mpr hmem)
  · refine List.Perm.trans ?_ hperm
    rw [List.perm_ext_iff_of_nodup ha.nodup ha.lost_nodup]
    intro h
    rw [ha.mem_iff]
    simp [Table.Holds, hgone]

/-- A stream that is opened twice, and one whose construction does not complete. -/
def twiceOpened : List (Event ℕ ℕ) :=
  [.constructed 0 (.completed 7), .constructed 1 (.thrown 8), .opened 0 (.completed 8),
    .destroyed 0]

theorem handles_accounted_twice : ∃ t', twiceOpened.foldlM step .empty = some t' ∧
    (∀ i j h, t'.Holds i h → t'.Holds j h → i = j) ∧
    (∀ h, h ∈ t'.opened ↔ (∃ i, t'.Holds i h) ∨ h ∈ [7]) ∧
    (∀ i h, t'.Holds i h → h ∉ [7]) ∧
    ((∀ i, t'.slot i = none) → t'.opened.Perm [7]) := by
  exact handles_accounted twiceOpened (by decide)

end Runs

end Pgen.StreamHandles
