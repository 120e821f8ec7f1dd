import Pgen.CorePacket

/-!
# Calls on a `data_container`

A container is a headroom of fixed size and a content behind it. The content is replaced and
removed at the end of the vector, while `write_before` writes in front of any index: it compares the
index with the length of what it writes, but not with the size of the container.
-/
namespace Pgen.ContainerCalls
open ByteMemory CorePacket

section Model

variable {pivot : ℕ}

/-- `write_before`, where `buf` are the bytes at the pointer. -/
def writeBefore (index : ℕ) (buf : Bytes) : Exec (DataContainer pivot) Unit := do
  throwIf (index < buf.length) "pgen::types::data_container::write_before: buflen is too large"
  DataContainer.onVec (store (index - buf.length) buf) (.store _ _)

inductive Call
  | setContent (buf : Bytes)
  | deleteContent
  | writeBefore (index : ℕ) (buf : Bytes)

def Call.act : Call → Exec (DataContainer pivot) Unit
  | .setContent buf => modify fun c => c.setContent buf
  | .deleteContent => modify fun c => c.deleteContent
  | .writeBefore index buf => ContainerCalls.writeBefore index buf

/-- The container after a call, also when it throws. -/
def step (c : DataContainer pivot) (call : Call) : DataContainer pivot :=
  finalState (call.act.run c)

/-- A new container after these calls. -/
def after (pivot : ℕ) (calls : List Call) : DataContainer pivot :=
  calls.foldl step (.new pivot)

/-- How long the content is after a call that found one of length `n`. -/
def nextLength (n : ℕ) : Call → ℕ
  | .setContent buf => buf.length
  | .deleteContent => 0
  | .writeBefore _ _ => n

def contentLength (calls : List Call) : ℕ := calls.foldl nextLength 0

end Model

section Steps

variable {pivot : ℕ}

/-- The bytes in `[index - buf.length, index)` are `buf` now and the others what they were. Of a
`buf` without bytes it is asked as well that the pointer is one the array has: to a byte or to its
end, which is `index = size`; an `index` behind the end is outside although nothing is copied. -/
structure WritesOnly (c c' : DataContainer pivot) (index : ℕ) (buf : Bytes) : Prop where
  start : buf.length ≤ index
  inside : index ≤ c.size
  size : c'.size = c.size
  bytes : ∀ i, c'.vec[i]? =
    if index - buf.length ≤ i ∧ i < index then buf[i - (index - buf.length)]? else c.vec[i]?

/-- What a call is to do to the container. -/
def Behaves (c : DataContainer pivot) : Call → Prop
  | .setContent buf => ∃ c', (Call.setContent buf).act.run c = .ok () c' ∧
      c'.vec.take pivot = c.vec.take pivot ∧ c'.vec.drop pivot = buf
  | .deleteContent => ∃ c', Call.deleteContent.act.run c = .ok () c' ∧
      c'.vec.take pivot = c.vec.take pivot ∧ c'.vec.drop pivot = []
  | .writeBefore index buf =>
      (∃ what, (Call.writeBefore index buf).act.run c = .error (.exception what) c) ∨
        ∃ c', (Call.writeBefore index buf).act.run c = .ok () c' ∧ WritesOnly c c' index buf

theorem behaves_setContent (c : DataContainer pivot) (buf : Bytes) :
    Behaves c (.setContent buf) :=
  ⟨_, rfl, List.take_left' c.length_take_pivot, List.drop_left' c.length_take_pivot⟩

theorem behaves_deleteContent (c : DataContainer pivot) : Behaves c .deleteContent := by
  refine ⟨_, rfl, ?_, ?_⟩
  · exact List.take_of_length_le c.length_take_pivot.le
  · exact List.drop_of_length_le c.length_take_pivot.le

theorem splice_getElem? {mem data : Bytes} {off : ℕ} (h : off + data.length ≤ mem.length) (i : ℕ) :
    (splice mem off data)[i]? =
      if off ≤ i ∧ i < off + data.length then data[i - off]? else mem[i]? := by
  have hoff : (mem.take off).length = off := by
    rw [List.length_take]
    omega
  rw [splice, List.append_assoc, List.getElem?_append, List.getElem?_append, hoff,
    List.getElem?_take, List.getElem?_drop]
  split_ifs with h₁ h₂ h₃ h₃
  · omega
  · rfl
  · rfl
  · omega
  · omega
  · rw [show off + data.length + (i - off - data.length) = i by omega]

/-- A write that is not refused is inside the container exactly when the index is. -/
theorem behaves_writeBefore_iff (c : DataContainer pivot) (index : ℕ) (buf : Bytes) :
    Behaves c (.writeBefore index buf) ↔ index < buf.length ∨ index ≤ c.size := by
  rcases Nat.lt_or_ge index buf.length with hlt | hge
  · exact iff_of_true (.inl ⟨_, run_bind_error (throwIf_fail hlt c)⟩) (.inl hlt)
  have hrun : (Call.writeBefore index buf).act.run c =
      (DataContainer.onVec (store (index - buf.length) buf) (.store _ _)).run c :=
    run_bind_ok (throwIf_pass (Nat.not_lt.mpr hge) c)
  rcases Nat.lt_or_ge c.size index with hout | hin
  · obtain ⟨c', hfault, -⟩ := DataContainer.onVec_error (c := c) (.store (index - buf.length) buf)
      (store_fault (show c.vec.length < index - buf.length + buf.length by
        rw [Nat.sub_add_cancel hge]
        exact hout))
    rw [hfault] at hrun
    refine iff_of_false ?_ (by omega)
    rintro (⟨what, he⟩ | ⟨c'', hok, -⟩)
    · cases hrun.symm.trans he
    · cases hrun.symm.trans hok
  · have hfit : index - buf.length + buf.length ≤ c.vec.length := by
      rw [Nat.sub_add_cancel hge]
      exact hin
    obtain ⟨c', hok, hvec⟩ := DataContainer.onVec_ok (c := c) (.store (index - buf.length) buf)
      (store_ok hfit)
    refine iff_of_true (.inr ⟨c', hrun.trans hok, hge, hin, ?_, fun i => ?_⟩) (.inr hin)
    · rw [DataContainer.size, hvec, splice_length hfit, DataContainer.size]
    · rw [hvec, splice_getElem? hfit, Nat.sub_add_cancel hge]

theorem behaves_iff (c : DataContainer pivot) (call : Call) :
    Behaves c call ↔ ∀ index buf, call = .writeBefore index buf →
      index < buf.length ∨ index ≤ c.size := by
  cases call with
  | setContent buf => exact iff_of_true (behaves_setContent c buf) fun _ _ h => nomatch h
  | deleteContent => exact iff_of_true (behaves_deleteContent c) fun _ _ h => nomatch h
  | writeBefore index buf =>
    rw [behaves_writeBefore_iff]
    constructor
    · rintro h _ _ ⟨⟩
      exact h
    · exact fun h => h index buf rfl

/-- A write never changes the size, whether it stays inside or not. -/
theorem step_size {c : DataContainer pivot} {n : ℕ} (h : c.size = pivot + n) (call : Call) :
    (step c call).size = pivot + nextLength n call := by
  cases call with
  | setContent buf =>
    change (c.vec.take pivot ++ buf).length = _
    rw [List.length_append, c.length_take_pivot]
    rfl
  | deleteContent => exact c.length_take_pivot
  | writeBefore index buf =>
    refine Eq.trans ?_ h
    change (finalState ((writeBefore index buf).run c)).size = _
    unfold writeBefore
    rcases Nat.lt_or_ge index buf.length with hlt | hge
    · rw [run_bind_error (throwIf_fail hlt c)]
      rfl
    · rw [run_bind_ok (throwIf_pass (Nat.not_lt.mpr hge) c)]
      have hkeep := KeepsLength.store (index - buf.length) buf c.vec
      cases hr : (store (index - buf.length) buf).run c.vec with
      | ok u vec =>
        obtain ⟨c', hok, hvec⟩ := DataContainer.onVec_ok (.store _ _) hr
        rw [hr] at hkeep
        rw [hok, finalState, DataContainer.size, hvec]
        exact hkeep
      | error e vec =>
        obtain ⟨c', herror, hvec⟩ := DataContainer.onVec_error (.store _ _) hr
        rw [hr] at hkeep
        rw [herror, finalState, DataContainer.size, hvec]
        exact hkeep

end Steps

section Sequences

theorem foldl_size {pivot : ℕ} (calls : List Call) {c : DataContainer pivot} {n : ℕ}
    (h : c.size = pivot + n) :
    (calls.foldl step c).size = pivot + calls.foldl nextLength n := by
  induction calls generalizing c n with
  | nil => exact h
  | cons call calls ih => exact ih (step_size h call)

theorem after_size (pivot : ℕ) (calls : List Call) :
    (after pivot calls).size = pivot + contentLength calls :=
  foldl_size calls (show (List.replicate pivot 0).length = pivot + 0 by simp)

/-- Throughout a sequence of calls the size is the pivot and the length of the content, and every
call does to the container what it is to do. -/
structure Headroomed (pivot : ℕ) (calls : List Call) : Prop where
  size : ∀ n, (after pivot (calls.take n)).size = pivot + contentLength (calls.take n)
  behaves : ∀ n call, calls[n]? = some call → Behaves (after pivot (calls.take n)) call

/-- This is so exactly when no write that passes the check of its length starts from an index
behind the content there is at the time. -/
theorem headroomed_iff (pivot : ℕ) (calls : List Call) :
    Headroomed pivot calls ↔ ∀ n index buf, calls[n]? = some (.writeBefore index buf) →
      index < buf.length ∨ index ≤ pivot + contentLength (calls.take n) := by
  constructor
  · intro h n index buf hn
    rw [← after_size]
    exact (behaves_writeBefore_iff _ _ _).mp (h.behaves n _ hn)
  · intro h
    refine ⟨fun n => after_size pivot _, fun n call hn => (behaves_iff _ _).mpr ?_⟩
    rintro index buf rfl
    rw [after_size]
    exact h n index buf hn

/-- An index that was inside before the content was deleted. -/
theorem write_behind_deleted_content :
    ¬ Headroomed 2 [.setContent [1, 2, 3], .deleteContent, .writeBefore 5 [9]] := by
  intro h
  have hwrite := (behaves_writeBefore_iff _ _ _).mp (h.behaves 2 (.writeBefore 5 [9]) rfl)
  exact absurd hwrite (by decide)

end Sequences

end Pgen.ContainerCalls
