import Mathlib

/-!
# Byte memory with checked accesses

A C object is the list of its bytes, and a pointer into it is the suffix that starts there.
Every access is checked against the object: one that leaves it ends the call in a fault, which
stands for undefined behaviour and is told apart from an exception the program throws itself.
The state survives both, so what a failed call leaves behind can be stated.
-/
namespace Pgen.ByteMemory

abbrev Bytes := List UInt8

/-- The ways in which a call does not return. -/
inductive Failure
  | exception (what : String)
  | lengthError
  | assertFailure
  | loadFault
  | storeFault
  | outOfFuel
  deriving DecidableEq, Repr

abbrev Exec (σ α : Type) := EStateM Failure σ α

abbrev Outcome (σ α : Type) := EStateM.Result Failure σ α

/-- A failure that stands for an access outside its object. -/
def Failure.IsFault : Failure → Prop
  | .loadFault | .storeFault => True
  | _ => False

instance : DecidablePred Failure.IsFault := fun e =>
  match e with
  | .loadFault | .storeFault => .isTrue trivial
  | .exception _ | .lengthError | .assertFailure | .outOfFuel => .isFalse id

/-- The call returned or threw without an access outside its object. -/
def InBounds {σ α : Type} : Outcome σ α → Prop
  | .ok _ _ => True
  | .error e _ => ¬ e.IsFault

instance {σ α : Type} : DecidablePred (InBounds (σ := σ) (α := α)) := fun r =>
  match r with
  | .ok _ _ => .isTrue trivial
  | .error e _ => inferInstanceAs (Decidable (¬ e.IsFault))

/-- The call made no store outside an object. -/
def StoresInBounds {σ α : Type} : Outcome σ α → Prop
  | .ok _ _ => True
  | .error e _ => e ≠ .storeFault

instance {σ α : Type} : DecidablePred (StoresInBounds (σ := σ) (α := α)) := fun r =>
  match r with
  | .ok _ _ => .isTrue trivial
  | .error e _ => inferInstanceAs (Decidable (e ≠ .storeFault))

def finalState {σ α : Type} : Outcome σ α → σ
  | .ok _ s => s
  | .error _ s => s

section Sequencing

variable {σ α β : Type}

theorem run_bind_ok {x : Exec σ α} {f : α → Exec σ β} {s s' : σ} {a : α}
    (h : x.run s = .ok a s') : (x >>= f).run s = (f a).run s' := by
  rw [EStateM.run_bind, h]

theorem run_bind_error {x : Exec σ α} {f : α → Exec σ β} {s s' : σ} {e : Failure}
    (h : x.run s = .error e s') : (x >>= f).run s = .error e s' := by
  rw [EStateM.run_bind, h]

/-- A sequence returns exactly when both of its parts do. -/
theorem bind_eq_ok {x : Exec σ α} {f : α → Exec σ β} {s s'' : σ} {b : β} :
    (x >>= f).run s = .ok b s'' ↔
      ∃ a s', x.run s = .ok a s' ∧ (f a).run s' = .ok b s'' := by
  rw [EStateM.run_bind]
  cases h : x.run s with
  | ok a s' => simp
  | error e s' => simp

@[simp] theorem run_throw (e : Failure) (s : σ) :
    (throw e : Exec σ α).run s = .error e s := rfl

theorem run_get (s : σ) : (get : Exec σ σ).run s = .ok s s := rfl

theorem run_modify (f : σ → σ) (s : σ) : (modify f : Exec σ Unit).run s = .ok () (f s) := rfl

/-- The form of every check in the source: an exception when the test holds. -/
def throwIf (p : Prop) [Decidable p] (what : String) : Exec σ Unit :=
  if p then throw (.exception what) else pure ()

theorem throwIf_pass {p : Prop} [Decidable p] {what : String} (h : ¬ p) (s : σ) :
    (throwIf p what : Exec σ Unit).run s = .ok () s := by
  simp [throwIf, h, EStateM.run_pure]

theorem throwIf_fail {p : Prop} [Decidable p] {what : String} (h : p) (s : σ) :
    (throwIf p what : Exec σ Unit).run s = .error (.exception what) s := by
  simp [throwIf, h]

@[simp] theorem throwIf_eq_ok {p : Prop} [Decidable p] {what : String} {s s' : σ} {u : Unit} :
    (throwIf p what : Exec σ Unit).run s = .ok u s' ↔ ¬ p ∧ s' = s := by
  by_cases h : p
  · simp [throwIf_fail h, h]
  · simp [throwIf_pass h, h, eq_comm]

/-- What follows a check runs when the check passes. -/
theorem throwIf_bind_eq_ok {p : Prop} [Decidable p] {what : String} {f : Unit → Exec σ α}
    {s s' : σ} {a : α} :
    (throwIf p what >>= f).run s = .ok a s' ↔ ¬ p ∧ (f ()).run s = .ok a s' := by
  rw [bind_eq_ok]
  constructor
  · rintro ⟨_, _, hc, h⟩
    obtain ⟨hp, rfl⟩ := throwIf_eq_ok.mp hc
    exact ⟨hp, h⟩
  · rintro ⟨hp, h⟩
    exact ⟨(), s, throwIf_pass hp s, h⟩

/-- Run a member function of a local object with this value; the object comes back with
the result and is gone when the call does not return. -/
def onLocal {τ : Type} (object : τ) (act : Exec τ α) : Exec σ (α × τ) :=
  match act.run object with
  | .ok a object' => pure (a, object')
  | .error e _ => throw e

theorem onLocal_ok {τ : Type} {object object' : τ} {act : Exec τ α} {a : α}
    (h : act.run object = .ok a object') (s : σ) :
    (onLocal object act).run s = .ok (a, object') s := by
  simp only [onLocal, h]
  rfl

theorem onLocal_error {τ : Type} {object object' : τ} {act : Exec τ α} {e : Failure}
    (h : act.run object = .error e object') (s : σ) :
    (onLocal object act).run s = .error e s := by
  simp only [onLocal, h]
  rfl

/-- Run a member function of a member object; what it changes stays, also when it throws. -/
def onMember {τ : Type} (get : σ → τ) (put : τ → σ → σ) (act : Exec τ α) : Exec σ α := fun s =>
  match act.run (get s) with
  | .ok a t => .ok a (put t s)
  | .error e t => .error e (put t s)

theorem onMember_ok {τ : Type} {get : σ → τ} {put : τ → σ → σ} {act : Exec τ α} {s : σ} {t : τ}
    {a : α} (h : act.run (get s) = .ok a t) : (onMember get put act).run s = .ok a (put t s) := by
  change onMember get put act s = _
  simp only [onMember, h]

theorem onMember_error {τ : Type} {get : σ → τ} {put : τ → σ → σ} {act : Exec τ α} {s : σ}
    {t : τ} {e : Failure} (h : act.run (get s) = .error e t) :
    (onMember get put act).run s = .error e (put t s) := by
  change onMember get put act s = _
  simp only [onMember, h]

theorem onMember_eq_ok {τ : Type} {get : σ → τ} {put : τ → σ → σ} {act : Exec τ α} {s s' : σ}
    {a : α} (h : (onMember get put act).run s = .ok a s') :
    ∃ t, act.run (get s) = .ok a t ∧ s' = put t s := by
  cases hr : act.run (get s) with
  | ok b t =>
    cases h.symm.trans (onMember_ok hr)
    exact ⟨t, rfl, rfl⟩
  | error e t => cases h.symm.trans (onMember_error hr)

theorem onMember_eq_error {τ : Type} {get : σ → τ} {put : τ → σ → σ} {act : Exec τ α} {s s' : σ}
    {e : Failure} (h : (onMember get put act).run s = .error e s') :
    ∃ t, act.run (get s) = .error e t ∧ s' = put t s := by
  cases hr : act.run (get s) with
  | ok b t => cases h.symm.trans (onMember_ok hr)
  | error e' t =>
    cases h.symm.trans (onMember_error hr)
    exact ⟨t, rfl, rfl⟩

/-- A sequence throws in its first part or, when that returns, in its second. -/
theorem bind_eq_error {x : Exec σ α} {f : α → Exec σ β} {s s'' : σ} {e : Failure} :
    (x >>= f).run s = .error e s'' ↔
      x.run s = .error e s'' ∨ ∃ a s', x.run s = .ok a s' ∧ (f a).run s' = .error e s'' := by
  rw [EStateM.run_bind]
  cases h : x.run s with
  | ok a s' => simp
  | error e' s' => simp

end Sequencing

section Returning

variable {σ α β : Type}

/-- The action returns from every state. -/
def Returns (act : Exec σ α) : Prop := ∀ s, ∃ a s', act.run s = .ok a s'

theorem Returns.bind {x : Exec σ α} {f : α → Exec σ β} (hx : Returns x) (hf : ∀ a, Returns (f a)) :
    Returns (x >>= f) := by
  intro s
  obtain ⟨a, s', h⟩ := hx s
  rw [run_bind_ok h]
  exact hf a s'

theorem Returns.modify (f : σ → σ) : Returns (modify f : Exec σ Unit) := fun s => ⟨(), f s, rfl⟩

theorem Returns.onMember {τ : Type} {get : σ → τ} {put : τ → σ → σ} {act : Exec τ α}
    (h : Returns act) : Returns (onMember get put act) := by
  intro s
  obtain ⟨a, t, ht⟩ := h (get s)
  exact ⟨a, put t s, onMember_ok ht⟩

end Returning

section SizeArithmetic

/-- Unsigned 64-bit subtraction: below zero it wraps around. -/
def sizeSub (a b : ℕ) : ℕ := if b ≤ a then a - b else a + 2^64 - b

theorem sizeSub_of_le {a b : ℕ} (h : b ≤ a) : sizeSub a b = a - b := if_pos h

theorem sizeSub_of_lt {a b : ℕ} (h : a < b) : sizeSub a b = a + 2^64 - b :=
  if_neg (Nat.not_le.mpr h)

end SizeArithmetic

section Loads

variable {σ : Type}

/-- Read `n` bytes at `off`. -/
def load (buffer : Bytes) (off n : ℕ) : Exec σ Bytes :=
  if off + n ≤ buffer.length then pure ((buffer.drop off).take n) else throw .loadFault

theorem load_ok {buffer : Bytes} {off n : ℕ} (h : off + n ≤ buffer.length) (s : σ) :
    (load buffer off n).run s = .ok ((buffer.drop off).take n) s := by
  simp [load, h, EStateM.run_pure]

theorem load_fault {buffer : Bytes} {off n : ℕ} (h : buffer.length < off + n) (s : σ) :
    (load buffer off n).run s = .error .loadFault s := by
  simp [load, Nat.not_le.mpr h]

theorem load_eq_ok {buffer data : Bytes} {off n : ℕ} {s s' : σ} :
    (load buffer off n).run s = .ok data s' ↔
      off + n ≤ buffer.length ∧ data = (buffer.drop off).take n ∧ s' = s := by
  by_cases h : off + n ≤ buffer.length
  · simp [load_ok h, h, eq_comm]
  · simp [load_fault (Nat.not_le.mp h), h]

end Loads

section Vectors

variable {σ : Type}

/-- The largest size of a `std::vector<uint8_t>`. -/
def vectorMaxSize : ℕ := 2^63 - 1

/-- `std::vector<uint8_t>::resize`: new elements are zero. -/
def resize (vec : Bytes) (n : ℕ) : Exec σ Bytes :=
  if vectorMaxSize < n then throw .lengthError
  else pure (vec.take n ++ List.replicate (n - vec.length) 0)

theorem resize_ok (vec : Bytes) {n : ℕ} (h : n ≤ vectorMaxSize) (s : σ) :
    (resize vec n).run s = .ok (vec.take n ++ List.replicate (n - vec.length) 0) s := by
  simp [resize, Nat.not_lt.mpr h, EStateM.run_pure]

/-- A resize that returns gives a vector of the size asked for. -/
theorem resize_eq_ok {vec vec' : Bytes} {n : ℕ} {s s' : σ}
    (h : (resize vec n).run s = .ok vec' s') : vec'.length = n ∧ s' = s := by
  unfold resize at h
  split_ifs at h
  · cases h
  · cases h
    refine ⟨?_, rfl⟩
    simp only [List.length_append, List.length_take, List.length_replicate]
    omega

end Vectors

section Stores

/-- Replace the bytes from `off` on by `data`. -/
def splice (mem : Bytes) (off : ℕ) (data : Bytes) : Bytes :=
  mem.take off ++ data ++ mem.drop (off + data.length)

theorem splice_length {mem data : Bytes} {off : ℕ} (h : off + data.length ≤ mem.length) :
    (splice mem off data).length = mem.length := by
  simp only [splice, List.length_append, List.length_take, List.length_drop]
  omega

@[simp] theorem splice_zero (mem data : Bytes) :
    splice mem 0 data = data ++ mem.drop data.length := by
  simp [splice]

theorem splice_append {pre tail data : Bytes} {off : ℕ} (hoff : pre.length = off) :
    splice (pre ++ tail) off data = pre ++ (data ++ tail.drop data.length) := by
  subst hoff
  simp [splice, List.drop_append]

/-- Write `data` at `off` of the memory that is the state. -/
def store (off : ℕ) (data : Bytes) : Exec Bytes Unit := fun mem =>
  if off + data.length ≤ mem.length then .ok () (splice mem off data) else .error .storeFault mem

theorem store_ok {mem data : Bytes} {off : ℕ} (h : off + data.length ≤ mem.length) :
    (store off data).run mem = .ok () (splice mem off data) := by
  simp [store, EStateM.run, h]

theorem store_append_ok {pre tail data : Bytes} {off : ℕ} (hoff : pre.length = off)
    (h : data.length ≤ tail.length) :
    (store off data).run (pre ++ tail) = .ok () (pre ++ (data ++ tail.drop data.length)) := by
  rw [store_ok (by rw [List.length_append]; omega), splice_append hoff]

theorem store_fault {mem data : Bytes} {off : ℕ} (h : mem.length < off + data.length) :
    (store off data).run mem = .error .storeFault mem := by
  simp [store, EStateM.run, Nat.not_le.mpr h]

theorem store_eq_ok {mem mem' data : Bytes} {off : ℕ} {u : Unit} :
    (store off data).run mem = .ok u mem' ↔
      off + data.length ≤ mem.length ∧ mem' = splice mem off data := by
  by_cases h : off + data.length ≤ mem.length
  · simp [store_ok h, h, eq_comm]
  · simp [store_fault (Nat.not_le.mp h), h]

/-- Run `act` on the memory from `off` on, as the callee given the pointer `base + off` does. -/
def atOffset {α : Type} (off : ℕ) (act : Exec Bytes α) : Exec Bytes α := fun mem =>
  if off ≤ mem.length then
    match act.run (mem.drop off) with
    | .ok a tail => .ok a (mem.take off ++ tail)
    | .error e tail => .error e (mem.take off ++ tail)
  else .error .storeFault mem

theorem atOffset_ok {α : Type} {act : Exec Bytes α} {pre tail tail' : Bytes} {off : ℕ} {a : α}
    (hoff : pre.length = off) (h : act.run tail = .ok a tail') :
    (atOffset off act).run (pre ++ tail) = .ok a (pre ++ tail') := by
  subst hoff
  change atOffset pre.length act (pre ++ tail) = _
  simp [atOffset, h]

theorem atOffset_error {α : Type} {act : Exec Bytes α} {pre tail tail' : Bytes} {off : ℕ}
    {e : Failure} (hoff : pre.length = off) (h : act.run tail = .error e tail') :
    (atOffset off act).run (pre ++ tail) = .error e (pre ++ tail') := by
  subst hoff
  change atOffset pre.length act (pre ++ tail) = _
  simp [atOffset, h]

theorem atOffset_eq_ok {α : Type} {act : Exec Bytes α} {mem mem' : Bytes} {off : ℕ} {a : α}
    (h : (atOffset off act).run mem = .ok a mem') :
    off ≤ mem.length ∧
      ∃ tail, act.run (mem.drop off) = .ok a tail ∧ mem' = mem.take off ++ tail := by
  change atOffset off act mem = _ at h
  unfold atOffset at h
  split_ifs at h with hoff
  · cases hr : act.run (mem.drop off) with
    | ok b tail =>
      simp only [hr, EStateM.Result.ok.injEq] at h
      obtain ⟨rfl, rfl⟩ := h
      exact ⟨hoff, tail, rfl, rfl⟩
    | error e tail => simp [hr] at h

/-- A callee that returns changes nothing before its pointer. -/
theorem atOffset_append_eq_ok {α : Type} {act : Exec Bytes α} {pre tail mem' : Bytes} {off : ℕ}
    {a : α} (hoff : pre.length = off)
    (h : (atOffset off act).run (pre ++ tail) = .ok a mem') :
    ∃ tail', act.run tail = .ok a tail' ∧ mem' = pre ++ tail' := by
  obtain ⟨-, tail', hr, rfl⟩ := atOffset_eq_ok h
  rw [List.drop_left' hoff] at hr
  exact ⟨tail', hr, by rw [List.take_left' hoff]⟩

/-- A memory action that keeps the number of bytes: C objects do not change their size. -/
def KeepsLength {α : Type} (act : Exec Bytes α) : Prop :=
  ∀ mem, (finalState (act.run mem)).length = mem.length

theorem KeepsLength.pure {α : Type} (a : α) : KeepsLength (pure a : Exec Bytes α) := fun _ => rfl

theorem KeepsLength.throwIf (p : Prop) [Decidable p] (what : String) :
    KeepsLength (throwIf p what) := by
  intro mem
  by_cases h : p
  · rw [throwIf_fail h]; rfl
  · rw [throwIf_pass h]; rfl

theorem KeepsLength.bind {α β : Type} {x : Exec Bytes α} {f : α → Exec Bytes β}
    (hx : KeepsLength x) (hf : ∀ a, KeepsLength (f a)) : KeepsLength (x >>= f) := by
  intro mem
  have hmem := hx mem
  cases hr : x.run mem with
  | ok a mem' =>
    rw [hr] at hmem
    rw [run_bind_ok hr, hf a mem']
    exact hmem
  | error e mem' =>
    rw [hr] at hmem
    rw [run_bind_error hr]
    exact hmem

theorem KeepsLength.load (buffer : Bytes) (off n : ℕ) : KeepsLength (load buffer off n) := by
  intro mem
  rcases Nat.lt_or_ge buffer.length (off + n) with h | h
  · rw [load_fault h]; rfl
  · rw [load_ok h]; rfl

theorem KeepsLength.store (off : ℕ) (data : Bytes) : KeepsLength (store off data) := by
  intro mem
  by_cases h : off + data.length ≤ mem.length
  · rw [store_ok h]; exact splice_length h
  · rw [store_fault (Nat.not_le.mp h)]; rfl

theorem KeepsLength.atOffset {α : Type} {act : Exec Bytes α} (h : KeepsLength act) (off : ℕ) :
    KeepsLength (atOffset off act) := by
  intro mem
  change (finalState (ByteMemory.atOffset off act mem)).length = _
  unfold ByteMemory.atOffset
  split_ifs with hoff
  · have htail := h (mem.drop off)
    cases hr : act.run (mem.drop off) <;>
      simp only [hr, finalState, List.length_append, List.length_take] at htail ⊢ <;>
      simp only [List.length_drop] at htail <;> omega
  · rfl

end Stores

section Bounds

variable {σ α β : Type}

/-- A sequence stays in bounds exactly when its first part does and, if that returns, the second. -/
theorem inBounds_bind {x : Exec σ α} {f : α → Exec σ β} {s : σ} :
    InBounds ((x >>= f).run s) ↔
      InBounds (x.run s) ∧ ∀ a s', x.run s = .ok a s' → InBounds ((f a).run s') := by
  cases h : x.run s with
  | ok a s' =>
    rw [run_bind_ok h]
    simp [InBounds]
  | error e s' =>
    rw [run_bind_error h]
    simp [InBounds]

theorem inBounds_throwIf_bind {p : Prop} [Decidable p] {what : String} {f : Unit → Exec σ β}
    {s : σ} : InBounds ((throwIf p what >>= f).run s) ↔ p ∨ InBounds ((f ()).run s) := by
  by_cases h : p
  · rw [run_bind_error (throwIf_fail h s)]
    simp [InBounds, Failure.IsFault, h]
  · rw [run_bind_ok (throwIf_pass h s)]
    simp [h]

theorem inBounds_load_bind {buffer : Bytes} {off n : ℕ} {f : Bytes → Exec σ β} {s : σ} :
    InBounds ((load buffer off n >>= f).run s) ↔
      off + n ≤ buffer.length ∧ InBounds ((f ((buffer.drop off).take n)).run s) := by
  by_cases h : off + n ≤ buffer.length
  · rw [run_bind_ok (load_ok h s)]
    simp [h]
  · rw [run_bind_error (load_fault (Nat.not_le.mp h) s)]
    simp [InBounds, Failure.IsFault, h]

theorem inBounds_store {mem data : Bytes} {off : ℕ} :
    InBounds ((store off data).run mem) ↔ off + data.length ≤ mem.length := by
  by_cases h : off + data.length ≤ mem.length
  · rw [store_ok h]
    simp [InBounds, h]
  · rw [store_fault (Nat.not_le.mp h)]
    simp [InBounds, Failure.IsFault, h]

theorem inBounds_onMember {τ : Type} {get : σ → τ} {put : τ → σ → σ} {act : Exec τ α} {s : σ} :
    InBounds ((onMember get put act).run s) ↔ InBounds (act.run (get s)) := by
  cases h : act.run (get s) with
  | ok a t => rw [onMember_ok h]; rfl
  | error e t => rw [onMember_error h]; rfl

end Bounds

section NoStores

variable {σ α β : Type}

/-- An action that never stores outside an object, whatever state it starts from. -/
def StoreSafe (act : Exec σ α) : Prop := ∀ s, StoresInBounds (act.run s)

theorem storesInBounds_bind {x : Exec σ α} {f : α → Exec σ β} {s : σ}
    (hx : StoresInBounds (x.run s))
    (hf : ∀ a s', x.run s = .ok a s' → StoresInBounds ((f a).run s')) :
    StoresInBounds ((x >>= f).run s) := by
  cases h : x.run s with
  | ok a s' =>
    rw [run_bind_ok h]
    exact hf a s' h
  | error e s' =>
    rw [h] at hx
    rw [run_bind_error h]
    exact hx

theorem StoreSafe.bind {x : Exec σ α} {f : α → Exec σ β} (hx : StoreSafe x)
    (hf : ∀ a, StoreSafe (f a)) : StoreSafe (x >>= f) :=
  fun s => storesInBounds_bind (hx s) fun a s' _ => hf a s'

theorem StoreSafe.pure (a : α) : StoreSafe (pure a : Exec σ α) := fun _ => trivial

theorem StoreSafe.get : StoreSafe (get : Exec σ σ) := fun _ => trivial

theorem StoreSafe.modify (f : σ → σ) : StoreSafe (modify f : Exec σ Unit) := fun _ => trivial

theorem StoreSafe.throwIf (p : Prop) [Decidable p] (what : String) :
    StoreSafe (throwIf p what : Exec σ Unit) := by
  intro s
  by_cases h : p
  · rw [throwIf_fail h]
    exact fun he => Failure.noConfusion he
  · rw [throwIf_pass h]
    trivial

theorem StoreSafe.load (buffer : Bytes) (off n : ℕ) :
    StoreSafe (load buffer off n : Exec σ Bytes) := by
  intro s
  rcases Nat.lt_or_ge buffer.length (off + n) with h | h
  · rw [load_fault h]
    exact fun he => Failure.noConfusion he
  · rw [load_ok h]
    trivial

theorem StoreSafe.resize (vec : Bytes) (n : ℕ) :
    StoreSafe (resize vec n : Exec σ Bytes) := by
  intro s
  unfold ByteMemory.resize
  split_ifs
  · exact fun he => Failure.noConfusion he
  · trivial

theorem storesInBounds_onLocal {τ : Type} {object : τ} {act : Exec τ α} {s : σ}
    (h : StoresInBounds (act.run object)) : StoresInBounds ((onLocal object act).run s) := by
  cases hr : act.run object with
  | ok a object' =>
    rw [onLocal_ok hr]
    trivial
  | error e object' =>
    rw [hr] at h
    rw [onLocal_error hr]
    exact h

end NoStores

end Pgen.ByteMemory
