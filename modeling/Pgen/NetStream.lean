import Pgen.WhileLoop

/-!
# `net_stream`: reading from a descriptor

The operating system is a parameter: the outcome of every call of its `read`, each either at most
as many bytes as were asked for or a failure with some `errno`. `net_stream::read` means to repeat
an interrupted call, but compares the byte count with `EINTR` instead of `errno`.
-/
namespace Pgen.NetStream
open ByteMemory WhileLoop

section Model

/-- What a call of the operating system's `read` for `bufferlen` bytes ends with. -/
inductive ReadOutcome (bufferlen : ℕ)
  | data (bytes : Bytes) (fits : bytes.length ≤ bufferlen)
  | failure (errno : ℕ)

/-- The memory from `buffer` on, `errno`, and how many calls of the system's `read` were made. -/
structure IoState where
  buffer : Bytes
  errno : ℕ
  calls : ℕ

def eintr : ℕ := 4

variable {bufferlen : ℕ}

/-- `::read`: a failure is the result -1 and leaves its cause in `errno`. -/
def osRead (os : ℕ → ReadOutcome bufferlen) : Exec IoState ℤ := do
  let s ← get
  modify fun s => { s with calls := s.calls + 1 }
  match os s.calls with
  | .data bytes _ =>
    onMember IoState.buffer (fun buffer s => { s with buffer := buffer }) (store 0 bytes)
    pure bytes.length
  | .failure errno =>
    modify fun s => { s with errno := errno }
    pure (-1)

/-- One activation of `read`. The call of itself is the last thing it does, with the same
arguments, and is the next pass of a loop. -/
def readPass (os : ℕ → ReadOutcome bufferlen) : Exec IoState (Option ℕ) := do
  let readLen ← osRead os
  throwIf (readLen < 0) "pgen::net_stream::read::read: "
  if readLen = eintr then
    pure none
  else
    pure (some readLen.toNat)

/-- `read` from this state ends so. -/
def Read (os : ℕ → ReadOutcome bufferlen) (s : IoState) (r : Outcome IoState ℕ) : Prop :=
  Runs (fun _ => readPass os) 0 s r

/-- `recv` on Linux, from the result of its `read` on. -/
def recvTail (recvlen : ℤ) : Exec IoState ℕ := do
  throwIf (recvlen < 0) "pgen::net_stream::recv: "
  pure recvlen.toNat

inductive Recv (os : ℕ → ReadOutcome bufferlen) : IoState → Outcome IoState ℕ → Prop
  | received {s s' : IoState} {n : ℕ} : Read os s (.ok n s') → Recv os s ((recvTail n).run s')
  | throws {s s' : IoState} {e : Failure} : Read os s (.error e s') → Recv os s (.error e s')

end Model

section Passes

variable {bufferlen : ℕ} {os : ℕ → ReadOutcome bufferlen} {s : IoState}

theorem osRead_data {bytes : Bytes} {fits : bytes.length ≤ bufferlen}
    (hos : os s.calls = .data bytes fits) (hbuf : bufferlen ≤ s.buffer.length) :
    (osRead os).run s = .ok (bytes.length : ℤ)
      { s with buffer := bytes ++ s.buffer.drop bytes.length, calls := s.calls + 1 } := by
  have hstore : (store 0 bytes).run s.buffer = .ok () (splice s.buffer 0 bytes) :=
    store_ok (by omega)
  rw [splice_zero] at hstore
  unfold osRead
  rw [run_bind_ok (run_get s), run_bind_ok (run_modify _ s)]
  simp only [hos]
  exact run_bind_ok (onMember_ok (s := { s with calls := s.calls + 1 }) hstore)

theorem osRead_failure {errno : ℕ} (hos : os s.calls = .failure errno) :
    (osRead os).run s = .ok (-1) { s with errno := errno, calls := s.calls + 1 } := by
  unfold osRead
  rw [run_bind_ok (run_get s), run_bind_ok (run_modify _ s)]
  simp only [hos]
  rfl

theorem readPass_data {bytes : Bytes} {fits : bytes.length ≤ bufferlen}
    (hos : os s.calls = .data bytes fits) (hbuf : bufferlen ≤ s.buffer.length) :
    (readPass os).run s = .ok (if bytes.length = eintr then none else some bytes.length)
      { s with buffer := bytes ++ s.buffer.drop bytes.length, calls := s.calls + 1 } := by
  unfold readPass
  rw [run_bind_ok (osRead_data hos hbuf), run_bind_ok (throwIf_pass (by omega) _)]
  by_cases h : bytes.length = eintr
  · simp [h, EStateM.run_pure]
  · simp [h, Nat.cast_inj, EStateM.run_pure]

theorem readPass_failure {errno : ℕ} (hos : os s.calls = .failure errno) :
    (readPass os).run s = .error (.exception "pgen::net_stream::read::read: ")
      { s with errno := errno, calls := s.calls + 1 } := by
  unfold readPass
  rw [run_bind_ok (osRead_failure hos), run_bind_error (throwIf_fail (by decide) _)]

/-- Every pass makes one call of the system's `read`, whatever it ends with. -/
theorem readPass_calls (os : ℕ → ReadOutcome bufferlen) (hbuf : bufferlen ≤ s.buffer.length) :
    (finalState ((readPass os).run s)).calls = s.calls + 1 ∧
      bufferlen ≤ (finalState ((readPass os).run s)).buffer.length := by
  cases hos : os s.calls with
  | data bytes fits =>
    rw [readPass_data hos hbuf]
    refine ⟨rfl, ?_⟩
    simp only [finalState, List.length_append, List.length_drop]
    omega
  | failure errno =>
    rw [readPass_failure hos]
    exact ⟨rfl, hbuf⟩

theorem read_calls_lt {i : ℕ} {r : Outcome IoState ℕ} (h : Runs (fun _ => readPass os) i s r)
    (hbuf : bufferlen ≤ s.buffer.length) : s.calls < (finalState r).calls := by
  induction h with
  | returns hp =>
    have hc := readPass_calls os hbuf
    rw [hp] at hc
    exact Nat.lt_of_succ_le hc.1.ge
  | throws hp =>
    have hc := readPass_calls os hbuf
    rw [hp] at hc
    exact Nat.lt_of_succ_le hc.1.ge
  | goesOn hp _ ih =>
    have hc := readPass_calls os hbuf
    rw [hp] at hc
    have := ih hc.2
    have hs := hc.1
    simp only [finalState] at hs this ⊢
    omega

/-- The second check of `recv` never fails, since `read` has made it before. -/
theorem recv_iff_read {r : Outcome IoState ℕ} : Recv os s r ↔ Read os s r := by
  have htail (n : ℕ) (s' : IoState) : (recvTail n).run s' = .ok n s' := by
    unfold recvTail
    rw [run_bind_ok (throwIf_pass (by omega) _)]
    rfl
  constructor
  · intro h
    cases h with
    | received h => rwa [htail]
    | throws h => exact h
  · intro h
    cases r with
    | ok n s' =>
      rw [← htail]
      exact .received h
    | error e s' => exact .throws h

end Passes

section Retrying

variable {bufferlen : ℕ}

/-- An interrupted read that is retried as it should be: the failures with `EINTR` are skipped,
and the first other outcome decides what the call does. -/
inductive Retried (os : ℕ → ReadOutcome bufferlen) : IoState → Outcome IoState ℕ → Prop
  | succeeds {s : IoState} {bytes : Bytes} {fits : bytes.length ≤ bufferlen} :
      os s.calls = .data bytes fits →
      Retried os s (.ok bytes.length
        { s with buffer := bytes ++ s.buffer.drop bytes.length, calls := s.calls + 1 })
  | fails {s : IoState} {errno : ℕ} : os s.calls = .failure errno → errno ≠ eintr →
      Retried os s (.error (.exception "pgen::net_stream::read::read: ")
        { s with errno := errno, calls := s.calls + 1 })
  | interrupted {s : IoState} {r : Outcome IoState ℕ} : os s.calls = .failure eintr →
      Retried os { s with errno := eintr, calls := s.calls + 1 } r → Retried os s r

/-- The call ends with exactly what the outcomes of the system's `read` ask for. -/
def ActsOnFirst (os : ℕ → ReadOutcome bufferlen) (s : IoState)
    (call : IoState → Outcome IoState ℕ → Prop) : Prop :=
  ∀ r, call s r ↔ Retried os s r

/-- Neither an interruption nor a read of as many bytes as the number `EINTR` is. -/
def Unmistakable : ReadOutcome bufferlen → Prop
  | .data bytes _ => bytes.length ≠ eintr
  | .failure errno => errno ≠ eintr

variable {os : ℕ → ReadOutcome bufferlen} {s : IoState}

theorem Retried.calls_lt {r : Outcome IoState ℕ} (h : Retried os s r) :
    s.calls < (finalState r).calls := by
  induction h with
  | succeeds => exact Nat.lt_succ_self _
  | fails => exact Nat.lt_succ_self _
  | interrupted _ _ ih => exact (Nat.lt_succ_self _).trans ih

theorem actsOnFirst_of_unmistakable (hbuf : bufferlen ≤ s.buffer.length)
    (h : Unmistakable (os s.calls)) : ActsOnFirst os s (Read os) := by
  intro r
  cases hos : os s.calls with
  | data bytes fits =>
    rw [hos] at h
    have hp := readPass_data hos hbuf
    rw [if_neg h] at hp
    constructor
    · intro hr
      rw [hr.unique (.returns hp)]
      exact .succeeds hos
    · intro hr
      cases hr with
      | succeeds hos' => cases hos.symm.trans hos'; exact .returns hp
      | fails hos' => cases hos.symm.trans hos'
      | interrupted hos' => cases hos.symm.trans hos'
  | failure errno =>
    rw [hos] at h
    have hp := readPass_failure hos
    constructor
    · intro hr
      rw [hr.unique (.throws hp)]
      exact .fails hos h
    · intro hr
      cases hr with
      | succeeds hos' => cases hos.symm.trans hos'
      | fails hos' => cases hos.symm.trans hos'; exact .throws hp
      | interrupted hos' => cases hos.symm.trans hos'; exact absurd rfl h

/-- A read of four bytes is thrown away: one more call of the system's `read` is made. -/
theorem not_actsOnFirst_of_length {bytes : Bytes} {fits : bytes.length ≤ bufferlen}
    (hos : os s.calls = .data bytes fits) (hlen : bytes.length = eintr)
    (hbuf : bufferlen ≤ s.buffer.length) : ¬ ActsOnFirst os s (Read os) := by
  intro h
  have hp := readPass_data hos hbuf
  rw [if_pos hlen] at hp
  cases (h _).mpr (.succeeds hos) with
  | returns hp' => cases hp.symm.trans hp'
  | goesOn hp' hr =>
    cases hp.symm.trans hp'
    have hlt := read_calls_lt hr (by
      simp only [List.length_append, List.length_drop]
      omega)
    exact absurd hlt (Nat.lt_irrefl _)

/-- An interruption is thrown to the caller, with no further call of the system's `read`. -/
theorem not_actsOnFirst_of_eintr (hos : os s.calls = .failure eintr) :
    ¬ ActsOnFirst os s (Read os) := by
  intro h
  cases (h _).mp (.throws (readPass_failure hos)) with
  | fails hos' hne =>
    cases hos.symm.trans hos'
    exact hne rfl
  | interrupted _ hr => exact absurd hr.calls_lt (Nat.lt_irrefl _)

theorem read_actsOnFirst_iff (hbuf : bufferlen ≤ s.buffer.length) :
    ActsOnFirst os s (Read os) ↔ Unmistakable (os s.calls) := by
  constructor
  · intro h
    cases hos : os s.calls with
    | data bytes fits => exact fun hlen => not_actsOnFirst_of_length hos hlen hbuf h
    | failure errno =>
      rintro rfl
      exact not_actsOnFirst_of_eintr hos h
  · exact actsOnFirst_of_unmistakable hbuf

theorem actsOnFirst_recv_iff : ActsOnFirst os s (Recv os) ↔ ActsOnFirst os s (Read os) :=
  forall_congr' fun _ => by rw [recv_iff_read]

/-- `read` and `recv` act on the first outcome that is no interruption exactly when the very first
outcome is neither an interruption nor four bytes of data. -/
theorem interruptedRead_iff (os : ℕ → ReadOutcome bufferlen) (s : IoState)
    (hbuf : bufferlen ≤ s.buffer.length) :
    (ActsOnFirst os s (Read os) ↔ Unmistakable (os s.calls)) ∧
      (ActsOnFirst os s (Recv os) ↔ Unmistakable (os s.calls)) := by
  refine ⟨read_actsOnFirst_iff hbuf, ?_⟩
  rw [actsOnFirst_recv_iff]
  exact read_actsOnFirst_iff hbuf

/-- A frame of four bytes, and then nothing but failures. -/
def fourBytes : ℕ → ReadOutcome 4
  | 0 => .data [1, 2, 3, 4] (by decide)
  | _ => .failure 5

theorem interruptedRead_fourBytes :
    (ActsOnFirst fourBytes ⟨[0, 0, 0, 0], 0, 1⟩ (Read fourBytes) ↔
        Unmistakable (fourBytes 1)) ∧
      (ActsOnFirst fourBytes ⟨[0, 0, 0, 0], 0, 1⟩ (Recv fourBytes) ↔
        Unmistakable (fourBytes 1)) :=
  interruptedRead_iff fourBytes ⟨[0, 0, 0, 0], 0, 1⟩ (by decide)

/-- The frame of four bytes is lost, and the failure behind it is what the caller sees. -/
theorem fourBytes_lost :
    Recv fourBytes ⟨[0, 0, 0, 0], 0, 0⟩
        (.error (.exception "pgen::net_stream::read::read: ") ⟨[1, 2, 3, 4], 5, 2⟩) ∧
      ¬ ActsOnFirst fourBytes ⟨[0, 0, 0, 0], 0, 0⟩ (Read fourBytes) ∧
      ¬ ActsOnFirst fourBytes ⟨[0, 0, 0, 0], 0, 0⟩ (Recv fourBytes) := by
  have hread : ¬ ActsOnFirst fourBytes ⟨[0, 0, 0, 0], 0, 0⟩ (Read fourBytes) :=
    not_actsOnFirst_of_length rfl rfl (by decide)
  refine ⟨.throws (.goesOn rfl (.throws rfl)), hread, ?_⟩
  rwa [actsOnFirst_recv_iff]

end Retrying

end Pgen.NetStream
