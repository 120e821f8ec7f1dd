import Pgen.NetStream
import Pgen.Refinement
import Pgen.StreamScan

/-!
# Receiving from an interface

A packet socket hands over one frame for each read, cut to the buffer, and a read may fail. On such
a socket `recv` takes the next arrival that its retry does not mistake for an interruption.
-/
namespace Pgen.NetReceive
open ByteMemory NetStream Refinement StreamScan

section Model

/-- What the next read of the socket finds. -/
inductive Arrival
  | frame (bytes : Bytes)
  | failure (errno : ℕ)
  deriving DecidableEq, Repr

/-- The socket as the system that a stream reads from, `n` bytes at most in each read. -/
def packetSocket (arrivals : ℕ → Arrival) (n : ℕ) : ℕ → ReadOutcome n := fun i =>
  match arrivals i with
  | .frame bytes => .data (bytes.take n) (List.length_take_le n bytes)
  | .failure errno => .failure errno

def readFailed : Failure := .exception "pgen::net_stream::read::read: "

/-- What a call with a buffer of `n` bytes learns from an arrival, if it does not read again. -/
def hear (n : ℕ) : Arrival → Option (Report Bytes)
  | .frame bytes =>
    if (bytes.take n).length = eintr then none else some (.returned (bytes.take n))
  | .failure _ => some (.thrown readFailed)

/-- The caller finds the received bytes at the front of its buffer, or gets the exception. -/
inductive Shows (n : ℕ) : Outcome IoState ℕ → Report Bytes → Prop
  | returned {s : IoState} {received : Bytes} : received <+: s.buffer → s.buffer.length = n →
      Shows n (.ok received.length s) (.returned received)
  | thrown {s : IoState} {e : Failure} : Shows n (.error e s) (.thrown e)

/-- Calls of `recv`, each with the length of its buffer and what this held before, with exceptions
caught between them. The position counts the arrivals that were read. -/
inductive Session (arrivals : ℕ → Arrival) : ℕ → ℕ → List Bytes → List (Report Bytes) → ℕ → Prop
  | done {errno i : ℕ} : Session arrivals errno i [] [] i
  | called {errno i j : ℕ} {buf : Bytes} {bufs : List Bytes} {r : Outcome IoState ℕ}
      {report : Report Bytes} {reports : List (Report Bytes)} :
      Recv (packetSocket arrivals buf.length) ⟨buf, errno, i⟩ r → Shows buf.length r report →
      Session arrivals (finalState r).errno (finalState r).calls bufs reports j →
      Session arrivals errno i (buf :: bufs) (report :: reports) j

end Model

section Calls

variable {arrivals : ℕ → Arrival} {n i j : ℕ}

theorem Shows.unique {r : Outcome IoState ℕ} {report report' : Report Bytes} (h : Shows n r report)
    (h' : Shows n r report') : report = report' := by
  generalize hr : r = r' at h'
  cases h with
  | @returned s received hpre _ =>
    cases h' with
    | @returned s' received' hpre' _ =>
      obtain ⟨hlen, rfl⟩ : received.length = received'.length ∧ s = s' := by simpa using hr
      rw [(List.prefix_of_prefix_length_le hpre hpre' hlen.le).eq_of_length hlen]
    | thrown => cases hr
  | thrown =>
    cases h' with
    | returned => cases hr
    | thrown =>
      cases hr
      rfl

/-- Where nothing is heard, `read` is called again. -/
theorem readPass_again {s : IoState} (hbuf : s.buffer.length = n)
    (h : hear n (arrivals s.calls) = none) : ∃ s',
      (readPass (packetSocket arrivals n)).run s = .ok none s' ∧
      s'.buffer.length = n ∧ s'.calls = s.calls + 1 := by
  cases ha : arrivals s.calls with
  | frame bytes =>
    have hos : packetSocket arrivals n s.calls =
        .data (bytes.take n) (List.length_take_le n bytes) := by simp [packetSocket, ha]
    have hfour : (bytes.take n).length = eintr := by simpa [hear, ha] using h
    have hrun := readPass_data hos hbuf.ge
    rw [if_pos hfour] at hrun
    refine ⟨_, hrun, ?_, rfl⟩
    have hle := List.length_take_le n bytes
    simp only [List.length_append, List.length_drop]
    omega
  | failure errno => simp [hear, ha] at h

/-- An arrival that is heard ends the call. -/
theorem read_heard {s : IoState} {report : Report Bytes} (hbuf : s.buffer.length = n)
    (h : hear n (arrivals s.calls) = some report) : ∃ r, Shows n r report ∧
      (finalState r).calls = s.calls + 1 ∧
      ∀ k, WhileLoop.Runs (fun _ => readPass (packetSocket arrivals n)) k s r := by
  cases ha : arrivals s.calls with
  | frame bytes =>
    have hos : packetSocket arrivals n s.calls =
        .data (bytes.take n) (List.length_take_le n bytes) := by simp [packetSocket, ha]
    obtain ⟨hfour, rfl⟩ : (bytes.take n).length ≠ eintr ∧ .returned (bytes.take n) = report := by
      simpa [hear, ha] using h
    have hrun := readPass_data hos hbuf.ge
    rw [if_neg hfour] at hrun
    refine ⟨_, .returned (List.prefix_append _ _) ?_, rfl, fun k => .returns hrun⟩
    have hle := List.length_take_le n bytes
    simp only [List.length_append, List.length_drop]
    omega
  | failure errno =>
    have hos : packetSocket arrivals n s.calls = .failure errno := by simp [packetSocket, ha]
    obtain rfl : .thrown readFailed = report := by simpa [hear, ha] using h
    exact ⟨_, .thrown, rfl, fun k => .throws (readPass_failure hos)⟩

theorem read_of_heard {s : IoState} {report : Report Bytes} {r : Outcome IoState ℕ} {k : ℕ}
    (hbuf : s.buffer.length = n) (h : hear n (arrivals s.calls) = some report)
    (hruns : WhileLoop.Runs (fun _ => readPass (packetSocket arrivals n)) k s r) :
    Shows n r report ∧ Scan (hear n) arrivals s.calls report (finalState r).calls := by
  obtain ⟨r', hshows, hcalls, hr⟩ := read_heard hbuf h
  obtain rfl := (hr k).unique hruns
  exact ⟨hshows, hcalls ▸ .stops h⟩

theorem read_scans {s : IoState} {r : Outcome IoState ℕ} {k : ℕ}
    (h : WhileLoop.Runs (fun _ => readPass (packetSocket arrivals n)) k s r)
    (hbuf : s.buffer.length = n) : ∃ report, Shows n r report ∧
      Scan (hear n) arrivals s.calls report (finalState r).calls := by
  induction h with
  | @returns k s s₁ m hp =>
    cases hh : hear n (arrivals s.calls) with
    | none =>
      obtain ⟨s', hp', -⟩ := readPass_again hbuf hh
      cases hp.symm.trans hp'
    | some report => exact ⟨report, read_of_heard (k := k) hbuf hh (.returns hp)⟩
  | @throws k s s₁ e hp =>
    cases hh : hear n (arrivals s.calls) with
    | none =>
      obtain ⟨s', hp', -⟩ := readPass_again hbuf hh
      cases hp.symm.trans hp'
    | some report => exact ⟨report, read_of_heard (k := k) hbuf hh (.throws hp)⟩
  | @goesOn k s s₁ r hp hruns ih =>
    cases hh : hear n (arrivals s.calls) with
    | none =>
      obtain ⟨s', hp', hbuf', hcalls⟩ := readPass_again hbuf hh
      cases hp.symm.trans hp'
      obtain ⟨report, hshows, hscan⟩ := ih hbuf'
      exact ⟨report, hshows, .passes hh (hcalls ▸ hscan)⟩
    | some report => exact ⟨report, read_of_heard hbuf hh (.goesOn hp hruns)⟩

/-- A call of `recv` is answered by the first arrival that it hears. -/
theorem recv_scans {s : IoState} {r : Outcome IoState ℕ} (hbuf : s.buffer.length = n)
    (h : Recv (packetSocket arrivals n) s r) : ∃ report, Shows n r report ∧
      Scan (hear n) arrivals s.calls report (finalState r).calls :=
  read_scans (recv_iff_read.mp h) hbuf

/-- If an arrival is heard at some time, the call ends. -/
theorem scan_reads {report : Report Bytes} (h : Scan (hear n) arrivals i report j) {s : IoState}
    (hi : s.calls = i) (hbuf : s.buffer.length = n) : ∃ r, Shows n r report ∧
      (finalState r).calls = j ∧
      ∀ k, WhileLoop.Runs (fun _ => readPass (packetSocket arrivals n)) k s r := by
  induction h generalizing s with
  | stops h =>
    obtain ⟨r, hshows, hcalls, hr⟩ := read_heard hbuf (hi ▸ h)
    exact ⟨r, hshows, hi ▸ hcalls, hr⟩
  | passes h _ ih =>
    obtain ⟨s', hp, hbuf', hcalls⟩ := readPass_again hbuf (hi ▸ h)
    obtain ⟨r, hshows, hcalls', hr⟩ := ih (hi ▸ hcalls) hbuf'
    exact ⟨r, hshows, hcalls', fun k => .goesOn hp (hr (k + 1))⟩

theorem scan_recvs {s : IoState} {report : Report Bytes} (hbuf : s.buffer.length = n)
    (h : Scan (hear n) arrivals s.calls report j) : ∃ r, Shows n r report ∧
      (finalState r).calls = j ∧ Recv (packetSocket arrivals n) s r := by
  obtain ⟨r, hshows, hcalls, hr⟩ := scan_reads h rfl hbuf
  exact ⟨r, hshows, hcalls, recv_iff_read.mpr (hr 0)⟩

end Calls

section Sessions

variable {arrivals : ℕ → Arrival} {errno i j : ℕ} {bufs : List Bytes}
  {reports : List (Report Bytes)}

theorem session_iff_scans : Session arrivals errno i bufs reports j ↔
    Scans (fun buf => hear buf.length) arrivals i bufs reports j := by
  constructor
  · intro h
    induction h with
    | done => exact .done
    | @called errno i j buf bufs r report reports hr hshows _ ih =>
      obtain ⟨report', hshows', hscan⟩ := recv_scans (s := ⟨buf, errno, i⟩) rfl hr
      obtain rfl := hshows.unique hshows'
      exact .next hscan ih
  · intro h
    induction h generalizing errno with
    | done => exact .done
    | next hscan _ ih =>
      obtain ⟨r, hshows, rfl, hr⟩ := scan_recvs (s := ⟨_, errno, _⟩) rfl hscan
      exact .called hr hshows ih

/-- An arrival that a call with more than four bytes of room is answered by. -/
def heard : Arrival → Bool
  | .frame bytes => bytes.length ≠ eintr
  | .failure _ => true

/-- What it is answered with. -/
def answer (buf : Bytes) : Arrival → Report Bytes
  | .frame bytes => .returned (bytes.take buf.length)
  | .failure _ => .thrown readFailed

theorem hear_of_heard {buf : Bytes} (hbuf : eintr < buf.length) {a : Arrival}
    (h : heard a = true) : hear buf.length a = some (answer buf a) := by
  cases a with
  | frame bytes =>
    have hne : bytes.length ≠ eintr := by simpa [heard] using h
    have hcut : (bytes.take buf.length).length ≠ eintr := by
      rw [List.length_take]
      omega
    exact if_neg hcut
  | failure errno => rfl

theorem hear_of_not_heard {buf : Bytes} (hbuf : eintr < buf.length) {a : Arrival}
    (h : heard a = false) : hear buf.length a = none := by
  cases a with
  | frame bytes =>
    have heq : bytes.length = eintr := by simpa [heard] using h
    have hcut : (bytes.take buf.length).length = eintr := by
      rw [List.length_take]
      omega
    exact if_pos hcut
  | failure errno => simp [heard] at h

/-- Receive calls with more than four bytes of room each are answered by the arrivals in order, one
for each, but for frames of four bytes, which are lost: a frame is returned as far as there is room,
and a failed read, an interrupted one as well, is thrown. -/
theorem receives_in_order (arrivals : ℕ → Arrival) (errno i : ℕ) {bufs : List Bytes}
    {arrived : List Arrival} (hbufs : ∀ buf ∈ bufs, eintr < buf.length)
    (harrived : ∀ n a, arrived[n]? = some a → arrivals (i + n) = a)
    (henough : bufs.length ≤ (arrived.filter heard).length) (reports : List (Report Bytes)) :
    (∃ j, Session arrivals errno i bufs reports j) ↔
      reports = List.zipWith answer bufs (arrived.filter heard) := by
  simp only [session_iff_scans]
  exact scans_iff_zipWith (fun buf hbuf _ => hear_of_heard (hbufs buf hbuf))
    (fun buf hbuf _ => hear_of_not_heard (hbufs buf hbuf)) harrived henough

/-- A frame, an interruption, a frame of four bytes, and frames without end. -/
def someArrivals : ℕ → Arrival
  | 0 => .frame [1, 2, 3, 4, 5, 6]
  | 1 => .failure eintr
  | 2 => .frame [1, 2, 3, 4]
  | n => .frame [n.toUInt8]

theorem receives_in_order_three : ∃ j, Session someArrivals 0 0
    (List.replicate 3 [0, 0, 0, 0, 0])
    [.returned [1, 2, 3, 4, 5], .thrown readFailed, .returned [3]] j := by
  have harrived : ∀ n a, [Arrival.frame [1, 2, 3, 4, 5, 6], .failure eintr, .frame [1, 2, 3, 4],
      .frame [3]][n]? = some a → someArrivals (0 + n) = a := by
    intro n a h
    match n with
    | 0 | 1 | 2 | 3 => exact Option.some.inj h
    | n + 4 => simp at h
  exact (receives_in_order someArrivals 0 0 (by decide) harrived (by decide) _).mpr rfl

end Sessions

end Pgen.NetReceive
