import Pgen.ByteMemory

/-!
# Streams that hold a queue of frames

A reader of a framed file is specified by a queue: each frame carries a payload or none, a receive
call takes the first payload and the frames before it, and the end is reported when no frame is
left. A stream state that simulates the queue answers every schedule of calls as the queue does.
-/
namespace Pgen.FrameQueue
open ByteMemory

section Queue

variable {α : Type}

/-- The first payload of a queue and the frames behind it. -/
def nextPayload : List (Option α) → Option (α × List (Option α))
  | [] => none
  | none :: q => nextPayload q
  | some a :: q => some (a, q)

theorem nextPayload_skip {skips : List (Option α)} (h : ∀ o ∈ skips, o = none)
    (q : List (Option α)) : nextPayload (skips ++ q) = nextPayload q := by
  induction skips with
  | nil => rfl
  | cons o skips ih =>
    have ho : o = none := h o (by simp)
    subst ho
    simpa [nextPayload] using ih fun p hp => h p (by simp [hp])

end Queue

variable {σ α κ β : Type}

section Schedules

/-- `n` end-of-file probes in a row. -/
def probes (eof : Exec σ Bool) : ℕ → Exec σ (List Bool)
  | 0 => pure []
  | n + 1 => do
    let b ← eof
    let bs ← probes eof n
    pure (b :: bs)

/-- Receive calls, each after a number of end-of-file probes, with everything they answer. -/
def session (eof : Exec σ Bool) (recv : κ → Exec σ β) :
    List (ℕ × κ) → Exec σ (List (List Bool × β))
  | [] => pure []
  | (n, call) :: rest => do
    let bs ← probes eof n
    let r ← recv call
    let rs ← session eof recv rest
    pure ((bs, r) :: rs)

end Schedules

/-- The operations of a stream simulate those of the queue it holds. A call may ask for
something of the payload it takes, such as a buffer that is large enough for it. -/
structure Simulates (eof : Exec σ Bool) (recv : κ → Exec σ β) (Accepts : κ → α → Prop)
    (answer : κ → α → β) (Holds : σ → List (Option α) → Prop) : Prop where
  eof_run : ∀ {s q}, Holds s q → ∃ s', eof.run s = .ok q.isEmpty s' ∧ Holds s' q
  recv_run : ∀ {s q a q' call}, Holds s q → nextPayload q = some (a, q') → Accepts call a →
    ∃ s', (recv call).run s = .ok (answer call a) s' ∧ Holds s' q'
  recv_end : ∀ {s q call}, Holds s q → nextPayload q = none →
    ∃ what s', (recv call).run s = .error (.exception what) s'

section Runs

variable {eof : Exec σ Bool} {recv : κ → Exec σ β} {Accepts : κ → α → Prop}
  {answer : κ → α → β} {Holds : σ → List (Option α) → Prop}

/-- Probes that leave an invariant alone all answer what it answers. -/
theorem probes_run (Inv : σ → Prop) {b : Bool}
    (h : ∀ {s}, Inv s → ∃ s', eof.run s = .ok b s' ∧ Inv s') (n : ℕ) {s : σ} (hs : Inv s) :
    ∃ s', (probes eof n).run s = .ok (List.replicate n b) s' ∧ Inv s' := by
  induction n generalizing s with
  | zero => exact ⟨s, rfl, hs⟩
  | succ n ih =>
    obtain ⟨s₁, h₁, hs₁⟩ := h hs
    obtain ⟨s₂, h₂, hs₂⟩ := ih hs₁
    refine ⟨s₂, ?_, hs₂⟩
    rw [probes, run_bind_ok h₁, run_bind_ok h₂]
    rfl

/-- The answers of a whole session: no probe sees the end, and each call takes its payload. -/
theorem session_run (sim : Simulates eof recv Accepts answer Holds)
    {calls : List (ℕ × κ)} {as : List α} (hacc : List.Forall₂ (fun c a => Accepts c.2 a) calls as)
    (skips : List (Option α)) (hskips : ∀ o ∈ skips, o = none) {s : σ}
    (hs : Holds s (skips ++ as.map some)) :
    ∃ s', (session eof recv calls).run s =
        .ok (List.zipWith (fun c a => (List.replicate c.1 false, answer c.2 a)) calls as) s' ∧
      Holds s' (if as = [] then skips else []) := by
  induction hacc generalizing s skips with
  | nil => exact ⟨s, rfl, by simpa using hs⟩
  | @cons c a calls as hca _ ih =>
    obtain ⟨n, call⟩ := c
    obtain ⟨s₁, h₁, hs₁⟩ := probes_run (fun s => Holds s _) sim.eof_run n hs
    have hempty : (skips ++ (a :: as).map some).isEmpty = false := by
      cases skips <;> rfl
    rw [hempty] at h₁
    have hnext : nextPayload (skips ++ (a :: as).map some) = some (a, as.map some) :=
      nextPayload_skip hskips _
    obtain ⟨s₂, h₂, hs₂⟩ := sim.recv_run hs₁ hnext hca
    obtain ⟨s₃, h₃, hs₃⟩ := ih [] (by simp) hs₂
    refine ⟨s₃, ?_, by simpa using hs₃⟩
    rw [session, run_bind_ok h₁, run_bind_ok h₂, run_bind_ok h₃]
    rfl

end Runs

section Fronts

/-- The operations of a stream as long as frames are left; what may lie behind the last of them is
another matter. -/
structure SimulatesFront (eof : Exec σ Bool) (recv : κ → Exec σ β) (Accepts : κ → α → Prop)
    (answer : κ → α → β) (Holds : σ → List (Option α) → Prop) : Prop where
  eof_run : ∀ {s o q}, Holds s (o :: q) → ∃ s', eof.run s = .ok false s' ∧ Holds s' (o :: q)
  recv_run : ∀ {s q a q' call}, Holds s q → nextPayload q = some (a, q') → Accepts call a →
    ∃ s', (recv call).run s = .ok (answer call a) s' ∧ Holds s' q'

variable {eof : Exec σ Bool} {recv : κ → Exec σ β} {Accepts : κ → α → Prop}
  {answer : κ → α → β} {Holds : σ → List (Option α) → Prop}

theorem session_front (sim : SimulatesFront eof recv Accepts answer Holds)
    {calls : List (ℕ × κ)} {as : List α} (hacc : List.Forall₂ (fun c a => Accepts c.2 a) calls as)
    (skips : List (Option α)) (hskips : ∀ o ∈ skips, o = none) {s : σ}
    (hs : Holds s (skips ++ as.map some)) :
    ∃ s', (session eof recv calls).run s =
        .ok (List.zipWith (fun c a => (List.replicate c.1 false, answer c.2 a)) calls as) s' ∧
      ∃ skips', (∀ o ∈ skips', o = none) ∧ Holds s' skips' := by
  induction hacc generalizing s skips with
  | nil => exact ⟨s, rfl, skips, hskips, by simpa using hs⟩
  | @cons c a calls as hca _ ih =>
    obtain ⟨n, call⟩ := c
    obtain ⟨o, q, hq⟩ : ∃ o q, skips ++ (a :: as).map some = o :: q :=
      List.exists_cons_of_ne_nil (List.append_ne_nil_of_right_ne_nil _ (List.cons_ne_nil _ _))
    have hnext : nextPayload (o :: q) = some (a, as.map some) := hq ▸ nextPayload_skip hskips _
    rw [hq] at hs
    obtain ⟨s₁, h₁, hs₁⟩ := probes_run (fun s => Holds s (o :: q)) sim.eof_run n hs
    obtain ⟨s₂, h₂, hs₂⟩ := sim.recv_run hs₁ hnext hca
    obtain ⟨s₃, h₃, hs₃⟩ := ih [] (by simp) hs₂
    refine ⟨s₃, ?_, hs₃⟩
    rw [session, run_bind_ok h₁, run_bind_ok h₂, run_bind_ok h₃]
    rfl

end Fronts

section FramedBytes

/-- What is left to read is the frames of the queue one after the other. -/
def HoldsFrames (rest : σ → Bytes) (IsFrame : Bytes → Option α → Prop) (s : σ)
    (q : List (Option α)) : Prop :=
  ∃ bs, List.Forall₂ IsFrame bs q ∧ rest s = bs.flatten

variable {rest : σ → Bytes} {IsFrame : Bytes → Option α → Prop}

theorem holdsFrames_of_rest_eq {s s' : σ} {q : List (Option α)}
    (h : HoldsFrames rest IsFrame s q) (he : rest s' = rest s) : HoldsFrames rest IsFrame s' q := by
  obtain ⟨bs, hbs, hrest⟩ := h
  exact ⟨bs, hbs, he.trans hrest⟩

theorem holdsFrames_cons {s : σ} {o : Option α} {q : List (Option α)}
    (h : HoldsFrames rest IsFrame s (o :: q)) :
    ∃ b tail, IsFrame b o ∧ rest s = b ++ tail ∧
      ∀ s', rest s' = tail → HoldsFrames rest IsFrame s' q := by
  obtain ⟨bs, hbs, hrest⟩ := h
  cases hbs with
  | @cons b _ bs _ hb hbs =>
    exact ⟨b, bs.flatten, hb, by simpa using hrest, fun s' hs' => ⟨bs, hbs, hs'⟩⟩

/-- The end shows in the bytes exactly when it shows in the queue: no frame is empty. -/
theorem isEmpty_of_holdsFrames (hpos : ∀ b o, IsFrame b o → b ≠ []) {s : σ}
    {q : List (Option α)} (h : HoldsFrames rest IsFrame s q) : (rest s).isEmpty = q.isEmpty := by
  cases q with
  | nil =>
    obtain ⟨bs, hbs, hrest⟩ := h
    cases hbs
    simp [hrest]
  | cons o q =>
    obtain ⟨b, tail, hb, hrest, -⟩ := holdsFrames_cons h
    cases hd : b with
    | nil => exact absurd hd (hpos b o hb)
    | cons c cs => simp [hrest, hd]

end FramedBytes

end Pgen.FrameQueue
