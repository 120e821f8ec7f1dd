import Mathlib.Data.List.Basic

/-!
# Loops over a stream of arrivals

A call that waits takes arrivals from a stream until one of them gives it a result. It stops there,
so that what it does is a matter of the first such arrival, and a row of calls takes the
arrivals with a result in order.
-/
namespace Pgen.StreamScan

variable {α β κ : Type} {step : α → Option β} {arrivals : ℕ → α} {i j : ℕ} {b : β}

/-- A call at position `i` of the stream ends with `b` and leaves the stream at position `j`. -/
inductive Scan (step : α → Option β) (arrivals : ℕ → α) : ℕ → β → ℕ → Prop
  | stops {i : ℕ} {b : β} : step (arrivals i) = some b → Scan step arrivals i b (i + 1)
  | passes {i j : ℕ} {b : β} : step (arrivals i) = none → Scan step arrivals (i + 1) b j →
      Scan step arrivals i b j

theorem scan_passes (h : step (arrivals i) = none) :
    Scan step arrivals i b j ↔ Scan step arrivals (i + 1) b j := by
  constructor
  · intro hs
    cases hs with
    | stops h' => simp [h] at h'
    | passes _ hs => exact hs
  · exact .passes h

theorem scan_stops {b' : β} (h : step (arrivals i) = some b') :
    Scan step arrivals i b j ↔ b = b' ∧ j = i + 1 := by
  constructor
  · intro hs
    cases hs with
    | stops h' => simpa [h, eq_comm] using h'
    | passes h' => simp [h] at h'
  · rintro ⟨rfl, rfl⟩
    exact .stops h

/-- The first arrival with a result decides. -/
theorem scan_iff : Scan step arrivals i b j ↔ ∃ k, j = i + k + 1 ∧
    (∀ n < k, step (arrivals (i + n)) = none) ∧ step (arrivals (i + k)) = some b := by
  constructor
  · intro h
    induction h with
    | stops h => exact ⟨0, rfl, by simp, h⟩
    | @passes i j b h _ ih =>
      obtain ⟨k, rfl, hpass, hstop⟩ := ih
      refine ⟨k + 1, by omega, fun n hn => ?_, by rwa [← Nat.add_assoc, Nat.add_right_comm]⟩
      cases n with
      | zero => exact h
      | succ n =>
        rw [← Nat.add_assoc, Nat.add_right_comm]
        exact hpass n (by omega)
  · intro ⟨k, hj, hpass, hstop⟩
    induction k generalizing i with
    | zero =>
      subst hj
      exact .stops hstop
    | succ k ih =>
      refine .passes (hpass 0 (Nat.succ_pos k)) (ih (by omega) (fun n hn => ?_) ?_)
      · have h := hpass (n + 1) (by omega)
        rwa [← Nat.add_assoc, Nat.add_right_comm] at h
      · rwa [← Nat.add_assoc, Nat.add_right_comm] at hstop

theorem Scan.lt (h : Scan step arrivals i b j) : i < j := by
  induction h with
  | stops => exact Nat.lt_succ_self _
  | passes _ _ ih => exact Nat.lt_of_succ_lt ih

/-- A loop around a call: it looks at each result and goes on where this is of no interest. -/
theorem scan_bind_iff {γ : Type} {f : β → Option γ} {c : γ} {k : ℕ} :
    Scan (fun a => (step a).bind f) arrivals i c k ↔ ∃ b j, Scan step arrivals i b j ∧
      (f b = some c ∧ j = k ∨ f b = none ∧ Scan (fun a => (step a).bind f) arrivals j c k) := by
  constructor
  · intro h
    induction h with
    | @stops i c h =>
      obtain ⟨b, hb, hf⟩ := Option.bind_eq_some_iff.mp h
      exact ⟨b, i + 1, .stops hb, .inl ⟨hf, rfl⟩⟩
    | @passes i k c h hrest ih =>
      cases hs : step (arrivals i) with
      | none =>
        obtain ⟨b, j, hscan, hlook⟩ := ih
        exact ⟨b, j, .passes hs hscan, hlook⟩
      | some b => exact ⟨b, i + 1, .stops hs, .inr ⟨by simpa [hs] using h, hrest⟩⟩
  · rintro ⟨b, j, hscan, hlook⟩
    induction hscan with
    | stops h =>
      obtain ⟨hf, rfl⟩ | ⟨hf, hrest⟩ := hlook
      · exact .stops (by simp [h, hf])
      · exact .passes (by simp [h, hf]) hrest
    | passes h _ ih => exact .passes (by simp [h]) (ih hlook)

/-- One call after the other. -/
inductive Scans (step : κ → α → Option β) (arrivals : ℕ → α) : ℕ → List κ → List β → ℕ → Prop
  | done {i : ℕ} : Scans step arrivals i [] [] i
  | next {i j k : ℕ} {c : κ} {cs : List κ} {b : β} {bs : List β} : Scan (step c) arrivals i b j →
      Scans step arrivals j cs bs k → Scans step arrivals i (c :: cs) (b :: bs) k

/-- Calls that take an interest in the same arrivals are answered with these, in order. -/
theorem scans_iff_zipWith {step : κ → α → Option β} {heard : α → Bool} {answer : κ → α → β}
    {cs : List κ} {bs : List β} {arrived : List α}
    (hheard : ∀ c ∈ cs, ∀ a, heard a = true → step c a = some (answer c a))
    (hunheard : ∀ c ∈ cs, ∀ a, heard a = false → step c a = none)
    (harrived : ∀ n a, arrived[n]? = some a → arrivals (i + n) = a)
    (henough : cs.length ≤ (arrived.filter heard).length) :
    (∃ j, Scans step arrivals i cs bs j) ↔ bs = List.zipWith answer cs (arrived.filter heard) := by
  induction arrived generalizing i cs bs with
  | nil =>
    obtain rfl : cs = [] := by simpa using henough
    constructor
    · rintro ⟨_, h⟩
      cases h
      rfl
    · rintro rfl
      exact ⟨i, .done⟩
  | cons a arrived ih =>
    have hfirst : arrivals i = a := harrived 0 a rfl
    have hrest : ∀ n a, arrived[n]? = some a → arrivals (i + 1 + n) = a := by
      intro n a' h
      rw [Nat.add_assoc, Nat.add_comm 1 n]
      exact harrived (n + 1) a' h
    cases cs with
    | nil =>
      constructor
      · rintro ⟨_, h⟩
        cases h
        rfl
      · rintro rfl
        exact ⟨i, .done⟩
    | cons c cs =>
      have hcs : ∀ c' ∈ cs, c' ∈ c :: cs := fun c' h => by simp [h]
      cases ha : heard a with
      | true =>
        have hstep : step c (arrivals i) = some (answer c a) :=
          hfirst ▸ hheard c (by simp) a ha
        have hlen : cs.length ≤ (arrived.filter heard).length := by simpa [ha] using henough
        rw [List.filter_cons_of_pos ha, List.zipWith_cons_cons]
        constructor
        · rintro ⟨j, h⟩
          cases h with
          | next hscan hscans =>
            obtain ⟨rfl, rfl⟩ := (scan_stops hstep).mp hscan
            rw [(ih (fun c' h => hheard c' (hcs c' h)) (fun c' h => hunheard c' (hcs c' h)) hrest
              hlen).mp ⟨j, hscans⟩]
        · rintro rfl
          obtain ⟨j, hscans⟩ := (ih (fun c' h => hheard c' (hcs c' h))
            (fun c' h => hunheard c' (hcs c' h)) hrest hlen).mpr rfl
          exact ⟨j, .next (.stops hstep) hscans⟩
      | false =>
        have hstep : step c (arrivals i) = none := hfirst ▸ hunheard c (by simp) a ha
        have hmore : (∃ j, Scans step arrivals i (c :: cs) bs j) ↔
            ∃ j, Scans step arrivals (i + 1) (c :: cs) bs j := by
          constructor
          · rintro ⟨j, h⟩
            cases h with
            | next hscan hscans => exact ⟨j, .next ((scan_passes hstep).mp hscan) hscans⟩
          · rintro ⟨j, h⟩
            cases h with
            | next hscan hscans => exact ⟨j, .next (.passes hstep hscan) hscans⟩
        have hfilter : (a :: arrived).filter heard = arrived.filter heard :=
          List.filter_cons_of_neg (by simp [ha])
        rw [hfilter] at henough ⊢
        rw [hmore]
        exact ih hheard hunheard hrest henough

end Pgen.StreamScan
