import Pgen.ByteMemory

/-!
# Runs of an endless loop

`while (1)` around a pass that returns, throws or goes on. The runs are a relation without any
bound on the number of passes, so that a run exists exactly when the loop ends; `i` is the number
of the pass, since what is indeterminate may differ from one pass to the next.
-/
namespace Pgen.WhileLoop
open ByteMemory

variable {σ α β : Type}

inductive Runs (pass : ℕ → Exec σ (Option α)) : ℕ → σ → Outcome σ α → Prop
  | returns {i : ℕ} {s s' : σ} {a : α} : (pass i).run s = .ok (some a) s' →
      Runs pass i s (.ok a s')
  | throws {i : ℕ} {s s' : σ} {e : Failure} : (pass i).run s = .error e s' →
      Runs pass i s (.error e s')
  | goesOn {i : ℕ} {s s' : σ} {r : Outcome σ α} : (pass i).run s = .ok none s' →
      Runs pass (i + 1) s' r → Runs pass i s r

/-- A loop has one run at most from each state. -/
theorem Runs.unique {pass : ℕ → Exec σ (Option α)} {i : ℕ} {s : σ} {r r' : Outcome σ α}
    (h : Runs pass i s r) (h' : Runs pass i s r') : r = r' := by
  induction h with
  | returns hp =>
    cases h' with
    | returns hp' => cases hp.symm.trans hp'; rfl
    | throws hp' => cases hp.symm.trans hp'
    | goesOn hp' => cases hp.symm.trans hp'
  | throws hp =>
    cases h' with
    | returns hp' => cases hp.symm.trans hp'
    | throws hp' => cases hp.symm.trans hp'; rfl
    | goesOn hp' => cases hp.symm.trans hp'
  | goesOn hp _ ih =>
    cases h' with
    | returns hp' => cases hp.symm.trans hp'
    | throws hp' => cases hp.symm.trans hp'
    | goesOn hp' hr =>
      cases hp.symm.trans hp'
      exact ih hr

section Totality

variable {pass : ℕ → Exec σ (Option α)}

/-- A loop ends when every pass that goes on leaves less than there was. -/
theorem runs_total (left : σ → ℕ)
    (h : ∀ i s s', (pass i).run s = .ok none s' → left s' < left s) (i : ℕ) (s : σ) :
    ∃ r, Runs pass i s r := by
  induction hn : left s using Nat.strong_induction_on generalizing i s with
  | _ n ih =>
    cases hp : (pass i).run s with
    | error e s' => exact ⟨_, .throws hp⟩
    | ok a s' =>
      cases a with
      | some a => exact ⟨_, .returns hp⟩
      | none =>
        obtain ⟨r, hr⟩ := ih (left s') (hn ▸ h i s s' hp) (i + 1) s' rfl
        exact ⟨r, .goesOn hp hr⟩

end Totality

section Avoiding

/-- The action never ends in this failure, whatever state it starts from. -/
def Avoids (bad : Failure) (act : Exec σ α) : Prop := ∀ s s', act.run s ≠ .error bad s'

variable {bad : Failure}

theorem Avoids.bind {x : Exec σ α} {f : α → Exec σ β} (hx : Avoids bad x)
    (hf : ∀ a, Avoids bad (f a)) : Avoids bad (x >>= f) := by
  intro s s' h
  cases hr : x.run s with
  | ok a t =>
    rw [run_bind_ok hr] at h
    exact hf a t s' h
  | error e t =>
    rw [run_bind_error hr] at h
    exact hx s t (hr.trans (by cases h; rfl))

theorem Avoids.pure (a : α) : Avoids bad (pure a : Exec σ α) := fun _ _ h => by cases h

theorem Avoids.get : Avoids bad (get : Exec σ σ) := fun _ _ h => by cases h

theorem Avoids.modify (f : σ → σ) : Avoids bad (modify f : Exec σ Unit) := fun _ _ h => by cases h

theorem Avoids.throw {e : Failure} (he : e ≠ bad) : Avoids bad (throw e : Exec σ α) := by
  intro s s' h
  cases h
  exact he rfl

theorem Avoids.onLocal {τ : Type} {object : τ} {act : Exec τ α} (h : Avoids bad act) :
    Avoids bad (onLocal object act : Exec σ (α × τ)) := by
  intro s s' hr
  cases ha : act.run object with
  | ok a t =>
    rw [onLocal_ok ha] at hr
    cases hr
  | error e t =>
    rw [onLocal_error ha] at hr
    cases hr
    exact h object t ha

/-- A loop ends in no failure that its passes avoid. -/
theorem Runs.avoids {pass : ℕ → Exec σ (Option α)} (h : ∀ i, Avoids bad (pass i)) {i : ℕ} {s : σ}
    {r : Outcome σ α} (hr : Runs pass i s r) (s' : σ) : r ≠ .error bad s' := by
  induction hr with
  | returns hp => exact fun he => by cases he
  | throws hp =>
    intro he
    cases he
    exact h _ _ _ hp
  | goesOn hp _ ih => exact ih

end Avoiding

end Pgen.WhileLoop
