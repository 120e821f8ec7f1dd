import Pgen.WhileLoop

/-!
# Refinement of one stateful program by another

A specification is a program, too, on a state of its own. What it leaves undefined it says by an
access outside an object; there the implementation may do anything. Everywhere else both return the
same value or throw the same exception, and their states stay related. The rules follow the
constructs that programs are made of, up to traces of calls and endless loops.
-/
namespace Pgen.Refinement
open ByteMemory WhileLoop

variable {σ τ α β κ : Type} {R : σ → τ → Prop}

/-- How a call of the implementation may end when the one of the specification ends so. -/
inductive Matches (R : σ → τ → Prop) : Outcome σ α → Outcome τ α → Prop
  | returned {a : α} {s : σ} {t : τ} : R s t → Matches R (.ok a s) (.ok a t)
  | thrown {e : Failure} {s : σ} {t : τ} : ¬ e.IsFault → R s t →
      Matches R (.error e s) (.error e t)
  | undefined {r : Outcome σ α} {e : Failure} {t : τ} : e.IsFault → Matches R r (.error e t)

/-- From related states the implementation ends as the specification does. -/
def Refines (R : σ → τ → Prop) (x : Exec σ α) (y : Exec τ α) : Prop :=
  ∀ {s t}, R s t → Matches R (x.run s) (y.run t)

section Rules

theorem refines_pure (a : α) : Refines R (pure a : Exec σ α) (pure a : Exec τ α) :=
  fun h => .returned h

theorem refines_modify {f : σ → σ} {g : τ → τ} (h : ∀ {s t}, R s t → R (f s) (g t)) :
    Refines R (modify f : Exec σ Unit) (modify g : Exec τ Unit) := fun hst => .returned (h hst)

theorem refines_bind {x : Exec σ α} {y : Exec τ α} {f : α → Exec σ β} {g : α → Exec τ β}
    (h : Refines R x y) (hf : ∀ a, Refines R (f a) (g a)) : Refines R (x >>= f) (y >>= g) := by
  intro s t hst
  have hxy := h hst
  generalize hx : x.run s = r at hxy
  generalize hy : y.run t = r' at hxy
  cases hxy with
  | returned ht =>
    rw [run_bind_ok hx, run_bind_ok hy]
    exact hf _ ht
  | thrown he ht =>
    rw [run_bind_error hx, run_bind_error hy]
    exact .thrown he ht
  | undefined he =>
    rw [run_bind_error hy]
    exact .undefined he

/-- The same action on a part that both states have. -/
theorem refines_onMember {υ : Type} {get : σ → υ} {put : υ → σ → σ} {get' : τ → υ}
    {put' : υ → τ → τ} (act : Exec υ α) (hget : ∀ {s t}, R s t → get s = get' t)
    (hput : ∀ {s t}, R s t → ∀ u, R (put u s) (put' u t)) :
    Refines R (onMember get put act) (onMember get' put' act) := by
  intro s t hst
  have hsame := hget hst
  cases hr : act.run (get' t) with
  | ok a u =>
    rw [onMember_ok (hsame ▸ hr), onMember_ok hr]
    exact .returned (hput hst u)
  | error e u =>
    rw [onMember_error (hsame ▸ hr), onMember_error hr]
    by_cases he : e.IsFault
    · exact .undefined he
    · exact .thrown he (hput hst u)

end Rules

section Frames

variable {υ : Type} {view : σ → υ}

/-- The call leaves this of the state as it was, also when it throws. -/
def Leaves (view : σ → υ) (x : Exec σ α) : Prop := ∀ s, view (finalState (x.run s)) = view s

theorem leaves_pure (a : α) : Leaves view (pure a : Exec σ α) := fun _ => rfl

theorem leaves_throw (e : Failure) : Leaves view (throw e : Exec σ α) := fun _ => rfl

theorem leaves_modify {f : σ → σ} (h : ∀ s, view (f s) = view s) :
    Leaves view (modify f : Exec σ Unit) := h

theorem leaves_load (buffer : Bytes) (off n : ℕ) :
    Leaves view (load buffer off n : Exec σ Bytes) := by
  intro s
  rcases Nat.lt_or_ge buffer.length (off + n) with hlt | hle
  · rw [load_fault hlt]
    rfl
  · rw [load_ok hle]
    rfl

theorem leaves_bind {x : Exec σ α} {f : α → Exec σ β} (hx : Leaves view x)
    (hf : ∀ a, Leaves view (f a)) : Leaves view (x >>= f) := by
  intro s
  have hfirst := hx s
  cases hr : x.run s with
  | ok a s' =>
    rw [hr] at hfirst
    rw [run_bind_ok hr, hf a s']
    exact hfirst
  | error e s' =>
    rw [hr] at hfirst
    rw [run_bind_error hr]
    exact hfirst

theorem leaves_onMember {ρ : Type} {get : σ → ρ} {put : ρ → σ → σ} (act : Exec ρ α)
    (h : ∀ t s, view (put t s) = view s) : Leaves view (onMember get put act) := by
  intro s
  cases hr : act.run (get s) with
  | ok a t =>
    rw [onMember_ok hr]
    exact h t s
  | error e t =>
    rw [onMember_error hr]
    exact h t s

end Frames

section Traces

/-- What a caller learns of a call. -/
inductive Report (α : Type)
  | returned (a : α)
  | thrown (e : Failure)
  | undefined
  deriving DecidableEq, Repr

/-- Calls on an object, each in the state that the one before it left, also when that one threw.
An access outside an object ends the trace without a state. -/
def trace (act : κ → Exec σ α) : List κ → σ → List (Report α) × Option σ
  | [], s => ([], some s)
  | c :: cs, s =>
    match (act c).run s with
    | .ok a s' => ((trace act cs s').1.cons (.returned a), (trace act cs s').2)
    | .error e s' =>
      if e.IsFault then ([.undefined], none)
      else ((trace act cs s').1.cons (.thrown e), (trace act cs s').2)

variable {act : κ → Exec σ α} {c : κ} {s s' : σ}

theorem trace_cons_ok {a : α} (h : (act c).run s = .ok a s') (cs : List κ) :
    trace act (c :: cs) s = (.returned a :: (trace act cs s').1, (trace act cs s').2) := by
  rw [trace, h]

theorem trace_cons_thrown {e : Failure} (he : ¬ e.IsFault) (h : (act c).run s = .error e s')
    (cs : List κ) :
    trace act (c :: cs) s = (.thrown e :: (trace act cs s').1, (trace act cs s').2) := by
  rw [trace, h]
  exact if_neg he

theorem trace_cons_fault {e : Failure} (he : e.IsFault) (h : (act c).run s = .error e s')
    (cs : List κ) : trace act (c :: cs) s = ([.undefined], none) := by
  rw [trace, h]
  exact if_pos he

/-- A property that every call keeps, also one that throws, holds at the end of a trace. -/
theorem trace_invariant {Inv : σ → Prop} (cs : List κ)
    (h : ∀ c ∈ cs, ∀ {s : σ}, Inv s → Inv (finalState ((act c).run s))) {s s' : σ}
    {rs : List (Report α)} (hs : Inv s) (ht : trace act cs s = (rs, some s')) : Inv s' := by
  induction cs generalizing s rs with
  | nil =>
    cases ht
    exact hs
  | cons c cs ih =>
    rw [List.forall_mem_cons] at h
    have hstep := h.1 hs
    cases hr : (act c).run s with
    | ok a s₁ =>
      rw [trace_cons_ok hr] at ht
      rw [hr] at hstep
      exact ih h.2 hstep (Prod.ext rfl (Prod.mk.inj ht).2)
    | error e s₁ =>
      by_cases he : e.IsFault
      · rw [trace_cons_fault he hr] at ht
        cases ht
      · rw [trace_cons_thrown he hr] at ht
        rw [hr] at hstep
        exact ih h.2 hstep (Prod.ext rfl (Prod.mk.inj ht).2)

theorem trace_leaves {υ : Type} {view : σ → υ} (cs : List κ) (h : ∀ c ∈ cs, Leaves view (act c))
    {s s' : σ} {rs : List (Report α)} (ht : trace act cs s = (rs, some s')) : view s' = view s :=
  trace_invariant cs
    (fun c hc {t} hv => (h c hc t).trans hv) rfl ht

/-- Calls that never leave their objects have a state at the end of every trace. -/
theorem trace_total (h : ∀ c {s s' : σ} {e : Failure}, (act c).run s = .error e s' → ¬ e.IsFault)
    (cs : List κ) (s : σ) : ∃ rs s', trace act cs s = (rs, some s') := by
  induction cs generalizing s with
  | nil => exact ⟨[], s, rfl⟩
  | cons c cs ih =>
    cases hr : (act c).run s with
    | ok a s₁ =>
      obtain ⟨rs, s', ht⟩ := ih s₁
      exact ⟨.returned a :: rs, s', by rw [trace_cons_ok hr, ht]⟩
    | error e s₁ =>
      obtain ⟨rs, s', ht⟩ := ih s₁
      exact ⟨.thrown e :: rs, s', by rw [trace_cons_thrown (h c hr) hr, ht]⟩

/-- Where the trace of the specification is defined, the implementation gives the same answers. -/
theorem trace_refines {act' : κ → Exec τ α} (h : ∀ c, Refines R (act c) (act' c)) (cs : List κ)
    {s : σ} {t t' : τ} {rs : List (Report α)} (hst : R s t) (ht : trace act' cs t = (rs, some t')) :
    ∃ s', trace act cs s = (rs, some s') ∧ R s' t' := by
  induction cs generalizing s t rs with
  | nil =>
    cases ht
    exact ⟨s, rfl, hst⟩
  | cons c cs ih =>
    have hc := h c hst
    generalize hr : (act c).run s = r at hc
    generalize hr' : (act' c).run t = r' at hc
    cases hc with
    | returned hst₁ =>
      rw [trace_cons_ok hr'] at ht
      obtain ⟨s', hs', hrel⟩ := ih hst₁ (Prod.ext rfl (Prod.mk.inj ht).2)
      rw [trace_cons_ok hr, hs']
      exact ⟨s', Prod.ext (Prod.mk.inj ht).1 rfl, hrel⟩
    | thrown he hst₁ =>
      rw [trace_cons_thrown he hr'] at ht
      obtain ⟨s', hs', hrel⟩ := ih hst₁ (Prod.ext rfl (Prod.mk.inj ht).2)
      rw [trace_cons_thrown he hr, hs']
      exact ⟨s', Prod.ext (Prod.mk.inj ht).1 rfl, hrel⟩
    | undefined he =>
      rw [trace_cons_fault he hr'] at ht
      cases ht

end Traces

end Pgen.Refinement
