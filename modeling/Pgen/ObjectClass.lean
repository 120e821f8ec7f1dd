import Pgen.ByteMemory

/-!
# Objects of a class and the text they keep

The clients of a class call its constructors, on memory of any content, and the operations of an
object, and hand other objects of the class to both. What every function keeps holds of every object
that can come out of such calls, also of calls that throw.
-/
namespace Pgen.ObjectClass
open ByteMemory

section AllOrNothing

variable {A : Type} {Good : A → Prop} {act : Exec A Unit}

/-- The function leaves the object in a good state, or it throws and leaves it as it was. -/
def AllOrNothing (Good : A → Prop) (act : Exec A Unit) : Prop :=
  ∀ a, (∃ a', act.run a = .ok () a' ∧ Good a') ∨ ∃ e, act.run a = .error e a

theorem allOrNothing_modify {f : A → A} (h : ∀ a, Good (f a)) : AllOrNothing Good (modify f) :=
  fun a => .inl ⟨f a, run_modify f a, h a⟩

theorem allOrNothing_throw (e : Failure) : AllOrNothing Good (throw e) := fun a =>
  .inr ⟨e, run_throw e a⟩

theorem allOrNothing_throwIf (p : Prop) [Decidable p] (what : String) {f : Unit → Exec A Unit}
    (h : AllOrNothing Good (f ())) : AllOrNothing Good (throwIf p what >>= f) := by
  intro a
  by_cases hp : p
  · exact .inr ⟨_, run_bind_error (throwIf_fail hp a)⟩
  · rw [run_bind_ok (throwIf_pass hp a)]
    exact h a

/-- When the function returns, the object is in a good state. -/
def Makes (Good : A → Prop) (act : Exec A Unit) : Prop :=
  ∀ a a', act.run a = .ok () a' → Good a'

theorem AllOrNothing.makes (h : AllOrNothing Good act) : Makes Good act := by
  intro a a' hrun
  rcases h a with ⟨_, hok, hgood⟩ | ⟨_, herror⟩
  · rw [hok] at hrun
    cases hrun
    exact hgood
  · rw [herror] at hrun
    cases hrun

/-- What ran before does not matter. -/
theorem Makes.after (h : Makes Good act) (first : Exec A Unit) :
    Makes Good (first >>= fun _ => act) := by
  intro a a' hrun
  obtain ⟨_, b, -, hlast⟩ := bind_eq_ok.mp hrun
  exact h b a' hlast

theorem AllOrNothing.unchanged (h : AllOrNothing Good act) {a a' : A} {e : Failure}
    (hrun : act.run a = .error e a') : a' = a := by
  rcases h a with ⟨_, hok, -⟩ | ⟨_, herror⟩
  · rw [hok] at hrun
    cases hrun
  · rw [herror] at hrun
    cases hrun
    rfl

theorem AllOrNothing.final (h : AllOrNothing Good act) {a : A} (ha : Good a) :
    Good (finalState (act.run a)) := by
  cases hrun : act.run a with
  | ok u a' => exact h.makes a a' hrun
  | error e a' => exact h.unchanged hrun ▸ ha

end AllOrNothing

section Interface

/-- What the clients of a class can call, with the objects they hand over. -/
structure Interface (A C O : Type) where
  construct : C → Exec A Unit
  copied : C → List A
  operate : O → Exec A Unit
  given : O → List A

variable {A C O : Type} {I : Interface A C O} {Good : A → Prop}

/-- The objects that come out of calls. A constructor that throws makes none. -/
inductive Interface.Reachable (I : Interface A C O) : A → Prop
  | constructed {c : C} {memory a : A} : (∀ b ∈ I.copied c, I.Reachable b) →
      (I.construct c).run memory = .ok () a → I.Reachable a
  | operated {o : O} {a : A} : I.Reachable a → (∀ b ∈ I.given o, I.Reachable b) →
      I.Reachable (finalState ((I.operate o).run a))

/-- Every function of the class makes good objects of good ones, and a failed operation changes
nothing. -/
structure Interface.Keeps (I : Interface A C O) (Good : A → Prop) : Prop where
  constructs : ∀ c, (∀ b ∈ I.copied c, Good b) → Makes Good (I.construct c)
  operates : ∀ o, (∀ b ∈ I.given o, Good b) → AllOrNothing Good (I.operate o)

theorem Interface.Reachable.good {a : A} (h : I.Reachable a) (hkeeps : I.Keeps Good) : Good a := by
  induction h with
  | constructed _ hrun ih => exact hkeeps.constructs _ ih _ _ hrun
  | operated _ _ ih ihgiven => exact (hkeeps.operates _ ihgiven).final ih

end Interface

section Texts

/-- A class that keeps a value and its text in every object: what it prints for a value, and the
constructor that parses. -/
structure TextClass (A C O R : Type) extends Interface A C O where
  raw : A → R
  name : A → List Char
  equal : A → A → Bool
  ofText : List Char → C
  render : R → List Char
  strlength : ℕ

variable {A C O R : Type} {K : TextClass A C O R}

/-- The text is the one of the value. -/
def TextClass.Named (K : TextClass A C O R) (a : A) : Prop := K.name a = K.render (K.raw a)

/-- Text and value agree in every object that can come out of calls. -/
structure TextClass.Agrees (K : TextClass A C O R) : Prop where
  rendered : ∀ a, K.Reachable a → K.name a = K.render (K.raw a)
  fits : ∀ a, K.Reachable a → (K.name a).length ≤ K.strlength
  parsed : ∀ a, K.Reachable a → ∀ memory, ∃ b,
    (K.construct (K.ofText (K.name a))).run memory = .ok () b ∧ K.equal b a = true
  equal_iff : ∀ a b, K.Reachable a → K.Reachable b → (K.equal a b = true ↔ K.name a = K.name b)
  unchanged : ∀ a, K.Reachable a → ∀ o, (∀ b ∈ K.given o, K.Reachable b) →
    ∀ e a', (K.operate o).run a = .error e a' → K.raw a' = K.raw a ∧ K.name a' = K.name a

/-- What the functions of a class have to do one by one for its texts and values to agree. -/
structure TextClass.Laws (K : TextClass A C O R) : Prop where
  keeps : K.Keeps K.Named
  equal_raw : ∀ a b, K.equal a b = true ↔ K.raw a = K.raw b
  length_render : ∀ r, (K.render r).length ≤ K.strlength
  parse_render : ∀ r memory, ∃ b,
    (K.construct (K.ofText (K.render r))).run memory = .ok () b ∧ K.raw b = r

/-- Values with the same text are parsed from it, so they are the same. -/
theorem TextClass.Laws.render_injective (h : K.Laws) (memory : A) :
    Function.Injective K.render := by
  intro r₁ r₂ hr
  obtain ⟨b₁, hrun₁, hraw₁⟩ := h.parse_render r₁ memory
  obtain ⟨b₂, hrun₂, hraw₂⟩ := h.parse_render r₂ memory
  rw [hr, hrun₂] at hrun₁
  cases hrun₁
  exact hraw₁.symm.trans hraw₂

theorem TextClass.Laws.agrees (h : K.Laws) : K.Agrees where
  rendered a ha := ha.good h.keeps
  fits a ha := by
    have hname : K.name a = K.render (K.raw a) := ha.good h.keeps
    rw [hname]
    exact h.length_render (K.raw a)
  parsed a ha memory := by
    have hname : K.name a = K.render (K.raw a) := ha.good h.keeps
    obtain ⟨b, hrun, hraw⟩ := h.parse_render (K.raw a) memory
    exact ⟨b, hname ▸ hrun, (h.equal_raw b a).mpr hraw⟩
  equal_iff a b ha hb := by
    have hnameA : K.name a = K.render (K.raw a) := ha.good h.keeps
    have hnameB : K.name b = K.render (K.raw b) := hb.good h.keeps
    rw [h.equal_raw, hnameA, hnameB]
    exact (h.render_injective a).eq_iff.symm
  unchanged a _ o hgiven e a' hrun := by
    have hsame := (h.keeps.operates o fun b hb => (hgiven b hb).good h.keeps).unchanged hrun
    exact ⟨congrArg K.raw hsame, congrArg K.name hsame⟩

end Texts

end Pgen.ObjectClass
