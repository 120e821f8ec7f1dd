import Mathlib.Algebra.Order.Group.Multiset
import Mathlib.Logic.Function.Basic
import Mathlib.Logic.Relation

/-!
# Requests and replies over a network that loses

Any number of clients ask one server and each waits for its answer. The messages in flight may
overtake one another and may be lost, and they are not copied. Then what a client hears answers
the request it waits on, and what all of them hear is part of one run of the server.
-/
namespace Pgen.RequestReply

variable {A Q R σ : Type}

/-- What one run of the server was asked and answered, from `start` to a state. -/
inductive History (Serves : σ → A → Q → R → σ → Prop) (start : σ) : List (A × Q × R) → σ → Prop
  | nil : History Serves start [] start
  | snoc {served : List (A × Q × R)} {c : A} {q : Q} {r : R} {server server' : σ} :
      History Serves start served server → Serves server c q r server' →
      History Serves start (served ++ [(c, q, r)]) server'

/-- The parties, the messages in flight, and what was asked, served and heard so far. A reply in
flight is kept with the request it was made for, which no party looks at. -/
structure Network (A Q R σ : Type) where
  server : σ
  waiting : A → Option Q
  requests : Multiset (A × Q)
  replies : Multiset (A × Q × R)
  asked : Multiset (A × Q)
  served : List (A × Q × R)
  heard : Multiset (A × Q × R)

namespace Network

def start (server : σ) : Network A Q R σ := ⟨server, fun _ => none, 0, 0, 0, [], 0⟩

def request (m : A × Q × R) : A × Q := (m.1, m.2.1)

/-- The requests that are in flight themselves or as their replies. -/
def flight (s : Network A Q R σ) : Multiset (A × Q) := s.requests + s.replies.map request

end Network

open Network

inductive Step [DecidableEq A] (Asks : Q → Prop) (Serves : σ → A → Q → R → σ → Prop) :
    Network A Q R σ → Network A Q R σ → Prop
  | ask {s : Network A Q R σ} {c : A} {q : Q} : s.waiting c = none → Asks q →
      Step Asks Serves s { s with
        waiting := Function.update s.waiting c (some q)
        requests := (c, q) ::ₘ s.requests
        asked := (c, q) ::ₘ s.asked }
  | serve {s : Network A Q R σ} {c : A} {q : Q} {r : R} {rest : Multiset (A × Q)} {server : σ} :
      s.requests = (c, q) ::ₘ rest → Serves s.server c q r server →
      Step Asks Serves s { s with
        server
        requests := rest
        replies := (c, q, r) ::ₘ s.replies
        served := s.served ++ [(c, q, r)] }
  | hear {s : Network A Q R σ} {c : A} {q q' : Q} {r : R} {rest : Multiset (A × Q × R)} :
      s.replies = (c, q', r) ::ₘ rest → s.waiting c = some q →
      Step Asks Serves s { s with
        waiting := Function.update s.waiting c none
        replies := rest
        heard := (c, q, r) ::ₘ s.heard }
  | loseRequest {s : Network A Q R σ} {m : A × Q} {rest : Multiset (A × Q)} :
      s.requests = m ::ₘ rest → Step Asks Serves s { s with requests := rest }
  | loseReply {s : Network A Q R σ} {m : A × Q × R} {rest : Multiset (A × Q × R)} :
      s.replies = m ::ₘ rest → Step Asks Serves s { s with replies := rest }

variable {Asks : Q → Prop} {Serves : σ → A → Q → R → σ → Prop} {server₀ : σ}
  {s s' : Network A Q R σ}

def Reachable [DecidableEq A] (Asks : Q → Prop) (Serves : σ → A → Q → R → σ → Prop) (server₀ : σ)
    (s : Network A Q R σ) : Prop := Relation.ReflTransGen (Step Asks Serves) (start server₀) s

/-- No client has two messages in flight, and none but those that wait have one. -/
structure Inv (Asks : Q → Prop) (Serves : σ → A → Q → R → σ → Prop) (server₀ : σ)
    (s : Network A Q R σ) : Prop where
  asks : ∀ m ∈ s.asked, Asks m.2
  history : History Serves server₀ s.served s.server
  served_le : s.requests + (s.served : Multiset (A × Q × R)).map request ≤ s.asked
  heard_le : s.heard + s.replies ≤ s.served
  pending : ∀ m ∈ s.flight, s.waiting m.1 = some m.2
  single : (s.flight.map Prod.fst).Nodup

theorem Inv.serve (hi : Inv Asks Serves server₀ s) {c : A} {q : Q} {r : R}
    {rest : Multiset (A × Q)} {server : σ} (hreq : s.requests = (c, q) ::ₘ rest)
    (hserve : Serves s.server c q r server) : Inv Asks Serves server₀ { s with
      server
      requests := rest
      replies := (c, q, r) ::ₘ s.replies
      served := s.served ++ [(c, q, r)] } := by
  have hflight : rest + ((c, q, r) ::ₘ s.replies).map request = s.flight := by
    simp [flight, request, hreq]
  have hcons : ((s.served ++ [(c, q, r)] : List _) : Multiset (A × Q × R)) =
      (c, q, r) ::ₘ (s.served : Multiset (A × Q × R)) :=
    Multiset.coe_eq_coe.mpr (List.perm_append_singleton _ _)
  refine ⟨hi.asks, hi.history.snoc hserve, ?_, ?_, ?_, ?_⟩
  · have hle := hi.served_le
    have hmap : ((s.served ++ [(c, q, r)] : List _) : Multiset (A × Q × R)).map request =
        (c, q) ::ₘ (s.served : Multiset (A × Q × R)).map request := by
      rw [hcons, Multiset.map_cons]
      rfl
    rw [hreq, Multiset.cons_add] at hle
    rwa [hmap, Multiset.add_cons]
  · rw [Multiset.add_cons, hcons]
    exact Multiset.cons_le_cons _ hi.heard_le
  · rw [flight, hflight]
    exact hi.pending
  · rw [flight, hflight]
    exact hi.single

/-- A lost message was in flight. -/
theorem Inv.lose (hi : Inv Asks Serves server₀ s) {requests : Multiset (A × Q)}
    {replies : Multiset (A × Q × R)} (hreq : requests ≤ s.requests) (hrep : replies ≤ s.replies) :
    Inv Asks Serves server₀ { s with requests, replies } := by
  have hflight : requests + replies.map request ≤ s.flight :=
    add_le_add hreq (Multiset.map_le_map hrep)
  refine ⟨hi.asks, hi.history, ?_, ?_, ?_, ?_⟩
  · exact (add_le_add hreq le_rfl).trans hi.served_le
  · exact (add_le_add le_rfl hrep).trans hi.heard_le
  · intro m hm
    exact hi.pending m (Multiset.mem_of_le hflight hm)
  · exact Multiset.nodup_of_le (Multiset.map_le_map hflight) hi.single

section Steps

variable [DecidableEq A]

theorem Inv.ask (hi : Inv Asks Serves server₀ s) {c : A} {q : Q} (hidle : s.waiting c = none)
    (hq : Asks q) : Inv Asks Serves server₀ { s with
      waiting := Function.update s.waiting c (some q)
      requests := (c, q) ::ₘ s.requests
      asked := (c, q) ::ₘ s.asked } := by
  have hnew : ∀ m ∈ s.flight, m.1 ≠ c := by
    rintro m hm rfl
    simp [hi.pending m hm] at hidle
  refine ⟨?_, hi.history, ?_, hi.heard_le, ?_, ?_⟩
  · simpa using ⟨hq, fun a b hm => hi.asks (a, b) hm⟩
  · simpa using hi.served_le
  · simp only [flight, Multiset.cons_add, Multiset.mem_cons]
    rintro m (rfl | hm)
    · simp
    · rw [Function.update_of_ne (hnew m hm)]
      exact hi.pending m hm
  · simp only [flight, Multiset.cons_add, Multiset.map_cons, Multiset.nodup_cons]
    refine ⟨?_, hi.single⟩
    intro hmem
    obtain ⟨m, hm, hc⟩ := Multiset.mem_map.mp hmem
    exact hnew m hm hc

theorem Inv.hear (hi : Inv Asks Serves server₀ s) {c : A} {q q' : Q} {r : R}
    {rest : Multiset (A × Q × R)} (hrep : s.replies = (c, q', r) ::ₘ rest)
    (hwait : s.waiting c = some q) : Inv Asks Serves server₀ { s with
      waiting := Function.update s.waiting c none
      replies := rest
      heard := (c, q, r) ::ₘ s.heard } := by
  have hflight : s.flight = (c, q') ::ₘ (s.requests + rest.map request) := by
    simp [flight, request, hrep]
  have hq : q = q' := by
    have hpending := hi.pending (c, q') (by simp [hflight])
    exact Option.some.inj (hwait.symm.trans hpending)
  have hsingle := hi.single
  simp only [hflight, Multiset.map_cons, Multiset.nodup_cons] at hsingle
  refine ⟨hi.asks, hi.history, hi.served_le, ?_, ?_, hsingle.2⟩
  · have hle := hi.heard_le
    rw [hrep, ← hq] at hle
    simpa using hle
  · intro m hm
    have hne : m.1 ≠ c := by
      rintro rfl
      exact hsingle.1 (Multiset.mem_map_of_mem Prod.fst hm)
    change Function.update s.waiting c none m.1 = some m.2
    rw [Function.update_of_ne hne]
    apply hi.pending m
    rw [hflight]
    exact Multiset.mem_cons_of_mem hm

theorem Inv.step (hi : Inv Asks Serves server₀ s) (h : Step Asks Serves s s') :
    Inv Asks Serves server₀ s' := by
  cases h with
  | ask hidle hq => exact hi.ask hidle hq
  | serve hreq hserve => exact hi.serve hreq hserve
  | hear hrep hwait => exact hi.hear hrep hwait
  | loseRequest hreq =>
    apply hi.lose _ le_rfl
    rw [hreq]
    exact Multiset.le_cons_self _ _
  | loseReply hrep =>
    apply hi.lose le_rfl
    rw [hrep]
    exact Multiset.le_cons_self _ _

end Steps

end Pgen.RequestReply
