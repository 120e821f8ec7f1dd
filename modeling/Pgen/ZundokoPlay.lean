import Pgen.RequestReply
import Pgen.UtilHex
import Pgen.ZundokoServer

/-!
# Clients of the example `zundoko`

A client sends ZUN or DOKO, with or without a message, and waits for what the server sends back.
All clients share the count of the server, so a KIYOSHI may be owed to the ZUNs of others; but
there is never one that four ZUNs did not pay for.
-/
namespace Pgen.ZundokoPlay
open ByteMemory CText StructLayout ZundokoServer RequestReply

section Model

/-- What is typed at the prompts, what `rand` gives, and the array that the command goes to. -/
structure Input where
  command : Bytes
  message : Bytes
  random : ℕ
  inputstr : Vector UInt8 1000

variable {σ : Type}

/-- `scanf("%s", buffer + off)` -/
def scanString (off : ℕ) (token : Bytes) (buffer : Bytes) : Exec σ Bytes := do
  let (_, buffer) ← onLocal buffer (store off (token ++ [0]))
  pure buffer

def strlen (buffer : Bytes) : Exec σ ℕ :=
  if 0 ∈ buffer then pure (buffer.takeWhile (· ≠ 0)).length else throw .loadFault

/-- The header is filled in, and as many bytes are sent as it says. -/
def sendHeader (type messageLength : UInt16) (buffer : Bytes) : Exec σ Bytes := do
  let (_, buffer) ← onLocal buffer (Zundoko.layout.store 0 ⟨htons type, htons messageLength⟩)
  load buffer 0 (Zundoko.layout.size + (ntohs (htons messageLength)).toNat)

def sendMessage (type : UInt16) (message : Bytes) (buffer : Bytes) : Exec σ Bytes := do
  let buffer ← scanString Zundoko.layout.size message buffer
  let length ← strlen (buffer.drop Zundoko.layout.size)
  sendHeader type (UInt16.ofNat length) buffer

/-- `send_zundoko` up to its `sendto`: the datagram. -/
def sendZundoko (input : Input) : Exec σ Bytes := do
  let inputstr ← scanString 0 input.command input.inputstr.toList
  let command := inputstr.takeWhile (· ≠ 0)
  let buffer := List.replicate 1000 0
  if command = [0x7a] then sendHeader Zundoko.ZUN 0 buffer
  else if command = [0x64] then sendHeader Zundoko.DOKO 0 buffer
  else if command = [0x7a, 0x6d] then sendMessage Zundoko.ZUN input.message buffer
  else if command = [0x64, 0x6d] then sendMessage Zundoko.DOKO input.message buffer
  else
    let r := input.random % 2
    sendHeader (if r = 0 then Zundoko.ZUN else Zundoko.DOKO) 0 buffer

end Model

section Requests

/-- A ZUN or a DOKO that fits every buffer. -/
structure IsRequest (datagram : Bytes) : Prop where
  type_le : word datagram 0 ≤ 1
  fits : datagram.length < bufferSize

variable {σ : Type} {s s' : σ} {datagram : Bytes}

end Requests

section Replies

/-- The client takes the reply for a KIYOSHI. -/
def Hit (reply : Bytes) : Prop := word reply 0 = 2

instance : DecidablePred Hit := fun reply => by
  unfold Hit
  infer_instance

/-- A reply is the request, or a DOKO of which the type was overwritten. -/
def IsReply (request reply : Bytes) : Prop :=
  reply = request ∨ word request 0 = 1 ∧ reply = 0 :: 2 :: request.drop 2

theorem answer_of_isRequest {before : List Bytes} {datagram : Bytes} (h : IsRequest datagram) :
    answer before datagram = if zuns before % 5 = 4 ∧ word datagram 0 = 1
      then 0 :: 2 :: datagram.drop 2 else datagram := by
  rw [answer, List.take_of_length_le h.fits.le]

theorem isReply_answer {before : List Bytes} {datagram : Bytes} (h : IsRequest datagram) :
    IsReply datagram (answer before datagram) := by
  rw [answer_of_isRequest h]
  split_ifs with hdoko
  · exact .inr ⟨hdoko.2, rfl⟩
  · exact .inl rfl

theorem hit_answer_iff {before : List Bytes} {datagram : Bytes} (h : IsRequest datagram) :
    Hit (answer before datagram) ↔ zuns before % 5 = 4 ∧ word datagram 0 = 1 := by
  have htype := h.type_le
  rw [answer_of_isRequest h, Hit]
  split_ifs with hdoko
  · exact iff_of_true rfl hdoko
  · simp only [hdoko, iff_false]
    omega

end Replies

section Play

variable {A : Type}

/-- What a client may ask. -/
def Asks (datagram : Bytes) : Prop :=
  ∃ input, (sendZundoko input : Exec Unit Bytes).run () = .ok datagram ()

/-- A call of the server whose `sendto` the system takes. -/
def Serves (s : Server A) (client : A) (datagram reply : Bytes) (s' : Server A) : Prop :=
  (clientHanle (some (client, datagram)) true).run s = .ok () s' ∧
    s'.sent = s.sent ++ [(client, reply)]

theorem IsRequest.not_overruns {datagram : Bytes} (h : IsRequest datagram) :
    ¬ Overruns datagram := fun hover => Nat.not_le.mpr h.fits hover.1

theorem serves_answer {s s' : Server A} {before : List Bytes} {client : A} {datagram reply : Bytes}
    (hs : Counts s before) (h : IsRequest datagram) (hserves : Serves s client datagram reply s') :
    Counts s' (before ++ [datagram]) ∧ reply = answer before datagram := by
  obtain ⟨s₁, hcounts, hsent, hrun⟩ := clientHanle_run h.not_overruns hs client true
  obtain ⟨hrun', hsent'⟩ := hserves
  cases hrun'.symm.trans hrun
  rw [hsent'] at hsent
  have hlast := List.append_cancel_left hsent
  simp only [if_true, List.cons.injEq, Prod.mk.injEq, true_and, and_true] at hlast
  exact ⟨hcounts, hlast⟩

/-- Four ZUNs are served for every KIYOSHI, and the state holds what is not paid out yet. -/
structure Pays (s : Server A) (served : List (A × Bytes × Bytes)) : Prop where
  counts : Counts s (served.map fun m => m.2.1)
  paid : 4 * served.countP (fun m => Hit m.2.2) + zuns (served.map fun m => m.2.1) % 5 ≤
    served.countP fun m => word m.2.1 0 = 0
  isReply : ∀ m ∈ served, IsReply m.2.1 m.2.2

theorem Pays.snoc {s s' : Server A} {served : List (A × Bytes × Bytes)} (hp : Pays s served)
    {client : A} {datagram reply : Bytes} (h : IsRequest datagram)
    (hserves : Serves s client datagram reply s') :
    Pays s' (served ++ [(client, datagram, reply)]) := by
  obtain ⟨hcounts, rfl⟩ := serves_answer hp.counts h hserves
  have hpaid := hp.paid
  refine ⟨by simpa using hcounts, ?_, ?_⟩
  · simp only [List.map_append, List.map_cons, List.map_nil, List.countP_append,
      List.countP_singleton, zuns_concat, hit_answer_iff h, decide_eq_true_eq]
    split_ifs <;> omega
  · intro m hm
    rcases List.mem_append.mp hm with hm | hm
    · exact hp.isReply m hm
    · rw [List.mem_singleton.mp hm]
      exact isReply_answer h

variable [DecidableEq A] {p : Network A Bytes Bytes (Server A)}

end Play

section Kiyoshi

end Kiyoshi

end Pgen.ZundokoPlay
