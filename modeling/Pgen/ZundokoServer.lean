import Pgen.CText
import Pgen.StructLayout

/-!
# The server of the example `zundoko`

One server counts what all of its clients send. Four times ZUN and then DOKO, with nothing in
between, is answered with KIYOSHI, whoever sent the five; every other datagram comes back as it
is. The count starts again behind a fifth ZUN.
-/
namespace Pgen.ZundokoServer
open ByteMemory CText StructLayout

section Model

/-- `struct zundoko` as it lies in memory. -/
structure Zundoko where
  type : UInt16
  messageLength : UInt16
  deriving DecidableEq, Repr

namespace Zundoko

def ZUN : UInt16 := 0

def DOKO : UInt16 := 1

def KIYOSHI : UInt16 := 2

def layout : Layout Zundoko := (Layout.u16.pair Layout.u16).rename
  ⟨fun z => (z.type, z.messageLength), fun (a, b) => ⟨a, b⟩, fun _ => rfl, fun _ => rfl⟩

end Zundoko

inductive ZdState
  | none
  | z
  | zz
  | zzz
  | zzzz
  deriving DecidableEq, Repr

variable {A : Type}

/-- The global variable of the process, what it printed, and what it sent to whom. -/
structure Server (A : Type) where
  state : ZdState
  printed : Text
  sent : List (A × Bytes)

def printf (s : Text) : Exec (Server A) Unit :=
  modify fun p => { p with printed := p.printed ++ s }

/-- `%s`: the bytes up to the first null byte, which has to be there. -/
def cString {σ : Type} (buffer : Bytes) : Exec σ Text :=
  if 0 ∈ buffer then pure ((buffer.takeWhile (· ≠ 0)).map fun c => Char.ofNat c.toNat)
  else throw .loadFault

/-- `Socket::recvfrom` of a datagram, or of none when the call fails; then the text goes to
`perror` and the process exits. -/
def recvfrom {σ : Type} (arrival : Option (A × Bytes)) (buffer : Bytes) :
    Exec σ (ℕ × A × Bytes) :=
  match arrival with
  | none => throw (.exception "recvfrom")
  | some (client, datagram) =>
    let got := datagram.take buffer.length
    pure (got.length, client, splice buffer 0 got)

/-- `Socket::sendto`, which the system takes or not. -/
def sendto (taken : Bool) (client : A) (message : Bytes) : Exec (Server A) Unit := do
  throwIf (taken = false) "sendto"
  modify fun p => { p with sent := p.sent ++ [(client, message)] }

def typeName (type : UInt16) : Text :=
  if type = Zundoko.ZUN then "ZUN".toList
  else if type = Zundoko.DOKO then "DOKO".toList else "UNKNOWN".toList

def setState (state : ZdState) : Exec (Server A) Unit := modify fun p => { p with state }

/-- The first `switch`; the type in the buffer may be overwritten. -/
def switchState (type : UInt16) (buffer : Bytes) : Exec (Server A) Bytes := do
  match (← get).state with
  | .none => setState (if type = Zundoko.ZUN then .z else .none); pure buffer
  | .z => setState (if type = Zundoko.ZUN then .zz else .none); pure buffer
  | .zz => setState (if type = Zundoko.ZUN then .zzz else .none); pure buffer
  | .zzz => setState (if type = Zundoko.ZUN then .zzzz else .none); pure buffer
  | .zzzz =>
    if type = Zundoko.DOKO then
      let (_, buffer) ← onLocal buffer (Layout.u16.store 0 (htons Zundoko.KIYOSHI))
      printf "Succsess ".toList
      setState .none
      pure buffer
    else
      setState .none
      pure buffer

/-- What the second `switch` prints. -/
def stateLine : ZdState → Text
  | .none => "state=none\n".toList
  | .z => "state=z\n".toList
  | .zz => "state=zz\n".toList
  | .zzz => "state=zzz\n".toList
  | .zzzz => "state=zzzz\n".toList

/-- The message behind the header is printed if the header says that there is one. -/
def printMessage (messageLength : UInt16) (buffer : Bytes) : Exec (Server A) Unit := do
  if messageLength ≠ 0 then
    let msg ← cString (buffer.drop Zundoko.layout.size)
    printf ("msg=\"".toList ++ msg ++ "\" ".toList)

def bufferSize : ℕ := 10000

def clientHanle (arrival : Option (A × Bytes)) (taken : Bool) : Exec (Server A) Unit := do
  let (recvlen, client, buffer) ← recvfrom arrival (List.replicate bufferSize 0)
  let zd ← Zundoko.layout.load buffer 0
  let type := ntohs zd.type
  printf ("Recv type=".toList ++ typeName type ++ " msglen=".toList ++
    Nat.toDigits 10 (ntohs zd.messageLength).toNat ++ [' '])
  printMessage (ntohs zd.messageLength) buffer
  let buffer ← switchState type buffer
  printf (stateLine (← get).state)
  let message ← load buffer 0 recvlen
  sendto taken client message

/-- The endless loop of `main`, for as long as there are arrivals. -/
def serve (arrivals : List (Option (A × Bytes) × Bool)) : Exec (Server A) Unit :=
  arrivals.forM fun a => clientHanle a.1 a.2

/-- The process behind `state = zd_state::none`. -/
def Server.start : Server A := ⟨.none, [], []⟩

end Model

section Datagrams

/-- A word in network order; bytes that did not arrive count as zero. -/
def word (datagram : Bytes) (i : ℕ) : ℕ :=
  256 * (datagram.getD i 0).toNat + (datagram.getD (i + 1) 0).toNat

/-- The datagram fills the buffer with a message that does not end. -/
def Overruns (datagram : Bytes) : Prop :=
  bufferSize ≤ datagram.length ∧ word datagram 2 ≠ 0 ∧ 0 ∉ (datagram.take bufferSize).drop 4

instance : DecidablePred Overruns := fun datagram => by
  unfold Overruns
  infer_instance

/-- A buffer of zeroes behind `recvfrom`. -/
def received (size : ℕ) (datagram : Bytes) : Bytes :=
  datagram.take size ++ List.replicate (size - datagram.length) 0

theorem length_received (size : ℕ) (datagram : Bytes) :
    (received size datagram).length = size := by
  simp only [received, List.length_append, List.length_take, List.length_replicate]
  omega

variable {size : ℕ}

theorem getD_received (datagram : Bytes) {i : ℕ} (h : i < size) :
    (received size datagram).getD i 0 = datagram.getD i 0 := by
  rcases Nat.lt_or_ge i datagram.length with hi | hi
  · simp [received, List.getD_eq_getElem?_getD, List.getElem?_append, h, hi]
  · simp only [received, List.getD_eq_getElem?_getD, List.getElem?_append,
      List.getElem?_replicate, List.getElem?_eq_none hi, List.getElem?_take, if_pos h]
    split_ifs <;> rfl

theorem four_lt_bufferSize : 4 < bufferSize := by
  norm_num [bufferSize]

/-- A message ends where the buffer has a null byte. -/
theorem zero_mem_received (datagram : Bytes) : 0 ∈ (received bufferSize datagram).drop 4 ↔
    datagram.length < bufferSize ∨ 0 ∈ (datagram.take bufferSize).drop 4 := by
  have hbuffer := four_lt_bufferSize
  rcases Nat.lt_or_ge datagram.length bufferSize with hlen | hlen
  · simp only [hlen, true_or, iff_true]
    apply List.mem_iff_getElem?.mpr
    refine ⟨bufferSize - 1 - 4, ?_⟩
    rw [List.getElem?_drop, received, List.getElem?_append_right (by rw [List.length_take]; omega),
      List.getElem?_replicate, if_pos (by rw [List.length_take]; omega)]
  · simp [received, Nat.sub_eq_zero_of_le hlen, Nat.not_lt.mpr hlen]

variable {σ : Type}

theorem recvfrom_run {A : Type} (size : ℕ) (client : A) (datagram : Bytes) (s : σ) :
    (recvfrom (some (client, datagram)) (List.replicate size 0)).run s =
      .ok ((datagram.take size).length, client, received size datagram) s := by
  have hsplice : splice (List.replicate size 0) 0 (datagram.take size) =
      received size datagram := by
    rw [splice_zero, received, List.drop_replicate, List.length_take]
    congr 2
    omega
  simp [recvfrom, hsplice, EStateM.run_pure]

/-- The header that is found in the buffer. -/
def headerOf (size : ℕ) (datagram : Bytes) : Zundoko :=
  Zundoko.layout.dec ((received size datagram).take 4)

theorem load_header (h : 4 ≤ size) (datagram : Bytes) (s : σ) :
    (Zundoko.layout.load (received size datagram) 0).run s = .ok (headerOf size datagram) s := by
  have hlen : 0 + Zundoko.layout.size ≤ (received size datagram).length := by
    rw [length_received]
    exact h
  exact Zundoko.layout.load_ok hlen s

theorem toNat_ntohs_dec (b : Bytes) :
    (ntohs (Layout.u16.dec b)).toNat = 256 * (b.getD 0 0).toNat + (b.getD 1 0).toNat := by
  have hlo := (b.getD 0 0).toNat_lt
  have hhi := (b.getD 1 0).toNat_lt
  change (htons _).toNat = _
  rw [htons_toNat]
  simp only [Layout.u16, UInt16.toNat_ofNat']
  omega

theorem toNat_type (h : 4 ≤ size) (datagram : Bytes) :
    (ntohs (headerOf size datagram).type).toNat = word datagram 0 := by
  have hfirst := getD_received datagram (show 0 < size by omega)
  have hsecond := getD_received datagram (show 0 + 1 < size by omega)
  rw [word, ← hfirst, ← hsecond]
  refine (toNat_ntohs_dec _).trans ?_
  simp [List.getD_eq_getElem?_getD, Layout.u16]

theorem toNat_messageLength (h : 4 ≤ size) (datagram : Bytes) :
    (ntohs (headerOf size datagram).messageLength).toNat = word datagram 2 := by
  have hfirst := getD_received datagram (show 2 < size by omega)
  have hsecond := getD_received datagram (show 2 + 1 < size by omega)
  rw [word, ← hfirst, ← hsecond]
  refine (toNat_ntohs_dec _).trans ?_
  simp [List.getD_eq_getElem?_getD, Layout.u16]

theorem messageLength_eq_zero (h : 4 ≤ size) (datagram : Bytes) :
    ntohs (headerOf size datagram).messageLength = 0 ↔ word datagram 2 = 0 := by
  rw [← toNat_messageLength h, ← UInt16.toNat_inj]
  rfl

/-- The type in the header, compared with a constant. -/
theorem type_eq_iff (h : 4 ≤ size) (datagram : Bytes) (type : UInt16) :
    ntohs (headerOf size datagram).type = type ↔ word datagram 0 = type.toNat := by
  rw [← toNat_type h, ← UInt16.toNat_inj]

end Datagrams

section Counting

/-- How many ZUNs came last. -/
def zuns (before : List Bytes) : ℕ := (before.rtakeWhile fun d => word d 0 = 0).length

@[simp] theorem zuns_nil : zuns [] = 0 := rfl

theorem zuns_concat (before : List Bytes) (datagram : Bytes) :
    zuns (before ++ [datagram]) = if word datagram 0 = 0 then zuns before + 1 else 0 := by
  simp only [zuns, List.rtakeWhile_concat]
  split_ifs <;> simp_all

/-- What is sent back for a datagram behind these. -/
def answer (before : List Bytes) (datagram : Bytes) : Bytes :=
  if zuns before % 5 = 4 ∧ word datagram 0 = 1 then 0 :: 2 :: (datagram.take bufferSize).drop 2
  else datagram.take bufferSize

variable {A : Type}

def answers : List Bytes → List (A × Bytes) → List (A × Bytes)
  | _, [] => []
  | before, (client, datagram) :: rest =>
    (client, answer before datagram) :: answers (before ++ [datagram]) rest

def ZdState.count : ZdState → ℕ
  | .none => 0
  | .z => 1
  | .zz => 2
  | .zzz => 3
  | .zzzz => 4

/-- The state of the process is the number of ZUNs that came last, modulo five. -/
def Counts (s : Server A) (before : List Bytes) : Prop := s.state.count = zuns before % 5

end Counting

section Steps

variable {A : Type} {s : Server A} {before : List Bytes} {datagram : Bytes} {client : A}

theorem printf_run (text : Text) (s : Server A) :
    (printf text).run s = .ok () { s with printed := s.printed ++ text } := rfl

theorem type_eq_zun :
    ntohs (headerOf bufferSize datagram).type = Zundoko.ZUN ↔ word datagram 0 = 0 :=
  type_eq_iff four_lt_bufferSize.le datagram _

theorem type_eq_doko :
    ntohs (headerOf bufferSize datagram).type = Zundoko.DOKO ↔ word datagram 0 = 1 :=
  type_eq_iff four_lt_bufferSize.le datagram _

theorem store_kiyoshi (datagram : Bytes) :
    (Layout.u16.store 0 (htons Zundoko.KIYOSHI)).run (received bufferSize datagram) =
      .ok () (0 :: 2 :: (received bufferSize datagram).drop 2) := by
  have hbuffer := four_lt_bufferSize
  have hlen : Layout.u16.size ≤ (received bufferSize datagram).length := by
    rw [length_received]
    exact (show 2 ≤ 4 by omega).trans hbuffer.le
  exact Layout.u16.store_ok _ hlen

/-- The buffer behind the first `switch`. -/
def rewritten (before : List Bytes) (datagram : Bytes) : Bytes :=
  if zuns before % 5 = 4 ∧ word datagram 0 = 1 then 0 :: 2 :: (received bufferSize datagram).drop 2
  else received bufferSize datagram

theorem length_rewritten (before : List Bytes) (datagram : Bytes) :
    (rewritten before datagram).length = bufferSize := by
  have hbuffer := four_lt_bufferSize
  unfold rewritten
  split_ifs
  · simp only [List.length_cons, List.length_drop, length_received]
    omega
  · exact length_received bufferSize datagram

/-- The state behind a datagram of this type. -/
def ZdState.next (type : UInt16) : ZdState → ZdState
  | .none => if type = Zundoko.ZUN then .z else .none
  | .z => if type = Zundoko.ZUN then .zz else .none
  | .zz => if type = Zundoko.ZUN then .zzz else .none
  | .zzz => if type = Zundoko.ZUN then .zzzz else .none
  | .zzzz => .none

theorem ZdState.count_next (type : UInt16) (state : ZdState) : (state.next type).count =
    if type = Zundoko.ZUN then (state.count + 1) % 5 else 0 := by
  cases state <;> simp only [ZdState.next] <;> split_ifs <;> rfl

theorem Counts.next (hs : Counts s before) (datagram : Bytes) (state : ZdState)
    (hstate : state = s.state.next (ntohs (headerOf bufferSize datagram).type)) (printed : Text)
    (sent : List (A × Bytes)) : Counts ⟨state, printed, sent⟩ (before ++ [datagram]) := by
  unfold Counts at hs ⊢
  rw [hstate, ZdState.count_next, zuns_concat, hs]
  simp only [type_eq_zun]
  split_ifs
  · exact Nat.mod_add_mod _ _ _
  · rfl

theorem count_eq_four {state : ZdState} : state.count = 4 ↔ state = .zzzz := by
  cases state <;> simp [ZdState.count]

theorem switchState_plain {type : UInt16} (h : ¬ (s.state = .zzzz ∧ type = Zundoko.DOKO))
    (buffer : Bytes) : (switchState type buffer).run s =
      .ok buffer { s with state := s.state.next type } := by
  unfold switchState
  rw [run_bind_ok (run_get s)]
  cases hstate : s.state with
  | none => rfl
  | z => rfl
  | zz => rfl
  | zzz => rfl
  | zzzz =>
    simp only [if_neg fun hdoko => h ⟨hstate, hdoko⟩]
    rfl

theorem switchState_kiyoshi (h : s.state = .zzzz) (datagram : Bytes) :
    (switchState Zundoko.DOKO (received bufferSize datagram)).run s =
      .ok (0 :: 2 :: (received bufferSize datagram).drop 2) { s with
        state := .none
        printed := s.printed ++ "Succsess ".toList } := by
  unfold switchState
  rw [run_bind_ok (run_get s), h]
  simp only [if_true]
  rw [run_bind_ok (onLocal_ok (store_kiyoshi datagram) s)]
  rfl

theorem switchState_run (hs : Counts s before) (datagram : Bytes) : ∃ s', (switchState
    (ntohs (headerOf bufferSize datagram).type) (received bufferSize datagram)).run s =
      .ok (rewritten before datagram) s' ∧ Counts s' (before ++ [datagram]) ∧ s'.sent = s.sent := by
  have hnext := hs.next datagram _ rfl
  have hcond : zuns before % 5 = 4 ∧ word datagram 0 = 1 ↔
      s.state = .zzzz ∧ ntohs (headerOf bufferSize datagram).type = Zundoko.DOKO := by
    rw [← hs, count_eq_four, type_eq_doko]
  unfold rewritten
  simp only [hcond]
  split_ifs with h
  · obtain ⟨hstate, hdoko⟩ := h
    rw [hdoko, hstate] at hnext
    rw [hdoko]
    exact ⟨_, switchState_kiyoshi hstate datagram, hnext _ _, rfl⟩
  · exact ⟨_, switchState_plain h _, hnext _ _, rfl⟩

theorem take_rewritten (before : List Bytes) (datagram : Bytes) :
    (rewritten before datagram).take (datagram.take bufferSize).length =
      answer before datagram := by
  have htake : (received bufferSize datagram).take (datagram.take bufferSize).length =
      datagram.take bufferSize := List.take_left' rfl
  unfold rewritten answer
  split_ifs with h
  · -- a DOKO has the two bytes of its type
    have hlen : 2 ≤ (datagram.take bufferSize).length := by
      have hbuffer := four_lt_bufferSize
      by_contra hshort
      rw [List.length_take] at hshort
      have hnone : datagram.getD (0 + 1) 0 = 0 := by
        rw [List.getD_eq_getElem?_getD, List.getElem?_eq_none (by omega)]
        rfl
      have hword := h.2
      rw [word, hnone] at hword
      change 256 * _ + 0 = 1 at hword
      omega
    obtain ⟨n, hn⟩ := Nat.exists_eq_add_of_le' hlen
    rw [hn] at htake ⊢
    rw [List.take_succ_cons, List.take_succ_cons, ← htake, List.drop_take, Nat.add_sub_cancel]
  · exact htake

theorem cString_run {σ : Type} {buffer : Bytes} (h : 0 ∈ buffer) (s : σ) :
    ∃ text, (cString buffer).run s = .ok text s := by
  unfold cString
  rw [if_pos h]
  exact ⟨_, rfl⟩

theorem printMessage_run (h : ¬ Overruns datagram) (s : Server A) : ∃ printed,
    (printMessage (ntohs (headerOf bufferSize datagram).messageLength)
      (received bufferSize datagram)).run s = .ok () { s with printed } := by
  unfold printMessage
  split_ifs with hnone
  · rw [Ne, messageLength_eq_zero four_lt_bufferSize.le] at hnone
    have hzero : 0 ∈ (received bufferSize datagram).drop 4 := by
      rw [zero_mem_received]
      by_contra hnot
      rw [not_or, Nat.not_lt] at hnot
      exact h ⟨hnot.1, hnone, hnot.2⟩
    obtain ⟨text, htext⟩ := cString_run hzero s
    exact ⟨_, run_bind_ok htext⟩
  · exact ⟨_, rfl⟩

theorem printMessage_fault (h : Overruns datagram) (s : Server A) :
    (printMessage (ntohs (headerOf bufferSize datagram).messageLength)
      (received bufferSize datagram)).run s = .error .loadFault s := by
  obtain ⟨hlen, hword, hzero⟩ := h
  have hnot : 0 ∉ (received bufferSize datagram).drop Zundoko.layout.size := by
    intro hmem
    rcases (zero_mem_received datagram).mp hmem with hlt | hin
    · exact Nat.not_lt.mpr hlen hlt
    · exact hzero hin
  unfold printMessage
  rw [if_pos fun heq => hword ((messageLength_eq_zero four_lt_bufferSize.le datagram).mp heq)]
  apply run_bind_error
  simp [cString, hnot]

/-- The part of a call behind the `recvfrom`. -/
theorem clientHanle_received (client : A) (datagram : Bytes) (taken : Bool) (s : Server A) :
    ∃ printed, (clientHanle (some (client, datagram)) taken).run s = (do
      let zd := headerOf bufferSize datagram
      printMessage (ntohs zd.messageLength) (received bufferSize datagram)
      let buffer ← switchState (ntohs zd.type) (received bufferSize datagram)
      printf (stateLine (← get).state)
      let message ← load buffer 0 (datagram.take bufferSize).length
      sendto taken client message : Exec (Server A) Unit).run { s with printed } :=
  ⟨_, (run_bind_ok (recvfrom_run bufferSize client datagram s)).trans
    ((run_bind_ok (load_header four_lt_bufferSize.le datagram s)).trans
      (run_bind_ok (printf_run _ s)))⟩

/-- A datagram whose message ends is answered to the one who sent it. -/
theorem clientHanle_run (h : ¬ Overruns datagram) (hs : Counts s before) (client : A)
    (taken : Bool) : ∃ s' : Server A, Counts s' (before ++ [datagram]) ∧
    s'.sent = s.sent ++ (if taken then [(client, answer before datagram)] else []) ∧
    (clientHanle (some (client, datagram)) taken).run s =
      if taken then .ok () s' else .error (.exception "sendto") s' := by
  obtain ⟨printed, hreceived⟩ := clientHanle_received client datagram taken s
  obtain ⟨printed', hmessage⟩ := printMessage_run h { s with printed }
  obtain ⟨s₁, hswitch, hcounts, hsent⟩ :=
    switchState_run (s := ⟨s.state, printed', s.sent⟩) hs datagram
  have hlen : 0 + (datagram.take bufferSize).length ≤ (rewritten before datagram).length := by
    rw [length_rewritten, List.length_take]
    omega
  rw [hreceived, run_bind_ok hmessage, run_bind_ok hswitch, run_bind_ok (run_get s₁),
    run_bind_ok (printf_run _ s₁), run_bind_ok (load_ok hlen _), List.drop_zero, take_rewritten]
  cases taken with
  | false =>
    refine ⟨{ s₁ with printed := s₁.printed ++ stateLine s₁.state }, hcounts, ?_, ?_⟩
    · simpa using hsent
    · exact run_bind_error (throwIf_fail rfl _)
  | true =>
    refine ⟨{ s₁ with
      printed := s₁.printed ++ stateLine s₁.state
      sent := s₁.sent ++ [(client, answer before datagram)] }, hcounts, by simp [hsent], ?_⟩
    exact run_bind_ok (throwIf_pass (by simp) _)

end Steps

section Runs

variable {A : Type}

/-- How the process ends at an arrival, if it does. -/
def failure : Option (A × Bytes) × Bool → Option Failure
  | (none, _) => some (.exception "recvfrom")
  | (some (_, datagram), taken) =>
    if Overruns datagram then some .loadFault
    else if taken then none else some (.exception "sendto")

/-- The arrivals in front of the first failure. -/
def handled (arrivals : List (Option (A × Bytes) × Bool)) : List (A × Bytes) :=
  (arrivals.takeWhile fun a => failure a = none).filterMap Prod.fst

theorem clientHanle_failure {arrival : Option (A × Bytes) × Bool} {f : Failure}
    (h : failure arrival = some f) {s : Server A} {before : List Bytes} (hs : Counts s before) :
    ∃ s', s'.sent = s.sent ∧ (clientHanle arrival.1 arrival.2).run s = .error f s' := by
  match arrival with
  | (none, taken) =>
    cases h
    exact ⟨s, rfl, rfl⟩
  | (some (client, datagram), taken) =>
    by_cases hover : Overruns datagram
    · obtain ⟨printed, hreceived⟩ := clientHanle_received client datagram taken s
      rw [failure, if_pos hover] at h
      cases h
      refine ⟨{ s with printed }, rfl, hreceived.trans ?_⟩
      exact run_bind_error (printMessage_fault hover _)
    · obtain ⟨s', -, hsent, hrun⟩ := clientHanle_run hover hs client taken
      cases taken with
      | true => simp [failure, hover] at h
      | false =>
        simp only [failure, hover] at h
        cases h
        exact ⟨s', by simpa using hsent, hrun⟩

theorem clientHanle_ok {arrival : Option (A × Bytes) × Bool} (h : failure arrival = none) :
    ∃ client datagram, arrival.1 = some (client, datagram) ∧
      ∀ {s : Server A} {before : List Bytes}, Counts s before →
        ∃ s', Counts s' (before ++ [datagram]) ∧
          s'.sent = s.sent ++ [(client, answer before datagram)] ∧
          (clientHanle arrival.1 arrival.2).run s = .ok () s' := by
  match arrival, h with
  | (some (client, datagram), true), h =>
    have hfits : ¬ Overruns datagram := by
      intro hover
      simp [failure, hover] at h
    refine ⟨client, datagram, rfl, fun hs => ?_⟩
    obtain ⟨s', hcounts, hsent, hrun⟩ := clientHanle_run hfits hs client true
    exact ⟨s', hcounts, hsent, hrun⟩
  | (some (client, datagram), false), h =>
    by_cases hover : Overruns datagram <;> simp [failure, hover] at h

/-- The loop of the server from any count on. -/
theorem serve_run (arrivals : List (Option (A × Bytes) × Bool)) {s : Server A}
    {before : List Bytes} (hs : Counts s before) :
    ∃ s', s'.sent = s.sent ++ answers before (handled arrivals) ∧
      (arrivals.findSome? failure = none →
        Counts s' (before ++ (handled arrivals).map Prod.snd)) ∧
      (serve arrivals).run s = match arrivals.findSome? failure with
        | none => .ok () s'
        | some f => .error f s' := by
  induction arrivals generalizing s before with
  | nil => exact ⟨s, by simp [handled, answers], fun _ => by simpa [handled] using hs, rfl⟩
  | cons arrival arrivals ih =>
    cases hfailure : failure arrival with
    | some f =>
      obtain ⟨s', hsent, hrun⟩ := clientHanle_failure hfailure hs
      refine ⟨s', ?_, ?_, ?_⟩
      · simp [handled, hfailure, answers, hsent]
      · simp [hfailure]
      · simp only [List.findSome?_cons, hfailure]
        exact run_bind_error hrun
    | none =>
      obtain ⟨client, datagram, harrival, hstep⟩ := clientHanle_ok hfailure
      obtain ⟨s₁, hcounts, hsent, hrun⟩ := hstep hs
      obtain ⟨s', hsent', hcounts', hrun'⟩ := ih hcounts
      have hhandled : handled (arrival :: arrivals) = (client, datagram) :: handled arrivals := by
        simp [handled, hfailure, harrival]
      refine ⟨s', ?_, ?_, ?_⟩
      · simp [hsent', hsent, hhandled, answers]
      · intro hnone
        rw [List.findSome?_cons, hfailure] at hnone
        simpa [hhandled] using hcounts' hnone
      · simp only [List.findSome?_cons, hfailure]
        exact (run_bind_ok hrun).trans hrun'

/-- Whatever arrives from whomever: every datagram in front of the first failure is answered, in
order and to its sender, and the process ends exactly at the first failure. -/
theorem serves_all (arrivals : List (Option (A × Bytes) × Bool)) :
    ∃ s' : Server A, s'.sent = answers [] (handled arrivals) ∧
      (arrivals.findSome? failure = none →
        s'.state.count = zuns ((handled arrivals).map Prod.snd) % 5) ∧
      (serve arrivals).run .start = match arrivals.findSome? failure with
        | none => .ok () s'
        | some f => .error f s' := by
  have hstart : Counts (Server.start : Server A) [] := rfl
  obtain ⟨s', hsent, hcounts, hrun⟩ := serve_run arrivals hstart
  exact ⟨s', hsent, hcounts, hrun⟩

end Runs

end Pgen.ZundokoServer
