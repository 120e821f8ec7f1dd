import Pgen.NetStream
import Pgen.StructLayout

/-!
# `net_stream::recv` on a Berkeley packet filter

One kernel read delivers many records, each a header and a captured frame, and the kernel starts
every record at a multiple of the word size. `recv` keeps a cursor into what was delivered and
moves it by the length of the record alone, so it loses its place behind the first padding.
-/
namespace Pgen.BpfReceive
open ByteMemory StructLayout NetStream

section Model

/-- `bpf_header`, of which `recv` reads the members `caplen` and `hdrlen` in place. -/
structure BpfHeader where
  timestamp : Vector UInt8 8
  caplen : UInt32
  datalen : UInt32
  hdrlen : UInt16

def BpfHeader.layout : Layout BpfHeader :=
  ((Layout.array 8).pair (Layout.u32.pair (Layout.u32.pair Layout.u16))).rename
  ⟨fun h => (h.timestamp, h.caplen, h.datalen, h.hdrlen), fun (a, b, c, d) => ⟨a, b, c, d⟩,
    fun _ => rfl, fun _ => rfl⟩

/-- A stream on a network interface: `_buffer` is the memory of `io`, and `_buffer_point` an offset
in it. `loads` takes down which bytes of `_buffer` are looked at. -/
structure NetStream where
  io : IoState
  bufferPoint : Option ℕ
  bufferSizeReaded : ℕ
  loads : List (ℕ × ℕ)

/-- Read `L.size` bytes of `_buffer` at `off`. -/
def loadBuffer {S : Type} (L : Layout S) (off : ℕ) : Exec NetStream S := do
  modify fun s => { s with loads := s.loads ++ [(off, L.size)] }
  let s ← get
  L.load s.io.buffer off

/-- `recv` from the header at `bufferPoint` on: the result, and the memory `buffer` after the
call. -/
def takeRecord (buffer : Bytes) (bufferPoint : ℕ) : Exec NetStream (ℕ × Bytes) := do
  let caplen ← loadBuffer Layout.u32 (bufferPoint + 8)
  let copylen := if buffer.length < caplen.toNat then buffer.length else caplen.toNat
  let hdrlen ← loadBuffer Layout.u16 (bufferPoint + 16)
  let data ← loadBuffer (Layout.array copylen) (bufferPoint + hdrlen.toNat)
  let bufferPoint := bufferPoint + hdrlen.toNat + caplen.toNat
  modify fun s => { s with
    bufferPoint := if s.bufferSizeReaded ≤ bufferPoint then none else some bufferPoint }
  pure (copylen, data.toList ++ buffer.drop copylen)

/-- `recv` into `buffer`: what is left of the last kernel read comes first. -/
inductive Recv {n : ℕ} (os : ℕ → ReadOutcome n) (buffer : Bytes) :
    NetStream → Outcome NetStream (ℕ × Bytes) → Prop
  | fills {s : NetStream} {readLen : ℕ} {io : IoState} : s.bufferPoint = none →
      Read os s.io (.ok readLen io) →
      Recv os buffer s ((takeRecord buffer 0).run
        { s with io := io, bufferPoint := some 0, bufferSizeReaded := readLen })
  | throws {s : NetStream} {e : Failure} {io : IoState} : s.bufferPoint = none →
      Read os s.io (.error e io) → Recv os buffer s (.error e { s with io := io })
  | goesOn {s : NetStream} {bufferPoint : ℕ} : s.bufferPoint = some bufferPoint →
      Recv os buffer s ((takeRecord buffer bufferPoint).run s)

/-- Successive calls into these buffers all return, with these answers. -/
inductive Calls {n : ℕ} (os : ℕ → ReadOutcome n) :
    NetStream → List Bytes → List (ℕ × Bytes) → NetStream → Prop
  | nil {s : NetStream} : Calls os s [] [] s
  | cons {s s' s'' : NetStream} {buffer : Bytes} {buffers : List Bytes} {answer : ℕ × Bytes}
      {answers : List (ℕ × Bytes)} : Recv os buffer s (.ok answer s') →
      Calls os s' buffers answers s'' → Calls os s (buffer :: buffers) (answer :: answers) s''

end Model

section Deliveries

/-- A record: the header, which may be longer than `bpf_header`, and the captured frame. -/
structure Record where
  header : BpfHeader
  headerRest : Bytes
  frame : Bytes
  hdrlen_eq : header.hdrlen.toNat = 18 + headerRest.length
  caplen_eq : header.caplen.toNat = frame.length

namespace Record

def bytes (r : Record) : Bytes := BpfHeader.layout.enc r.header ++ (r.headerRest ++ r.frame)

def length (r : Record) : ℕ := r.header.hdrlen.toNat + r.header.caplen.toNat

/-- What a call into `buffer` is to return for the record. -/
def answer (buffer : Bytes) (r : Record) : ℕ × Bytes :=
  (min buffer.length r.frame.length, r.frame.take buffer.length ++ buffer.drop r.frame.length)

end Record

/-- `BPF_WORDALIGN`: the next multiple of the word size. -/
def bpfWordalign (n : ℕ) : ℕ := (n + 3) / 4 * 4

/-- A record, and the bytes up to where the kernel starts the next one. -/
structure Slot where
  record : Record
  padding : Bytes

def Slot.bytes (slot : Slot) : Bytes := slot.record.bytes ++ slot.padding

/-- Every record but the last is padded to the word size; the last may be. -/
def Placed : List Slot → Prop
  | [] => True
  | [last] => last.padding = [] ∨
      last.record.length + last.padding.length = bpfWordalign last.record.length
  | slot :: next :: rest =>
      slot.record.length + slot.padding.length = bpfWordalign slot.record.length ∧
        Placed (next :: rest)

/-- What the kernel puts into the buffer at one read. -/
structure Delivery where
  slots : List Slot
  placed : Placed slots

namespace Delivery

def bytes (d : Delivery) : Bytes := d.slots.flatMap Slot.bytes

def records (d : Delivery) : List Record := d.slots.map Slot.record

end Delivery

end Deliveries

section Records

namespace Record

theorem length_eq (r : Record) : r.length = 18 + r.headerRest.length + r.frame.length := by
  rw [length, r.hdrlen_eq, r.caplen_eq]

@[simp] theorem length_bytes (r : Record) : r.bytes.length = r.length := by
  simp [bytes, length_eq, BpfHeader.layout, Layout.rename, Layout.pair, Layout.array, Layout.u32,
    Layout.u16]
  omega

/-- The members of the header as they lie in memory. -/
theorem bytes_eq (r : Record) : r.bytes = r.header.timestamp.toList ++
    (Layout.u32.enc r.header.caplen ++ (Layout.u32.enc r.header.datalen ++
      (Layout.u16.enc r.header.hdrlen ++ (r.headerRest ++ r.frame)))) := by
  simp [bytes, BpfHeader.layout, Layout.rename, Layout.pair, Layout.array]

theorem drop_caplen (r : Record) (rest : Bytes) :
    ((r.bytes ++ rest).drop 8).take Layout.u32.size = Layout.u32.enc r.header.caplen := by
  rw [bytes_eq, List.append_assoc, List.drop_left' (by simp), List.append_assoc,
    List.take_left' (Layout.enc_length _ _)]

theorem drop_hdrlen (r : Record) (rest : Bytes) :
    ((r.bytes ++ rest).drop 16).take Layout.u16.size = Layout.u16.enc r.header.hdrlen := by
  have hd : (r.header.timestamp.toList ++ (Layout.u32.enc r.header.caplen ++
      Layout.u32.enc r.header.datalen)).length = 16 := by
    simp [Layout.u32]
  rw [bytes_eq, ← List.append_assoc (Layout.u32.enc r.header.caplen), ← List.append_assoc,
    List.append_assoc, List.drop_left' hd, List.append_assoc,
    List.take_left' (Layout.enc_length _ _)]

theorem drop_frame (r : Record) (rest : Bytes) {n : ℕ} (hn : n ≤ r.frame.length) :
    ((r.bytes ++ rest).drop r.header.hdrlen.toNat).take n = r.frame.take n := by
  have hd : (BpfHeader.layout.enc r.header ++ r.headerRest).length = r.header.hdrlen.toNat := by
    rw [List.length_append, Layout.enc_length, r.hdrlen_eq]
    rfl
  rw [bytes, ← List.append_assoc, List.append_assoc, List.drop_left' hd,
    List.take_append_of_le_length hn]

end Record

theorem loadBuffer_ok {S : Type} (L : Layout S) {off : ℕ} {s : NetStream}
    (h : off + L.size ≤ s.io.buffer.length) :
    (loadBuffer L off).run s = .ok (L.dec ((s.io.buffer.drop off).take L.size))
      { s with loads := s.loads ++ [(off, L.size)] } := by
  unfold loadBuffer
  rw [run_bind_ok (run_modify _ s), run_bind_ok (run_get _), L.load_ok h]

/-- The loads of a call that finds a record at `q`. -/
def recordLoads (buffer : Bytes) (q : ℕ) (r : Record) : List (ℕ × ℕ) :=
  [(q + 8, 4), (q + 16, 2), (q + r.header.hdrlen.toNat, (r.answer buffer).1)]

/-- A call with the cursor at a record returns its frame and moves the cursor by its length. -/
theorem takeRecord_ok {s : NetStream} {q : ℕ} {r : Record} {rest : Bytes} (buffer : Bytes)
    (hdrop : s.io.buffer.drop q = r.bytes ++ rest) :
    (takeRecord buffer q).run s = .ok (r.answer buffer) { s with
      bufferPoint := if s.bufferSizeReaded ≤ q + r.length then none else some (q + r.length)
      loads := s.loads ++ recordLoads buffer q r } := by
  have hlen := congrArg List.length hdrop
  rw [List.length_drop, List.length_append, r.length_bytes, r.length_eq] at hlen
  have hcap := r.caplen_eq
  have hhdr := r.hdrlen_eq
  have h4 : Layout.u32.size = 4 := rfl
  have h2 : Layout.u16.size = 2 := rfl
  have hd8 : (s.io.buffer.drop (q + 8)).take Layout.u32.size =
      Layout.u32.enc r.header.caplen := by
    rw [← List.drop_drop, hdrop, r.drop_caplen]
  have hd16 : (s.io.buffer.drop (q + 16)).take Layout.u16.size =
      Layout.u16.enc r.header.hdrlen := by
    rw [← List.drop_drop, hdrop, r.drop_hdrlen]
  have hdata : (s.io.buffer.drop (q + r.header.hdrlen.toNat)).take
      (min buffer.length r.frame.length) = r.frame.take (min buffer.length r.frame.length) := by
    rw [← List.drop_drop, hdrop, r.drop_frame _ (Nat.min_le_right _ _)]
  unfold takeRecord
  rw [run_bind_ok (loadBuffer_ok _ (by omega)), hd8, Layout.dec_enc,
    run_bind_ok (loadBuffer_ok _ (by dsimp only; omega)), hd16, Layout.dec_enc, hcap, ← min_def_lt,
    run_bind_ok (loadBuffer_ok _ (by dsimp only [Layout.array]; omega)),
    run_bind_ok (run_modify _ _)]
  have hframe : ((Layout.array (min buffer.length r.frame.length)).dec
      ((s.io.buffer.drop (q + r.header.hdrlen.toNat)).take
        (min buffer.length r.frame.length))).toList = r.frame.take buffer.length := by
    rw [hdata, List.take_eq_take_min (i := buffer.length)]
    exact (Layout.array _).enc_dec _ (by simp [Layout.array])
  have hrest : buffer.drop (min buffer.length r.frame.length) = buffer.drop r.frame.length := by
    rw [min_comm, ← List.drop_eq_drop_min]
  change EStateM.Result.ok _ _ = _
  rw [show (Layout.array (min buffer.length r.frame.length)).size =
    min buffer.length r.frame.length from rfl, hframe, hrest]
  simp [Record.answer, Record.length, recordLoads, hcap, h4, h2, Nat.add_assoc]

end Records

section Splitting

/-- The loads that came to those of `s` lie inside the bytes of the last delivery. -/
def LoadsWithin (delivered : ℕ) (s s' : NetStream) : Prop :=
  ∃ loads, s'.loads = s.loads ++ loads ∧ ∀ load ∈ loads, load.1 + load.2 ≤ delivered

theorem LoadsWithin.trans {delivered : ℕ} {s s' s'' : NetStream} (h : LoadsWithin delivered s s')
    (h' : LoadsWithin delivered s' s'') : LoadsWithin delivered s s'' := by
  obtain ⟨loads, hl, hin⟩ := h
  obtain ⟨loads', hl', hin'⟩ := h'
  refine ⟨loads ++ loads', by rw [hl', hl, List.append_assoc], ?_⟩
  simp only [List.mem_append]
  rintro load (h | h)
  · exact hin load h
  · exact hin' load h

/-- The cursor of `s` is at the first of these slots, which are all that is left. -/
structure AtSlots (s : NetStream) (q : ℕ) (slots : List Slot) : Prop where
  bufferPoint : s.bufferPoint = some q
  drop : ∃ rest, s.io.buffer.drop q = slots.flatMap Slot.bytes ++ rest
  bufferSizeReaded : s.bufferSizeReaded = q + (slots.flatMap Slot.bytes).length

variable {n : ℕ} {os : ℕ → ReadOutcome n}

/-- The state a call at a record leaves. -/
def afterRecord (buffer : Bytes) (q : ℕ) (r : Record) (s : NetStream) : NetStream :=
  { s with
    bufferPoint := if s.bufferSizeReaded ≤ q + r.length then none else some (q + r.length)
    loads := s.loads ++ recordLoads buffer q r }

theorem AtSlots.recv {s : NetStream} {q : ℕ} {slot : Slot} {slots : List Slot}
    (h : AtSlots s q (slot :: slots)) (buffer : Bytes) :
    Recv os buffer s (.ok (slot.record.answer buffer) (afterRecord buffer q slot.record s)) := by
  obtain ⟨rest, hdrop⟩ := h.drop
  rw [List.flatMap_cons, Slot.bytes, List.append_assoc, List.append_assoc] at hdrop
  have hr : Recv os buffer s ((takeRecord buffer q).run s) := .goesOn h.bufferPoint
  rw [takeRecord_ok buffer hdrop] at hr
  exact hr

theorem AtSlots.loadsWithin {s : NetStream} {q : ℕ} {slot : Slot} {slots : List Slot}
    (h : AtSlots s q (slot :: slots)) (buffer : Bytes) :
    LoadsWithin s.bufferSizeReaded s (afterRecord buffer q slot.record s) := by
  have hread := h.bufferSizeReaded
  have hlen := slot.record.length_eq
  have hhdr := slot.record.hdrlen_eq
  simp only [List.flatMap_cons, Slot.bytes, List.length_append, Record.length_bytes] at hread
  refine ⟨_, rfl, ?_⟩
  simp only [recordLoads, Record.answer, List.forall_mem_cons, List.not_mem_nil, false_implies,
    implies_true, and_true]
  omega

/-- Without padding behind the record the cursor is at the next one. -/
theorem AtSlots.next {s : NetStream} {q : ℕ} {slot next : Slot} {slots : List Slot}
    (h : AtSlots s q (slot :: next :: slots)) (hpad : slot.padding = []) (buffer : Bytes) :
    AtSlots (afterRecord buffer q slot.record s) (q + slot.record.length) (next :: slots) := by
  have hread := h.bufferSizeReaded
  have hlen := next.record.length_eq
  obtain ⟨rest, hdrop⟩ := h.drop
  rw [List.flatMap_cons, Slot.bytes, hpad, List.append_nil] at hread hdrop
  rw [List.length_append, Record.length_bytes] at hread
  constructor
  · refine if_neg ?_
    simp only [List.flatMap_cons, Slot.bytes, List.length_append, Record.length_bytes] at hread
    omega
  · refine ⟨rest, ?_⟩
    rw [← List.drop_drop]
    change (s.io.buffer.drop q).drop _ = _
    rw [hdrop, List.append_assoc, List.drop_left' (Record.length_bytes _)]
  · rw [Nat.add_assoc, ← hread]
    rfl

theorem AtSlots.last {s : NetStream} {q : ℕ} {slot : Slot} (h : AtSlots s q [slot])
    (buffer : Bytes) :
    (afterRecord buffer q slot.record s).bufferPoint = none ↔ slot.padding = [] := by
  have hread := h.bufferSizeReaded
  simp only [List.flatMap_cons, List.flatMap_nil, Slot.bytes, List.length_append,
    Record.length_bytes, List.length_nil] at hread
  simp only [afterRecord, ite_eq_left_iff, reduceCtorEq, imp_false, Decidable.not_not]
  rw [hread, ← List.length_eq_zero_iff]
  omega

/-- Slots without padding are taken one by one. -/
theorem calls_unpadded (os : ℕ → ReadOutcome n) {slot : Slot} {slots : List Slot}
    (hpad : ∀ slot' ∈ slot :: slots, slot'.padding = []) {s : NetStream} {q : ℕ}
    (h : AtSlots s q (slot :: slots)) {buffers : List Bytes}
    (hbuf : buffers.length = (slot :: slots).length) :
    ∃ s', Calls os s buffers
        (List.zipWith Record.answer buffers ((slot :: slots).map Slot.record)) s' ∧
      LoadsWithin s.bufferSizeReaded s s' ∧ s'.bufferPoint = none ∧ s'.io = s.io := by
  induction slots generalizing slot s q buffers with
  | nil =>
    obtain ⟨buffer, rfl⟩ := List.length_eq_one_iff.mp hbuf
    exact ⟨_, .cons (h.recv buffer) .nil, h.loadsWithin buffer,
      (h.last buffer).mpr (hpad slot (by simp)), rfl⟩
  | cons next slots ih =>
    cases buffers with
    | nil => simp at hbuf
    | cons buffer buffers =>
      obtain ⟨s', hcalls, hloads, hnone, hio⟩ := ih (fun slot' hs => hpad slot' (by simp [hs]))
        (h.next (hpad slot (by simp)) buffer) (Nat.succ_injective hbuf)
      exact ⟨s', .cons (h.recv buffer) hcalls, (h.loadsWithin buffer).trans hloads, hnone, hio⟩

end Splitting

section Deliveries

variable {n : ℕ} {os : ℕ → ReadOutcome n}

/-- What the calls behind a kernel read of `d` are to do: each looks only at bytes the kernel
delivered, and together they return the frames of all records in order, each cut to its buffer,
with no other kernel read until the last is taken. -/
structure SplitsAt (os : ℕ → ReadOutcome n) (s : NetStream) (d : Delivery) : Prop where
  inside : ∀ buffer r, Recv os buffer s r → LoadsWithin d.bytes.length s (finalState r)
  frames : ∀ buffers : List Bytes, buffers.length = d.records.length →
    ∃ s', Calls os s buffers (List.zipWith Record.answer buffers d.records) s' ∧
      LoadsWithin d.bytes.length s s' ∧ s'.io.calls ≤ s.io.calls + 1 ∧ s'.bufferPoint = none

/-- This holds whenever the kernel delivers `d` into a buffer of any size. -/
def Splits (d : Delivery) : Prop :=
  ∀ (n : ℕ) (os : ℕ → ReadOutcome n) (s : NetStream) (fits : d.bytes.length ≤ n),
    s.io.buffer.length = n → s.bufferPoint = none → os s.io.calls = .data d.bytes fits →
      SplitsAt os s d

theorem Recv.unique {buffer : Bytes} {s : NetStream} {r r' : Outcome NetStream (ℕ × Bytes)}
    (h : Recv os buffer s r) (h' : Recv os buffer s r') : r = r' := by
  cases h with
  | fills hp hr =>
    cases h' with
    | fills _ hr' => cases hr.unique hr'; rfl
    | throws _ hr' => cases hr.unique hr'
    | goesOn hp' => cases hp.symm.trans hp'
  | throws hp hr =>
    cases h' with
    | fills _ hr' => cases hr.unique hr'
    | throws _ hr' => cases hr.unique hr'; rfl
    | goesOn hp' => cases hp.symm.trans hp'
  | goesOn hp =>
    cases h' with
    | fills hp' => cases hp.symm.trans hp'
    | throws hp' => cases hp.symm.trans hp'
    | goesOn hp' => cases hp.symm.trans hp'; rfl

/-- The stream after the kernel has delivered `bytes`. -/
def filled (bytes : Bytes) (s : NetStream) : NetStream :=
  { s with
    io := { s.io with
      buffer := bytes ++ s.io.buffer.drop bytes.length, calls := s.io.calls + 1 }
    bufferPoint := some 0
    bufferSizeReaded := bytes.length }

/-- A first call is a kernel read and then a call with the cursor at its first byte. -/
theorem recv_filled {s : NetStream} {bytes : Bytes} {fits : bytes.length ≤ n}
    (hbuf : s.io.buffer.length = n) (hpoint : s.bufferPoint = none)
    (hos : os s.io.calls = .data bytes fits) (hlen : bytes.length ≠ eintr) {buffer : Bytes}
    {r : Outcome NetStream (ℕ × Bytes)} (h : Recv os buffer (filled bytes s) r) :
    Recv os buffer s r := by
  have hread := readPass_data hos hbuf.ge
  rw [if_neg hlen] at hread
  have hgo : Recv os buffer (filled bytes s) ((takeRecord buffer 0).run (filled bytes s)) :=
    .goesOn rfl
  rw [h.unique hgo]
  exact .fills hpoint (.returns hread)

theorem atSlots_filled (s : NetStream) (d : Delivery) : AtSlots (filled d.bytes s) 0 d.slots where
  bufferPoint := rfl
  drop := ⟨_, rfl⟩
  bufferSizeReaded := (Nat.zero_add _).symm

theorem bytes_length_ne {slot : Slot} {slots : List Slot} {d : Delivery}
    (h : d.slots = slot :: slots) : d.bytes.length ≠ eintr := by
  have hlen := slot.record.length_eq
  rw [Delivery.bytes, h, List.flatMap_cons, Slot.bytes, List.length_append, List.length_append,
    Record.length_bytes]
  have he : eintr = 4 := rfl
  omega

/-- The kernel left no padding in what it delivered, and delivered something. -/
def Delivery.Unpadded (d : Delivery) : Prop :=
  d.slots ≠ [] ∧ ∀ slot ∈ d.slots, slot.padding = []

/-- The calls behind a kernel read that left no padding. -/
theorem calls_delivery {d : Delivery} (h : d.Unpadded) {s : NetStream}
    {fits : d.bytes.length ≤ n} (hbuf : s.io.buffer.length = n) (hpoint : s.bufferPoint = none)
    (hos : os s.io.calls = .data d.bytes fits) {buffers : List Bytes}
    (hb : buffers.length = d.records.length) :
    ∃ s', Calls os s buffers (List.zipWith Record.answer buffers d.records) s' ∧
      LoadsWithin d.bytes.length s s' ∧ s'.bufferPoint = none ∧ s'.io = (filled d.bytes s).io := by
  have hat := atSlots_filled s d
  have hpad := h.2
  cases hslots : d.slots with
  | nil => exact absurd hslots h.1
  | cons slot slots =>
    rw [hslots] at hat hpad
    rw [Delivery.records, hslots] at hb ⊢
    obtain ⟨s', hcalls, hloads, hnone, hio⟩ :=
      calls_unpadded os hpad hat (by simpa using hb)
    refine ⟨s', ?_, hloads, hnone, hio⟩
    cases hcalls with
    | nil => simp at hb
    | cons hr hrest =>
      exact .cons (recv_filled hbuf hpoint hos (bytes_length_ne hslots) hr) hrest

theorem splits_of_unpadded {d : Delivery} (h : d.Unpadded) : Splits d := by
  intro n os s fits hbuf hpoint hos
  constructor
  · intro buffer r hr
    have hat := atSlots_filled s d
    cases hslots : d.slots with
    | nil => exact absurd hslots h.1
    | cons slot slots =>
      rw [hslots] at hat
      rw [hr.unique (recv_filled hbuf hpoint hos (bytes_length_ne hslots) (hat.recv buffer))]
      exact hat.loadsWithin buffer
  · intro buffers hb
    obtain ⟨s', hcalls, hloads, hnone, hio⟩ := calls_delivery h hbuf hpoint hos hb
    exact ⟨s', hcalls, hloads, hio ▸ Nat.le_refl _, hnone⟩

end Deliveries

section Padding

variable {n : ℕ} {os : ℕ → ReadOutcome n}

/-- No byte of the time stamp is the lowest byte of `caplen`. -/
structure Telltale (r : Record) : Prop where
  eq : r.header.timestamp = Vector.replicate 8 (UInt8.ofNat (r.frame.length + 1))

/-- What a cursor that is still in front of the padding takes for `caplen`. -/
theorem misread_caplen {r : Record} (h : Telltale r) {padding : Bytes} (hpos : padding ≠ [])
    (hle : padding.length ≤ 3) (rest : Bytes) :
    (Layout.u32.dec (((padding ++ (r.bytes ++ rest)).drop 8).take 4)).toNat % 256 =
      (r.frame.length + 1) % 256 := by
  have hpos' := List.length_pos_iff.mpr hpos
  have hdrop : (padding ++ (r.bytes ++ rest)).drop 8 =
      UInt8.ofNat (r.frame.length + 1) :: (r.bytes ++ rest).drop (9 - padding.length) := by
    have hlen : r.bytes.length = r.length := r.length_bytes
    have hlong := r.length_eq
    rw [List.drop_append, List.drop_of_length_le (by omega), List.nil_append,
      List.drop_eq_getElem_cons (by rw [List.length_append]; omega),
      show 8 - padding.length + 1 = 9 - padding.length by omega,
      List.getElem_append_left (by omega)]
    simp only [r.bytes_eq]
    rw [List.getElem_append_left (by simp; omega), Vector.getElem_toList, h.eq,
      Vector.getElem_replicate]
  rw [hdrop, List.take_succ_cons]
  simp only [Layout.u32, List.getD_cons_zero, UInt32.toNat_ofNat', UInt8.toNat_ofNat']
  omega

/-- A call that returns has copied as much as it took for `caplen`. -/
theorem takeRecord_eq_ok {buffer : Bytes} {q : ℕ} {s s' : NetStream} {answer : ℕ × Bytes}
    (h : (takeRecord buffer q).run s = .ok answer s') :
    answer.1 =
      min buffer.length (Layout.u32.dec ((s.io.buffer.drop (q + 8)).take 4)).toNat := by
  obtain ⟨caplen, s₁, hcap, h⟩ := bind_eq_ok.mp h
  obtain ⟨hdrlen, s₂, -, h⟩ := bind_eq_ok.mp h
  obtain ⟨data, s₃, -, h⟩ := bind_eq_ok.mp h
  cases h
  obtain ⟨_, t, hlog, hcap⟩ := bind_eq_ok.mp hcap
  cases hlog
  obtain ⟨-, rfl, -⟩ := (Layout.load_eq_ok _).mp hcap
  exact (min_def_lt _ _).symm

/-- Behind a padded record the next call starts too early and returns something else. -/
theorem AtSlots.misses {s s₂ : NetStream} {q : ℕ} {slot next : Slot} {slots : List Slot}
    (h : AtSlots s q (slot :: next :: slots)) (hpad : slot.padding ≠ [])
    (hle : slot.padding.length ≤ 3) (hnext : Telltale next.record) {big : Bytes}
    (hbig : 2^32 ≤ big.length) :
    ¬ Recv os big (afterRecord big q slot.record s) (.ok (next.record.answer big) s₂) := by
  intro hr
  have hread := h.bufferSizeReaded
  obtain ⟨rest, hdrop⟩ := h.drop
  have hpoint : (afterRecord big q slot.record s).bufferPoint =
      some (q + slot.record.length) := by
    have hpos := List.length_pos_iff.mpr hpad
    refine if_neg ?_
    simp only [List.flatMap_cons, Slot.bytes, List.length_append, Record.length_bytes] at hread
    omega
  have hat : s.io.buffer.drop (q + slot.record.length) = slot.padding ++ (next.record.bytes ++
      (next.padding ++ (slots.flatMap Slot.bytes ++ rest))) := by
    rw [← List.drop_drop, hdrop]
    simp only [List.flatMap_cons, Slot.bytes, List.append_assoc]
    rw [List.drop_left' (Record.length_bytes _)]
  have hlen := takeRecord_eq_ok (hr.unique (.goesOn hpoint)).symm
  have hmod := misread_caplen hnext hpad hle (next.padding ++ (slots.flatMap Slot.bytes ++ rest))
  rw [← hat, List.drop_drop] at hmod
  change min big.length next.record.frame.length = _ at hlen
  have hlt := next.record.header.caplen.toNat_lt
  have hcap := next.record.caplen_eq
  have hlt' := (Layout.u32.dec
    ((s.io.buffer.drop (q + slot.record.length + 8)).take 4)).toNat_lt
  change min big.length _ = min big.length (Layout.u32.dec
    ((s.io.buffer.drop (q + slot.record.length + 8)).take 4)).toNat at hlen
  omega

theorem Placed.padding_le {slot next : Slot} {slots : List Slot}
    (h : Placed (slot :: next :: slots)) : slot.padding.length ≤ 3 := by
  have hw := h.1
  rw [bpfWordalign] at hw
  omega

/-- Calls that take all slots into large buffers and end up behind the last found no padding. -/
theorem unpadded_of_calls {slot : Slot} {slots : List Slot} (hplaced : Placed (slot :: slots))
    (hstamp : ∀ slot' ∈ slot :: slots, Telltale slot'.record) {big : Bytes}
    (hbig : 2^32 ≤ big.length) {s s' : NetStream} {q : ℕ} (h : AtSlots s q (slot :: slots))
    (hcalls : Calls os s (List.replicate (slot :: slots).length big)
      (List.zipWith Record.answer (List.replicate (slot :: slots).length big)
        ((slot :: slots).map Slot.record)) s')
    (hnone : s'.bufferPoint = none) : ∀ slot' ∈ slot :: slots, slot'.padding = [] := by
  induction slots generalizing slot s q with
  | nil =>
    cases hcalls with
    | cons hr hrest =>
      cases hr.unique (h.recv big)
      cases hrest
      exact List.forall_mem_singleton.mpr ((h.last big).mp hnone)
  | cons next slots ih =>
    cases hcalls with
    | cons hr hrest =>
      cases hr.unique (h.recv big)
      by_cases hpad : slot.padding = []
      · exact List.forall_mem_cons.mpr ⟨hpad, ih hplaced.2
          (fun slot' hs => hstamp slot' (by simp [hs])) (h.next hpad big) hrest⟩
      · cases hrest with
        | cons hr' _ =>
          exact absurd hr' (h.misses hpad hplaced.padding_le (hstamp next (by simp)) hbig)

/-- A buffer that takes every frame. -/
theorem exists_big : ∃ big : Bytes, 2^32 ≤ big.length :=
  ⟨List.replicate (2^32) 0, List.length_replicate.ge⟩

/-- A delivery of nothing is taken for a record all the same. -/
theorem not_splits_nil {d : Delivery} (h : d.slots = []) : ¬ Splits d := by
  intro hsplits
  have hbytes : d.bytes = [] := by rw [Delivery.bytes, h, List.flatMap_nil]
  have hat := hsplits _ (fun _ => .data d.bytes le_rfl)
    ⟨⟨List.replicate d.bytes.length 0, 0, 0⟩, none, 0, []⟩ le_rfl (by simp) rfl rfl
  have hload := hat.inside [] _ (recv_filled (by simp) rfl rfl
    (by rw [hbytes]; decide) (.goesOn rfl))
  rw [hbytes] at hload
  obtain ⟨loads, hl, hin⟩ := hload
  have hl' : loads = [(8, 4)] := hl.symm
  rw [hl'] at hin
  exact absurd (hin (8, 4) (by simp)) (by decide)

theorem unpadded_of_splits {d : Delivery} (hstamp : ∀ r ∈ d.records, Telltale r)
    (h : Splits d) : d.Unpadded := by
  cases hslots : d.slots with
  | nil => exact absurd h (not_splits_nil hslots)
  | cons slot slots =>
    have hlen := bytes_length_ne hslots
    have hat := h _ (fun _ => .data d.bytes le_rfl)
      ⟨⟨List.replicate d.bytes.length 0, 0, 0⟩, none, 0, []⟩ le_rfl (by simp) rfl rfl
    have hfilled := atSlots_filled ⟨⟨List.replicate d.bytes.length 0, 0, 0⟩, none, 0, []⟩ d
    have hplaced := d.placed
    rw [Delivery.records] at hstamp
    rw [hslots] at hfilled hplaced hstamp
    obtain ⟨big, hbig⟩ := exists_big
    obtain ⟨s', hcalls, -, -, hnone⟩ :=
      hat.frames (List.replicate d.records.length big) List.length_replicate
    rw [Delivery.records, hslots, List.length_map] at hcalls
    refine ⟨by simp [hslots], ?_⟩
    rw [hslots]
    cases hcalls with
    | cons hr hrest =>
      have hr' := hr.unique (recv_filled (by simp) rfl rfl hlen (hfilled.recv _))
      cases hr'
      exact unpadded_of_calls hplaced (by simpa using hstamp) hbig
        hfilled (.cons (hfilled.recv _) hrest) hnone

end Padding

section Alignment

def Record.stamped (stamp : Vector UInt8 8) (r : Record) : Record :=
  { r with header := { r.header with timestamp := stamp } }

def Slot.stamped (stamp : Record → Vector UInt8 8) (slot : Slot) : Slot :=
  { slot with record := slot.record.stamped (stamp slot.record) }

theorem placed_stamped (stamp : Record → Vector UInt8 8) {slots : List Slot} (h : Placed slots) :
    Placed (slots.map (Slot.stamped stamp)) := by
  induction slots with
  | nil => trivial
  | cons slot slots ih =>
    cases slots with
    | nil => exact h
    | cons next slots => exact ⟨h.1, ih h.2⟩

/-- The same frames at the same places, captured at other times. -/
def Delivery.stamped (stamp : Record → Vector UInt8 8) (d : Delivery) : Delivery :=
  ⟨d.slots.map (Slot.stamped stamp), placed_stamped stamp d.placed⟩

theorem unpadded_stamped (stamp : Record → Vector UInt8 8) (d : Delivery) :
    (d.stamped stamp).Unpadded ↔ d.Unpadded := by
  simp [Delivery.Unpadded, Delivery.stamped, Slot.stamped]

/-- A delivery is split into its frames, whatever the times they were captured at, exactly when it
holds at least one record and no padding. -/
theorem splits_iff_unpadded (d : Delivery) :
    (∀ stamp, Splits (d.stamped stamp)) ↔ d.Unpadded := by
  constructor
  · intro h
    let telltale (r : Record) := Vector.replicate 8 (UInt8.ofNat (r.frame.length + 1))
    refine (unpadded_stamped telltale d).mp (unpadded_of_splits ?_ (h telltale))
    intro r hr
    obtain ⟨slot, hslot, rfl⟩ := List.mem_map.mp hr
    obtain ⟨slot', -, rfl⟩ := List.mem_map.mp hslot
    exact ⟨rfl⟩
  · intro h stamp
    exact splits_of_unpadded ((unpadded_stamped stamp d).mpr h)

/-- A record of a frame of one byte, with the smallest header. -/
def oneByte (b : UInt8) : Record where
  header := ⟨Vector.replicate 8 2, 1, 1, 18⟩
  headerRest := []
  frame := [b]
  hdrlen_eq := rfl
  caplen_eq := rfl

theorem telltale_oneByte (b : UInt8) : Telltale (oneByte b) := ⟨rfl⟩

/-- Two frames of one byte in one kernel read. -/
def twoFrames : Delivery := ⟨[⟨oneByte 7, [0]⟩, ⟨oneByte 9, []⟩], rfl, .inl rfl⟩

def twoFramesRead (_ : ℕ) : ReadOutcome 39 := .data twoFrames.bytes (by decide)

def opened : NetStream := ⟨⟨List.replicate 39 0, 0, 0⟩, none, 0, []⟩

/-- The second call looks for the header one byte too early, and then for the frame far behind the
end of the buffer. -/
theorem twoFrames_lost :
    (∃ s₁ s₂, Recv twoFramesRead [0, 0] opened (.ok (1, [7, 0]) s₁) ∧
      Recv twoFramesRead [0, 0] s₁ (.error .loadFault s₂)) ∧ ¬ Splits twoFrames := by
  have hfirst : Recv twoFramesRead [0, 0] opened _ :=
    recv_filled rfl rfl rfl (by decide) ((atSlots_filled opened twoFrames).recv [0, 0])
  have hsecond : Recv twoFramesRead [0, 0]
      (afterRecord [0, 0] 0 (oneByte 7) (filled twoFrames.bytes opened)) (.error .loadFault _) :=
    @Recv.goesOn _ _ _ _ 19 rfl
  refine ⟨⟨_, _, hfirst, hsecond⟩, fun h => ?_⟩
  have hpad := unpadded_of_splits (by simp [twoFrames, Delivery.records, telltale_oneByte]) h
  exact absurd (hpad.2 ⟨oneByte 7, [0]⟩ (by simp [twoFrames])) (by decide)

end Alignment

end Pgen.BpfReceive
