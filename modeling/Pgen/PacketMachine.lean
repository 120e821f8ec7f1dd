import Pgen.PacketReuse
import Pgen.Refinement

/-!
# What a packet object is

Behind its buffer and its list of pointers a packet is three things: the header members, the bytes
that the last `compile` made of them, and the contents. Under every sequence of calls an object
answers as this triple does. Only where `raw` would show bytes that no `compile` has written, and
where a header cannot be encoded at all, the triple leaves the answer open.
-/
namespace Pgen.PacketMachine
open ByteMemory CorePacket ProtocolHeaders ProtocolIp PacketCopies PacketReuse Refinement

section Calls

variable {k : Kind}

/-- The calls of a client. -/
inductive Call (k : Kind)
  | op (op : Op k)
  | clear
  | analyze (buffer : Bytes)
  | raw
  | length
  | contents
  | headerLength

inductive Answer
  | done
  | bytes (mem : Bytes)
  | size (n : ℕ)
  deriving DecidableEq, Repr

/-- Look at the object without changing it. -/
def observe {σ : Type} (view : σ → Except Failure Answer) : Exec σ Answer := do
  match view (← get) with
  | .ok a => pure a
  | .error e => throw e

def Call.run : Call k → Exec (Packet (Members k)) Answer
  | .op o => do
    o.run
    pure .done
  | .clear => do
    Packet.clear
    pure .done
  | .analyze buffer => do
    Packet.analyze buffer buffer.length
    pure .done
  | .raw => observe fun p => p.rawData.map .bytes
  | .length => observe fun p => p.length.map .size
  | .contents => observe fun p => p.contents.map .bytes
  | .headerLength => observe fun p => .ok (.size p.headerLength)

end Calls

section Images

/-- What the calls show of a packet object. -/
structure Image (M : Type) where
  members : M
  compiled : Bytes
  contents : Bytes

variable {M : Type} [PacketClass M]

def headerLength (m : M) : ℕ := ((headers : List (HeaderPtr M)).map (·.length m)).sum

/-- What writing the header into memory of its own leaves there, when it returns. -/
def encodeHeader (m : M) (ph : HeaderPtr M) : Option Bytes :=
  match (ph.write m (ph.length m)).run (List.replicate (ph.length m) 0) with
  | .ok _ w => some w
  | .error _ _ => none

def encodeAll (m : M) : List (HeaderPtr M) → Option Bytes
  | [] => some []
  | ph :: phs => do
    let w ← encodeHeader m ph
    let ws ← encodeAll m phs
    pure (w ++ ws)

def encode (m : M) : Option Bytes := encodeAll m headers

namespace Image

def putMembers (m : M) (s : Image M) : Image M := { s with members := m }

def setContents (buffer : Bytes) (buflen : ℕ) : Exec (Image M) Unit := do
  let data ← load buffer 0 buflen
  modify fun s => { s with contents := data }

def compile : Exec (Image M) Unit := do
  match encode (← get).members with
  | some w => modify fun s => { s with compiled := w }
  | none => throw .storeFault

def analyze (buffer : Bytes) : Exec (Image M) Unit := do
  let (pointer, bufferlen) ← onMember members putMembers
    (Packet.readHeaders headers buffer buffer.length)
  setContents pointer bufferlen

/-- The headers as they were compiled; of headers that got shorter, the last bytes. -/
def raw (s : Image M) : Except Failure Bytes :=
  if headerLength s.members ≤ s.compiled.length then
    .ok (s.compiled.drop (s.compiled.length - headerLength s.members) ++ s.contents)
  else .error .loadFault

end Image

variable {k : Kind}

/-- The same calls on the triple. -/
def Call.spec : Call k → Exec (Image (Members k)) Answer
  | .op (.assign f) => do
    modify fun s => s.putMembers (PacketReuse.assign k f s.members)
    pure .done
  | .op (.setContents buffer) => do
    Image.setContents buffer buffer.length
    pure .done
  | .op .compile => do
    Image.compile
    pure .done
  | .clear => do
    onMember Image.members Image.putMembers PacketClass.clear
    pure .done
  | .analyze buffer => do
    Image.analyze buffer
    pure .done
  | .raw => observe fun s => s.raw.map .bytes
  | .length =>
    observe fun s => .ok (.size (s.contents.length + PacketMachine.headerLength s.members))
  | .contents => observe fun s => .ok (.bytes s.contents)
  | .headerLength => observe fun s => .ok (.size (PacketMachine.headerLength s.members))

/-- The buffer of the object ends with the compiled headers and the contents. -/
structure Represents (p : Packet M) (s : Image M) : Prop where
  members : p.members = s.members
  vec : ∃ pre, p.raw.vec = pre ++ (s.compiled ++ s.contents) ∧
    pre.length + s.compiled.length = 128

/-- An object of which no `compile` is known. -/
def imageOf (p : Packet M) : Image M := ⟨p.members, [], p.raw.vec.drop 128⟩

omit [PacketClass M] in
theorem represents_imageOf (p : Packet M) : Represents p (imageOf p) where
  members := rfl
  vec := ⟨p.raw.vec.take 128, vec_eq p, p.raw.length_take_pivot⟩

end Images

section Steps

variable {M : Type} [PacketClass M]

theorem refines_observe {σ τ : Type} {R : σ → τ → Prop} {view : σ → Except Failure Answer}
    {view' : τ → Except Failure Answer}
    (h : ∀ {s t}, R s t → view s = view' t ∨ ∃ e, e.IsFault ∧ view' t = .error e) :
    Refines R (observe view) (observe view') := by
  intro s t hst
  have hrun {σ : Type} (view : σ → Except Failure Answer) (s : σ) : (observe view).run s =
      match view s with
      | .ok a => .ok a s
      | .error e => .error e s := by
    unfold observe
    rw [run_bind_ok (run_get s)]
    cases view s <;> rfl
  rw [hrun, hrun]
  rcases h hst with heq | ⟨e, he, hview⟩
  · rw [heq]
    cases hv : view' t with
    | ok a => exact .returned hst
    | error e =>
      by_cases he : e.IsFault
      · exact .undefined he
      · exact .thrown he hst
  · rw [hview]
    exact .undefined he

omit [PacketClass M] in
theorem refines_setContents (buffer : Bytes) (n : ℕ) :
    Refines (Represents (M := M)) (Packet.setContents buffer n) (Image.setContents buffer n) := by
  rcases Nat.lt_or_ge buffer.length n with hlt | hle
  · intro p s _
    unfold Image.setContents
    rw [run_bind_error (load_fault (by omega) s)]
    exact .undefined trivial
  rintro p s ⟨hmem, pre, hvec, hlen⟩
  unfold Image.setContents
  rw [Packet.setContents_ok hle, run_bind_ok (load_ok (by omega) s), List.drop_zero, run_modify]
  refine .returned ?_
  have htake : p.raw.vec.take 128 = pre ++ s.compiled := by
    rw [hvec, ← List.append_assoc, List.take_left' (by rw [List.length_append, hlen])]
  refine ⟨hmem, pre, ?_, hlen⟩
  change p.raw.vec.take 128 ++ buffer.take n = _
  rw [htake, List.append_assoc]

omit [PacketClass M] in
theorem Represents.put {p : Packet M} {s : Image M} (h : Represents p s) (m : M) :
    Represents { p with members := m } (s.putMembers m) := ⟨rfl, h.vec⟩

omit [PacketClass M] in
theorem refines_members {α : Type} (act : Exec M α) :
    Refines (Represents (M := M)) (onMember Packet.members (fun m p => { p with members := m }) act)
      (onMember Image.members Image.putMembers act) :=
  refines_onMember act (fun h => h.members) fun h m => h.put m

theorem refines_analyze (buffer : Bytes) :
    Refines (Represents (M := M)) (Packet.analyze buffer buffer.length) (Image.analyze buffer) :=
  refines_bind (refines_members _) fun r => refines_setContents r.1 r.2

omit [PacketClass M] in
theorem write_zeros {m : M} {ph : HeaderPtr M} {w : Bytes} (h : ph.Fills m w) :
    (ph.write m (ph.length m)).run (List.replicate (ph.length m) 0) = .ok () w := by
  have hlen : (List.replicate (ph.length m) (0 : UInt8)).length = ph.length m :=
    List.length_replicate
  rw [h.write_ok hlen.ge, List.drop_of_length_le hlen.le, List.append_nil]

variable [RegularPacket M]

/-- The encoding of a header does not depend on the memory it is written to. -/
theorem encodeHeader_fills {m : M} {ph : HeaderPtr M} (hph : ph ∈ (headers : List (HeaderPtr M)))
    {w : Bytes} (h : encodeHeader m ph = some w) : ph.Fills m w := by
  unfold encodeHeader at h
  cases hr : (ph.write m (ph.length m)).run (List.replicate (ph.length m) 0) with
  | error e mem => simp [hr] at h
  | ok u mem =>
    obtain ⟨w', hw'⟩ := RegularPacket.write_fills ph hph hr
    have hrun := write_zeros hw'
    simp only [hrun, Option.some.injEq] at h
    exact h ▸ hw'

theorem encodeAll_fills {m : M} {phs : List (HeaderPtr M)}
    (hphs : ∀ ph ∈ phs, ph ∈ (headers : List (HeaderPtr M))) {w : Bytes}
    (h : encodeAll m phs = some w) :
    ∃ ws, List.Forall₂ (fun ph w => ph.Fills m w) phs ws ∧ w = ws.flatten := by
  induction phs generalizing w with
  | nil =>
    cases h
    exact ⟨[], .nil, rfl⟩
  | cons ph phs ih =>
    rw [List.forall_mem_cons] at hphs
    simp only [encodeAll, Option.bind_eq_bind, Option.bind_eq_some_iff] at h
    obtain ⟨w₁, h₁, w₂, h₂, h⟩ := h
    cases h
    obtain ⟨ws, hws, rfl⟩ := ih hphs.2 h₂
    exact ⟨w₁ :: ws, .cons (encodeHeader_fills hphs.1 h₁) hws, rfl⟩

theorem encode_fills {m : M} {w : Bytes} (h : encode m = some w) :
    ∃ ws, List.Forall₂ (fun ph w => ph.Fills m w) headers ws ∧ w = ws.flatten :=
  encodeAll_fills (fun _ hph => hph) h

theorem refines_compile : Refines (Represents (M := M)) Packet.compile Image.compile := by
  rintro p s ⟨hmem, pre, hvec, hlen⟩
  unfold Image.compile
  rw [run_bind_ok (run_get s)]
  cases he : encode s.members with
  | none => exact .undefined trivial
  | some w =>
    obtain ⟨ws, hws, rfl⟩ := encode_fills he
    rw [← hmem] at hws
    have hfit : ws.flatten.length ≤ 128 := by
      rw [flatten_length hws]
      exact RegularPacket.headerLength_le p
    rw [← List.append_assoc] at hvec
    have hpre : (pre ++ s.compiled).length = 128 := by rw [List.length_append, hlen]
    obtain ⟨p', hrun, hmem', hvec'⟩ := compile_ok hws hvec hpre hfit
    rw [hrun]
    refine .returned ⟨hmem'.trans hmem, _, hvec', ?_⟩
    change _ + ws.flatten.length = 128
    rw [List.length_take, hpre]
    omega

end Steps

section Views

variable {M : Type} [PacketClass M] {p : Packet M} {s : Image M}

theorem Represents.headerLength_eq (h : Represents p s) :
    p.headerLength = headerLength s.members := by
  rw [Packet.headerLength, h.members, headerLength]

omit [PacketClass M] in
theorem Represents.contents_eq (h : Represents p s) : p.contents = .ok s.contents := by
  obtain ⟨pre, hvec, hlen⟩ := h.vec
  rw [← List.append_assoc] at hvec
  exact CorePacket.contents_eq hvec (by rw [List.length_append, hlen])

theorem Represents.length_eq (h : Represents p s) :
    p.length = .ok (s.contents.length + headerLength s.members) := by
  obtain ⟨pre, hvec, hlen⟩ := h.vec
  rw [← List.append_assoc] at hvec
  rw [CorePacket.length_eq hvec (by rw [List.length_append, hlen]), h.headerLength_eq]

/-- Where the headers are no longer than those that were compiled, `raw` points into these. -/
theorem Represents.rawData_eq [RegularPacket M] (h : Represents p s)
    (hle : headerLength s.members ≤ s.compiled.length) : p.rawData = s.raw := by
  obtain ⟨pre, hvec, hlen⟩ := h.vec
  have hfit : p.headerLength ≤ 128 := RegularPacket.headerLength_le p
  have hpre : (pre ++ s.compiled).length = 128 := by rw [List.length_append, hlen]
  have hdrop : (pre ++ s.compiled).drop (128 - headerLength s.members) =
      s.compiled.drop (s.compiled.length - headerLength s.members) := by
    rw [List.drop_append, List.drop_of_length_le (by omega), List.nil_append]
    congr 1
    omega
  rw [← List.append_assoc] at hvec
  rw [CorePacket.rawData_eq hvec hpre hfit, h.headerLength_eq, hdrop, Image.raw, if_pos hle]

theorem refines_raw [RegularPacket M] : Refines (Represents (M := M))
    (observe fun p => p.rawData.map .bytes) (observe fun s => s.raw.map .bytes) := by
  refine refines_observe fun {p s} h => ?_
  by_cases hle : headerLength s.members ≤ s.compiled.length
  · exact .inl (by rw [h.rawData_eq hle])
  · exact .inr ⟨.loadFault, trivial, by rw [Image.raw, if_neg hle]; rfl⟩

theorem refines_length : Refines (Represents (M := M)) (observe fun p => p.length.map .size)
    (observe fun s => .ok (.size (s.contents.length + headerLength s.members))) := by
  refine refines_observe fun {p s} h => .inl ?_
  rw [h.length_eq]
  rfl

omit [PacketClass M] in
theorem refines_contents : Refines (Represents (M := M))
    (observe fun p => p.contents.map .bytes) (observe fun s => .ok (.bytes s.contents)) := by
  refine refines_observe fun {p s} h => .inl ?_
  rw [h.contents_eq]
  rfl

theorem refines_headerLength : Refines (Represents (M := M))
    (observe fun p => .ok (.size p.headerLength))
    (observe fun s => .ok (.size (headerLength s.members))) := by
  refine refines_observe fun {p s} h => .inl ?_
  rw [h.headerLength_eq]

end Views

section Runs

variable {k : Kind}

/-- Each call on an object answers as the one on its triple, and the object stays represented. -/
theorem refines_call (c : Call k) : Refines Represents c.run c.spec := by
  cases c with
  | op o =>
    cases o with
    | assign f =>
      refine refines_bind (refines_modify fun {p s} h => ?_) fun _ => refines_pure _
      rw [h.members]
      exact h.put _
    | setContents buffer =>
      exact refines_bind (refines_setContents buffer buffer.length) fun _ => refines_pure _
    | compile => exact refines_bind refines_compile fun _ => refines_pure _
  | clear => exact refines_bind (refines_members _) fun _ => refines_pure _
  | analyze buffer => exact refines_bind (refines_analyze buffer) fun _ => refines_pure _
  | raw => exact refines_raw
  | length => exact refines_length
  | contents => exact refines_contents
  | headerLength => exact refines_headerLength

/-- Under all calls in all orders, with exceptions caught on the way, any object answers as the
triple does for as long as the triple has an answer. -/
theorem packet_refines (p : Packet (Members k)) (cs : List (Call k)) {rs : List (Report Answer)}
    {s' : Image (Members k)} (h : trace Call.spec cs (imageOf p) = (rs, some s')) :
    ∃ p', trace Call.run cs p = (rs, some p') ∧ Represents p' s' :=
  trace_refines refines_call cs (represents_imageOf p) h

/-- A frame is analyzed after one that is too short, given other contents and compiled. -/
theorem packet_refines_ethernet :
    let m : Members .ethernet := ⟨⟨.new, .new, 0x0800⟩⟩
    let cs : List (Call .ethernet) := [.analyze [1], .analyze (List.replicate 14 8 ++ [2, 3]),
      .op (.assign (.type 0x0806)), .op (.setContents [4]), .op .compile, .raw, .length]
    ∃ s' p', trace Call.run cs ⟨m, .new 128⟩ =
        ([.thrown (.exception "pgen::ethernet_header::read: Buffer length is too small"),
          .returned .done, .returned .done, .returned .done, .returned .done,
          .returned (.bytes (List.replicate 12 8 ++ [8, 6] ++ [4])), .returned (.size 15)],
          some p') ∧
      Represents p' s' :=
  ⟨_, packet_refines _ _ rfl⟩

end Runs

section LastCompile

variable {k : Kind}

/-- The first 128 bytes of the buffer. -/
def headroom {M : Type} (p : Packet M) : Bytes := p.raw.vec.take 128

theorem leaves_observe {σ υ : Type} {seen : σ → υ} (view : σ → Except Failure Answer) :
    Leaves seen (observe view) := by
  intro s
  unfold observe
  rw [run_bind_ok (run_get s)]
  cases view s with
  | ok a => rfl
  | error e => rfl

theorem leaves_setContents {M υ : Type} {seen : Packet M → υ}
    (hset : ∀ p data, seen { p with raw := p.raw.setContent data } = seen p)
    (hdelete : ∀ p, seen { p with raw := p.raw.deleteContent } = seen p) (buffer : Bytes) (n : ℕ) :
    Leaves seen (Packet.setContents buffer n : Exec (Packet M) Unit) := by
  unfold Packet.setContents
  split_ifs
  · exact leaves_bind (leaves_modify hdelete) fun _ => leaves_throw _
  · exact leaves_bind (leaves_load buffer 0 n) fun data => leaves_modify fun p => hset p data

theorem headroom_setContents {M : Type} (buffer : Bytes) (n : ℕ) :
    Leaves headroom (Packet.setContents buffer n : Exec (Packet M) Unit) :=
  leaves_setContents (fun p _ => List.take_left' p.raw.length_take_pivot)
    (fun p => List.take_of_length_le p.raw.length_take_pivot.le) buffer n

/-- No call but `compile` writes to the headroom. -/
theorem leaves_call {c : Call k} (hc : c ≠ .op .compile) : Leaves headroom c.run := by
  cases c with
  | op o =>
    cases o with
    | assign f => exact leaves_bind (leaves_modify fun _ => rfl) fun _ => leaves_pure _
    | setContents buffer => exact leaves_bind (headroom_setContents _ _) fun _ => leaves_pure _
    | compile => exact absurd rfl hc
  | clear => exact leaves_bind (leaves_onMember _ fun _ _ => rfl) fun _ => leaves_pure _
  | analyze buffer =>
    refine leaves_bind (leaves_bind (leaves_onMember _ fun _ _ => rfl) fun r => ?_) fun _ =>
      leaves_pure _
    exact headroom_setContents r.1 r.2
  | raw => exact leaves_observe _
  | length => exact leaves_observe _
  | contents => exact leaves_observe _
  | headerLength => exact leaves_observe fun p => .ok (.size p.headerLength)

theorem encodeAll_of_fills {M : Type} {m : M} {phs : List (HeaderPtr M)} {ws : List Bytes}
    (h : List.Forall₂ (fun ph w => ph.Fills m w) phs ws) : encodeAll m phs = some ws.flatten := by
  induction h with
  | nil => rfl
  | @cons ph w phs ws hw _ ih =>
    have hrun := write_zeros hw
    simp [encodeAll, encodeHeader, hrun, ih]

/-- The buffer after a `compile`, and any calls behind it that do not write to the headroom. -/
theorem vec_after_compile {p p₁ p₂ : Packet (Members k)} {cs : List (Call k)}
    {rs : List (Report Answer)} (hcompile : Packet.compile.run p = .ok () p₁)
    (hcs : ∀ c ∈ cs, c ≠ .op .compile) (hrun : trace Call.run cs p₁ = (rs, some p₂)) :
    ∃ w, encode p.members = some w ∧ w.length = p.headerLength ∧
      p₂.raw.vec = (headroom p).take (128 - w.length) ++ w ++ p₂.raw.vec.drop 128 := by
  obtain ⟨ws, hws⟩ := compile_eq_ok hcompile
  have hlen : ws.flatten.length = p.headerLength := flatten_length hws
  have hfit : ws.flatten.length ≤ 128 := hlen.trans_le (RegularPacket.headerLength_le p)
  obtain ⟨p', hrun', -, hvec⟩ := compile_ok hws (vec_eq p) p.raw.length_take_pivot hfit
  cases hcompile.symm.trans hrun'
  have hroom : headroom p₂ = headroom p₁ :=
    trace_leaves cs (fun c hc => leaves_call (hcs c hc)) hrun
  have hpre : ((headroom p).take (128 - ws.flatten.length) ++ ws.flatten).length = 128 := by
    rw [List.length_append, List.length_take, headroom, p.raw.length_take_pivot]
    omega
  refine ⟨_, encodeAll_of_fills hws, hlen, ?_⟩
  have hhead : headroom p₁ = (headroom p).take (128 - ws.flatten.length) ++ ws.flatten := by
    rw [headroom, hvec, ← List.append_assoc]
    exact List.take_left' hpre
  rw [← hhead, ← hroom]
  exact vec_eq p₂

/-- After any calls that follow a `compile`, `raw` shows the headers as they were then in front of
the contents as they are now: of headers that got shorter the last bytes, and in front of headers
that got longer what the headroom held there before the `compile`. -/
theorem raw_of_last_compile {p p₁ p₂ : Packet (Members k)} {cs : List (Call k)}
    {rs : List (Report Answer)} (hcompile : Packet.compile.run p = .ok () p₁)
    (hcs : ∀ c ∈ cs, c ≠ .op .compile) (hrun : trace Call.run cs p₁ = (rs, some p₂)) :
    ∃ w contents, encode p.members = some w ∧ w.length = p.headerLength ∧
      p₂.contents = .ok contents ∧
      (p₂.headerLength ≤ p.headerLength →
        p₂.rawData = .ok (w.drop (w.length - p₂.headerLength) ++ contents)) ∧
      (p.headerLength ≤ p₂.headerLength →
        p₂.rawData = .ok (((headroom p).take (128 - w.length)).drop (128 - p₂.headerLength) ++
          (w ++ contents))) := by
  obtain ⟨w, hw, hlen, hvec⟩ := vec_after_compile hcompile hcs hrun
  have hfit : p.headerLength ≤ 128 := RegularPacket.headerLength_le p
  have hfit₂ : p₂.headerLength ≤ 128 := RegularPacket.headerLength_le p₂
  have holder : ((headroom p).take (128 - w.length)).length = 128 - w.length := by
    rw [List.length_take, headroom, p.raw.length_take_pivot]
    omega
  have hpre : ((headroom p).take (128 - w.length) ++ w).length = 128 := by
    rw [List.length_append]
    omega
  have hraw := CorePacket.rawData_eq hvec hpre hfit₂
  refine ⟨w, _, hw, hlen, contents_drop p₂, fun hle => ?_, fun hge => ?_⟩
  · have hskip : 128 - p₂.headerLength - (128 - w.length) = w.length - p₂.headerLength := by omega
    rw [hraw, List.drop_append, List.drop_of_length_le (by omega), List.nil_append, holder, hskip]
  · rw [hraw, List.drop_append_of_le_length (by omega), List.append_assoc]

/-- A compiled frame gets other contents and, without another `compile`, an IPv4 header that says it
has four bytes of options. -/
theorem raw_of_last_compile_ipv4 :
    let ip : Ipv4Header := ⟨4, 5, 0, 20, 1, 0, 64, 17, 0, .new, .new, Vector.replicate 40 0⟩
    let p : Packet (Members .ipv4) := ⟨⟨⟨.new, .new, 0x0800⟩, ip⟩, .new 128⟩
    ∃ p₁ : Packet (Members .ipv4), Packet.compile.run p = .ok () p₁ ∧
      let p₂ : Packet (Members .ipv4) :=
        ⟨⟨⟨.new, .new, 0x0800⟩, { ip with hlen := 6 }⟩, p₁.raw.setContent [4]⟩
      ∃ w, encode p.members = some w ∧ p₂.rawData = .ok (List.replicate 4 0 ++ (w ++ [4])) := by
  intro ip p
  have hws : List.Forall₂ (fun ph w => ph.Fills p.members w) headers [_, _] :=
    .cons (writeStruct_emits Eth.layout _ _).fills
      (.cons (Ipv4Header.write_emits (h := ip) (by decide)).fills .nil)
  obtain ⟨p₁, hcompile, hmem, -⟩ := compile_ok (p := p) hws (vec_eq p) p.raw.length_take_pivot
    (by rw [flatten_length hws]; decide)
  refine ⟨p₁, hcompile, ?_⟩
  intro p₂
  have hrun : trace Call.run
      [.op (.assign (Sum.inr (Ipv4Field.hlen 6))), .op (.setContents [4])] p₁ =
      ([.returned .done, .returned .done], some p₂) := by
    obtain ⟨m, raw⟩ := p₁
    cases hmem
    rfl
  obtain ⟨w, contents, hw, hlen, hcontents, -, hlonger⟩ :=
    raw_of_last_compile hcompile (by simp) hrun
  cases hcontents.symm.trans (contents_setContent _ p₁.raw [4])
  refine ⟨w, hw, ?_⟩
  rw [hlonger (show 34 ≤ 38 by decide), show w.length = 34 from hlen]
  rfl

end LastCompile

end Pgen.PacketMachine
