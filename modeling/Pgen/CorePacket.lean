import Pgen.ByteMemory

/-!
# `data_container`, `header` and `packet`

A packet object has header members and one buffer: headroom for the headers, then the contents.
`compile` writes the headers backwards into the headroom, `analyze` reads them forwards. The list
`headers` of a packet points to its header members.
-/
namespace Pgen.CorePacket
open ByteMemory

section Container

/-- `_vec` of a container never gets shorter than its pivot. -/
structure DataContainer (pivot : ℕ) where
  vec : Bytes
  headroom : pivot ≤ vec.length
  deriving DecidableEq, Repr

namespace DataContainer

variable {pivot : ℕ}

def new (pivot : ℕ) : DataContainer pivot := ⟨List.replicate pivot 0, by simp⟩

def size (c : DataContainer pivot) : ℕ := c.vec.length

theorem length_take_pivot (c : DataContainer pivot) : (c.vec.take pivot).length = pivot := by
  rw [List.length_take, Nat.min_eq_left c.headroom]

def deleteContent (c : DataContainer pivot) : DataContainer pivot :=
  ⟨c.vec.take pivot, by simpa using c.headroom⟩

/-- Insert a range at the end, of which `data` are the bytes. -/
def setContent (data : Bytes) (c : DataContainer pivot) : DataContainer pivot :=
  ⟨c.deleteContent.vec ++ data, by
    rw [List.length_append]
    exact Nat.le_add_right_of_le c.deleteContent.headroom⟩

/-- Run an action on the memory of the vector. -/
def onVec {α : Type} (act : Exec Bytes α) (hact : KeepsLength act) :
    Exec (DataContainer pivot) α := fun c =>
  let c' : DataContainer pivot := ⟨finalState (act.run c.vec), (hact c.vec).symm ▸ c.headroom⟩
  match act.run c.vec with
  | .ok a _ => .ok a c'
  | .error e _ => .error e c'

theorem onVec_ok {α : Type} {act : Exec Bytes α} (hact : KeepsLength act)
    {c : DataContainer pivot} {vec : Bytes} {a : α} (h : act.run c.vec = .ok a vec) :
    ∃ c' : DataContainer pivot, (onVec act hact).run c = .ok a c' ∧ c'.vec = vec := by
  refine ⟨⟨finalState (act.run c.vec), (hact c.vec).symm ▸ c.headroom⟩, ?_, congrArg finalState h⟩
  change onVec act hact c = _
  simp only [onVec]
  split <;> simp_all

theorem onVec_error {α : Type} {act : Exec Bytes α} (hact : KeepsLength act)
    {c : DataContainer pivot} {vec : Bytes} {e : Failure} (h : act.run c.vec = .error e vec) :
    ∃ c' : DataContainer pivot, (onVec act hact).run c = .error e c' ∧ c'.vec = vec := by
  refine ⟨⟨finalState (act.run c.vec), (hact c.vec).symm ▸ c.headroom⟩, ?_, congrArg finalState h⟩
  change onVec act hact c = _
  simp only [onVec]
  split <;> simp_all

end DataContainer

end Container

section Headers

/-- A class of protocol headers. Objects do not change their size when they are written to. -/
class Header (H : Type) where
  length : H → ℕ
  write (h : H) (bufferlen : ℕ) : Exec Bytes Unit
  read (buffer : Bytes) (bufferlen : ℕ) : Exec H Unit
  keepsLength_write : ∀ h bufferlen, KeepsLength (write h bufferlen)

/-- A `header*` to a member of a packet object of class `P`. -/
structure HeaderPtr (P : Type) where
  length : P → ℕ
  write (p : P) (bufferlen : ℕ) : Exec Bytes Unit
  read (buffer : Bytes) (bufferlen : ℕ) : Exec P Unit
  keepsLength_write : ∀ p bufferlen, KeepsLength (write p bufferlen)

/-- The pointer to the member that `get` and `put` access. -/
def HeaderPtr.member {P H : Type} [Header H] (get : P → H) (put : H → P → P) : HeaderPtr P where
  length p := Header.length (get p)
  write p bufferlen := Header.write (get p) bufferlen
  read buffer bufferlen := onMember get put (Header.read buffer bufferlen)
  keepsLength_write p bufferlen := Header.keepsLength_write (get p) bufferlen

end Headers

section Packets

/-- A packet object: the public header members of its class and the buffer `_raw`. -/
structure Packet (M : Type) where
  members : M
  raw : DataContainer 128

/-- What a packet class supplies: the pointers `init_headers` collects and `clear`. -/
class PacketClass (M : Type) where
  headers : List (HeaderPtr M)
  clear : Exec M Unit

export PacketClass (headers)

namespace Packet

def maxHeaderLen : ℕ := 128

variable {M : Type}

def headerLength [PacketClass M] (p : Packet M) : ℕ :=
  ((headers : List (HeaderPtr M)).map (·.length p.members)).sum

/-- The memory from the returned pointer on. -/
def contents (p : Packet M) : Except Failure Bytes :=
  if maxHeaderLen ≤ p.raw.size then .ok (p.raw.vec.drop maxHeaderLen) else .error .assertFailure

/-- The memory from the returned pointer on, which lies in the headroom. -/
def rawData [PacketClass M] (p : Packet M) : Except Failure Bytes := do
  let headerlen := p.headerLength
  if headerlen ≤ maxHeaderLen then
    let _ ← p.contents
    pure (p.raw.vec.drop (maxHeaderLen - headerlen))
  else .error .assertFailure

def length [PacketClass M] (p : Packet M) : Except Failure ℕ :=
  if maxHeaderLen ≤ p.raw.size then .ok (p.raw.size - maxHeaderLen + p.headerLength)
  else .error .assertFailure

/-- `vector::insert` throws for a length that no vector has before it copies anything. No memory has
so many bytes, and only a length that wrapped around is so large. -/
def setContents (buffer : Bytes) (buflen : ℕ) : Exec (Packet M) Unit :=
  if buffer.length < buflen ∧ vectorMaxSize < maxHeaderLen + buflen then do
    modify fun p => { p with raw := p.raw.deleteContent }
    throw .lengthError
  else do
    let data ← load buffer 0 buflen
    modify fun p => { p with raw := p.raw.setContent data }

/-- Call `act` with a pointer to this offset of the vector. Before its first byte there is no
memory the callee may touch. -/
def atPointer (pointer : ℤ) (act : Exec Bytes Unit) : Exec Bytes Unit :=
  if 0 ≤ pointer then atOffset pointer.toNat act
  else onMember (fun _ => []) (fun _ mem => mem) act

/-- The loop of `compile`, over the headers from the last to the first. -/
def compileLoop (m : M) : List (HeaderPtr M) → ℤ → Exec Bytes Unit
  | [], _ => pure ()
  | ph :: rest, pointer => do
    atPointer (pointer - ph.length m) (ph.write m (ph.length m))
    compileLoop m rest (pointer - ph.length m)

theorem keepsLength_atPointer {act : Exec Bytes Unit} (h : KeepsLength act) (pointer : ℤ) :
    KeepsLength (atPointer pointer act) := by
  unfold atPointer
  split_ifs with hp
  · exact h.atOffset _
  · intro mem
    cases hr : act.run [] with
    | ok u _ => rw [onMember_ok hr]; rfl
    | error e _ => rw [onMember_error hr]; rfl

theorem keepsLength_compileLoop (m : M) (phs : List (HeaderPtr M)) (pointer : ℤ) :
    KeepsLength (compileLoop m phs pointer) := by
  induction phs generalizing pointer with
  | nil => exact .pure ()
  | cons ph phs ih =>
    exact .bind (keepsLength_atPointer (ph.keepsLength_write m _) _) fun _ => ih _

def compile [PacketClass M] : Exec (Packet M) Unit := do
  let p ← get
  onMember Packet.raw (fun raw p => { p with raw := raw })
    (DataContainer.onVec (compileLoop p.members (headers : List (HeaderPtr M)).reverse 128)
      (keepsLength_compileLoop _ _ _))

/-- The loop of `analyze`: the pointer and the length behind the headers. -/
def readHeaders : List (HeaderPtr M) → Bytes → ℕ → Exec M (Bytes × ℕ)
  | [], pointer, bufferlen => pure (pointer, bufferlen)
  | ph :: rest, pointer, bufferlen => do
    ph.read pointer bufferlen
    let m ← get
    readHeaders rest (pointer.drop (ph.length m)) (sizeSub bufferlen (ph.length m))

def analyze [PacketClass M] (buffer : Bytes) (bufferlen : ℕ) : Exec (Packet M) Unit := do
  let (pointer, bufferlen) ← onMember Packet.members (fun m p => { p with members := m })
    (readHeaders headers buffer bufferlen)
  setContents pointer bufferlen

def clear [PacketClass M] : Exec (Packet M) Unit :=
  onMember Packet.members (fun m p => { p with members := m }) PacketClass.clear

/-- The constructor from bytes; `fresh` holds the members before `clear`, where the scalars are
indeterminate. -/
def construct [PacketClass M] (fresh : M) (buffer : Bytes) (bufferlen : ℕ) :
    Outcome (Packet M) Unit :=
  (do clear; analyze buffer bufferlen : Exec (Packet M) Unit).run ⟨fresh, .new 128⟩

variable {buffer : Bytes} {buflen : ℕ}

theorem setContents_ok (h : buflen ≤ buffer.length) (p : Packet M) :
    (setContents buffer buflen).run p =
      .ok () { p with raw := p.raw.setContent (buffer.take buflen) } := by
  have hload : (load buffer 0 buflen).run p = .ok (buffer.take buflen) p :=
    load_ok ((Nat.zero_add _).trans_le h) p
  unfold setContents
  rw [if_neg fun hover => absurd hover.1 (Nat.not_lt.mpr h), run_bind_ok hload, run_modify]

theorem setContents_wrapped (h : buffer.length < buflen)
    (hmax : vectorMaxSize < maxHeaderLen + buflen) (p : Packet M) :
    (setContents buffer buflen).run p =
      .error .lengthError { p with raw := p.raw.deleteContent } := by
  rw [setContents, if_pos ⟨h, hmax⟩]
  rfl

theorem setContents_eq_ok {p p' : Packet M} (h : (setContents buffer buflen).run p = .ok () p') :
    buflen ≤ buffer.length ∧ p' = { p with raw := p.raw.setContent (buffer.take buflen) } := by
  rcases Nat.lt_or_ge buffer.length buflen with hlt | hle
  · unfold setContents at h
    split_ifs at h
    · cases h
    · rw [run_bind_error (load_fault (by omega) p)] at h
      cases h
  · rw [setContents_ok hle] at h
    cases h
    exact ⟨hle, rfl⟩

end Packet

end Packets

section HeaderLaws

variable {P : Type}

/-- Writing puts `w` in front of whatever lies behind it, and `w` is as long as the header says. -/
structure Emits (length : ℕ) (write : ℕ → Exec Bytes Unit) (w : Bytes) : Prop where
  length_eq : w.length = length
  write_ok : ∀ {mem : Bytes} {n : ℕ}, w.length ≤ n → n ≤ mem.length →
    (write n).run mem = .ok () (w ++ mem.drop w.length)

theorem Emits.write_exact {length : ℕ} {write : ℕ → Exec Bytes Unit} {w mem : Bytes}
    (h : Emits length write w) (hmem : mem.length = length) :
    (write length).run mem = .ok () w := by
  have hl := h.length_eq
  rw [h.write_ok (by omega) (by omega), List.drop_of_length_le (by omega), List.append_nil]

/-- Called with exactly the length, writing puts `w` in front of whatever lies behind it. -/
structure Fills (length : ℕ) (write : ℕ → Exec Bytes Unit) (w : Bytes) : Prop where
  length_eq : w.length = length
  write_ok : ∀ {mem : Bytes}, length ≤ mem.length →
    (write length).run mem = .ok () (w ++ mem.drop length)

theorem Emits.fills {length : ℕ} {write : ℕ → Exec Bytes Unit} {w : Bytes}
    (h : Emits length write w) : Fills length write w where
  length_eq := h.length_eq
  write_ok hmem := by rw [h.write_ok h.length_eq.le hmem, h.length_eq]

/-- A header that was read writes the bytes it was read from. -/
class LawfulHeader (H : Type) [Header H] : Prop where
  read_emits : ∀ {h h' : H} {buffer : Bytes} {n : ℕ}, n ≤ buffer.length →
    (Header.read buffer n).run h = .ok () h' →
    Header.length h' ≤ n ∧
      Emits (Header.length h') (Header.write h') (buffer.take (Header.length h'))

namespace HeaderPtr

/-- The bytes that writing through the pointer produces. -/
abbrev Writes (ph : HeaderPtr P) (p : P) (w : Bytes) : Prop := Emits (ph.length p) (ph.write p) w

/-- The bytes that writing the pointer's own length through it produces. -/
abbrev Fills (ph : HeaderPtr P) (p : P) (w : Bytes) : Prop :=
  CorePacket.Fills (ph.length p) (ph.write p) w

structure Decodes (ph : HeaderPtr P) : Prop where
  read_writes : ∀ {p p' : P} {buffer : Bytes} {n : ℕ}, n ≤ buffer.length →
    (ph.read buffer n).run p = .ok () p' →
    ph.length p' ≤ n ∧ ph.Writes p' (buffer.take (ph.length p'))

/-- Reading through `ph` does not change what `other` points to. -/
structure Spares (ph other : HeaderPtr P) : Prop where
  writes : ∀ {p p' : P} {buffer : Bytes} {n : ℕ} {w : Bytes},
    (ph.read buffer n).run p = .ok () p' → other.Writes p w → other.Writes p' w

variable {H H' : Type} [Header H] [Header H']

theorem member_decodes [LawfulHeader H] {get : P → H} {put : H → P → P}
    (hget : ∀ h p, get (put h p) = h) : (member get put).Decodes := by
  constructor
  intro p p' buffer n hn h
  obtain ⟨t, ht, rfl⟩ := onMember_eq_ok h
  have hl := LawfulHeader.read_emits hn ht
  simp only [Writes, member, hget]
  exact hl

theorem member_spares {get : P → H} {put : H → P → P} {get' : P → H'} {put' : H' → P → P}
    (hget : ∀ h p, get' (put h p) = get' p) : (member get put).Spares (member get' put') := by
  constructor
  intro p p' buffer n w h hw
  obtain ⟨t, ht, rfl⟩ := onMember_eq_ok h
  simp only [Writes, member, hget] at hw ⊢
  exact hw

end HeaderPtr

theorem readHeaders_spares {phs : List (HeaderPtr P)} {other : HeaderPtr P}
    (hsp : ∀ ph ∈ phs, ph.Spares other) {buffer : Bytes} {n : ℕ} {r : Bytes × ℕ} {p p' : P}
    {w : Bytes} (h : (Packet.readHeaders phs buffer n).run p = .ok r p')
    (hw : other.Writes p w) : other.Writes p' w := by
  induction phs generalizing buffer n p with
  | nil =>
    cases h
    exact hw
  | cons ph phs ih =>
    obtain ⟨_, p₁, h₁, h₂⟩ := bind_eq_ok.mp h
    rw [run_bind_ok (run_get p₁)] at h₂
    exact ih (fun q hq => hsp q (by simp [hq])) h₂ ((hsp ph (by simp)).writes h₁ hw)

/-- Reading a list of headers takes the buffer apart into what each of them writes. -/
theorem readHeaders_ok {phs : List (HeaderPtr P)} (hdec : ∀ ph ∈ phs, ph.Decodes)
    (hsp : phs.Pairwise fun a b => b.Spares a) {buffer rest : Bytes} {n k : ℕ} {p p' : P}
    (hn : n ≤ buffer.length) (h : (Packet.readHeaders phs buffer n).run p = .ok (rest, k) p') :
    ∃ ws, List.Forall₂ (fun ph w => ph.Writes p' w) phs ws ∧ buffer = ws.flatten ++ rest ∧
      ws.flatten.length + k = n := by
  induction phs generalizing buffer n p with
  | nil =>
    cases h
    exact ⟨[], .nil, rfl, Nat.zero_add _⟩
  | cons ph phs ih =>
    obtain ⟨hhead, htail⟩ := List.pairwise_cons.mp hsp
    obtain ⟨_, p₁, h₁, h₂⟩ := bind_eq_ok.mp h
    rw [run_bind_ok (run_get p₁)] at h₂
    obtain ⟨hle, hw⟩ := (hdec ph (by simp)).read_writes hn h₁
    have hsub : sizeSub n (ph.length p₁) = n - ph.length p₁ := sizeSub_of_le hle
    obtain ⟨ws, hws, hbuf, hlen⟩ := ih (fun q hq => hdec q (by simp [hq])) htail
      (by rw [hsub, List.length_drop]; omega) h₂
    have hl := hw.length_eq
    refine ⟨buffer.take (ph.length p₁) :: ws, .cons ?_ hws, ?_, ?_⟩
    · exact readHeaders_spares hhead h₂ hw
    · rw [List.flatten_cons, List.append_assoc, ← hbuf, List.take_append_drop]
    · rw [List.flatten_cons, List.length_append, hl, Nat.add_assoc, hlen, hsub]
      omega

/-- A header that is read is no longer than the bytes it is read from. -/
def HeaderPtr.StaysIn (ph : HeaderPtr P) : Prop :=
  ∀ {b : Bytes} {p p' : P}, (ph.read b b.length).run p = .ok () p' → ph.length p' ≤ b.length

/-- The length that the loop of `analyze` counts down is that of the bytes that are left. -/
theorem readHeaders_length {phs : List (HeaderPtr P)} (h : ∀ ph ∈ phs, ph.StaysIn) {b rest : Bytes}
    {k : ℕ} {p p' : P} (hr : (Packet.readHeaders phs b b.length).run p = .ok (rest, k) p') :
    k = rest.length := by
  induction phs generalizing b p with
  | nil =>
    cases hr
    rfl
  | cons ph phs ih =>
    rw [List.forall_mem_cons] at h
    obtain ⟨_, p₁, hread, hrest⟩ := bind_eq_ok.mp hr
    rw [run_bind_ok (run_get p₁), sizeSub_of_le (h.1 hread), ← List.length_drop] at hrest
    exact ih h.2 hrest

theorem atPointer_ok {act : Exec Bytes Unit} {pre tail tail' : Bytes} {pointer : ℤ}
    (hp : pointer = pre.length) (h : act.run tail = .ok () tail') :
    (Packet.atPointer pointer act).run (pre ++ tail) = .ok () (pre ++ tail') := by
  subst hp
  unfold Packet.atPointer
  rw [if_pos (Int.natCast_nonneg _), Int.toNat_natCast]
  exact atOffset_ok rfl h

/-- The loop of `compile` puts the headers in front of the pointer, the last one next to it. -/
theorem compileLoop_ok {phs : List (HeaderPtr P)} {p : P} {ws : List Bytes}
    (hws : List.Forall₂ (fun ph w => ph.Fills p w) phs ws) {pre suf : Bytes} {pointer : ℤ}
    (hp : pointer = pre.length) (hfit : ws.flatten.length ≤ pre.length) :
    (Packet.compileLoop p phs pointer).run (pre ++ suf) =
      .ok () (pre.take (pre.length - ws.flatten.length) ++ (ws.reverse.flatten ++ suf)) := by
  induction hws generalizing pre suf pointer with
  | nil => simp [Packet.compileLoop, EStateM.run_pure]
  | @cons ph w phs ws hw _ ih =>
    rw [List.flatten_cons, List.length_append] at hfit
    have hl := hw.length_eq
    -- the last bytes of the headroom make place for this header
    obtain ⟨pre₁, mid, rfl, hmid⟩ : ∃ pre₁ mid, pre = pre₁ ++ mid ∧ mid.length = w.length :=
      ⟨pre.take (pre.length - w.length), pre.drop (pre.length - w.length),
        (List.take_append_drop _ _).symm, by rw [List.length_drop]; omega⟩
    rw [List.length_append] at hfit hp
    have hp₁ : pointer - ph.length p = pre₁.length := by rw [hp, ← hl, ← hmid]; push_cast; ring
    have hwrite : (ph.write p (ph.length p)).run (mid ++ suf) = .ok () (w ++ suf) := by
      rw [hw.write_ok (by rw [List.length_append]; omega), List.drop_left' (hmid.trans hl)]
    rw [List.append_assoc]
    change ((Packet.atPointer _ _) >>= fun _ => _).run _ = _
    rw [run_bind_ok (atPointer_ok hp₁ hwrite), ih hp₁ (by omega)]
    have hcut : (pre₁ ++ mid).take ((pre₁ ++ mid).length - (w :: ws).flatten.length) =
        pre₁.take (pre₁.length - ws.flatten.length) := by
      rw [List.flatten_cons, List.length_append, List.length_append,
        List.take_append_of_le_length (by omega)]
      congr 1
      omega
    rw [hcut, List.reverse_cons, List.flatten_append, List.flatten_singleton, List.append_assoc]

theorem flatten_length {phs : List (HeaderPtr P)} {p : P} {ws : List Bytes}
    (hws : List.Forall₂ (fun ph w => ph.Fills p w) phs ws) :
    ws.flatten.length = (phs.map (·.length p)).sum := by
  induction hws with
  | nil => rfl
  | cons hw _ ih =>
    rw [List.flatten_cons, List.length_append, ih, hw.length_eq]
    rfl

end HeaderLaws

section FrameIdentity

/-- Decoding a frame and encoding it again gives the frame back. -/
def FrameIdentity (M : Type) [PacketClass M] : Prop :=
  ∀ (p p' : Packet M) (b : Bytes), (Packet.analyze b b.length).run p = .ok () p' →
    ∃ p'', Packet.compile.run p' = .ok () p'' ∧ p''.length = .ok b.length ∧
      p''.headerLength ≤ 128 ∧ ∃ mem, p''.rawData = .ok mem ∧ mem.take b.length = b

/-- The headers of a class are members of their own and fit into the headroom. -/
class LawfulPacket (M : Type) [PacketClass M] : Prop where
  decodes : ∀ ph ∈ (headers : List (HeaderPtr M)), ph.Decodes
  spares : (headers : List (HeaderPtr M)).Pairwise fun a b => b.Spares a
  headerLength_le : ∀ p : Packet M, p.headerLength ≤ 128

variable {M : Type} [PacketClass M]

section Views

variable {p : Packet M} {pre rest : Bytes}

omit [PacketClass M] in
theorem size_eq (hvec : p.raw.vec = pre ++ rest) (hpre : pre.length = 128) :
    p.raw.size = 128 + rest.length := by
  rw [DataContainer.size, hvec, List.length_append, hpre]

omit [PacketClass M] in
theorem contents_eq (hvec : p.raw.vec = pre ++ rest) (hpre : pre.length = 128) :
    p.contents = .ok rest := by
  have hsize := size_eq hvec hpre
  rw [Packet.contents, Packet.maxHeaderLen, if_pos (by omega), hvec, List.drop_left' hpre]

omit [PacketClass M] in
theorem vec_eq (p : Packet M) : p.raw.vec = p.raw.vec.take 128 ++ p.raw.vec.drop 128 :=
  (List.take_append_drop 128 p.raw.vec).symm

omit [PacketClass M] in
theorem contents_drop (p : Packet M) : p.contents = .ok (p.raw.vec.drop 128) :=
  contents_eq (vec_eq p) p.raw.length_take_pivot

omit [PacketClass M] in
theorem contents_setContent (m : M) (raw : DataContainer 128) (data : Bytes) :
    Packet.contents ⟨m, raw.setContent data⟩ = .ok data :=
  contents_eq rfl raw.length_take_pivot

theorem length_eq (hvec : p.raw.vec = pre ++ rest) (hpre : pre.length = 128) :
    p.length = .ok (rest.length + p.headerLength) := by
  have hsize := size_eq hvec hpre
  rw [Packet.length, Packet.maxHeaderLen, if_pos (by omega), hsize, Nat.add_sub_cancel_left]

theorem rawData_eq (hvec : p.raw.vec = pre ++ rest) (hpre : pre.length = 128)
    (hfit : p.headerLength ≤ 128) :
    p.rawData = .ok (pre.drop (128 - p.headerLength) ++ rest) := by
  rw [Packet.rawData, Packet.maxHeaderLen, if_pos hfit, contents_eq hvec hpre, hvec,
    List.drop_append_of_le_length (by omega)]
  rfl

end Views

/-- An accepted frame has its headers read, and what the loop leaves of it is the contents. -/
theorem analyze_readHeaders {p p' : Packet M} {b : Bytes}
    (h : (Packet.analyze b b.length).run p = .ok () p') :
    ∃ rest k, (Packet.readHeaders headers b b.length).run p.members = .ok (rest, k) p'.members ∧
      p'.raw.vec = p.raw.vec.take 128 ++ rest.take k := by
  obtain ⟨⟨rest, k⟩, p₁, h₁, h₂⟩ := bind_eq_ok.mp h
  obtain ⟨m, hread, rfl⟩ := onMember_eq_ok h₁
  obtain ⟨-, rfl⟩ := Packet.setContents_eq_ok h₂
  exact ⟨rest, k, hread, rfl⟩

/-- What an accepted frame leaves in the object: the headers write its first bytes, and the rest
is the contents. -/
theorem analyze_eq_ok [LawfulPacket M] {p p' : Packet M} {b : Bytes}
    (h : (Packet.analyze b b.length).run p = .ok () p') :
    ∃ ws rest, List.Forall₂ (fun ph w => ph.Writes p'.members w) headers ws ∧
      b = ws.flatten ++ rest ∧ p'.raw.vec = p.raw.vec.take 128 ++ rest := by
  obtain ⟨rest, k, hread, hvec⟩ := analyze_readHeaders h
  obtain ⟨ws, hws, hb, hlen⟩ :=
    readHeaders_ok LawfulPacket.decodes LawfulPacket.spares (Nat.le_refl _) hread
  have hk : k = rest.length := by
    have hbl := congrArg List.length hb
    rw [List.length_append] at hbl
    omega
  rw [hk, List.take_length] at hvec
  exact ⟨ws, rest, hws, hb, hvec⟩

/-- `compile` puts the headers directly in front of the contents. -/
theorem compile_ok {p : Packet M} {ws : List Bytes} {pre rest : Bytes}
    (hws : List.Forall₂ (fun ph w => ph.Fills p.members w) headers ws)
    (hvec : p.raw.vec = pre ++ rest) (hpre : pre.length = 128) (hfit : ws.flatten.length ≤ 128) :
    ∃ p', Packet.compile.run p = .ok () p' ∧ p'.members = p.members ∧
      p'.raw.vec = pre.take (128 - ws.flatten.length) ++ (ws.flatten ++ rest) := by
  have hrev : ws.reverse.flatten.length = ws.flatten.length := by
    rw [List.length_flatten, List.length_flatten, List.map_reverse, List.sum_reverse]
  have hloop : (Packet.compileLoop p.members (headers : List (HeaderPtr M)).reverse 128).run
      (pre ++ rest) = _ :=
    compileLoop_ok (List.rel_reverse hws) (by rw [hpre]; rfl) (by rw [hrev, hpre]; exact hfit)
  rw [hrev, hpre, List.reverse_reverse, ← hvec] at hloop
  obtain ⟨raw, hraw, hrvec⟩ :=
    DataContainer.onVec_ok (Packet.keepsLength_compileLoop p.members _ 128) hloop
  exact ⟨{ p with raw := raw }, (run_bind_ok (run_get p)).trans (onMember_ok hraw), rfl, hrvec⟩

theorem frameIdentity [LawfulPacket M] : FrameIdentity M := by
  intro p p' b h
  obtain ⟨ws, rest, hwrites, hb, hvec⟩ := analyze_eq_ok h
  have hws : List.Forall₂ (fun ph w => ph.Fills p'.members w) headers ws :=
    hwrites.imp fun _ _ hw => hw.fills
  have hpre := p.raw.length_take_pivot
  have hfit : ws.flatten.length ≤ 128 := by
    rw [flatten_length hws]
    exact LawfulPacket.headerLength_le p'
  obtain ⟨p'', hc, hmem, hvec'⟩ := compile_ok hws hvec hpre hfit
  have hheader : p''.headerLength = ws.flatten.length := by
    rw [flatten_length hws, Packet.headerLength, hmem]
  have htake : ((p.raw.vec.take 128).take (128 - ws.flatten.length)).length =
      128 - ws.flatten.length := by
    rw [List.length_take, hpre]
    omega
  have hpre' :
      ((p.raw.vec.take 128).take (128 - ws.flatten.length) ++ ws.flatten).length = 128 := by
    rw [List.length_append, htake]
    omega
  rw [← List.append_assoc] at hvec'
  refine ⟨p'', hc, ?_, LawfulPacket.headerLength_le p'', b, ?_, by rw [List.take_length]⟩
  · rw [length_eq hvec' hpre', hheader, hb, List.length_append, Nat.add_comm]
  · rw [rawData_eq hvec' hpre' (LawfulPacket.headerLength_le p''), hheader, List.drop_left' htake,
      ← hb]

end FrameIdentity

end Pgen.CorePacket
