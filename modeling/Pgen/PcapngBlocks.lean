import Pgen.StructLayout

/-!
# `pcapng_block`

The part of a block every block type shares: type and total length in front, the options and the
total length again at the end. The body in the middle belongs to the block type. The length of
the options is nowhere stored; reading recovers it from the total length and the body length.
-/
namespace Pgen.PcapngBlocks
open ByteMemory StructLayout

namespace PcapngType

def SHB : UInt32 := 0x0a0d0d0a
def IDB : UInt32 := 0x00000001
def SPB : UInt32 := 0x00000003
def NRB : UInt32 := 0x00000004
def ISB : UInt32 := 0x00000005
def EPB : UInt32 := 0x00000006

end PcapngType

structure PcapngBlockHead where
  type : UInt32
  totalLength : UInt32
  deriving DecidableEq, Repr

def PcapngBlockHead.layout : Layout PcapngBlockHead :=
  (Layout.u32.pair Layout.u32).rename
  ⟨fun h => (h.type, h.totalLength), fun (a, b) => ⟨a, b⟩, fun _ => rfl, fun _ => rfl⟩

structure PcapngBlockTail where
  totalLength : UInt32
  deriving DecidableEq, Repr

def PcapngBlockTail.layout : Layout PcapngBlockTail :=
  Layout.u32.rename ⟨fun t => t.totalLength, fun a => ⟨a⟩, fun _ => rfl, fun _ => rfl⟩

theorem head_size : PcapngBlockHead.layout.size = 8 := rfl

theorem tail_size : PcapngBlockTail.layout.size = 4 := rfl

theorem head_length (head : PcapngBlockHead) : (PcapngBlockHead.layout.enc head).length = 8 := rfl

theorem tail_length (tail : PcapngBlockTail) : (PcapngBlockTail.layout.enc tail).length = 4 := rfl

/-- A block object; `body` holds the members of the derived class. -/
structure PcapngBlock (B : Type) where
  type : UInt32
  totalLength : UInt32
  option : Bytes
  body : B
  deriving DecidableEq, Repr

/-- The virtual member functions of a block class. -/
class PcapngBody (B : Type) where
  bodyLength : B → ℕ
  readBody (buffer : Bytes) (bufferlen : ℕ) : Exec (PcapngBlock B) Unit
  writeBody (block : PcapngBlock B) (bufferlen : ℕ) : Exec Bytes Unit

export PcapngBody (bodyLength readBody writeBody)

variable {B : Type}

section Reading

def readHead (buffer : Bytes) (bufferlen : ℕ) : Exec (PcapngBlock B) Unit := do
  throwIf (bufferlen < PcapngBlockHead.layout.size)
    "pgen::pcapng_block::read: bufferlen is too small"
  let head ← PcapngBlockHead.layout.load buffer 0
  modify fun block => { block with type := head.type, totalLength := head.totalLength }

/-- The three subtractions are made in `size_t`. -/
def optionLength [PcapngBody B] (block : PcapngBlock B) : ℕ :=
  sizeSub (sizeSub (sizeSub block.totalLength.toNat PcapngBlockHead.layout.size)
    (bodyLength block.body)) PcapngBlockTail.layout.size

def readOption [PcapngBody B] (buffer : Bytes) (bufferlen : ℕ) : Exec (PcapngBlock B) Unit := do
  let optlen := optionLength (← get)
  throwIf (bufferlen < optlen) "pgen::pcapng_block::read: bufferlen is too small"
  let option ← resize (← get).option optlen
  modify fun block => { block with option := option }
  let data ← load buffer 0 option.length
  modify fun block => { block with option := data }

def readTail (buffer : Bytes) (bufferlen : ℕ) : Exec (PcapngBlock B) Unit := do
  throwIf (bufferlen < PcapngBlockTail.layout.size)
    "pgen::pcapng_block::read: bufferlen is too small"
  let tail ← PcapngBlockTail.layout.load buffer 0
  let block ← get
  throwIf (tail.totalLength ≠ block.totalLength) "pgen::pcapng_block::read: totlen1 != totlen2"

def read [PcapngBody B] (buffer : Bytes) (bufferlen : ℕ) : Exec (PcapngBlock B) Unit := do
  readHead buffer bufferlen
  let bufferPointer := buffer.drop PcapngBlockHead.layout.size
  let bufferLength := sizeSub bufferlen PcapngBlockHead.layout.size
  readBody bufferPointer bufferLength
  let block ← get
  let bufferPointer := bufferPointer.drop (bodyLength block.body)
  let bufferLength := sizeSub bufferLength (bodyLength block.body)
  readOption bufferPointer bufferLength
  let block ← get
  let bufferPointer := bufferPointer.drop block.option.length
  let bufferLength := sizeSub bufferLength block.option.length
  readTail bufferPointer bufferLength
  let bufferLength := sizeSub bufferLength PcapngBlockTail.layout.size
  throwIf (sizeSub bufferlen bufferLength ≠ block.totalLength.toNat)
    "pgen::pcapng_block::read: length error"

end Reading

section Writing

def writeHead (block : PcapngBlock B) (bufferlen : ℕ) : Exec Bytes Unit := do
  throwIf (bufferlen < PcapngBlockHead.layout.size)
    "pgen::pcapng_block::write_head: bufferlen is too small"
  PcapngBlockHead.layout.store 0 ⟨block.type, block.totalLength⟩

def writeOption (block : PcapngBlock B) (bufferlen : ℕ) : Exec Bytes Unit := do
  throwIf (bufferlen < block.option.length)
    "pgen::pcapng_block::write_option: bufferlen is too small"
  store 0 block.option

def writeTail (block : PcapngBlock B) (bufferlen : ℕ) : Exec Bytes Unit := do
  throwIf (bufferlen < PcapngBlockTail.layout.size)
    "pgen::pcapng_block::write_tail: bufferlen is too small"
  PcapngBlockTail.layout.store 0 ⟨block.totalLength⟩

def write [PcapngBody B] (block : PcapngBlock B) (bufferlen : ℕ) : Exec Bytes Unit := do
  throwIf (bufferlen < block.totalLength.toNat)
    "pgen::pcapng_SHB::write: buffer length is too small"
  writeHead block bufferlen
  let pointer := PcapngBlockHead.layout.size
  let bufferLength := sizeSub bufferlen PcapngBlockHead.layout.size
  atOffset pointer (writeBody block bufferLength)
  let pointer := pointer + bodyLength block.body
  let bufferLength := sizeSub bufferLength (bodyLength block.body)
  atOffset pointer (writeOption block bufferLength)
  let pointer := pointer + block.option.length
  let bufferLength := sizeSub bufferLength block.option.length
  atOffset pointer (writeTail block bufferLength)
  let bufferLength := sizeSub bufferLength PcapngBlockTail.layout.size
  throwIf (sizeSub bufferlen bufferLength ≠ block.totalLength.toNat)
    "pgen::pcapng_block::write: length error"

end Writing


section Images

/-- The bytes of a block class: the type it accepts, what holds its members on the wire, and how
many bytes of padding follow. -/
class BodyFormat (B : Type) extends PcapngBody B where
  blockType : UInt32
  content : B → Bytes
  padding : B → ℕ

export BodyFormat (blockType content padding)

/-- `w` is the body of `b` on the wire. -/
def IsBody [BodyFormat B] (b : B) (w : Bytes) : Prop :=
  w.length = bodyLength b ∧ ∃ pad, pad.length = padding b ∧ w = content b ++ pad

/-- `w` is the block on the wire. -/
def IsImage [BodyFormat B] (block : PcapngBlock B) (w : Bytes) : Prop :=
  w.length = block.totalLength.toNat ∧ ∃ body, IsBody block.body body ∧
    w = PcapngBlockHead.layout.enc ⟨block.type, block.totalLength⟩ ++
      (body ++ (block.option ++ PcapngBlockTail.layout.enc ⟨block.totalLength⟩))

/-- The member functions of the class transport exactly its bodies. -/
class LawfulBody (B : Type) [BodyFormat B] : Prop where
  readBody_ok : ∀ (block : PcapngBlock B) {b : B} {w : Bytes} (rest : Bytes) {n : ℕ},
    block.type = blockType B → IsBody b w → w.length ≤ n →
    ∃ b', (readBody (w ++ rest) n).run block = .ok () { block with body := b' } ∧
      IsBody b' w ∧ content b' = content b
  readBody_eq_ok : ∀ {block block' : PcapngBlock B} {buffer : Bytes} {n : ℕ},
    n ≤ buffer.length → (readBody buffer n).run block = .ok () block' →
    block.type = blockType B ∧ ∃ b, block' = { block with body := b } ∧ bodyLength b ≤ n ∧
      IsBody b (buffer.take (bodyLength b))
  writeBody_ok : ∀ {block : PcapngBlock B} {w mem : Bytes} {n : ℕ},
    IsBody block.body w → w.length ≤ n → n ≤ mem.length →
    ∃ mem', (writeBody block n).run mem = .ok () mem'
  writeBody_eq_ok : ∀ {block : PcapngBlock B} {mem mem' : Bytes} {n : ℕ}, n ≤ mem.length →
    (writeBody block n).run mem = .ok () mem' →
    bodyLength block.body ≤ n ∧ ∃ w, IsBody block.body w ∧ mem' = w ++ mem.drop w.length

theorem IsImage.length_eq [BodyFormat B] {block : PcapngBlock B} {w : Bytes}
    (h : IsImage block w) :
    w.length = 12 + bodyLength block.body + block.option.length := by
  obtain ⟨-, body, ⟨hl, -⟩, rfl⟩ := h
  simp only [List.length_append, head_length, tail_length, hl]
  omega

/-- The total length in front of a block on the wire. -/
def leadingLength (w : Bytes) : UInt32 := (PcapngBlockHead.layout.dec (w.take 8)).totalLength

/-- The total length at its end. -/
def trailingLength (w : Bytes) : UInt32 :=
  (PcapngBlockTail.layout.dec (w.drop (w.length - 4))).totalLength

@[simp] theorem leadingLength_enc (head : PcapngBlockHead) (rest : Bytes) :
    leadingLength (PcapngBlockHead.layout.enc head ++ rest) = head.totalLength := by
  rw [leadingLength, List.take_left' (head_length _), Layout.dec_enc]

@[simp] theorem trailingLength_enc (front : Bytes) (tail : PcapngBlockTail) :
    trailingLength (front ++ PcapngBlockTail.layout.enc tail) = tail.totalLength := by
  rw [trailingLength, List.length_append, tail_length, Nat.add_sub_cancel, List.drop_left,
    Layout.dec_enc]

/-- The two words of an image are the total length of the block. -/
theorem IsImage.words [BodyFormat B] {block : PcapngBlock B} {w : Bytes} (h : IsImage block w) :
    leadingLength w = block.totalLength ∧ trailingLength w = block.totalLength := by
  obtain ⟨-, body, -, rfl⟩ := h
  refine ⟨leadingLength_enc _ _, ?_⟩
  rw [← List.append_assoc, ← List.append_assoc]
  exact trailingLength_enc _ _

end Images

section WritingSpec

theorem writeHead_eq_ok {block : PcapngBlock B} {mem mem' : Bytes} {n : ℕ}
    (h : (writeHead block n).run mem = .ok () mem') :
    8 ≤ n ∧ mem' = PcapngBlockHead.layout.enc ⟨block.type, block.totalLength⟩ ++ mem.drop 8 := by
  obtain ⟨hn, hs⟩ := throwIf_bind_eq_ok.mp h
  obtain ⟨-, rfl⟩ := store_eq_ok.mp hs
  rw [splice_zero, Layout.enc_length, head_size]
  exact ⟨by simpa [head_size] using hn, rfl⟩

theorem writeOption_eq_ok {block : PcapngBlock B} {mem mem' : Bytes} {n : ℕ}
    (h : (writeOption block n).run mem = .ok () mem') :
    block.option.length ≤ n ∧ mem' = block.option ++ mem.drop block.option.length := by
  obtain ⟨hn, hs⟩ := throwIf_bind_eq_ok.mp h
  obtain ⟨-, rfl⟩ := store_eq_ok.mp hs
  exact ⟨Nat.not_lt.mp hn, splice_zero _ _⟩

theorem writeTail_eq_ok {block : PcapngBlock B} {mem mem' : Bytes} {n : ℕ}
    (h : (writeTail block n).run mem = .ok () mem') :
    4 ≤ n ∧ mem' = PcapngBlockTail.layout.enc ⟨block.totalLength⟩ ++ mem.drop 4 := by
  obtain ⟨hn, hs⟩ := throwIf_bind_eq_ok.mp h
  obtain ⟨-, rfl⟩ := store_eq_ok.mp hs
  rw [splice_zero, Layout.enc_length, tail_size]
  exact ⟨by simpa [tail_size] using hn, rfl⟩

/-- A write that returns leaves the block in front of the untouched rest of the buffer. -/
theorem write_eq_ok [BodyFormat B] [LawfulBody B] {block : PcapngBlock B} {mem mem' : Bytes} {n : ℕ}
    (hmem : n ≤ mem.length) (h : (write block n).run mem = .ok () mem') :
    block.totalLength.toNat ≤ n ∧ ∃ w, IsImage block w ∧ mem' = w ++ mem.drop w.length := by
  obtain ⟨hn, h⟩ := throwIf_bind_eq_ok.mp h
  obtain ⟨_, m₁, h₁, h⟩ := bind_eq_ok.mp h
  obtain ⟨hn₁, hm₁⟩ := writeHead_eq_ok h₁
  rw [hm₁] at h
  obtain ⟨_, m₂, h₂, h⟩ := bind_eq_ok.mp h
  obtain ⟨t₂, h₂, hm₂⟩ := atOffset_append_eq_ok (Layout.enc_length _ _) h₂
  have s₁ : sizeSub n PcapngBlockHead.layout.size = n - 8 := sizeSub_of_le hn₁
  obtain ⟨hn₂, body, hbody, ht₂⟩ := LawfulBody.writeBody_eq_ok
    (by rw [s₁, List.length_drop]; omega) h₂
  rw [hm₂, ht₂, ← List.append_assoc] at h
  obtain ⟨_, m₃, h₃, h⟩ := bind_eq_ok.mp h
  obtain ⟨t₃, h₃, hm₃⟩ := atOffset_append_eq_ok
    (by rw [List.length_append, Layout.enc_length, hbody.1]) h₃
  obtain ⟨hn₃, ht₃⟩ := writeOption_eq_ok h₃
  rw [hm₃, ht₃, ← List.append_assoc] at h
  obtain ⟨_, m₄, h₄, h⟩ := bind_eq_ok.mp h
  obtain ⟨t₄, h₄, hm₄⟩ := atOffset_append_eq_ok
    (by rw [List.length_append, List.length_append, Layout.enc_length, hbody.1]) h₄
  obtain ⟨hn₄, ht₄⟩ := writeTail_eq_ok h₄
  obtain ⟨hlen, hm₅⟩ := throwIf_eq_ok.mp h
  rw [head_size] at hn₂ hn₃ hn₄ hlen
  rw [sizeSub_of_le hn₁] at hn₂ hn₃ hn₄ hlen
  rw [sizeSub_of_le hn₂] at hn₃ hn₄ hlen
  rw [sizeSub_of_le hn₃] at hn₄ hlen
  rw [tail_size, sizeSub_of_le hn₄, sizeSub_of_le (by omega), not_not] at hlen
  refine ⟨Nat.not_lt.mp hn, _, ⟨?_, body, hbody, rfl⟩, ?_⟩
  · simp only [List.length_append, Layout.enc_length, head_size, tail_size, hbody.1]
    omega
  · rw [hm₅, hm₄, ht₄]
    simp only [List.append_assoc, List.drop_drop, List.length_append, Layout.enc_length, head_size,
      tail_size, Nat.add_assoc]

theorem writeHead_ok (block : PcapngBlock B) {mem : Bytes} {n : ℕ} (hn : 8 ≤ n)
    (hmem : 8 ≤ mem.length) : (writeHead block n).run mem =
      .ok () (PcapngBlockHead.layout.enc ⟨block.type, block.totalLength⟩ ++ mem.drop 8) := by
  unfold writeHead
  rw [run_bind_ok (throwIf_pass (by rw [head_size]; omega) _)]
  exact Layout.store_ok _ _ hmem

theorem writeOption_ok (block : PcapngBlock B) {mem : Bytes} {n : ℕ}
    (hn : block.option.length ≤ n) (hmem : block.option.length ≤ mem.length) :
    (writeOption block n).run mem = .ok () (block.option ++ mem.drop block.option.length) := by
  unfold writeOption
  rw [run_bind_ok (throwIf_pass (Nat.not_lt.mpr hn) _), store_ok (by omega), splice_zero]

theorem writeTail_ok (block : PcapngBlock B) {mem : Bytes} {n : ℕ} (hn : 4 ≤ n)
    (hmem : 4 ≤ mem.length) : (writeTail block n).run mem =
      .ok () (PcapngBlockTail.layout.enc ⟨block.totalLength⟩ ++ mem.drop 4) := by
  unfold writeTail
  rw [run_bind_ok (throwIf_pass (by rw [tail_size]; omega) _)]
  exact Layout.store_ok _ _ hmem

/-- What is left of a buffer behind the body and behind the option, and how much of it is used when
the tail is taken off too. -/
theorem sizeSub_parts {n body option : ℕ} (h : 12 + body + option ≤ n) :
    sizeSub (sizeSub n 8) body = n - 8 - body ∧
      sizeSub (sizeSub (sizeSub n 8) body) option = n - 8 - body - option ∧
      sizeSub n (sizeSub (sizeSub (sizeSub (sizeSub n 8) body) option) 4) = 12 + body + option := by
  have hbody : sizeSub (sizeSub n 8) body = n - 8 - body := by
    rw [sizeSub_of_le (show 8 ≤ n by omega), sizeSub_of_le (by omega)]
  have hoption : sizeSub (n - 8 - body) option = n - 8 - body - option := sizeSub_of_le (by omega)
  rw [hbody, hoption]
  refine ⟨rfl, rfl, ?_⟩
  rw [sizeSub_of_le (show 4 ≤ n - 8 - body - option by omega), sizeSub_of_le (by omega)]
  omega

/-- The run of a write around a body that is written. -/
theorem write_run [PcapngBody B] {block : PcapngBlock B} {body mem : Bytes} {n : ℕ}
    (hbody : (writeBody block (n - 8)).run (mem.drop 8) =
      .ok () (body ++ (mem.drop 8).drop body.length))
    (hl : body.length = bodyLength block.body)
    (hlen : block.totalLength.toNat = 12 + bodyLength block.body + block.option.length)
    (hn : block.totalLength.toNat ≤ n) (hmem : n ≤ mem.length) :
    (write block n).run mem = .ok ()
      (PcapngBlockHead.layout.enc ⟨block.type, block.totalLength⟩ ++ (body ++ (block.option ++
        (PcapngBlockTail.layout.enc ⟨block.totalLength⟩ ++
          mem.drop block.totalLength.toNat)))) := by
  have h₁ : (writeHead block n).run mem = _ := writeHead_ok block (by omega) (by omega)
  have h₃ : (writeOption block (n - 8 - bodyLength block.body)).run
      ((mem.drop 8).drop body.length) = _ :=
    writeOption_ok block (by omega) (by simp only [List.length_drop]; omega)
  have h₄ : (writeTail block (n - 8 - bodyLength block.body - block.option.length)).run
      (((mem.drop 8).drop body.length).drop block.option.length) = _ :=
    writeTail_ok block (by omega) (by simp only [List.length_drop]; omega)
  have a₂ := atOffset_ok (show (PcapngBlockHead.layout.enc ⟨block.type, block.totalLength⟩).length =
    8 from Layout.enc_length _ _) hbody
  rw [← List.append_assoc] at a₂
  have a₃ := atOffset_ok (show (PcapngBlockHead.layout.enc ⟨block.type, block.totalLength⟩ ++
    body).length = 8 + bodyLength block.body by
      rw [List.length_append, Layout.enc_length, hl, head_size]) h₃
  rw [← List.append_assoc] at a₃
  have a₄ := atOffset_ok (show (PcapngBlockHead.layout.enc ⟨block.type, block.totalLength⟩ ++
    body ++ block.option).length = 8 + bodyLength block.body + block.option.length by
      rw [List.length_append, List.length_append, Layout.enc_length, hl, head_size]) h₄
  have s₁ : sizeSub n 8 = n - 8 := sizeSub_of_le (by omega)
  obtain ⟨s₂, s₃, s₄⟩ := sizeSub_parts (hlen ▸ hn)
  rw [← hlen] at s₄
  have hrest : (((mem.drop 8).drop body.length).drop block.option.length).drop 4 =
      mem.drop block.totalLength.toNat := by
    simp only [List.drop_drop]
    congr 1
    omega
  rw [hrest] at a₄
  unfold write
  rw [run_bind_ok (throwIf_pass (by omega) _), run_bind_ok h₁]
  rw [s₁] at s₂ s₃
  rw [s₂] at s₃
  simp only [head_size, tail_size, s₁, s₂, s₃]
  rw [run_bind_ok a₂, run_bind_ok a₃, run_bind_ok a₄]
  refine (throwIf_pass (by rw [s₄]; simp) _).trans ?_
  simp only [List.append_assoc]

/-- A block whose total length is that of its parts is written wherever it fits. -/
theorem write_ok [BodyFormat B] [LawfulBody B] {block : PcapngBlock B} {body mem : Bytes} {n : ℕ}
    (hbody : IsBody block.body body)
    (hlen : block.totalLength.toNat = 12 + bodyLength block.body + block.option.length)
    (hn : block.totalLength.toNat ≤ n) (hmem : n ≤ mem.length) :
    ∃ mem', (write block n).run mem = .ok () mem' := by
  have hl := hbody.1
  have hdrop : n - 8 ≤ (mem.drop 8).length := by
    rw [List.length_drop]
    omega
  obtain ⟨t, h₂⟩ := LawfulBody.writeBody_ok hbody (by omega) hdrop
  obtain ⟨-, w, ⟨hwl, -⟩, rfl⟩ := LawfulBody.writeBody_eq_ok hdrop h₂
  exact ⟨_, write_run h₂ hwl hlen hn hmem⟩

end WritingSpec

section ReadingSpec

theorem readHead_ok (head : PcapngBlockHead) (rest : Bytes) {n : ℕ} (hn : 8 ≤ n)
    (block : PcapngBlock B) : (readHead (PcapngBlockHead.layout.enc head ++ rest) n).run block =
      .ok () { block with type := head.type, totalLength := head.totalLength } := by
  unfold readHead
  rw [run_bind_ok (throwIf_pass (by rw [head_size]; omega) _),
    run_bind_ok (Layout.load_enc _ _ _ _)]
  rfl

theorem readHead_eq_ok {buffer : Bytes} {n : ℕ} {block block' : PcapngBlock B}
    (h : (readHead buffer n).run block = .ok () block') :
    8 ≤ n ∧ 8 ≤ buffer.length ∧
      buffer.take 8 = PcapngBlockHead.layout.enc ⟨block'.type, block'.totalLength⟩ := by
  obtain ⟨hn, h₁⟩ := throwIf_bind_eq_ok.mp h
  obtain ⟨head, _, h₂, h₃⟩ := bind_eq_ok.mp h₁
  obtain ⟨hlen, rfl, rfl⟩ := (Layout.load_eq_ok _).mp h₂
  cases h₃
  rw [head_size] at hn hlen
  rw [List.drop_zero]
  refine ⟨by omega, by omega, ?_⟩
  exact (PcapngBlockHead.layout.enc_dec_take (by rw [head_size]; omega)).symm

variable [BodyFormat B]

theorem optionLength_eq {block : PcapngBlock B} {k : ℕ}
    (h : block.totalLength.toNat = 12 + bodyLength block.body + k) : optionLength block = k := by
  have s₁ : sizeSub block.totalLength.toNat 8 = block.totalLength.toNat - 8 :=
    sizeSub_of_le (by omega)
  have s₂ : sizeSub (block.totalLength.toNat - 8) (bodyLength block.body) =
    block.totalLength.toNat - 8 - bodyLength block.body := sizeSub_of_le (by omega)
  unfold optionLength
  rw [head_size, tail_size, s₁, s₂, sizeSub_of_le (by omega)]
  omega

theorem readOption_ok (block : PcapngBlock B) (option rest : Bytes) {n : ℕ}
    (hlen : optionLength block = option.length) (hn : option.length ≤ n)
    (hmax : option.length ≤ vectorMaxSize) :
    (readOption (option ++ rest) n).run block = .ok () { block with option := option } := by
  have hres := resize_ok block.option hmax block
  have hsize := (resize_eq_ok hres).1
  unfold readOption
  rw [run_bind_ok (run_get block), hlen, run_bind_ok (throwIf_pass (by omega) _),
    run_bind_ok (run_get block), run_bind_ok hres, run_bind_ok (run_modify _ _), hsize,
    run_bind_ok (load_ok (by simp) _), run_modify]
  simp

theorem readOption_eq_ok {buffer : Bytes} {n : ℕ} {block block' : PcapngBlock B}
    (h : (readOption buffer n).run block = .ok () block') :
    ∃ option, option.length = optionLength block ∧ option.length ≤ n ∧
      buffer.take option.length = option ∧ block' = { block with option := option } := by
  unfold readOption at h
  rw [run_bind_ok (run_get block)] at h
  obtain ⟨hn, h₁⟩ := throwIf_bind_eq_ok.mp h
  rw [run_bind_ok (run_get block)] at h₁
  obtain ⟨option, _, h₂, h₃⟩ := bind_eq_ok.mp h₁
  obtain ⟨hsize, hs⟩ := resize_eq_ok h₂
  rw [hs, run_bind_ok (run_modify _ _), hsize] at h₃
  obtain ⟨data, _, h₄, h₅⟩ := bind_eq_ok.mp h₃
  obtain ⟨hlen, hdata, hs'⟩ := load_eq_ok.mp h₄
  rw [hs', hdata] at h₅
  cases h₅
  rw [Nat.zero_add] at hlen
  have hl : (buffer.take (optionLength block)).length = optionLength block := by
    simpa using hlen
  rw [List.drop_zero]
  exact ⟨_, hl, by omega, by rw [hl], rfl⟩

omit [BodyFormat B] in
theorem readTail_ok (rest : Bytes) {n : ℕ} (hn : 4 ≤ n) (block : PcapngBlock B) :
    (readTail (PcapngBlockTail.layout.enc ⟨block.totalLength⟩ ++ rest) n).run block =
      .ok () block := by
  unfold readTail
  rw [run_bind_ok (throwIf_pass (by rw [tail_size]; omega) _),
    run_bind_ok (Layout.load_enc _ _ _ _), run_bind_ok (run_get block)]
  exact throwIf_pass (by simp) _

omit [BodyFormat B] in
theorem readTail_eq_ok {buffer : Bytes} {n : ℕ} {block block' : PcapngBlock B}
    (h : (readTail buffer n).run block = .ok () block') :
    4 ≤ n ∧ 4 ≤ buffer.length ∧ block' = block ∧
      buffer.take 4 = PcapngBlockTail.layout.enc ⟨block.totalLength⟩ := by
  obtain ⟨hn, h₁⟩ := throwIf_bind_eq_ok.mp h
  obtain ⟨tail, _, h₂, h₃⟩ := bind_eq_ok.mp h₁
  obtain ⟨hlen, htail, hs⟩ := (Layout.load_eq_ok _).mp h₂
  rw [hs, run_bind_ok (run_get block)] at h₃
  obtain ⟨htot, hblock⟩ := throwIf_eq_ok.mp h₃
  rw [tail_size] at hn hlen
  have henc := PcapngBlockTail.layout.enc_dec_take (b := buffer) (by rw [tail_size]; omega)
  rw [List.drop_zero] at htail
  rw [← htail, tail_size] at henc
  rw [not_not] at htot
  exact ⟨by omega, by omega, hblock, by rw [← henc, ← htot]⟩

/-- Reading a block from its image, wherever the image lies in a larger buffer. -/
theorem read_ok [LawfulBody B] {block : PcapngBlock B} {w : Bytes} (himg : IsImage block w)
    (htype : block.type = blockType B) (rest : Bytes) {n : ℕ} (hn : w.length ≤ n)
    (obj : PcapngBlock B) :
    ∃ b, (read (w ++ rest) n).run obj = .ok () { block with body := b } ∧
      content b = content block.body := by
  have htot := himg.length_eq
  obtain ⟨hw, body, hbody, rfl⟩ := himg
  have hl := hbody.1
  have hlt := block.totalLength.toNat_lt
  have s₁ : sizeSub n 8 = n - 8 := sizeSub_of_le (by omega)
  have h₁ := readHead_ok ⟨block.type, block.totalLength⟩
    (body ++ (block.option ++ (PcapngBlockTail.layout.enc ⟨block.totalLength⟩ ++ rest)))
    (show 8 ≤ n by omega) obj
  obtain ⟨b, h₂, ⟨hl', -⟩, hcont⟩ := LawfulBody.readBody_ok (n := sizeSub n 8)
    { obj with type := block.type, totalLength := block.totalLength }
    (block.option ++ (PcapngBlockTail.layout.enc ⟨block.totalLength⟩ ++ rest)) htype hbody
    (by omega)
  rw [hl'] at hl
  obtain ⟨s₂, s₃, s₄⟩ := sizeSub_parts (show 12 + bodyLength b + block.option.length ≤ n by omega)
  have h₃ := readOption_ok (n := sizeSub (sizeSub n 8) (bodyLength b))
    { obj with type := block.type, totalLength := block.totalLength, body := b } block.option
    (PcapngBlockTail.layout.enc ⟨block.totalLength⟩ ++ rest)
    (optionLength_eq (by simp only; omega)) (by omega) (by unfold vectorMaxSize; omega)
  have h₄ := readTail_ok rest
    (show 4 ≤ sizeSub (sizeSub (sizeSub n 8) (bodyLength b)) block.option.length by omega)
    { block with body := b }
  have hused : 12 + bodyLength b + block.option.length = block.totalLength.toNat := by omega
  rw [hused] at s₄
  refine ⟨b, ?_, hcont⟩
  unfold read
  simp only [List.append_assoc, head_size, tail_size]
  rw [run_bind_ok h₁, List.drop_left' (head_length _), run_bind_ok h₂,
    run_bind_ok (run_get _), List.drop_left' hl', run_bind_ok h₃, run_bind_ok (run_get _),
    List.drop_left, run_bind_ok h₄]
  exact throwIf_pass (by rw [s₄]; simp) _

theorem read_eq_ok [LawfulBody B] {buffer : Bytes} {n : ℕ} (hn : n ≤ buffer.length)
    {obj block : PcapngBlock B} (h : (read buffer n).run obj = .ok () block) :
    block.type = blockType B ∧ block.totalLength.toNat ≤ n ∧
      IsImage block (buffer.take block.totalLength.toNat) := by
  obtain ⟨_, b₁, h₁, h⟩ := bind_eq_ok.mp h
  obtain ⟨hn₁, -, hhead⟩ := readHead_eq_ok h₁
  obtain ⟨_, b₂, h₂, h⟩ := bind_eq_ok.mp h
  simp only [head_size, tail_size, sizeSub_of_le hn₁] at h₂ h
  obtain ⟨htype, b, rfl, hn₂, hbody⟩ := LawfulBody.readBody_eq_ok
    (show n - 8 ≤ (buffer.drop 8).length by rw [List.length_drop]; omega) h₂
  rw [run_bind_ok (run_get _)] at h
  simp only [sizeSub_of_le hn₂] at h
  obtain ⟨_, b₃, h₃, h⟩ := bind_eq_ok.mp h
  obtain ⟨option, -, hn₃, hopt, rfl⟩ := readOption_eq_ok h₃
  rw [run_bind_ok (run_get _)] at h
  simp only [sizeSub_of_le hn₃] at h
  obtain ⟨_, b₄, h₄, h⟩ := bind_eq_ok.mp h
  obtain ⟨hn₄, -, rfl, htail⟩ := readTail_eq_ok h₄
  obtain ⟨hlen, rfl⟩ := throwIf_eq_ok.mp h
  rw [sizeSub_of_le hn₁, sizeSub_of_le hn₂, sizeSub_of_le hn₃, sizeSub_of_le hn₄,
    sizeSub_of_le (by omega), not_not] at hlen
  refine ⟨htype, ?_, ?_, _, hbody, ?_⟩
  · rw [← hlen]
    omega
  · rw [List.length_take, Nat.min_eq_left]
    rw [← hlen]
    omega
  · change buffer.take b₁.totalLength.toNat = _
    have hsplit : b₁.totalLength.toNat = 8 + (bodyLength b + (option.length + 4)) := by
      rw [← hlen]
      omega
    rw [hsplit, List.take_add, List.take_add, List.take_add, hhead, hopt, htail]

end ReadingSpec

end Pgen.PcapngBlocks
