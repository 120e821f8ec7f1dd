import Pgen.PcapngBodies

/-!
# Decoding a block from arbitrary memory

The length of the options is a difference of unsigned numbers: where the total length is less
than what the block is made of, it wraps around. The comparison in front of `resize` keeps every
decoder inside the buffer all the same.
-/
namespace Pgen.PcapngDecoding
open ByteMemory StructLayout PcapngBlocks PcapngBodies

variable {B : Type}

section Steps

theorem readHead_cases {buffer : Bytes} {n : ℕ} (hn : n ≤ buffer.length) (block : PcapngBlock B) :
    (∃ what, (readHead buffer n).run block = .error (.exception what) block) ∨
    8 ≤ n ∧ ∃ type totalLength, (readHead buffer n).run block =
      .ok () { block with type := type, totalLength := totalLength } := by
  unfold readHead
  rcases Nat.lt_or_ge n 8 with hlt | hge
  · exact .inl ⟨_, run_bind_error (throwIf_fail hlt block)⟩
  · right
    rw [run_bind_ok (throwIf_pass (by rw [head_size]; omega) _),
      run_bind_ok (Layout.load_ok _ (by rw [head_size]; omega) _)]
    exact ⟨hge, _, _, rfl⟩

variable [PcapngBody B]

/-- The comparison holds of what `resize` is asked for, wrapped around or not. -/
theorem readOption_cases {buffer : Bytes} {n : ℕ} (hn : n ≤ buffer.length)
    (block : PcapngBlock B) :
    (∃ what, (readOption buffer n).run block = .error (.exception what) block) ∨
    optionLength block ≤ n ∧ ((readOption buffer n).run block = .error .lengthError block ∨
      ∃ option, option.length = optionLength block ∧
        (readOption buffer n).run block = .ok () { block with option := option }) := by
  unfold readOption
  rw [run_bind_ok (run_get block)]
  rcases Nat.lt_or_ge n (optionLength block) with hlt | hge
  · exact .inl ⟨_, run_bind_error (throwIf_fail hlt block)⟩
  · refine .inr ⟨hge, ?_⟩
    rw [run_bind_ok (throwIf_pass (Nat.not_lt.mpr hge) _), run_bind_ok (run_get block)]
    rcases Nat.lt_or_ge vectorMaxSize (optionLength block) with hmax | hmax
    · left
      have hres : (resize block.option (optionLength block)).run block =
          .error .lengthError block := by simp [resize, hmax]
      exact run_bind_error hres
    · right
      have hres := resize_ok block.option hmax block
      have hsize := (resize_eq_ok hres).1
      rw [run_bind_ok hres, run_bind_ok (run_modify _ _), hsize,
        run_bind_ok (load_ok (by omega) _), run_modify]
      exact ⟨_, by simpa using hge.trans hn, rfl⟩

omit [PcapngBody B] in
theorem readTail_cases {buffer : Bytes} {n : ℕ} (hn : n ≤ buffer.length) (block : PcapngBlock B) :
    (∃ what, (readTail buffer n).run block = .error (.exception what) block) ∨
    4 ≤ n ∧ (readTail buffer n).run block = .ok () block := by
  unfold readTail
  rcases Nat.lt_or_ge n 4 with hlt | hge
  · exact .inl ⟨_, run_bind_error (throwIf_fail hlt block)⟩
  · rw [run_bind_ok (throwIf_pass (by rw [tail_size]; omega) _),
      run_bind_ok (Layout.load_ok _ (by rw [tail_size]; omega) _), run_bind_ok (run_get block)]
    by_cases htot : (PcapngBlockTail.layout.dec
        ((buffer.drop 0).take PcapngBlockTail.layout.size)).totalLength ≠ block.totalLength
    · exact .inl ⟨_, throwIf_fail htot block⟩
    · exact .inr ⟨hge, throwIf_pass htot block⟩

/-- The body of the class is read within the buffer and nothing but the members is changed. -/
class SafeBody (B : Type) [PcapngBody B] : Prop where
  readBody_cases : ∀ {buffer : Bytes} {n : ℕ}, n ≤ buffer.length → ∀ block : PcapngBlock B,
    (∃ what body, (readBody buffer n).run block =
      .error (.exception what) { block with body := body }) ∨
    ∃ body, (readBody buffer n).run block = .ok () { block with body := body } ∧
      bodyLength body ≤ n

end Steps

section Bodies

/-- A class whose members are one record. -/
theorem readRecord_cases (L : Layout B) (type : UInt32) (notThis tooSmall : String)
    {buffer : Bytes} {n : ℕ} (hn : n ≤ buffer.length) (block : PcapngBlock B) :
    (∃ what body, (readRecord L type notThis tooSmall buffer n).run block =
      .error (.exception what) { block with body := body }) ∨
    ∃ body, (readRecord L type notThis tooSmall buffer n).run block =
      .ok () { block with body := body } ∧ L.size ≤ n := by
  unfold readRecord
  rw [run_bind_ok (run_get block)]
  by_cases htype : block.type ≠ type
  · exact .inl ⟨_, block.body, run_bind_error (throwIf_fail htype block)⟩
  · rw [run_bind_ok (throwIf_pass htype _)]
    rcases Nat.lt_or_ge n L.size with hlt | hge
    · exact .inl ⟨_, block.body, run_bind_error (throwIf_fail hlt block)⟩
    · rw [run_bind_ok (throwIf_pass (Nat.not_lt.mpr hge) _),
        run_bind_ok (Layout.load_ok _ (by omega) _), run_modify]
      exact .inr ⟨_, rfl, hge⟩

instance : SafeBody PcapngSHB where
  readBody_cases hn block := readRecord_cases _ _ _ _ hn block

instance : SafeBody PcapngIDB where
  readBody_cases hn block := readRecord_cases _ _ _ _ hn block

/-- Where the captured bytes do not fit, the fixed part of the members has been read already. -/
instance : SafeBody PcapngEPB where
  readBody_cases := by
    intro buffer n hn block
    change (∃ what body, (PcapngEPB.readBody buffer n).run block = _) ∨
      ∃ body, (PcapngEPB.readBody buffer n).run block = _ ∧ _
    unfold PcapngEPB.readBody
    rw [run_bind_ok (run_get block)]
    by_cases htype : block.type ≠ PcapngType.EPB
    · exact .inl ⟨_, block.body, run_bind_error (throwIf_fail htype block)⟩
    · rw [run_bind_ok (throwIf_pass htype _)]
      rcases Nat.lt_or_ge n EpbStruct.layout.size with hlt | hge
      · exact .inl ⟨_, block.body, run_bind_error (throwIf_fail hlt block)⟩
      · rw [run_bind_ok (throwIf_pass (Nat.not_lt.mpr hge) _),
          run_bind_ok (Layout.load_ok _ (by omega) _), run_bind_ok (run_modify _ _),
          run_bind_ok (run_get _)]
        by_cases hbody : n < (PcapngEPB.mk (EpbStruct.layout.dec
            ((buffer.drop 0).take EpbStruct.layout.size))
              block.body.packetDataPointer).bodyLength
        · exact .inl ⟨_, _, run_bind_error (throwIf_fail hbody _)⟩
        · right
          refine ⟨_, (run_bind_ok (throwIf_pass hbody _)).trans (run_modify _ _), ?_⟩
          exact Nat.not_lt.mp hbody

end Bodies

section Reading

variable [PcapngBody B] {obj block : PcapngBlock B} {b : Bytes}

/-- A call of `read` on the whole of `b`, whether it returned or threw: no byte outside `b` was
read, and the options were left alone or `resize` was asked for as many bytes as the subtraction
gives, no more than `b` has behind the body. -/
structure SafeRead (obj : PcapngBlock B) (b : Bytes) (r : Outcome (PcapngBlock B) Unit) :
    Prop where
  inBounds : InBounds r
  resize : (finalState r).option = obj.option ∧ (∀ s, r ≠ .error .lengthError s) ∨
    8 + bodyLength (finalState r).body + optionLength (finalState r) ≤ b.length ∧
      ((finalState r).option.length = optionLength (finalState r) ∨
        r = .error .lengthError (finalState r))

theorem SafeRead.of_exception {what : String} (h : block.option = obj.option) :
    SafeRead obj b (.error (.exception what) block) :=
  ⟨fun hf => hf, .inl ⟨h, by simp⟩⟩

theorem SafeRead.of_lengthError (h : 8 + bodyLength block.body + optionLength block ≤ b.length) :
    SafeRead obj b (.error .lengthError block) :=
  ⟨fun hf => hf, .inr ⟨h, .inr rfl⟩⟩

/-- Once the options have the requested length, nothing more is asked for. -/
theorem SafeRead.of_resized {r : Outcome (PcapngBlock B) Unit} (hr : InBounds r)
    (hs : finalState r = block) (hopt : block.option.length = optionLength block)
    (h : 8 + bodyLength block.body + optionLength block ≤ b.length) : SafeRead obj b r :=
  ⟨hr, .inr (by rw [hs]; exact ⟨h, .inl hopt⟩)⟩

theorem SafeRead.of_check (p : Prop) [Decidable p] (what : String)
    (hopt : block.option.length = optionLength block)
    (h : 8 + bodyLength block.body + optionLength block ≤ b.length) :
    SafeRead obj b ((throwIf p what).run block) := by
  by_cases hp : p
  · rw [throwIf_fail hp]
    exact .of_resized (fun hf => hf) rfl hopt h
  · rw [throwIf_pass hp]
    exact .of_resized trivial rfl hopt h

theorem read_safe [SafeBody B] (obj : PcapngBlock B) (b : Bytes) :
    SafeRead obj b ((PcapngBlocks.read b b.length).run obj) := by
  unfold PcapngBlocks.read
  rcases readHead_cases (Nat.le_refl b.length) obj with ⟨what, h₁⟩ | ⟨hn₁, type, total, h₁⟩
  · rw [run_bind_error h₁]
    exact .of_exception rfl
  rw [run_bind_ok h₁]
  simp only [head_size, tail_size, sizeSub_of_le hn₁]
  rcases SafeBody.readBody_cases (show b.length - 8 ≤ (b.drop 8).length by simp)
    { obj with type := type, totalLength := total } with ⟨what, body, h₂⟩ | ⟨body, h₂, hn₂⟩
  · rw [run_bind_error h₂]
    exact .of_exception rfl
  rw [run_bind_ok h₂, run_bind_ok (run_get _)]
  simp only [sizeSub_of_le hn₂]
  rcases readOption_cases (show b.length - 8 - bodyLength body ≤
      ((b.drop 8).drop (bodyLength body)).length by simp only [List.length_drop, Nat.le_refl])
    { obj with type := type, totalLength := total, body := body } with
    ⟨what, h₃⟩ | ⟨hn₃, h₃ | ⟨option, hopt, h₃⟩⟩
  · rw [run_bind_error h₃]
    exact .of_exception rfl
  · rw [run_bind_error h₃]
    exact .of_lengthError (by simp only; omega)
  rw [run_bind_ok h₃, run_bind_ok (run_get _)]
  have hfit : 8 + bodyLength body + option.length ≤ b.length := by
    rw [hopt]
    omega
  have hsub : sizeSub (b.length - 8 - bodyLength body) option.length =
      b.length - 8 - bodyLength body - option.length := sizeSub_of_le (by omega)
  simp only [hsub]
  rcases readTail_cases (show b.length - 8 - bodyLength body - option.length ≤
      (((b.drop 8).drop (bodyLength body)).drop option.length).length by
        simp only [List.length_drop, Nat.le_refl])
    { obj with type := type, totalLength := total, body := body, option := option } with
    ⟨what, h₄⟩ | ⟨-, h₄⟩
  · rw [run_bind_error h₄]
    exact .of_resized (fun hf => hf) rfl hopt (hopt ▸ hfit)
  rw [run_bind_ok h₄]
  exact .of_check _ _ hopt (hopt ▸ hfit)

end Reading

section Decoders

/-- What a decoder that returned has found: the type of the class, a total length that is that of
the parts and lies in the buffer, and this length at both ends of the block. -/
structure Decoded [PcapngBody B] (type : UInt32) (b : Bytes) (block : PcapngBlock B) : Prop where
  type_eq : block.type = type
  totalLength_eq : block.totalLength.toNat =
    8 + bodyLength block.body + block.option.length + 4
  totalLength_le : block.totalLength.toNat ≤ b.length
  leading : leadingLength (b.take block.totalLength.toNat) = block.totalLength
  trailing : trailingLength (b.take block.totalLength.toNat) = block.totalLength

theorem decoded_of_read [BodyFormat B] [LawfulBody B] {obj block : PcapngBlock B} {b : Bytes}
    (h : (PcapngBlocks.read b b.length).run obj = .ok () block) :
    Decoded (blockType B) b block := by
  obtain ⟨htype, hle, himg⟩ := read_eq_ok (Nat.le_refl _) h
  obtain ⟨hlead, htrail⟩ := himg.words
  have hlen := himg.length_eq
  rw [himg.1] at hlen
  exact ⟨htype, by omega, hle, hlead, htrail⟩

/-- Decoding is safe from every state of the object and for every content of the buffer. -/
def SafeDecoder (B : Type) [PcapngBody B] (type : UInt32) : Prop :=
  ∀ (obj : PcapngBlock B) (b : Bytes),
    SafeRead obj b ((PcapngBlocks.read b b.length).run obj) ∧
    ∀ block, (PcapngBlocks.read b b.length).run obj = .ok () block → Decoded type b block

theorem safeDecoder_of_body [BodyFormat B] [LawfulBody B] [SafeBody B] :
    SafeDecoder B (blockType B) :=
  fun obj b => ⟨read_safe obj b, fun _ h => decoded_of_read h⟩

/-- The captured bytes of a decoded packet block lie in its body. -/
theorem captured_inside {obj block : PcapngBlock PcapngEPB} {b : Bytes}
    (h : (PcapngBlocks.read b b.length).run obj = .ok () block) :
    block.body.packetDataPointer = b.drop 28 ∧
      20 + block.body.captureLength.toNat ≤ bodyLength block.body := by
  have hbl : bodyLength block.body = _ := block.body.bodyLength_eq
  exact ⟨packetDataPointer_of_read h, by omega⟩

/-- Each of the three classes decodes safely, and the pointer of a packet block leads to captured
bytes inside its body. -/
theorem safeDecoder_all :
    SafeDecoder PcapngSHB PcapngType.SHB ∧ SafeDecoder PcapngIDB PcapngType.IDB ∧
    SafeDecoder PcapngEPB PcapngType.EPB ∧
    ∀ (obj block : PcapngBlock PcapngEPB) (b : Bytes),
      (PcapngBlocks.read b b.length).run obj = .ok () block →
      block.body.packetDataPointer = b.drop 28 ∧
        20 + block.body.captureLength.toNat ≤ bodyLength block.body :=
  ⟨safeDecoder_of_body, safeDecoder_of_body, safeDecoder_of_body,
    fun _ _ _ h => captured_inside h⟩

/-- An interface description with four bytes of options. -/
def describedInterface : Bytes :=
  [1, 0, 0, 0, 24, 0, 0, 0, 1, 0, 0, 0, 0, 0, 0, 0, 5, 6, 7, 8, 24, 0, 0, 0]

theorem safeDecoder_all_described :
    Decoded PcapngType.IDB describedInterface
      (⟨PcapngType.IDB, 24, [5, 6, 7, 8], ⟨1, 0, 0⟩⟩ : PcapngBlock PcapngIDB) := by
  have hrun : (PcapngBlocks.read describedInterface describedInterface.length).run PcapngIDB.new =
      .ok () ⟨PcapngType.IDB, 24, [5, 6, 7, 8], ⟨1, 0, 0⟩⟩ := rfl
  exact (safeDecoder_all.2.1 PcapngIDB.new describedInterface).2 _ hrun

end Decoders

end Pgen.PcapngDecoding
