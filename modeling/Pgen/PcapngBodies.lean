import Pgen.PcapngBlocks

/-!
# `pcapng_SHB`, `pcapng_IDB` and `pcapng_EPB`

The section header and the interface description are fixed records; an enhanced packet block is a
record, the captured bytes and padding up to the next multiple of four.
-/
namespace Pgen.PcapngBodies
open ByteMemory StructLayout PcapngBlocks

section FixedRecords

variable {B : Type}

/-- `read_body` of a class whose members are one record. -/
def readRecord (L : Layout B) (type : UInt32) (notThis tooSmall : String) (buffer : Bytes)
    (bufferlen : ℕ) : Exec (PcapngBlock B) Unit := do
  throwIf ((← get).type ≠ type) notThis
  throwIf (bufferlen < L.size) tooSmall
  let record ← L.load buffer 0
  modify fun block => { block with body := record }

/-- `write_body` of a class whose members are one record. -/
def writeRecord (L : Layout B) (tooSmall : String) (block : PcapngBlock B) (bufferlen : ℕ) :
    Exec Bytes Unit := do
  throwIf (bufferlen < L.size) tooSmall
  L.store 0 block.body

theorem readRecord_ok (L : Layout B) (rest : Bytes) {type : UInt32} {notThis tooSmall : String}
    {n : ℕ} {block : PcapngBlock B} (htype : block.type = type) (hn : L.size ≤ n) (record : B) :
    (readRecord L type notThis tooSmall (L.enc record ++ rest) n).run block =
      .ok () { block with body := record } := by
  unfold readRecord
  rw [run_bind_ok (run_get block), run_bind_ok (throwIf_pass (by simpa using htype) _),
    run_bind_ok (throwIf_pass (by omega) _), run_bind_ok (Layout.load_enc _ _ _ _), run_modify]

theorem readRecord_eq_ok {L : Layout B} {type : UInt32} {notThis tooSmall : String}
    {buffer : Bytes} {n : ℕ} {block block' : PcapngBlock B}
    (h : (readRecord L type notThis tooSmall buffer n).run block = .ok () block') :
    block.type = type ∧ L.size ≤ n ∧ ∃ record, block' = { block with body := record } ∧
      buffer.take L.size = L.enc record := by
  unfold readRecord at h
  rw [run_bind_ok (run_get block)] at h
  obtain ⟨htype, h₁⟩ := throwIf_bind_eq_ok.mp h
  obtain ⟨hn, h₂⟩ := throwIf_bind_eq_ok.mp h₁
  obtain ⟨record, _, h₃, h₄⟩ := bind_eq_ok.mp h₂
  obtain ⟨hlen, hrec, hs⟩ := (Layout.load_eq_ok _).mp h₃
  rw [hs] at h₄
  cases h₄
  rw [Nat.zero_add] at hlen
  refine ⟨by simpa using htype, by omega, record, rfl, ?_⟩
  rw [hrec, List.drop_zero, L.enc_dec_take hlen]

theorem writeRecord_ok (L : Layout B) {tooSmall : String} {mem : Bytes} {n : ℕ}
    (block : PcapngBlock B) (hn : L.size ≤ n) (hmem : L.size ≤ mem.length) :
    (writeRecord L tooSmall block n).run mem = .ok () (L.enc block.body ++ mem.drop L.size) := by
  unfold writeRecord
  rw [run_bind_ok (throwIf_pass (by omega) _), L.store_ok _ hmem]

theorem writeRecord_eq_ok {L : Layout B} {tooSmall : String} {mem mem' : Bytes} {n : ℕ}
    {block : PcapngBlock B} (h : (writeRecord L tooSmall block n).run mem = .ok () mem') :
    L.size ≤ n ∧ mem' = L.enc block.body ++ mem.drop L.size := by
  obtain ⟨hn, h₁⟩ := throwIf_bind_eq_ok.mp h
  obtain ⟨-, rfl⟩ := store_eq_ok.mp h₁
  exact ⟨by omega, by rw [splice_zero, L.enc_length]⟩

/-- A class whose members are one record transports its bodies. -/
theorem lawfulBody_of_record [BodyFormat B] (L : Layout B) {notThis tooSmall tooSmall' : String}
    (hlen : ∀ b : B, bodyLength b = L.size)
    (hread : (readBody : _ → _ → Exec (PcapngBlock B) Unit) =
      readRecord L (blockType B) notThis tooSmall)
    (hwrite : (writeBody : PcapngBlock B → _) = writeRecord L tooSmall')
    (hcontent : (content : B → Bytes) = L.enc) (hpadding : ∀ b : B, padding b = 0) :
    LawfulBody B := by
  have isBody_iff : ∀ {b : B} {w : Bytes}, IsBody b w ↔ w = L.enc b := by
    intro b w
    unfold IsBody
    rw [hlen, hcontent, hpadding]
    constructor
    · rintro ⟨-, pad, hpad, rfl⟩
      rw [List.length_eq_zero_iff.mp hpad, List.append_nil]
    · rintro rfl
      exact ⟨L.enc_length b, [], rfl, (List.append_nil _).symm⟩
  constructor
  case readBody_ok =>
    intro block b w rest n htype hw hn
    rw [isBody_iff] at hw
    subst hw
    rw [L.enc_length] at hn
    exact ⟨b, by rw [hread]; exact readRecord_ok L rest htype hn b, isBody_iff.mpr rfl, rfl⟩
  case readBody_eq_ok =>
    intro block block' buffer n hn h
    rw [hread] at h
    obtain ⟨htype, hsize, record, rfl, hrec⟩ := readRecord_eq_ok h
    refine ⟨htype, record, rfl, by rw [hlen]; exact hsize, ?_⟩
    rw [isBody_iff, hlen, hrec]
  case writeBody_ok =>
    intro block w mem n hw hn hmem
    rw [isBody_iff.mp hw, L.enc_length] at hn
    rw [hwrite]
    exact ⟨_, writeRecord_ok L block hn (hn.trans hmem)⟩
  case writeBody_eq_ok =>
    intro block mem mem' n _ h
    rw [hwrite] at h
    obtain ⟨hn, rfl⟩ := writeRecord_eq_ok h
    refine ⟨by rw [hlen]; exact hn, _, isBody_iff.mpr rfl, by rw [L.enc_length]⟩

end FixedRecords

section SectionHeader

/-- The members, in the order of `struct shb_struct`. -/
structure PcapngSHB where
  magic : UInt32
  versionMajor : UInt16
  versionMinor : UInt16
  sectionLength : UInt32 × UInt32
  deriving DecidableEq, Repr

def PcapngSHB.layout : Layout PcapngSHB :=
  (Layout.u32.pair (Layout.u16.pair (Layout.u16.pair (Layout.u32.pair Layout.u32)))).rename
  ⟨fun s => (s.magic, s.versionMajor, s.versionMinor, s.sectionLength),
    fun (a, b, c, d) => ⟨a, b, c, d⟩, fun _ => rfl, fun _ => rfl⟩

instance : PcapngBody PcapngSHB where
  bodyLength _ := PcapngSHB.layout.size
  readBody := readRecord PcapngSHB.layout PcapngType.SHB
    "pgen::pcapng_SHB::read_body: this is not SHB"
    "pgen::pcapng_SHB::read_body: bufferlen is too small"
  writeBody := writeRecord PcapngSHB.layout
    "pgen::pcapng_SHB::write_body: bufferlen is too small"

instance : BodyFormat PcapngSHB where
  blockType := PcapngType.SHB
  content := PcapngSHB.layout.enc
  padding _ := 0

instance : LawfulBody PcapngSHB :=
  lawfulBody_of_record PcapngSHB.layout (fun _ => rfl) rfl rfl rfl (fun _ => rfl)

/-- The object the constructor makes. -/
def PcapngSHB.new : PcapngBlock PcapngSHB where
  type := PcapngType.SHB
  totalLength := UInt32.ofNat (PcapngBlockHead.layout.size + PcapngSHB.layout.size + 0 +
    PcapngBlockTail.layout.size)
  option := []
  body := ⟨0x1a2b3c4d, 0x0001, 0x0000, (0xffffffff, 0xffffffff)⟩

end SectionHeader

section InterfaceDescription

/-- The members, in the order of `struct idb_struct`. -/
structure PcapngIDB where
  linkType : UInt16
  reserved : UInt16
  snapLength : UInt32
  deriving DecidableEq, Repr

def PcapngIDB.layout : Layout PcapngIDB :=
  (Layout.u16.pair (Layout.u16.pair Layout.u32)).rename
  ⟨fun i => (i.linkType, i.reserved, i.snapLength),
    fun (a, b, c) => ⟨a, b, c⟩, fun _ => rfl, fun _ => rfl⟩

instance : PcapngBody PcapngIDB where
  bodyLength _ := PcapngIDB.layout.size
  readBody := readRecord PcapngIDB.layout PcapngType.IDB
    "pgen::pcapng_IDB::read: this is not IDB"
    "pgen::pcapng_IDB::read_body: bufferlen is too small"
  writeBody := writeRecord PcapngIDB.layout
    "pgen::pcapng_IDB::write_body: bufferlen is too small"

instance : BodyFormat PcapngIDB where
  blockType := PcapngType.IDB
  content := PcapngIDB.layout.enc
  padding _ := 0

instance : LawfulBody PcapngIDB :=
  lawfulBody_of_record PcapngIDB.layout (fun _ => rfl) rfl rfl rfl (fun _ => rfl)

/-- The link type the constructor chooses. -/
def PcapngIDB.ethernet : UInt16 := 1

/-- The object the constructor makes. -/
def PcapngIDB.new : PcapngBlock PcapngIDB where
  type := PcapngType.IDB
  totalLength := UInt32.ofNat (PcapngBlockHead.layout.size + PcapngIDB.layout.size + 0 +
    PcapngBlockTail.layout.size)
  option := []
  body := ⟨PcapngIDB.ethernet, 0, 0⟩

end InterfaceDescription

section EnhancedPacket

structure EpbStruct where
  interfaceId : UInt32
  timestampHigh : UInt32
  timestampLow : UInt32
  captureLength : UInt32
  packetLength : UInt32
  deriving DecidableEq, Repr

def EpbStruct.layout : Layout EpbStruct :=
  (Layout.u32.pair (Layout.u32.pair (Layout.u32.pair (Layout.u32.pair Layout.u32)))).rename
  ⟨fun e => (e.interfaceId, e.timestampHigh, e.timestampLow, e.captureLength, e.packetLength),
    fun (a, b, c, d, e) => ⟨a, b, c, d, e⟩, fun _ => rfl, fun _ => rfl⟩

/-- `packetDataPointer` is the memory from the pointer to the end of the object it points into. -/
structure PcapngEPB extends EpbStruct where
  packetDataPointer : Bytes
  deriving DecidableEq, Repr

def PcapngEPB.bodyLength (e : PcapngEPB) : ℕ :=
  let bodysize := EpbStruct.layout.size + e.captureLength.toNat
  let a := bodysize % 4
  if a ≠ 0 then bodysize + (4 - a) else bodysize

def PcapngEPB.readBody (buffer : Bytes) (bufferlen : ℕ) : Exec (PcapngBlock PcapngEPB) Unit := do
  throwIf ((← get).type ≠ PcapngType.EPB) "pgen::pcapng_EPB::read: this is not EPB"
  throwIf (bufferlen < EpbStruct.layout.size) "pgen::pcapng_IDB::read_body: bufferlen is too small"
  let epb ← EpbStruct.layout.load buffer 0
  modify fun block => { block with body := { block.body with toEpbStruct := epb } }
  throwIf (bufferlen < (← get).body.bodyLength)
    "pgen::pcapng_IDB::read_body: bufferlen is too small"
  modify fun block =>
    { block with
      body := { block.body with packetDataPointer := buffer.drop EpbStruct.layout.size } }

def PcapngEPB.writeBody (block : PcapngBlock PcapngEPB) (bufferlen : ℕ) : Exec Bytes Unit := do
  throwIf (bufferlen < block.body.bodyLength)
    "pgen::pcapng_IDB::write_body: bufferlen is too small"
  EpbStruct.layout.store 0 block.body.toEpbStruct
  let packetData ← load block.body.packetDataPointer 0 block.body.captureLength.toNat
  store EpbStruct.layout.size packetData

instance : PcapngBody PcapngEPB where
  bodyLength := PcapngEPB.bodyLength
  readBody := PcapngEPB.readBody
  writeBody := PcapngEPB.writeBody

/-- The bytes after the captured ones that fill the body up. -/
def PcapngEPB.padding (e : PcapngEPB) : ℕ :=
  e.bodyLength - (EpbStruct.layout.size + e.captureLength.toNat)

/-- The captured bytes the packet pointer leads to. -/
def PcapngEPB.captured (e : PcapngEPB) : Bytes := e.packetDataPointer.take e.captureLength.toNat

instance : BodyFormat PcapngEPB where
  blockType := PcapngType.EPB
  content e := EpbStruct.layout.enc e.toEpbStruct ++ e.captured
  padding := PcapngEPB.padding

theorem epbStruct_size : EpbStruct.layout.size = 20 := rfl

theorem epbStruct_length (e : EpbStruct) : (EpbStruct.layout.enc e).length = 20 := rfl

theorem PcapngEPB.bodyLength_eq (e : PcapngEPB) :
    e.bodyLength = 20 + e.captureLength.toNat + e.padding := by
  unfold PcapngEPB.padding PcapngEPB.bodyLength
  rw [epbStruct_size]
  dsimp only
  split_ifs <;> omega

theorem PcapngEPB.padding_le (e : PcapngEPB) : e.padding ≤ 3 := by
  unfold PcapngEPB.padding PcapngEPB.bodyLength
  rw [epbStruct_size]
  dsimp only
  split_ifs <;> omega

theorem PcapngEPB.bodyLength_mod (e : PcapngEPB) : e.bodyLength % 4 = 0 := by
  unfold PcapngEPB.bodyLength
  dsimp only
  split_ifs <;> omega

theorem isBody_epb_iff {e : PcapngEPB} {w : Bytes} :
    IsBody e w ↔ e.captureLength.toNat ≤ e.packetDataPointer.length ∧
      ∃ pad, pad.length = e.padding ∧
        w = EpbStruct.layout.enc e.toEpbStruct ++ (e.captured ++ pad) := by
  have hbl := e.bodyLength_eq
  change (w.length = e.bodyLength ∧ ∃ pad, pad.length = e.padding ∧
    w = EpbStruct.layout.enc e.toEpbStruct ++ e.captured ++ pad) ↔ _
  simp only [List.append_assoc]
  constructor
  · rintro ⟨hl, pad, hpad, rfl⟩
    refine ⟨?_, pad, hpad, rfl⟩
    simp only [List.length_append, epbStruct_length, PcapngEPB.captured, List.length_take] at hl
    omega
  · rintro ⟨hcap, pad, hpad, rfl⟩
    refine ⟨?_, pad, hpad, rfl⟩
    simp only [List.length_append, epbStruct_length, PcapngEPB.captured, List.length_take]
    omega

theorem readBody_epb_ok {block : PcapngBlock PcapngEPB} (htype : block.type = PcapngType.EPB)
    (e : PcapngEPB) (tail : Bytes) {n : ℕ} (hn : e.bodyLength ≤ n) :
    (PcapngEPB.readBody (EpbStruct.layout.enc e.toEpbStruct ++ tail) n).run block =
      .ok () { block with body := ⟨e.toEpbStruct, tail⟩ } := by
  have hbl := e.bodyLength_eq
  have hd : (EpbStruct.layout.enc e.toEpbStruct ++ tail).drop EpbStruct.layout.size = tail :=
    List.drop_left' (epbStruct_length _)
  unfold PcapngEPB.readBody
  rw [run_bind_ok (run_get block), run_bind_ok (throwIf_pass (by simpa using htype) _),
    run_bind_ok (throwIf_pass (by rw [epbStruct_size]; omega) _),
    run_bind_ok (Layout.load_enc _ _ _ _), run_bind_ok (run_modify _ _), run_bind_ok (run_get _),
    run_bind_ok (throwIf_pass (by exact Nat.not_lt.mpr hn) _), run_modify, hd]

theorem readBody_epb_eq_ok {block block' : PcapngBlock PcapngEPB} {buffer : Bytes} {n : ℕ}
    (h : (PcapngEPB.readBody buffer n).run block = .ok () block') :
    block.type = PcapngType.EPB ∧ ∃ e : EpbStruct, buffer.take 20 = EpbStruct.layout.enc e ∧
      block' = { block with body := ⟨e, buffer.drop 20⟩ } ∧ block'.body.bodyLength ≤ n := by
  unfold PcapngEPB.readBody at h
  rw [run_bind_ok (run_get block)] at h
  obtain ⟨htype, h₁⟩ := throwIf_bind_eq_ok.mp h
  obtain ⟨-, h₂⟩ := throwIf_bind_eq_ok.mp h₁
  obtain ⟨e, _, h₃, h₄⟩ := bind_eq_ok.mp h₂
  obtain ⟨hlen, he, hs⟩ := (Layout.load_eq_ok _).mp h₃
  rw [hs, run_bind_ok (run_modify _ _), run_bind_ok (run_get _)] at h₄
  obtain ⟨hbody, h₅⟩ := throwIf_bind_eq_ok.mp h₄
  cases h₅
  rw [Nat.zero_add] at hlen
  refine ⟨by simpa using htype, e, ?_, rfl, Nat.not_lt.mp hbody⟩
  rw [he, List.drop_zero, Layout.enc_dec_take _ hlen, epbStruct_size]

theorem writeBody_epb_ok {block : PcapngBlock PcapngEPB} {mem : Bytes} {n : ℕ}
    (hcap : block.body.captureLength.toNat ≤ block.body.packetDataPointer.length)
    (hn : block.body.bodyLength ≤ n) (hmem : n ≤ mem.length) :
    (PcapngEPB.writeBody block n).run mem = .ok () (EpbStruct.layout.enc block.body.toEpbStruct ++
      (block.body.captured ++ mem.drop (20 + block.body.captureLength.toNat))) := by
  have hbl := block.body.bodyLength_eq
  have hl : block.body.captured.length = block.body.captureLength.toNat := by
    simpa [PcapngEPB.captured] using hcap
  unfold PcapngEPB.writeBody
  rw [run_bind_ok (throwIf_pass (Nat.not_lt.mpr hn) _),
    run_bind_ok (Layout.store_ok _ _ (by rw [epbStruct_size]; omega)),
    run_bind_ok (load_ok (by omega) _), List.drop_zero]
  change (store 20 block.body.captured).run _ = _
  rw [store_append_ok (epbStruct_length _) (by rw [List.length_drop, epbStruct_size]; omega), hl,
    List.drop_drop, epbStruct_size]

theorem captureLength_le_of_writeBody {block : PcapngBlock PcapngEPB} {mem mem' : Bytes} {n : ℕ}
    (h : (PcapngEPB.writeBody block n).run mem = .ok () mem') :
    block.body.captureLength.toNat ≤ block.body.packetDataPointer.length ∧
      block.body.bodyLength ≤ n := by
  obtain ⟨hn, h₁⟩ := throwIf_bind_eq_ok.mp h
  obtain ⟨_, _, _, h₂⟩ := bind_eq_ok.mp h₁
  obtain ⟨_, _, h₃, -⟩ := bind_eq_ok.mp h₂
  obtain ⟨hlen, -, -⟩ := load_eq_ok.mp h₃
  exact ⟨by omega, Nat.not_lt.mp hn⟩

theorem captured_length {e : PcapngEPB}
    (hcap : e.captureLength.toNat ≤ e.packetDataPointer.length) :
    e.captured.length = e.captureLength.toNat := by
  simpa [PcapngEPB.captured] using hcap

theorem captured_append {e : PcapngEPB}
    (hcap : e.captureLength.toNat ≤ e.packetDataPointer.length) (more : Bytes) :
    PcapngEPB.captured ⟨e.toEpbStruct, e.captured ++ more⟩ = e.captured :=
  List.take_left' (captured_length hcap)

instance : LawfulBody PcapngEPB where
  readBody_ok := by
    intro block e w rest n htype hw hn
    have hl : w.length = e.bodyLength := hw.1
    obtain ⟨hcap, pad, hpad, rfl⟩ := isBody_epb_iff.mp hw
    have hcapt := captured_append hcap (pad ++ rest)
    refine ⟨⟨e.toEpbStruct, e.captured ++ (pad ++ rest)⟩, ?_, ?_, ?_⟩
    · rw [List.append_assoc, List.append_assoc]
      exact readBody_epb_ok htype e _ (hl ▸ hn)
    · refine isBody_epb_iff.mpr ⟨?_, pad, hpad, by rw [hcapt]⟩
      rw [List.length_append, captured_length hcap]
      exact Nat.le_add_right _ _
    · change EpbStruct.layout.enc _ ++ PcapngEPB.captured _ = _
      rw [hcapt]
      rfl
  readBody_eq_ok := by
    intro block block' buffer n hn h
    obtain ⟨htype, e, he, rfl, hbody⟩ := readBody_epb_eq_ok h
    refine ⟨htype, _, rfl, hbody, ?_⟩
    have hbl := PcapngEPB.bodyLength_eq ⟨e, buffer.drop 20⟩
    have hle : 20 + e.captureLength.toNat + PcapngEPB.padding ⟨e, buffer.drop 20⟩ ≤
      buffer.length := hbl ▸ hbody.trans hn
    rw [isBody_epb_iff]
    refine ⟨?_, ((buffer.drop 20).drop e.captureLength.toNat).take
      (PcapngEPB.padding ⟨e, buffer.drop 20⟩), ?_, ?_⟩
    · change e.captureLength.toNat ≤ (buffer.drop 20).length
      rw [List.length_drop]
      omega
    · rw [List.length_take, List.length_drop, List.length_drop]
      omega
    · change buffer.take (PcapngEPB.bodyLength ⟨e, buffer.drop 20⟩) = _
      rw [hbl, Nat.add_assoc, List.take_add, List.take_add, he]
      rfl
  writeBody_ok := by
    intro block w mem n hw hn hmem
    rw [hw.1] at hn
    exact ⟨_, writeBody_epb_ok (isBody_epb_iff.mp hw).1 hn hmem⟩
  writeBody_eq_ok := by
    intro block mem mem' n hmem h
    obtain ⟨hcap, hn⟩ := captureLength_le_of_writeBody h
    have hbl := block.body.bodyLength_eq
    cases h.symm.trans (writeBody_epb_ok hcap hn hmem)
    have hpad : ((mem.drop (20 + block.body.captureLength.toNat)).take
        block.body.padding).length = block.body.padding := by
      rw [List.length_take, List.length_drop]
      omega
    have hbody := isBody_epb_iff.mpr ⟨hcap, _, hpad, rfl⟩
    refine ⟨hn, _, hbody, ?_⟩
    rw [hbody.1]
    change _ = _ ++ mem.drop block.body.bodyLength
    have hdrop : mem.drop (20 + block.body.captureLength.toNat + block.body.padding) =
      (mem.drop (20 + block.body.captureLength.toNat)).drop block.body.padding :=
      List.drop_drop.symm
    rw [List.append_assoc, List.append_assoc, hbl, hdrop, List.take_append_drop]

/-- The packet pointer of a block that was read leads into the buffer, past the two heads. -/
theorem packetDataPointer_of_read {buffer : Bytes} {n : ℕ} {obj block : PcapngBlock PcapngEPB}
    (h : (PcapngBlocks.read buffer n).run obj = .ok () block) :
    block.body.packetDataPointer = buffer.drop 28 := by
  obtain ⟨_, b₁, -, h₁⟩ := bind_eq_ok.mp h
  obtain ⟨_, b₂, hbody, h₂⟩ := bind_eq_ok.mp h₁
  obtain ⟨-, e, -, rfl, -⟩ := readBody_epb_eq_ok hbody
  rw [run_bind_ok (run_get _)] at h₂
  obtain ⟨_, b₃, hopt, h₃⟩ := bind_eq_ok.mp h₂
  obtain ⟨option, -, -, -, rfl⟩ := readOption_eq_ok hopt
  rw [run_bind_ok (run_get _)] at h₃
  obtain ⟨_, b₄, htail, h₄⟩ := bind_eq_ok.mp h₃
  obtain ⟨-, -, rfl, -⟩ := readTail_eq_ok htail
  obtain ⟨-, rfl⟩ := throwIf_eq_ok.mp h₄
  exact List.drop_drop

/-- The object the constructor makes; its packet pointer is not set, so nothing can be read
through it. -/
def PcapngEPB.new : PcapngBlock PcapngEPB where
  type := PcapngType.EPB
  totalLength := UInt32.ofNat (PcapngBlockHead.layout.size + EpbStruct.layout.size + 0 +
    PcapngBlockTail.layout.size)
  option := []
  body := ⟨⟨0, 0, 0, 0, 0⟩, []⟩

/-- `set_packet` for a packet that is a whole object of its own. -/
def PcapngEPB.setPacket (packet : Bytes) (block : PcapngBlock PcapngEPB) :
    PcapngBlock PcapngEPB :=
  let a := packet.length % 4
  let totalLength := block.totalLength + UInt32.ofNat packet.length
  { block with
    totalLength := if a ≠ 0 then totalLength + UInt32.ofNat (4 - a) else totalLength
    body := { block.body with
      captureLength := UInt32.ofNat packet.length
      packetLength := UInt32.ofNat packet.length
      packetDataPointer := packet } }

/-- The bytes that fill a packet up to a multiple of four. -/
def padLength (p : Bytes) : ℕ := (4 - p.length % 4) % 4

theorem captureLength_toNat {p : Bytes} (h : p.length < 2^32) :
    (PcapngEPB.setPacket p PcapngEPB.new).body.captureLength.toNat = p.length :=
  UInt32.toNat_ofNat_of_lt' (by simpa using h)

theorem bodyLength_setPacket {p : Bytes} (h : p.length < 2^32) :
    (PcapngEPB.setPacket p PcapngEPB.new).body.bodyLength = 20 + p.length + padLength p := by
  unfold PcapngEPB.bodyLength padLength
  rw [captureLength_toNat h, epbStruct_size]
  dsimp only
  split_ifs <;> omega

/-- The total length is accumulated in 32 bits. -/
theorem totalLength_setPacket {p : Bytes} (h : p.length < 2^32) :
    (PcapngEPB.setPacket p PcapngEPB.new).totalLength.toNat =
      (32 + p.length + padLength p) % 2^32 := by
  have hcap : (UInt32.ofNat p.length).toNat = p.length :=
    UInt32.toNat_ofNat_of_lt' (by simpa using h)
  have h₀ : PcapngEPB.new.totalLength.toNat = 32 := rfl
  have hpad : (UInt32.ofNat (4 - p.length % 4)).toNat = 4 - p.length % 4 :=
    UInt32.toNat_ofNat_of_lt' (by simp only [UInt32.size]; omega)
  unfold padLength
  simp only [PcapngEPB.setPacket]
  split_ifs <;> simp only [UInt32.toNat_add, hcap, h₀, hpad] <;> omega

theorem padLength_le (p : Bytes) : padLength p ≤ 3 := by
  unfold padLength
  omega

theorem add_padLength (p : Bytes) : 4 ∣ p.length + padLength p := by
  unfold padLength
  omega

/-- The total length of a fresh block with a packet is that of its parts. -/
theorem setPacket_totalLength {p : Bytes} (h : p.length + 35 < 2^32) :
    (PcapngEPB.setPacket p PcapngEPB.new).totalLength.toNat =
      12 + (PcapngEPB.setPacket p PcapngEPB.new).body.bodyLength := by
  have hpad := padLength_le p
  rw [totalLength_setPacket (by omega), bodyLength_setPacket (by omega)]
  omega

end EnhancedPacket

section Codec

/-- Encoding and decoding blocks of a class are inverse to each other: what `read` makes of a
written block has the same type, lengths, options and members, and what `write` makes of a block
that was read is the input, but for the padding of the body. -/
structure CodecInverse (B : Type) [PcapngBody B] (type : UInt32) {F : Type} (members : B → F)
    (padding : B → ℕ) : Prop where
  write_read : ∀ (block : PcapngBlock B) (mem mem' : Bytes), block.type = type →
    (write block mem.length).run mem = .ok () mem' → ∀ obj : PcapngBlock B,
    ∃ got, (read mem' mem'.length).run obj = .ok () got ∧ got.type = block.type ∧
      got.totalLength = block.totalLength ∧ got.option = block.option ∧
      members got.body = members block.body
  read_write : ∀ (buffer : Bytes) (obj block : PcapngBlock B),
    (read buffer buffer.length).run obj = .ok () block →
    ∀ out : Bytes, out.length = block.totalLength.toNat →
    ∃ out', (write block out.length).run out = .ok () out' ∧
    ∃ front pad pad' back, out' = front ++ (pad ++ back) ∧
      buffer.take block.totalLength.toNat = front ++ (pad' ++ back) ∧
      pad.length = padding block.body ∧ pad'.length = padding block.body ∧
      padding block.body ≤ 3 ∧ front.length + padding block.body = 8 + bodyLength block.body

variable {B : Type} [BodyFormat B]

/-- Two images of one block differ in the padding only. -/
theorem isImage_agree {block : PcapngBlock B} {w w' : Bytes} (h : IsImage block w)
    (h' : IsImage block w') :
    ∃ front pad pad' back, w = front ++ (pad ++ back) ∧ w' = front ++ (pad' ++ back) ∧
      pad.length = padding block.body ∧ pad'.length = padding block.body ∧
      front.length + padding block.body = 8 + bodyLength block.body := by
  obtain ⟨-, _, ⟨hl, pad, hpad, rfl⟩, rfl⟩ := h
  obtain ⟨-, _, ⟨-, pad', hpad', rfl⟩, rfl⟩ := h'
  refine ⟨PcapngBlockHead.layout.enc ⟨block.type, block.totalLength⟩ ++ content block.body, pad,
    pad', block.option ++ PcapngBlockTail.layout.enc ⟨block.totalLength⟩, ?_, ?_, hpad, hpad', ?_⟩
  · simp only [List.append_assoc]
  · simp only [List.append_assoc]
  · rw [List.length_append] at hl
    rw [List.length_append, head_length]
    omega

theorem codecInverse_of_content [LawfulBody B] {F : Type} {members : B → F}
    (hmem : ∀ b b' : B, content b = content b' → members b = members b')
    (hpad : ∀ b : B, padding b ≤ 3) : CodecInverse B (blockType B) members padding where
  write_read := by
    intro block mem mem' htype h obj
    obtain ⟨hn, w, himg, rfl⟩ := write_eq_ok (Nat.le_refl _) h
    obtain ⟨b, hr, hcont⟩ := read_ok himg htype (mem.drop w.length)
      (show w.length ≤ (w ++ mem.drop w.length).length by simp) obj
    exact ⟨_, hr, rfl, rfl, rfl, hmem _ _ hcont⟩
  read_write := by
    intro buffer obj block h out hout
    obtain ⟨-, hn, himg⟩ := read_eq_ok (Nat.le_refl _) h
    have hlen := himg.length_eq
    rw [himg.1] at hlen
    obtain ⟨body, hbody, -⟩ := himg.2
    obtain ⟨out', hw⟩ := write_ok hbody hlen (Nat.le_of_eq hout.symm) (Nat.le_refl _)
    obtain ⟨-, w, himg', rfl⟩ := write_eq_ok (Nat.le_refl _) hw
    obtain ⟨front, pad, pad', back, hw', hb, hp, hp', hf⟩ := isImage_agree himg' himg
    refine ⟨_, hw, front, pad, pad', back, ?_, hb, hp, hp', hpad _, hf⟩
    rw [List.drop_eq_nil_of_le (by rw [himg'.1, hout]), List.append_nil, hw']

/-- Encoding and decoding are mutually inverse for each of the three classes. -/
theorem codecInverse_all :
    CodecInverse PcapngSHB PcapngType.SHB id (fun _ => 0) ∧
    CodecInverse PcapngIDB PcapngType.IDB id (fun _ => 0) ∧
    CodecInverse PcapngEPB PcapngType.EPB (fun e => (e.toEpbStruct, e.captured))
      PcapngEPB.padding := by
  refine ⟨codecInverse_of_content ?_ ?_, codecInverse_of_content ?_ ?_,
    codecInverse_of_content ?_ PcapngEPB.padding_le⟩
  · exact fun _ _ h => PcapngSHB.layout.enc_injective h
  · exact fun _ => Nat.zero_le _
  · exact fun _ _ h => PcapngIDB.layout.enc_injective h
  · exact fun _ => Nat.zero_le _
  · intro e e' h
    obtain ⟨hs, hc⟩ := List.append_inj h (by rw [epbStruct_length, epbStruct_length])
    rw [EpbStruct.layout.enc_injective hs, hc]

/-- An enhanced packet block with three bytes of data, one of padding and an option. -/
def optionBlock : PcapngBlock PcapngEPB :=
  { PcapngEPB.setPacket [0x01, 0x02, 0x03] PcapngEPB.new with
    totalLength := 40
    option := [0x01, 0x00, 0x00, 0x00] }

theorem codecInverse_all_option : ∃ mem got out,
    (write optionBlock 40).run (List.replicate 40 0xff) = .ok () mem ∧
    (read mem mem.length).run PcapngEPB.new = .ok () got ∧ got.option = [0x01, 0x00, 0x00, 0x00] ∧
    got.body.captured = [0x01, 0x02, 0x03] ∧
    (write got 40).run (List.replicate 40 0) = .ok () out ∧
    ∃ front pad pad' back, out = front ++ (pad ++ back) ∧ mem.take 40 = front ++ (pad' ++ back) ∧
      pad.length = 1 ∧ pad'.length = 1 := by
  obtain ⟨hwrites, hreads⟩ := codecInverse_all.2.2
  have hwrite : ∃ mem, (write optionBlock 40).run (List.replicate 40 0xff) = .ok () mem := ⟨_, rfl⟩
  obtain ⟨mem, hmem⟩ := hwrite
  obtain ⟨got, hread, -, htotal, hoption, hbody⟩ :=
    hwrites optionBlock (List.replicate 40 0xff) mem rfl hmem PcapngEPB.new
  have hforty : got.totalLength.toNat = 40 := congrArg UInt32.toNat htotal
  have hlen : (List.replicate 40 (0 : UInt8)).length = got.totalLength.toNat := by
    rw [hforty, List.length_replicate]
  obtain ⟨out, hout, front, pad, pad', back, hfront, hback, hpad, hpad', -⟩ :=
    hreads mem PcapngEPB.new got hread (List.replicate 40 0) hlen
  obtain ⟨hstruct, hcaptured⟩ := Prod.mk.inj hbody
  have hone : PcapngEPB.padding got.body = 1 := by
    have hcapture : got.body.captureLength = 3 := congrArg EpbStruct.captureLength hstruct
    unfold PcapngEPB.padding PcapngEPB.bodyLength
    rw [hcapture]
    rfl
  rw [List.length_replicate] at hout
  rw [hforty] at hback
  exact ⟨mem, got, out, hmem, hread, hoption, hcaptured, hout, front, pad, pad', back, hfront,
    hback, hpad.trans hone, hpad'.trans hone⟩

end Codec

end Pgen.PcapngBodies
