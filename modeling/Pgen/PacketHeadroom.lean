import Pgen.ProtocolPackets

/-!
# Headers that do not fit the headroom

`compile` moves its pointer down by the lengths of the headers and does not look at where it gets
to; `raw` checks the sum, but only when the packet is used. Headers of a developer's own classes
can be longer than the headroom.
-/
namespace Pgen.PacketHeadroom
open ByteMemory StructLayout CoreAddress CorePacket ProtocolHeaders ProtocolPackets

section Headers

/-- Called with its own length, the header writes exactly that many bytes: where there is room for
them it puts `w` there, and where there is not it stores outside. -/
structure WritesExactly (length : ℕ) (write : ℕ → Exec Bytes Unit) (w : Bytes) : Prop where
  fills : Fills length write w
  overruns : ∀ {mem : Bytes}, mem.length < length →
    ∃ mem', (write length).run mem = .error .storeFault mem'

variable {P : Type} {m : P}

/-- A header that begins in front of the buffer is written outside. -/
theorem atPointer_before {ph : HeaderPtr P} {w : Bytes}
    (h : WritesExactly (ph.length m) (ph.write m) w) {pointer : ℤ} (hp : 0 ≤ pointer)
    (hout : pointer - ph.length m < 0) (mem : Bytes) :
    (Packet.atPointer (pointer - ph.length m) (ph.write m (ph.length m))).run mem =
      .error .storeFault mem := by
  obtain ⟨mem', hw⟩ := h.overruns (show ([] : Bytes).length < ph.length m by
    rw [List.length_nil]
    omega)
  unfold Packet.atPointer
  rw [if_neg (by omega)]
  exact onMember_error hw

/-- Headers that do not fit in front of the pointer are written outside: those that fit are there
already when the first one that does not is reached. -/
theorem compileLoop_overruns {phs : List (HeaderPtr P)} {ws : List Bytes}
    (hws : List.Forall₂ (fun ph w => WritesExactly (ph.length m) (ph.write m) w) phs ws)
    {pre : Bytes} (suf : Bytes) (hlong : pre.length < ws.flatten.length) :
    ∃ mem', (Packet.compileLoop m phs pre.length).run (pre ++ suf) = .error .storeFault mem' := by
  induction hws generalizing pre suf with
  | nil => simp at hlong
  | @cons ph w phs ws hw _ ih =>
    have hl := hw.fills.length_eq
    rw [List.flatten_cons, List.length_append] at hlong
    rcases Nat.lt_or_ge pre.length (ph.length m) with hout | hin
    · refine ⟨pre ++ suf, ?_⟩
      exact run_bind_error (atPointer_before hw (Int.natCast_nonneg _) (by omega) (pre ++ suf))
    · obtain ⟨pre₁, mid, rfl, hmid⟩ : ∃ pre₁ mid, pre = pre₁ ++ mid ∧ mid.length = w.length :=
        ⟨pre.take (pre.length - w.length), pre.drop (pre.length - w.length),
          (List.take_append_drop _ _).symm, by rw [List.length_drop]; omega⟩
      rw [List.length_append] at hlong
      have hwrite : (ph.write m (ph.length m)).run (mid ++ suf) = .ok () (w ++ suf) := by
        rw [hw.fills.write_ok (by rw [List.length_append]; omega), List.drop_left' (hmid.trans hl)]
      have hp : ((pre₁ ++ mid).length : ℤ) - ph.length m = pre₁.length := by
        rw [List.length_append, hmid, hl]
        push_cast
        ring
      obtain ⟨mem', hrest⟩ := ih (w ++ suf) (show pre₁.length < ws.flatten.length by omega)
      refine ⟨mem', ?_⟩
      rw [List.append_assoc]
      change (Packet.atPointer _ _ >>= fun _ => _).run _ = _
      rw [run_bind_ok (atPointer_ok hp hwrite), hp]
      exact hrest

end Headers

section Compile

variable {M : Type} [PacketClass M]

/-- `compile` returns or throws, and all it stores lies in front of the contents. -/
def StaysInHeadroom (p : Packet M) : Prop :=
  InBounds (Packet.compile.run p) ∧
    (finalState (Packet.compile.run p)).raw.vec.drop 128 = p.raw.vec.drop 128 ∧
    (finalState (Packet.compile.run p)).raw.size = p.raw.size

/-- All headers of the object write exactly as many bytes as they say. -/
def AllExact (p : Packet M) : Prop :=
  ∀ ph ∈ (headers : List (HeaderPtr M)), ∃ w,
    WritesExactly (ph.length p.members) (ph.write p.members) w

theorem AllExact.images {p : Packet M} (h : AllExact p) :
    ∃ ws, List.Forall₂ (fun ph w => WritesExactly (ph.length p.members) (ph.write p.members) w)
      headers ws := by
  unfold AllExact at h
  generalize (headers : List (HeaderPtr M)) = phs at h
  induction phs with
  | nil => exact ⟨[], .nil⟩
  | cons ph phs ih =>
    obtain ⟨w, hw⟩ := h ph (by simp)
    obtain ⟨ws, hws⟩ := ih fun q hq => h q (by simp [hq])
    exact ⟨w :: ws, .cons hw hws⟩

theorem compile_fits {p : Packet M} (h : AllExact p) (hfit : p.headerLength ≤ 128) :
    StaysInHeadroom p := by
  obtain ⟨ws, hws⟩ := h.images
  have hfills : List.Forall₂ (fun ph w => ph.Fills p.members w) headers ws :=
    hws.imp fun _ _ hw => hw.fills
  have hlen : ws.flatten.length = p.headerLength := flatten_length hfills
  have hpre := p.raw.length_take_pivot
  obtain ⟨p', hrun, -, hvec⟩ := compile_ok hfills (vec_eq p) hpre (by omega)
  have hfront : ((p.raw.vec.take 128).take (128 - ws.flatten.length) ++ ws.flatten).length =
      128 := by
    rw [List.length_append, List.length_take, hpre]
    omega
  rw [← List.append_assoc] at hvec
  unfold StaysInHeadroom
  rw [hrun]
  refine ⟨trivial, ?_, ?_⟩
  · change p'.raw.vec.drop 128 = _
    rw [hvec, List.drop_left' hfront]
  · have hroom := p.raw.headroom
    change p'.raw.vec.length = p.raw.vec.length
    rw [hvec, List.length_append, hfront, List.length_drop]
    omega

theorem compile_overruns {p : Packet M} (h : AllExact p) (hlong : 128 < p.headerLength) :
    ∃ p', Packet.compile.run p = .error .storeFault p' := by
  obtain ⟨ws, hws⟩ := h.images
  have hfills : List.Forall₂ (fun ph w => ph.Fills p.members w) headers ws :=
    hws.imp fun _ _ hw => hw.fills
  have hlen : ws.flatten.length = p.headerLength := flatten_length hfills
  have hrev : ws.reverse.flatten.length = ws.flatten.length := by
    rw [List.length_flatten, List.length_flatten, List.map_reverse, List.sum_reverse]
  have hpre := p.raw.length_take_pivot
  obtain ⟨mem', hloop⟩ := compileLoop_overruns (List.rel_reverse hws) (p.raw.vec.drop 128)
    (show (p.raw.vec.take 128).length < ws.reverse.flatten.length by omega)
  rw [List.take_append_drop, hpre] at hloop
  obtain ⟨raw, hraw, -⟩ :=
    DataContainer.onVec_error (Packet.keepsLength_compileLoop p.members _ 128) hloop
  exact ⟨{ p with raw := raw }, (run_bind_ok (run_get p)).trans (onMember_error hraw)⟩

theorem not_staysInHeadroom {p : Packet M} (h : AllExact p) (hlong : 128 < p.headerLength) :
    ¬ StaysInHeadroom p := by
  intro hin
  obtain ⟨p', hrun⟩ := compile_overruns h hlong
  have hbounds := hin.1
  rw [hrun] at hbounds
  exact hbounds trivial

/-- `compile` stays in front of the contents exactly when the headers fit there. -/
theorem compile_staysInHeadroom_iff (p : Packet M) (h : AllExact p) :
    StaysInHeadroom p ↔ p.headerLength ≤ 128 := by
  refine ⟨fun hin => ?_, compile_fits h⟩
  by_contra hlong
  exact not_staysInHeadroom h (Nat.not_le.mp hlong) hin

end Compile

section Structs

/-- A header that is one struct writes exactly its size. -/
theorem writeStruct_exact {S : Type} (L : Layout S) (tooSmall : String) (s : S) :
    WritesExactly L.size (writeStruct L L.size tooSmall s) (L.enc s) where
  fills := (writeStruct_emits L tooSmall s).fills
  overruns := by
    intro mem hshort
    refine ⟨mem, ?_⟩
    unfold writeStruct
    rw [run_bind_ok (throwIf_pass (Nat.lt_irrefl _) _)]
    exact store_fault (by rw [Nat.zero_add, L.enc_length]; exact hshort)

theorem allExact_arp (p : Packet Arp) : AllExact p :=
  List.forall_mem_cons.mpr ⟨⟨_, writeStruct_exact Eth.layout _ _⟩,
    List.forall_mem_singleton.mpr ⟨_, writeStruct_exact ArpStruct.layout _ _⟩⟩

/-- A request that carries three bytes. -/
def arpRequest : Packet Arp :=
  ⟨⟨⟨.new, .new, 0x0806⟩, ⟨1, 0x0800, 6, 4, ArpHeader.request, .new, .new, .new, .new⟩⟩,
    DataContainer.setContent [1, 2, 3] (.new 128)⟩

theorem compile_staysInHeadroom_arp :
    arpRequest.headerLength = 14 + 28 ∧ StaysInHeadroom arpRequest :=
  ⟨rfl, (compile_staysInHeadroom_iff arpRequest (allExact_arp arpRequest)).mpr (by decide)⟩

/-- A header class of a developer: a plain array. -/
structure BlobHeader (n : ℕ) where
  bytes : Vector UInt8 n

instance {n : ℕ} : Header (BlobHeader n) where
  length _ := n
  write h := writeStruct (Layout.array n) n "blob_header::write: bufferlen is too small" h.bytes
  read := readStruct (Layout.array n) n "blob_header::read: bufferlen is too small"
    fun bytes _ => ⟨bytes⟩
  keepsLength_write _ _ := keepsLength_writeStruct _ _ _ _ _

instance {n : ℕ} : PacketClass (BlobHeader n) where
  headers := [.member id fun h _ => h]
  clear := set (⟨Vector.replicate n 0⟩ : BlobHeader n)

theorem allExact_blob {n : ℕ} (p : Packet (BlobHeader n)) : AllExact p :=
  List.forall_mem_singleton.mpr ⟨_, writeStruct_exact (Layout.array n) _ _⟩

/-- A packet with one header of 129 bytes. -/
def longHeader : Packet (BlobHeader 129) := ⟨⟨Vector.replicate 129 0⟩, .new 128⟩

theorem headerLength_blob {n : ℕ} (p : Packet (BlobHeader n)) : p.headerLength = n :=
  Nat.add_zero n

theorem longHeader_overruns : AllExact longHeader ∧ ¬ StaysInHeadroom longHeader :=
  ⟨allExact_blob longHeader, not_staysInHeadroom (allExact_blob longHeader)
    (by rw [headerLength_blob]; decide)⟩

end Structs

end Pgen.PacketHeadroom
