import Pgen.CaptureFormats
import Pgen.PacketPrefix
import Pgen.PacketReuse

/-!
# Packets on their way through a capture file

A program compiles packets of any classes and puts them into a stream with `operator <<`; another
one receives each frame into an array that may be larger and constructs a packet from it. Through
either file format every packet comes back.
-/
namespace Pgen.PacketStreams
open ByteMemory StdioFile FileStream FrameQueue CaptureFormats CorePacket PacketCodec PacketCopies
  PacketReuse PacketPrefix

section Model

/-- A packet object of one of the classes. -/
abbrev AnyPacket := (k : Kind) × Packet (Members k)

/-- `operator <<` -/
def insert {σ M : Type} [PacketClass M] (send : Bytes → Exec σ Unit) (pack : Packet M) :
    Exec σ Unit :=
  match pack.rawData, pack.length with
  | .ok raw, .ok length => do
    let data ← load raw 0 length
    send data
  | .error e, _ => throw e
  | .ok _, .error e => throw e

/-- `pack.compile(); stream << pack;` -/
def compileInsert {σ : Type} (send : Bytes → Exec σ Unit) (pack : AnyPacket) : Exec σ Unit := do
  let (_, compiled) ← onLocal pack.2 Packet.compile
  insert send compiled

/-- Open a file for writing and put the packets into it; closing writes nothing more. -/
def writePackets (fmt : Format) (name : String) (disk : Option Bytes)
    (tmpBuffer : PcapngStream.Scratch) (packs : List AnyPacket) : Exec File Unit := do
  fmt.openWrite name disk tmpBuffer
  packs.forM (compileInsert fmt.send)

/-- How a frame is received: a number of end-of-file probes, the call, and the class the packet is
constructed in, with what its members hold before. -/
structure Receipt where
  probes : ℕ
  call : PcapngCapture.Call
  kind : Kind
  fresh : Members kind

/-- Receive a frame and construct a packet from as many bytes as `recv` returned. -/
def receivePacket (fmt : Format) (r : Receipt) : Exec File (List Bool × AnyPacket) := do
  let bs ← probes eof r.probes
  let (n, data) ← fmt.recv r.call
  match Packet.construct r.fresh data n with
  | .ok _ pack => pure (bs, ⟨r.kind, pack⟩)
  | .error e _ => throw e

instance (k : Kind) : CodedPacket (Members k) :=
  match k with
  | .ethernet => inferInstanceAs (CodedPacket ProtocolPackets.Ethernet)
  | .arp => inferInstanceAs (CodedPacket ProtocolPackets.Arp)
  | .ipv4 => inferInstanceAs (CodedPacket ProtocolPackets.Ipv4)
  | .ipv6 => inferInstanceAs (CodedPacket ProtocolIpv6.Ipv6)
  | .udp => inferInstanceAs (CodedPacket ProtocolPackets.Udp)

/-- The same class, headers, contents and length; of the headers, what the code of their class
keeps, which is all but the traffic class and the flow label of IPv6. -/
inductive SamePacket : AnyPacket → AnyPacket → Prop
  | same {k : Kind} {p q : Packet (Members k)} : CodedPacket.Same p.members q.members →
      q.contents = p.contents → q.length = p.length → SamePacket ⟨k, p⟩ ⟨k, q⟩

/-- The length of the frame that compiling the packet makes. -/
def size (pack : AnyPacket) : ℕ := (pack.2.raw.vec.drop 128).length + pack.2.headerLength

end Model

section Frames

/-- The raw bytes after compiling. -/
def frameOf (pack : AnyPacket) : Bytes :=
  match Packet.compile.run pack.2 with
  | .ok _ compiled => compiled.rawData.toOption.getD []
  | .error _ _ => []

variable {k : Kind} {p : Packet (Members k)}

theorem length_rawData {M : Type} [PacketClass M] [RegularPacket M] {p : Packet M} {raw : Bytes}
    (h : p.rawData = .ok raw) : p.length = .ok raw.length := by
  have hpre := p.raw.length_take_pivot
  have hfit : p.headerLength ≤ 128 := RegularPacket.headerLength_le p
  rw [rawData_eq (vec_eq p) hpre hfit] at h
  cases h
  rw [length_eq (vec_eq p) hpre, List.length_append,
    List.length_drop (l := p.raw.vec.take 128), hpre, Nat.sub_sub_self hfit, Nat.add_comm]

/-- A compiled packet is its frame, and any object of its class decodes it from an array that starts
with the frame. -/
theorem frameOf_spec (hv : CodedPacket.Valid p.members) :
    (∃ compiled, Packet.compile.run p = .ok () compiled ∧
      compiled.rawData = .ok (frameOf ⟨k, p⟩) ∧ compiled.length = .ok (frameOf ⟨k, p⟩).length) ∧
    (frameOf ⟨k, p⟩).length = size ⟨k, p⟩ ∧
    ∀ (q : Packet (Members k)) (rest : Bytes), (frameOf ⟨k, p⟩ ++ rest).length < 2^64 →
      ∃ q', (Packet.analyze (frameOf ⟨k, p⟩ ++ rest) (frameOf ⟨k, p⟩).length).run q = .ok () q' ∧
        SamePacket ⟨k, p⟩ ⟨k, q'⟩ := by
  have hidentity := packetIdentity (M := Members k) RegularPacket.headerLength_le
  obtain ⟨compiled, raw, n, -, hcompile, hraw, hn, -⟩ := hidentity p p hv
  have hframe : frameOf ⟨k, p⟩ = raw := by simp [frameOf, hcompile, hraw, Except.toOption]
  have hlength := length_rawData hraw
  cases hlength.symm.trans hn
  have hsame : compiled.length = p.length := by
    obtain ⟨ws, hws⟩ := compile_eq_ok hcompile
    have halike := compile_keeps hcompile
    exact (equalPackets_iff.mpr ⟨halike.members, halike.contents⟩).length
  have hsize : raw.length = size ⟨k, p⟩ := by
    rw [hlength, length_eq (vec_eq p) p.raw.length_take_pivot] at hsame
    exact Except.ok.inj hsame
  rw [hframe]
  refine ⟨⟨compiled, hcompile, hraw, hlength⟩, hsize, fun q rest hlt => ?_⟩
  obtain ⟨c, raw', n', q', hc, hraw', hn', hanalyze, hmem, hcontents, hlen⟩ := hidentity p q hv
  cases hc.symm.trans hcompile
  cases hraw'.symm.trans hraw
  cases hn'.symm.trans hlength
  exact ⟨q', (analyze_append q raw rest hlt).trans hanalyze, .same hmem hcontents hlen⟩

/-- Putting a packet into a stream is sending its frame. -/
theorem compileInsert_eq {σ : Type} {pack : AnyPacket} (hv : CodedPacket.Valid pack.2.members)
    (send : Bytes → Exec σ Unit) : compileInsert send pack = send (frameOf pack) := by
  obtain ⟨k, p⟩ := pack
  obtain ⟨⟨compiled, hcompile, hraw, hlength⟩, -⟩ := frameOf_spec hv
  funext f
  change (compileInsert send ⟨k, p⟩).run f = (send (frameOf ⟨k, p⟩)).run f
  unfold compileInsert
  rw [run_bind_ok (onLocal_ok hcompile f)]
  change (insert send compiled).run f = _
  unfold insert
  rw [hraw, hlength]
  change (load _ 0 _ >>= send).run f = _
  rw [run_bind_ok (load_ok (Nat.zero_add _).le f), List.drop_zero, List.take_length]

theorem forM_compileInsert {σ : Type} {packs : List AnyPacket}
    (hv : ∀ pack ∈ packs, CodedPacket.Valid pack.2.members) (send : Bytes → Exec σ Unit) :
    packs.forM (compileInsert send) = (packs.map frameOf).forM send := by
  induction packs with
  | nil => rfl
  | cons pack packs ih =>
    rw [List.forall_mem_cons] at hv
    change (compileInsert send pack >>= fun _ => packs.forM (compileInsert send)) =
      (send (frameOf pack) >>= fun _ => (packs.map frameOf).forM send)
    rw [compileInsert_eq hv.1, ih hv.2]

/-- Every class starts with an Ethernet header. -/
theorem size_ge (pack : AnyPacket) : 14 ≤ size pack := by
  obtain ⟨k, p⟩ := pack
  have hheader : 14 ≤ p.headerLength := by
    cases k with
    | ethernet => exact Nat.le_refl 14
    | arp => exact Nat.le_add_right 14 _
    | ipv4 => exact Nat.le_add_right 14 _
    | ipv6 => exact Nat.le_add_right 14 _
    | udp => exact Nat.le_add_right 14 _
  exact hheader.trans (Nat.le_add_left _ _)

end Frames

section RoundTrip

variable {fmt : Format} {f : File}

/-- The array is large enough for the frame, and the packet is constructed in its class. -/
def Suits (r : Receipt) (pack : AnyPacket) : Prop :=
  r.kind = pack.1 ∧ size pack ≤ r.call.2.length ∧ r.call.2.length < 2^64

/-- Constructing a packet from an array that holds the frame of another one gives the same
packet. -/
theorem construct_frame {k : Kind} {p : Packet (Members k)} (hv : CodedPacket.Valid p.members)
    (fresh : Members k) (rest : Bytes) (hlt : (frameOf ⟨k, p⟩ ++ rest).length < 2^64) :
    ∃ q, Packet.construct fresh (frameOf ⟨k, p⟩ ++ rest) (frameOf ⟨k, p⟩).length = .ok () q ∧
      SamePacket ⟨k, p⟩ ⟨k, q⟩ := by
  obtain ⟨m₀, hclear, -⟩ := clear_option k fresh
  obtain ⟨-, -, hdecode⟩ := frameOf_spec hv
  obtain ⟨q, hanalyze, hsame⟩ := hdecode ⟨m₀, .new 128⟩ rest hlt
  exact ⟨q, (run_bind_ok (onMember_ok hclear)).trans hanalyze, hsame⟩

theorem receivePacket_ok {r : Receipt} {pack : AnyPacket}
    (hv : CodedPacket.Valid pack.2.members) (hsuits : Suits r pack) {skips : List (Option Bytes)}
    (hskips : ∀ o ∈ skips, o = none) {q : List (Option Bytes)}
    (h : fmt.HoldsThen [] f (skips ++ some (frameOf pack) :: q)) :
    ∃ pack' f', (receivePacket fmt r).run f = .ok (List.replicate r.probes false, pack') f' ∧
      SamePacket pack pack' ∧ fmt.HoldsThen [] f' q := by
  obtain ⟨n, call, kind, fresh⟩ := r
  obtain ⟨k, p⟩ := pack
  obtain ⟨rfl, hroom, hlt⟩ := hsuits
  obtain ⟨-, hsize, -⟩ := frameOf_spec hv
  have hle : (frameOf ⟨kind, p⟩).length ≤ call.2.length := hsize.trans_le hroom
  have hcall : call.2.length < 2^64 := hlt
  obtain ⟨f₁, h₁, hf₁⟩ := probes_holdsThen h n
  rw [h.not_isEmpty (by simp)] at h₁
  obtain ⟨f₂, h₂, hf₂⟩ :=
    (simulatesFront fmt []).recv_run hf₁ (nextPayload_skip hskips _) hle
  have harray : (frameOf ⟨kind, p⟩ ++ call.2.drop (frameOf ⟨kind, p⟩).length).length < 2^64 := by
    rw [List.length_append, List.length_drop, Nat.add_sub_cancel' hle]
    exact hcall
  obtain ⟨q', hconstruct, hsame⟩ := construct_frame hv fresh _ harray
  refine ⟨⟨kind, q'⟩, f₂, ?_, hsame, hf₂⟩
  unfold receivePacket
  rw [run_bind_ok h₁, run_bind_ok h₂]
  simp only [Format.answer, hconstruct]
  rfl

/-- Every packet is received in its turn. -/
theorem receiveAll_ok {receipts : List Receipt} {packs : List AnyPacket}
    (hv : ∀ pack ∈ packs, CodedPacket.Valid pack.2.members)
    (hsuits : List.Forall₂ Suits receipts packs) {skips : List (Option Bytes)}
    (hskips : ∀ o ∈ skips, o = none)
    (h : fmt.HoldsThen [] f (skips ++ packs.map fun pack => some (frameOf pack))) :
    ∃ packs' f', (receipts.mapM (receivePacket fmt)).run f =
        .ok (List.zipWith (fun r pack' => (List.replicate r.probes false, pack')) receipts packs')
          f' ∧
      List.Forall₂ SamePacket packs packs' ∧
      ∃ skips', (∀ o ∈ skips', o = none) ∧ fmt.HoldsThen [] f' skips' := by
  induction hsuits generalizing f skips with
  | nil => exact ⟨[], f, rfl, .nil, skips, hskips, by simpa using h⟩
  | @cons r pack receipts packs hr _ ih =>
    rw [List.forall_mem_cons] at hv
    obtain ⟨pack', f₁, h₁, hsame, hf₁⟩ := receivePacket_ok hv.1 hr hskips h
    rw [← List.nil_append (packs.map _)] at hf₁
    obtain ⟨packs', f₂, h₂, hall, hend⟩ := ih hv.2 (by simp) hf₁
    refine ⟨pack' :: packs', f₂, ?_, .cons hsame hall, hend⟩
    rw [List.mapM_cons, run_bind_ok h₁, run_bind_ok h₂]
    rfl

/-- Packets of valid headers that are put into a capture file come back from it, in order and each
in its class, with nothing behind the last of them. -/
theorem packets_roundtrip (fmt : Format) (name : String) (old : Bytes)
    (tmpBuffer tmpBuffer' : PcapngStream.Scratch) (f₀ : File) {packs : List AnyPacket}
    {receipts : List Receipt} (hv : ∀ pack ∈ packs, CodedPacket.Valid pack.2.members)
    (hfit : ∀ pack ∈ packs, size pack ≤ fmt.maxFrame)
    (hsuits : List.Forall₂ Suits receipts packs) (more : Receipt) :
    ∃ written, (writePackets fmt name (some old) tmpBuffer packs).run f₀ = .ok () written ∧
    ∃ opened, (fmt.openRead name (some written.content) tmpBuffer').run f₀ = .ok () opened ∧
    ∃ packs' finished, (receipts.mapM (receivePacket fmt)).run opened =
        .ok (List.zipWith (fun r pack' => (List.replicate r.probes false, pack')) receipts packs')
          finished ∧
      List.Forall₂ SamePacket packs packs' ∧
    ∃ what last, (receivePacket fmt more).run finished = .error (.exception what) last := by
  have hframes : ∀ frame ∈ packs.map frameOf, 0 < frame.length ∧ frame.length ≤ fmt.maxFrame := by
    rw [List.forall_mem_map]
    intro pack hmem
    obtain ⟨-, hsize, -⟩ := frameOf_spec (hv pack hmem)
    rw [hsize]
    exact ⟨Nat.lt_of_lt_of_le (by norm_num) (size_ge pack), hfit pack hmem⟩
  obtain ⟨written, hw, opened, ho, hholds⟩ :=
    writeFrames_ok fmt name old tmpBuffer tmpBuffer' f₀ hframes
  rw [List.map_map] at hholds
  obtain ⟨packs', finished, hr, hall, skips, hskips, hend⟩ :=
    receiveAll_ok hv hsuits (lead_none fmt) hholds
  refine ⟨written, ?_, opened, ho, packs', finished, hr, hall, ?_⟩
  · unfold writePackets
    rw [forM_compileInsert hv]
    exact hw
  · obtain ⟨f₁, h₁, hf₁⟩ := probes_holdsThen hend more.probes
    obtain ⟨what, last, h₂⟩ := recv_front_end (.inl rfl) hskips hf₁ more.call
    refine ⟨what, last, ?_⟩
    unfold receivePacket
    rw [run_bind_ok h₁, run_bind_error h₂]

/-- An Ethernet packet and a UDP packet in one file. -/
def mixedPackets : List AnyPacket :=
  [⟨.ethernet, ⟨⟨⟨.new, .new, 0x88b5⟩⟩, (DataContainer.new 128).setContent [1, 2]⟩⟩,
    ⟨.udp, PacketLayout.clearedUdp⟩]

/-- Arrays of a hundred bytes for the two packets. -/
def mixedReceipts : List Receipt :=
  [⟨2, (fun _ => Vector.replicate 1000 0, List.replicate 100 7), .ethernet, ⟨⟨.new, .new, 0⟩⟩⟩,
    ⟨0, (fun _ => Vector.replicate 1000 0, List.replicate 100 7), .udp,
      PacketLayout.clearedUdp.members⟩]

theorem packets_roundtrip_mixed : ∃ more : Receipt,
    ∃ written, (writePackets .pcapng "out.pcapng" (some []) (Vector.replicate 1000 0)
        mixedPackets).run (File.start []) = .ok () written ∧
    ∃ opened, (Format.pcapng.openRead "out.pcapng" (some written.content)
        (Vector.replicate 1000 0)).run (File.start []) = .ok () opened ∧
    ∃ packs' finished, (mixedReceipts.mapM (receivePacket .pcapng)).run opened =
        .ok (List.zipWith (fun r pack' => (List.replicate r.probes false, pack')) mixedReceipts
          packs') finished ∧
      List.Forall₂ SamePacket mixedPackets packs' ∧
    ∃ what last, (receivePacket .pcapng more).run finished = .error (.exception what) last := by
  have hv : ∀ pack ∈ mixedPackets, CodedPacket.Valid pack.2.members :=
    List.forall_mem_cons.mpr ⟨⟨rfl, rfl⟩,
      List.forall_mem_singleton.mpr ⟨⟨rfl, rfl⟩, ⟨by decide, rfl, rfl⟩, trivial⟩⟩
  have hfit : ∀ pack ∈ mixedPackets, size pack ≤ Format.pcapng.maxFrame := by decide
  have hsuits : List.Forall₂ Suits mixedReceipts mixedPackets :=
    .cons ⟨rfl, by decide, by decide⟩ (.cons ⟨rfl, by decide, by decide⟩ .nil)
  exact ⟨_, packets_roundtrip .pcapng _ _ _ _ _ hv hfit hsuits
    ⟨1, (fun _ => Vector.replicate 1000 0, []), .ethernet, ⟨⟨.new, .new, 0⟩⟩⟩⟩

end RoundTrip

end Pgen.PacketStreams
