import Pgen.HeaderReads
import Pgen.PacketCopies

/-!
# Packet objects that are used again

`analyze` reads a frame into the members an object has. What they held before is gone afterwards
but for the options of an IPv4 header: only as many are read as the header has, and those behind
them stay. They are no part of the packet until a later change of `hlen` makes them one.
-/
namespace Pgen.PacketReuse
open ByteMemory StructLayout CoreAddress CorePacket ProtocolHeaders ProtocolIp ProtocolIpv6
  ProtocolPackets PacketCopies PacketFailure HeaderReads

section Uniformity

variable {α : Type}

/-- How the action ends depends on the size of the memory alone. -/
def Uniform (act : Exec Bytes α) : Prop :=
  ∀ mem mem' : Bytes, mem.length = mem'.length → verdict (act.run mem) = verdict (act.run mem')

theorem verdict_bind {σ : Type} (x : Exec σ Unit) (f : Unit → Exec σ α) (s : σ) :
    verdict ((x >>= f).run s) =
      (verdict (x.run s)).or (verdict ((f ()).run (finalState (x.run s)))) := by
  cases h : x.run s with
  | ok u s' => rw [run_bind_ok h]; rfl
  | error e s' => rw [run_bind_error h]; rfl

theorem Uniform.bind {x : Exec Bytes Unit} {f : Unit → Exec Bytes α} (hx : Uniform x)
    (hkeep : KeepsLength x) (hf : Uniform (f ())) : Uniform (x >>= f) := by
  intro mem mem' hlen
  rw [verdict_bind, verdict_bind, hx mem mem' hlen,
    hf _ _ (((hkeep mem).trans hlen).trans (hkeep mem').symm)]

theorem Uniform.pure (a : α) : Uniform (pure a : Exec Bytes α) := fun _ _ _ => rfl

theorem Uniform.throwIf (p : Prop) [Decidable p] (what : String) :
    Uniform (throwIf p what : Exec Bytes Unit) := by
  intro mem mem' _
  by_cases h : p
  · rw [throwIf_fail h, throwIf_fail h]
    rfl
  · rw [throwIf_pass h, throwIf_pass h]
    rfl

theorem Uniform.load_bind (buffer : Bytes) (off n : ℕ) {f : Bytes → Exec Bytes α}
    (hf : ∀ data, Uniform (f data)) : Uniform (load buffer off n >>= f) := by
  intro mem mem' hlen
  by_cases h : off + n ≤ buffer.length
  · rw [run_bind_ok (load_ok h mem), run_bind_ok (load_ok h mem')]
    exact hf _ mem mem' hlen
  · rw [run_bind_error (load_fault (Nat.not_le.mp h) mem),
      run_bind_error (load_fault (Nat.not_le.mp h) mem')]
    rfl

theorem Uniform.store (off : ℕ) (data : Bytes) : Uniform (store off data) := by
  intro mem mem' hlen
  by_cases h : off + data.length ≤ mem.length
  · rw [store_ok h, store_ok (hlen ▸ h)]
    rfl
  · rw [store_fault (Nat.not_le.mp h), store_fault (hlen ▸ Nat.not_le.mp h)]
    rfl

theorem verdict_atOffset {off : ℕ} {act : Exec Bytes α} {mem : Bytes} (h : off ≤ mem.length) :
    verdict ((atOffset off act).run mem) = verdict (act.run (mem.drop off)) := by
  have hpre : (mem.take off).length = off := by simpa using h
  cases hr : act.run (mem.drop off) with
  | ok a tail =>
    have hok := atOffset_ok hpre hr
    rw [List.take_append_drop] at hok
    rw [hok]
    rfl
  | error e tail =>
    have herror := atOffset_error hpre hr
    rw [List.take_append_drop] at herror
    rw [herror]
    rfl

theorem Uniform.atPointer {act : Exec Bytes Unit} (h : Uniform act) (pointer : ℤ) :
    Uniform (Packet.atPointer pointer act) := by
  intro mem mem' hlen
  unfold Packet.atPointer
  split_ifs
  · by_cases hoff : pointer.toNat ≤ mem.length
    · rw [verdict_atOffset hoff, verdict_atOffset (hlen ▸ hoff)]
      exact h _ _ (by rw [List.length_drop, List.length_drop, hlen])
    · have hout (m : Bytes) (hm : ¬ pointer.toNat ≤ m.length) :
          (atOffset pointer.toNat act).run m = .error .storeFault m := if_neg hm
      rw [hout mem hoff, hout mem' (hlen ▸ hoff)]
      rfl
  · cases hr : act.run [] with
    | ok u tail => rw [onMember_ok hr, onMember_ok hr]; rfl
    | error e tail => rw [onMember_error hr, onMember_error hr]; rfl

theorem uniform_writeStruct {S : Type} (L : Layout S) (minLength : ℕ) (tooSmall : String) (p : S)
    (bufferlen : ℕ) : Uniform (writeStruct L minLength tooSmall p bufferlen) :=
  .bind (.throwIf _ _) (.throwIf _ _) (.store _ _)

theorem uniform_writeIpv4 (h : Ipv4Header) (bufferLen : ℕ) : Uniform (h.write bufferLen) :=
  .bind (.throwIf _ _) (.throwIf _ _)
    (.bind (.store _ _) (.store _ _) (.load_bind _ _ _ fun _ => .store _ _))

/-- A packet class whose headers are written with the same end wherever there is room. -/
class UniformPacket (M : Type) [PacketClass M] : Prop where
  write : ∀ ph ∈ (headers : List (HeaderPtr M)), ∀ m n, Uniform (ph.write m n)

theorem uniform_compileLoop {M : Type} (m : M) {phs : List (HeaderPtr M)}
    (h : ∀ ph ∈ phs, ∀ n, Uniform (ph.write m n)) (pointer : ℤ) :
    Uniform (Packet.compileLoop m phs pointer) := by
  induction phs generalizing pointer with
  | nil => exact .pure ()
  | cons ph phs ih =>
    rw [List.forall_mem_cons] at h
    exact ((h.1 _).atPointer _).bind
      (Packet.keepsLength_atPointer (ph.keepsLength_write m _) _) (ih h.2 _)

instance (k : Kind) : UniformPacket (Members k) where
  write :=
    match k with
    | .ethernet => List.forall_mem_singleton.mpr fun _ _ => uniform_writeStruct _ _ _ _ _
    | .arp => List.forall_mem_cons.mpr ⟨fun _ _ => uniform_writeStruct _ _ _ _ _,
        List.forall_mem_singleton.mpr fun _ _ => uniform_writeStruct _ _ _ _ _⟩
    | .ipv4 => List.forall_mem_cons.mpr ⟨fun _ _ => uniform_writeStruct _ _ _ _ _,
        List.forall_mem_singleton.mpr fun _ _ => uniform_writeIpv4 _ _⟩
    | .ipv6 => List.forall_mem_cons.mpr ⟨fun _ _ => uniform_writeStruct _ _ _ _ _,
        List.forall_mem_singleton.mpr fun _ _ => uniform_writeStruct _ _ _ _ _⟩
    | .udp => List.forall_mem_cons.mpr ⟨fun _ _ => uniform_writeStruct _ _ _ _ _,
        List.forall_mem_cons.mpr ⟨fun _ _ => uniform_writeIpv4 _ _,
          List.forall_mem_singleton.mpr fun _ _ => uniform_writeStruct _ _ _ _ _⟩⟩

theorem verdict_compile {M : Type} [PacketClass M] (p : Packet M) :
    verdict (Packet.compile.run p) = verdict ((Packet.compileLoop p.members
      (headers : List (HeaderPtr M)).reverse 128).run p.raw.vec) := by
  unfold Packet.compile
  rw [run_bind_ok (run_get p)]
  cases hr : (Packet.compileLoop p.members (headers : List (HeaderPtr M)).reverse 128).run
      p.raw.vec with
  | ok u vec =>
    obtain ⟨raw, hraw, -⟩ :=
      DataContainer.onVec_ok (Packet.keepsLength_compileLoop p.members _ 128) hr
    rw [onMember_ok hraw]
    rfl
  | error e vec =>
    obtain ⟨raw, hraw, -⟩ :=
      DataContainer.onVec_error (Packet.keepsLength_compileLoop p.members _ 128) hr
    rw [onMember_error hraw]
    rfl

end Uniformity

section Operations

inductive EthernetField
  | dst (v : MacAddress)
  | src (v : MacAddress)
  | type (v : UInt16)

def EthernetField.assign : EthernetField → EthernetHeader → EthernetHeader
  | .dst v, h => { h with dst := v }
  | .src v, h => { h with src := v }
  | .type v, h => { h with type := v }

inductive ArpField
  | hwtype (v : UInt16)
  | ptype (v : UInt16)
  | hwlen (v : UInt8)
  | plen (v : UInt8)
  | operation (v : UInt16)
  | hwsrc (v : MacAddress)
  | psrc (v : Ipv4Address)
  | hwdst (v : MacAddress)
  | pdst (v : Ipv4Address)

def ArpField.assign : ArpField → ArpHeader → ArpHeader
  | .hwtype v, h => { h with hwtype := v }
  | .ptype v, h => { h with ptype := v }
  | .hwlen v, h => { h with hwlen := v }
  | .plen v, h => { h with plen := v }
  | .operation v, h => { h with operation := v }
  | .hwsrc v, h => { h with hwsrc := v }
  | .psrc v, h => { h with psrc := v }
  | .hwdst v, h => { h with hwdst := v }
  | .pdst v, h => { h with pdst := v }

/-- All members but the private `option`. -/
inductive Ipv4Field
  | version (v : BitVec 4)
  | hlen (v : BitVec 4)
  | tos (v : UInt8)
  | totLen (v : UInt16)
  | id (v : UInt16)
  | fragOff (v : UInt16)
  | ttl (v : UInt8)
  | protocol (v : UInt8)
  | check (v : UInt16)
  | src (v : Ipv4Address)
  | dst (v : Ipv4Address)

def Ipv4Field.assign : Ipv4Field → Ipv4Header → Ipv4Header
  | .version v, h => { h with version := v }
  | .hlen v, h => { h with hlen := v }
  | .tos v, h => { h with tos := v }
  | .totLen v, h => { h with totLen := v }
  | .id v, h => { h with id := v }
  | .fragOff v, h => { h with fragOff := v }
  | .ttl v, h => { h with ttl := v }
  | .protocol v, h => { h with protocol := v }
  | .check v, h => { h with check := v }
  | .src v, h => { h with src := v }
  | .dst v, h => { h with dst := v }

inductive Ipv6Field
  | version (v : BitVec 4)
  | traficClass (v : BitVec 8)
  | flowLevel (v : BitVec 20)
  | payloadLen (v : UInt16)
  | nextHeader (v : UInt8)
  | hopLimit (v : UInt8)
  | src (v : Ipv6Address)
  | dst (v : Ipv6Address)

def Ipv6Field.assign : Ipv6Field → Ipv6Header → Ipv6Header
  | .version v, h => { h with version := v }
  | .traficClass v, h => { h with traficClass := v }
  | .flowLevel v, h => { h with flowLevel := v }
  | .payloadLen v, h => { h with payloadLen := v }
  | .nextHeader v, h => { h with nextHeader := v }
  | .hopLimit v, h => { h with hopLimit := v }
  | .src v, h => { h with src := v }
  | .dst v, h => { h with dst := v }

inductive UdpField
  | src (v : UInt16)
  | dst (v : UInt16)
  | len (v : UInt16)
  | check (v : UInt16)

def UdpField.assign : UdpField → UdpHeader → UdpHeader
  | .src v, h => { h with src := v }
  | .dst v, h => { h with dst := v }
  | .len v, h => { h with len := v }
  | .check v, h => { h with check := v }

/-- The assignments to public members of the headers of a class. -/
abbrev Field : Kind → Type
  | .ethernet => EthernetField
  | .arp => EthernetField ⊕ ArpField
  | .ipv4 => EthernetField ⊕ Ipv4Field
  | .ipv6 => EthernetField ⊕ Ipv6Field
  | .udp => EthernetField ⊕ Ipv4Field ⊕ UdpField

def assign : (k : Kind) → Field k → Members k → Members k
  | .ethernet, f, m => Ethernet.putEth (f.assign m.eth) m
  | .arp, .inl f, m => Arp.putEth (f.assign m.eth) m
  | .arp, .inr f, m => Arp.putArp (f.assign m.arp) m
  | .ipv4, .inl f, m => Ipv4.putEth (f.assign m.eth) m
  | .ipv4, .inr f, m => Ipv4.putIp (f.assign m.ip) m
  | .ipv6, .inl f, m => Ipv6.putEth (f.assign m.eth) m
  | .ipv6, .inr f, m => Ipv6.putIp (f.assign m.ip) m
  | .udp, .inl f, m => Udp.putEth (f.assign m.eth) m
  | .udp, .inr (.inl f), m => Udp.putIp (f.assign m.ip) m
  | .udp, .inr (.inr f), m => Udp.putUdp (f.assign m.udp) m

/-- What a caller does with a packet that was analyzed. -/
inductive Op (k : Kind)
  | assign (f : Field k)
  | setContents (buffer : Bytes)
  | compile

def Op.run {k : Kind} : Op k → Exec (Packet (Members k)) Unit
  | .assign f => modify fun p => { p with members := PacketReuse.assign k f p.members }
  | .setContents buffer => Packet.setContents buffer buffer.length
  | .compile => Packet.compile

/-- The header without its private member. -/
def Ipv4Header.fields (h : Ipv4Header) : Ipv4Header := { h with option := Vector.replicate 40 0 }

/-- The members without private ones. -/
def fields : (k : Kind) → Members k → Members k
  | .ethernet, m => m
  | .arp, m => m
  | .ipv4, m => Ipv4.putIp (Ipv4Header.fields m.ip) m
  | .ipv6, m => m
  | .udp, m => Udp.putIp (Ipv4Header.fields m.ip) m

/-- The private member of the classes with an IPv4 header. -/
def ipOption : (k : Kind) → Members k → Option (Vector UInt8 40)
  | .ipv4, m => some m.ip.option
  | .udp, m => some m.ip.option
  | .ethernet, _ => none
  | .arp, _ => none
  | .ipv6, _ => none

/-- Compiling the packet makes these its raw bytes. -/
def CompilesTo {M : Type} [PacketClass M] (p : Packet M) (raw : Except Failure Bytes) : Prop :=
  ∃ p', Packet.compile.run p = .ok () p' ∧ p'.rawData = raw

/-- A caller sees the same of both: the header fields, the length, the contents and, after compiling
both, the raw bytes. -/
structure SameView {k : Kind} (p q : Packet (Members k)) : Prop where
  fields : PacketReuse.fields k q.members = PacketReuse.fields k p.members
  length : q.length = p.length
  contents : q.contents = p.contents
  compiled : ∀ raw, CompilesTo q raw ↔ CompilesTo p raw

/-- Both calls return, and their states are so related, or both fail in the same way. -/
inductive SameEnd {σ : Type} (R : σ → σ → Prop) : Outcome σ Unit → Outcome σ Unit → Prop
  | ok {s s' : σ} : R s s' → SameEnd R (.ok () s) (.ok () s')
  | error {e : Failure} {s s' : σ} : SameEnd R (.error e s) (.error e s')

/-- No sequence of operations tells the packets apart. -/
def Indistinguishable {k : Kind} (p q : Packet (Members k)) : Prop :=
  ∀ ops : List (Op k), SameEnd SameView ((ops.forM Op.run).run p) ((ops.forM Op.run).run q)

end Operations

section Alike

variable {k : Kind}

/-- The packets differ in their headrooms at most. -/
structure Alike {M : Type} (p q : Packet M) : Prop where
  members : q.members = p.members
  contents : q.contents = p.contents

theorem SameEnd.mono {σ : Type} {R R' : σ → σ → Prop} (h : ∀ {s s'}, R s s' → R' s s')
    {r r' : Outcome σ Unit} (hr : SameEnd R r r') : SameEnd R' r r' := by
  cases hr with
  | ok hs => exact .ok (h hs)
  | error => exact .error

theorem Alike.length_vec {M : Type} {p q : Packet M} (h : Alike p q) :
    q.raw.vec.length = p.raw.vec.length := by
  have hc := h.contents
  rw [contents_drop, contents_drop] at hc
  have hlen := congrArg List.length (Except.ok.inj hc)
  have hp := p.raw.headroom
  have hq := q.raw.headroom
  simp only [List.length_drop] at hlen
  omega

theorem compile_keeps {M : Type} [PacketClass M] [RegularPacket M] {p p' : Packet M}
    (h : Packet.compile.run p = .ok () p') : Alike p p' := by
  obtain ⟨ws, hws⟩ := compile_eq_ok h
  obtain ⟨p₁, hrun, hmem, hlaid, -⟩ := PacketLayout.compile_layout p ws _ hws
    (RegularPacket.headerLength_le p) (contents_drop p)
  cases h.symm.trans hrun
  exact ⟨hmem, hlaid.contents.trans (contents_drop p).symm⟩

theorem Alike.trans {M : Type} {p q r : Packet M} (h : Alike p q) (h' : Alike q r) : Alike p r :=
  ⟨h'.members.trans h.members, h'.contents.trans h.contents⟩

theorem Alike.symm {M : Type} {p q : Packet M} (h : Alike p q) : Alike q p :=
  ⟨h.members.symm, h.contents.symm⟩

/-- Compiling ends in the same way for both, as it looks at the headers and the size only. -/
theorem Alike.compile {p q : Packet (Members k)} (h : Alike p q) :
    SameEnd Alike (Packet.compile.run p) (Packet.compile.run q) := by
  have hsame : verdict (Packet.compile.run p) = verdict (Packet.compile.run q) := by
    rw [verdict_compile, verdict_compile, h.members]
    exact uniform_compileLoop _ (fun ph hph n =>
      UniformPacket.write ph (List.mem_reverse.mp hph) _ n) 128 _ _ h.length_vec.symm
  cases hp : Packet.compile.run p with
  | ok u p' =>
    rw [hp] at hsame
    obtain ⟨_, q', hq⟩ := verdict_eq_none.mp hsame.symm
    rw [hq]
    exact .ok (((compile_keeps hp).symm.trans h).trans (compile_keeps hq))
  | error e p' =>
    rw [hp] at hsame
    obtain ⟨q', hq⟩ := verdict_eq_some.mp hsame.symm
    rw [hq]
    exact .error

theorem setContents_run {M : Type} (p : Packet M) (buffer : Bytes) :
    (Packet.setContents buffer buffer.length).run p =
      .ok () { p with raw := p.raw.setContent buffer } := by
  rw [Packet.setContents_ok (Nat.le_refl _), List.take_length]

/-- What one operation does to packets that are alike. -/
theorem Alike.step {p q : Packet (Members k)} (h : Alike p q) (op : Op k) :
    SameEnd Alike (op.run.run p) (op.run.run q) := by
  cases op with
  | assign f => exact .ok ⟨congrArg (assign k f) h.members, h.contents⟩
  | setContents buffer =>
    change SameEnd Alike ((Packet.setContents buffer buffer.length).run p)
      ((Packet.setContents buffer buffer.length).run q)
    rw [setContents_run, setContents_run]
    exact .ok ⟨h.members, (contents_setContent _ _ _).trans (contents_setContent _ _ _).symm⟩
  | compile => exact h.compile

theorem SameEnd.bind {σ : Type} {R R' : σ → σ → Prop} {x y : Exec σ Unit}
    {f g : Unit → Exec σ Unit} {s s' : σ} (h : SameEnd R (x.run s) (y.run s'))
    (hf : ∀ {t t'}, R t t' → SameEnd R' ((f ()).run t) ((g ()).run t')) :
    SameEnd R' ((x >>= f).run s) ((y >>= g).run s') := by
  generalize hr : x.run s = r at h
  generalize hr' : y.run s' = r' at h
  cases h with
  | ok ht =>
    rw [run_bind_ok hr, run_bind_ok hr']
    exact hf ht
  | error =>
    rw [run_bind_error hr, run_bind_error hr']
    exact .error

theorem Alike.run {p q : Packet (Members k)} (h : Alike p q) (ops : List (Op k)) :
    SameEnd Alike ((ops.forM Op.run).run p) ((ops.forM Op.run).run q) := by
  induction ops generalizing p q with
  | nil => exact .ok h
  | cons op ops ih => exact (h.step op).bind ih

theorem Alike.sameView {p q : Packet (Members k)} (h : Alike p q) : SameView p q := by
  have hpq := equalPackets_iff.mpr ⟨h.members, h.contents⟩
  have hqp := equalPackets_iff.mpr ⟨h.symm.members, h.symm.contents⟩
  refine ⟨congrArg (fields k) h.members, hpq.length, hpq.contents, fun raw => ⟨?_, ?_⟩⟩
  · rintro ⟨q', hq, rfl⟩
    obtain ⟨p', hp, hraw, -⟩ := hqp.compiled hq
    exact ⟨p', hp, hraw⟩
  · rintro ⟨p', hp, rfl⟩
    obtain ⟨q', hq, hraw, -⟩ := hpq.compiled hp
    exact ⟨q', hq, hraw⟩

theorem Alike.indistinguishable {p q : Packet (Members k)} (h : Alike p q) :
    Indistinguishable p q :=
  fun ops => (h.run ops).mono Alike.sameView

end Alike

section Private

/-- A caller that may change `hlen` sees all of the options. -/
theorem option_of_raw {eth eth' tail tail' : Bytes} {h h' : Ipv4Header}
    (heth : eth.length = eth'.length) (h15 : h.hlen = 15) (h15' : h'.hlen = 15)
    (heq : eth ++ (h.encoding ++ tail) = eth' ++ (h'.encoding ++ tail')) :
    h.option = h'.option := by
  have hencoding (g : Ipv4Header) (hg : g.hlen = 15) :
      g.encoding = Ip.layout.enc g.toIp ++ g.option.toList := by
    rw [Ipv4Header.encoding, Ipv4Header.length, hg, List.take_of_length_le]
    rw [Vector.length_toList]
    decide
  have hip := (List.append_inj heq heth).2
  rw [hencoding h h15, hencoding h' h15', List.append_assoc, List.append_assoc] at hip
  have hoption := (List.append_inj hip
    ((Ip.layout.enc_length _).trans (Ip.layout.enc_length _).symm)).2
  exact Vector.toList_inj.mp (List.append_inj hoption
    (by rw [Vector.length_toList, Vector.length_toList])).1

theorem compilesTo_flatten {M : Type} [PacketClass M] [RegularPacket M] (p : Packet M)
    {ws : List Bytes} (hws : List.Forall₂ (fun ph w => ph.Fills p.members w) headers ws) :
    CompilesTo p (.ok (ws.flatten ++ p.raw.vec.drop 128)) := by
  obtain ⟨p', hrun, -, hlaid, -⟩ := PacketLayout.compile_layout p ws _ hws
    (RegularPacket.headerLength_le p) (contents_drop p)
  exact ⟨p', hrun, hlaid.rawData⟩

theorem CompilesTo.unique {M : Type} [PacketClass M] {p : Packet M}
    {raw raw' : Except Failure Bytes} (h : CompilesTo p raw) (h' : CompilesTo p raw') :
    raw = raw' := by
  obtain ⟨p', hrun, rfl⟩ := h
  obtain ⟨q', hrun', rfl⟩ := h'
  cases hrun.symm.trans hrun'
  rfl

variable {k : Kind} {p q : Packet (Members k)}

theorem SameView.flatten_eq (h : SameView p q) {ws ws' : List Bytes}
    (hws : List.Forall₂ (fun ph w => ph.Fills p.members w) headers ws)
    (hws' : List.Forall₂ (fun ph w => ph.Fills q.members w) headers ws') :
    ws'.flatten ++ q.raw.vec.drop 128 = ws.flatten ++ p.raw.vec.drop 128 :=
  Except.ok.inj (((h.compiled _).mp (compilesTo_flatten q hws')).unique (compilesTo_flatten p hws))

theorem Indistinguishable.sameView (h : Indistinguishable p q) : SameView p q := by
  have hnone : SameEnd SameView (.ok () p) (.ok () q) := h []
  cases hnone with
  | ok hview => exact hview

theorem Indistinguishable.sameView_assign (h : Indistinguishable p q) (f : Field k) :
    SameView { p with members := assign k f p.members }
      { q with members := assign k f q.members } := by
  have hone : SameEnd SameView (.ok () { p with members := assign k f p.members })
    (.ok () { q with members := assign k f q.members }) := h [.assign f]
  cases hone with
  | ok hview => exact hview

/-- Raising `hlen` and compiling shows the private member. -/
theorem Indistinguishable.ipOption_eq (h : Indistinguishable p q) :
    ipOption k q.members = ipOption k p.members := by
  have hle : 5 ≤ (15 : BitVec 4).toNat := by decide
  cases k with
  | ethernet => rfl
  | arp => rfl
  | ipv6 => rfl
  | ipv4 =>
    have hflat := (h.sameView_assign (.inr (.hlen 15))).flatten_eq
      (.cons (writeStruct_emits Eth.layout _ _).fills
        (.cons (Ipv4Header.write_emits hle).fills .nil))
      (.cons (writeStruct_emits Eth.layout _ _).fills
        (.cons (Ipv4Header.write_emits hle).fills .nil))
    simp only [List.flatten_cons, List.append_assoc] at hflat
    have hoption := option_of_raw
      ((Eth.layout.enc_length _).trans (Eth.layout.enc_length _).symm) rfl rfl hflat
    exact congrArg some hoption
  | udp =>
    have hflat := (h.sameView_assign (.inr (.inl (.hlen 15)))).flatten_eq
      (.cons (writeStruct_emits Eth.layout _ _).fills (.cons (Ipv4Header.write_emits hle).fills
        (.cons (writeStruct_emits UdpStruct.layout _ _).fills .nil)))
      (.cons (writeStruct_emits Eth.layout _ _).fills (.cons (Ipv4Header.write_emits hle).fills
        (.cons (writeStruct_emits UdpStruct.layout _ _).fills .nil)))
    simp only [List.flatten_cons, List.append_assoc] at hflat
    have hoption := option_of_raw
      ((Eth.layout.enc_length _).trans (Eth.layout.enc_length _).symm) rfl rfl hflat
    exact congrArg some hoption

theorem header_ext {h h' : Ipv4Header} (hfields : Ipv4Header.fields h' = Ipv4Header.fields h)
    (hoption : h'.option = h.option) : h' = h :=
  calc
    h' = { Ipv4Header.fields h' with option := h'.option } := rfl
    _ = { Ipv4Header.fields h with option := h.option } := by rw [hfields, hoption]
    _ = h := rfl

theorem members_ext {m m' : Members k} (hfields : fields k m' = fields k m)
    (hoption : ipOption k m' = ipOption k m) : m' = m := by
  cases k with
  | ethernet => exact hfields
  | arp => exact hfields
  | ipv6 => exact hfields
  | ipv4 =>
    obtain ⟨heth, hheader⟩ := Ipv4.mk.inj hfields
    have hip := header_ext hheader (Option.some.inj hoption)
    calc
      m' = ⟨m'.eth, m'.ip⟩ := rfl
      _ = ⟨m.eth, m.ip⟩ := by rw [heth, hip]
      _ = m := rfl
  | udp =>
    obtain ⟨hudp, hheader, heth⟩ := Udp.mk.inj hfields
    have hip := header_ext hheader (Option.some.inj hoption)
    calc
      m' = ⟨m'.udp, m'.ip, m'.eth⟩ := rfl
      _ = ⟨m.udp, m.ip, m.eth⟩ := by rw [hudp, hip, heth]
      _ = m := rfl

/-- The only difference no caller can see is that of the headrooms. -/
theorem indistinguishable_iff : Indistinguishable p q ↔ Alike p q := by
  refine ⟨fun h => ⟨members_ext h.sameView.fields h.ipOption_eq, h.sameView.contents⟩, ?_⟩
  exact Alike.indistinguishable

end Private

section Residue

/-- The header members of a class in the order of the frame. -/
def slots : (k : Kind) → List (Member (Members k))
  | .ethernet => [.of Ethernet.eth Ethernet.putEth fun _ _ => rfl]
  | .arp => [.of Arp.eth Arp.putEth fun _ _ => rfl, .of Arp.arp Arp.putArp fun _ _ => rfl]
  | .ipv4 => [.of Ipv4.eth Ipv4.putEth fun _ _ => rfl, .of Ipv4.ip Ipv4.putIp fun _ _ => rfl]
  | .ipv6 => [.of Ipv6.eth Ipv6.putEth fun _ _ => rfl, .of Ipv6.ip Ipv6.putIp fun _ _ => rfl]
  | .udp => [.of Udp.eth Udp.putEth fun _ _ => rfl, .of Udp.ip Udp.putIp fun _ _ => rfl,
      .of Udp.udp Udp.putUdp fun _ _ => rfl]

theorem headers_eq_slots (k : Kind) :
    (headers : List (HeaderPtr (Members k))) = (slots k).map Member.ptr := by
  cases k <;> rfl

/-- How many bytes of options the IPv4 header behind an Ethernet header has. -/
def optionLength (b : Bytes) : ℕ := 4 * ((b.getD 14 0).toNat % 16) - 20

/-- Behind the options of the frame there is nothing left of others. -/
def NoResidue (k : Kind) (m : Members k) (b : Bytes) : Prop :=
  ∀ option, ipOption k m = some option → ∀ i : Fin 40, optionLength b ≤ i → option.get i = 0

theorem length_filled_drop (b : Bytes) (h : Ipv4Header) :
    (Ipv4Header.filled (b.drop 14) h).length = 4 * ((b.getD 14 0).toNat % 16) := by
  simp [Ipv4Header.length_filled, List.getD_eq_getElem?_getD]

theorem get_option_readIp (b : Bytes) (h : Ipv4Header) (i : Fin 40) :
    (readIp (b.drop 14) h).option.get i =
      (((b.drop 14).drop 20).take (4 * ((b.getD 14 0).toNat % 16) - 20)).getD i
        (h.option.get i) := by
  simp only [readIp, length_filled_drop]
  exact Vector.getElem_ofFn _

/-- Reading gives the same header to both objects exactly when it leaves them the same options. -/
theorem readIp_eq_iff {b : Bytes} (h h₀ : Ipv4Header)
    (hle : (Ipv4Header.filled (b.drop 14) h).length ≤ (b.drop 14).length) :
    readIp (b.drop 14) h₀ = readIp (b.drop 14) h ↔
      ∀ i : Fin 40, optionLength b ≤ i → h₀.option.get i = h.option.get i := by
  have hdata : (((b.drop 14).drop 20).take (4 * ((b.getD 14 0).toNat % 16) - 20)).length =
      optionLength b := by
    rw [length_filled_drop] at hle
    rw [List.length_take, List.length_drop, optionLength]
    omega
  have hoption := get_option_readIp b
  generalize ((b.drop 14).drop 20).take (4 * ((b.getD 14 0).toNat % 16) - 20) = data
    at hdata hoption
  constructor
  · intro heq i hi
    have hget := congrArg (fun g : Ipv4Header => g.option.get i) heq
    simp only [hoption] at hget
    rwa [List.getD_eq_default _ _ (by omega), List.getD_eq_default _ _ (by omega)] at hget
  · intro hall
    have hopt : (readIp (b.drop 14) h₀).option = (readIp (b.drop 14) h).option := by
      apply Vector.ext
      intro i hi
      refine (hoption h₀ ⟨i, hi⟩).trans (Eq.trans ?_ (hoption h ⟨i, hi⟩).symm)
      by_cases hin : i < optionLength b
      · have hlt : i < data.length := hdata ▸ hin
        rw [List.getD_eq_getElem _ _ hlt, List.getD_eq_getElem _ _ hlt]
      · rw [hall ⟨i, hi⟩ (Nat.not_lt.mp hin)]
    change { readIp (b.drop 14) h with option := (readIp (b.drop 14) h₀).option } = _
    rw [hopt]

/-- The IPv4 header of an accepted frame is in it. -/
theorem accepted_ip {M : Type} [PacketClass M] {getEth : M → EthernetHeader}
    {putEth : EthernetHeader → M → M} {getIp : M → Ipv4Header} {putIp : Ipv4Header → M → M}
    {phs : List (HeaderPtr M)}
    (hheaders : (headers : List (HeaderPtr M)) =
      .member getEth putEth :: .member getIp putIp :: phs)
    (hgetEth : ∀ h m, getEth (putEth h m) = h) (hgetIp : ∀ h m, getIp (putIp h m) = h)
    {b : Bytes} {p p' : Packet M} (h : (Packet.analyze b b.length).run p = .ok () p')
    (g : Ipv4Header) : (Ipv4Header.filled (b.drop 14) g).length ≤ (b.drop 14).length := by
  obtain ⟨rest, k, hread, -⟩ := analyze_readHeaders h
  rw [hheaders] at hread
  obtain ⟨eth, -, -, hread⟩ := readHeaders_cons_eq_ok hgetEth hread
  obtain ⟨ip, hip, -⟩ := readHeaders_cons_eq_ok hgetIp hread
  obtain ⟨-, hle, -⟩ := ip_eq_ok hip
  rw [length_filled_drop]
  exact (length_filled_drop b _).symm.trans_le hle

theorem noResidue_iff {k : Kind} {m m₀ : Members k} {h h₀ : Ipv4Header} {b : Bytes}
    (hm : ipOption k m = some h.option) (hm₀ : ipOption k m₀ = some h₀.option)
    (hzero : ∀ option, ipOption k m₀ = some option → option = Vector.replicate 40 0) :
    NoResidue k m b ↔ ∀ i : Fin 40, optionLength b ≤ i → h₀.option.get i = h.option.get i := by
  have hget (i : Fin 40) : h₀.option.get i = 0 := by
    rw [hzero _ hm₀]
    exact Vector.getElem_replicate _
  constructor
  · exact fun hall i hi => (hget i).trans (hall _ hm i hi).symm
  · intro hall option ho i hi
    cases hm.symm.trans ho
    exact (hall i hi).symm.trans (hget i)

/-- The headers are decoded alike exactly when nothing is left of the options. -/
theorem decodeAll_eq_iff {k : Kind} {b : Bytes} {p p' : Packet (Members k)} {m₀ : Members k}
    (h : (Packet.analyze b b.length).run p = .ok () p')
    (hzero : ∀ option, ipOption k m₀ = some option → option = Vector.replicate 40 0) :
    Member.decodeAll (slots k) b m₀ = Member.decodeAll (slots k) b p.members ↔
      NoResidue k p.members b := by
  cases k with
  | ethernet => exact iff_of_true rfl fun _ ho => nomatch ho
  | arp => exact iff_of_true rfl fun _ ho => nomatch ho
  | ipv6 => exact iff_of_true rfl fun _ ho => nomatch ho
  | ipv4 =>
    have hle := accepted_ip rfl (fun _ _ => rfl) (fun _ _ => rfl) h p.members.ip
    have hm (m : Ipv4) : Member.decodeAll (slots .ipv4) b m =
        ⟨readEth b m.eth, readIp (b.drop 14) m.ip⟩ := rfl
    rw [noResidue_iff rfl rfl hzero, ← readIp_eq_iff _ _ hle, hm, hm, Ipv4.mk.injEq]
    exact and_iff_right rfl
  | udp =>
    have hle := accepted_ip rfl (fun _ _ => rfl) (fun _ _ => rfl) h p.members.ip
    have hm (m : Udp) : Member.decodeAll (slots .udp) b m =
        ⟨UdpHeader.ofUdpStruct (UdpStruct.layout.dec (((b.drop 14).drop
          (readIp (b.drop 14) m.ip).length).take 8)) m.udp, readIp (b.drop 14) m.ip,
          readEth b m.eth⟩ := rfl
    rw [noResidue_iff rfl rfl hzero, ← readIp_eq_iff _ _ hle, hm, hm, Udp.mk.injEq]
    constructor
    · exact fun heq => heq.2.1
    · intro heq
      rw [heq]
      exact ⟨rfl, rfl, rfl⟩

theorem clear_option (k : Kind) (fresh : Members k) :
    ∃ m₀, (PacketClass.clear : Exec (Members k) Unit).run fresh = .ok () m₀ ∧
      ∀ option, ipOption k m₀ = some option → option = Vector.replicate 40 0 := by
  cases k with
  | ethernet =>
    obtain ⟨_, m₀, hm⟩ := EthernetHeader.returns_clear.onMember fresh
    exact ⟨m₀, hm, fun _ ho => nomatch ho⟩
  | arp =>
    obtain ⟨_, m₀, hm⟩ := returns_clear_arp fresh
    exact ⟨m₀, hm, fun _ ho => nomatch ho⟩
  | ipv6 =>
    have hclear : Returns (PacketClass.clear : Exec Ipv6 Unit) :=
      EthernetHeader.returns_clear.onMember.bind fun _ => (Returns.modify _).bind fun _ =>
        (Returns.modify _).onMember
    obtain ⟨_, m₀, hm⟩ := hclear fresh
    exact ⟨m₀, hm, fun _ ho => nomatch ho⟩
  | ipv4 =>
    obtain ⟨_, eth, heth⟩ := EthernetHeader.returns_clear fresh.eth
    have hip := Ipv4Header.clear_run fresh.ip
    refine ⟨_, (run_bind_ok (onMember_ok heth)).trans ((run_bind_ok (run_modify _ _)).trans
      (onMember_ok hip)), ?_⟩
    rintro _ ⟨⟩
    rfl
  | udp =>
    obtain ⟨_, eth, heth⟩ := EthernetHeader.returns_clear fresh.eth
    have hip : (onMember Udp.ip Udp.putIp Ipv4Header.clear).run
        { Udp.putEth eth fresh with eth := { eth with type := 0x0800 } } =
          .ok () { Udp.putEth eth fresh with
            eth := { eth with type := 0x0800 }, ip := Ipv4Header.cleared } :=
      onMember_ok (Ipv4Header.clear_run fresh.ip)
    refine ⟨_, (run_bind_ok (onMember_ok heth)).trans ((run_bind_ok (run_modify _ _)).trans
      ((run_bind_ok hip).trans ((run_bind_ok (run_modify _ _)).trans
        ((run_bind_ok (run_modify _ _)).trans (onMember_ok rfl))))), ?_⟩
    rintro _ ⟨⟩
    rfl

end Residue

section Fresh

variable {k : Kind} {p p' : Packet (Members k)} {b : Bytes}

/-- After analyzing the bytes the object is not to be told from one constructed from them, whatever
its members held before the constructor set them. -/
def LikeFresh (k : Kind) (p : Packet (Members k)) (b : Bytes) : Prop :=
  ∀ p', (Packet.analyze b b.length).run p = .ok () p' → ∀ fresh, ∃ q,
    Packet.construct fresh b b.length = .ok () q ∧ Indistinguishable p' q

/-- The used object and the fresh one get the same contents, and their headers differ in nothing but
what was there before. -/
theorem construct_decodeAll (h : (Packet.analyze b b.length).run p = .ok () p')
    (fresh : Members k) : ∃ m₀ rest,
      (∀ option, ipOption k m₀ = some option → option = Vector.replicate 40 0) ∧
      p' = ⟨Member.decodeAll (slots k) b p.members, p.raw.setContent rest⟩ ∧
      Packet.construct fresh b b.length =
        .ok () ⟨Member.decodeAll (slots k) b m₀, DataContainer.setContent rest (.new 128)⟩ := by
  obtain ⟨rest, hall⟩ := analyze_decodeAll (headers_eq_slots k) h
  obtain ⟨m₀, hclear, hzero⟩ := clear_option k fresh
  cases h.symm.trans (hall p)
  exact ⟨m₀, rest, hzero, rfl, (run_bind_ok (onMember_ok hclear)).trans (hall _)⟩

theorem construct_alike_iff (h : (Packet.analyze b b.length).run p = .ok () p')
    (fresh : Members k) : ∃ q, Packet.construct fresh b b.length = .ok () q ∧
      (Alike p' q ↔ NoResidue k p.members b) := by
  obtain ⟨m₀, rest, hzero, rfl, hconstruct⟩ := construct_decodeAll h fresh
  refine ⟨_, hconstruct, ?_⟩
  rw [← decodeAll_eq_iff h hzero]
  constructor
  · exact fun halike => halike.members
  · exact fun hmem => ⟨hmem,
      (contents_setContent _ _ _).trans (contents_setContent _ _ _).symm⟩

theorem LikeFresh.noResidue (hfresh : LikeFresh k p b)
    (h : (Packet.analyze b b.length).run p = .ok () p') : NoResidue k p.members b := by
  obtain ⟨q, hq, hiff⟩ := construct_alike_iff h p.members
  obtain ⟨q', hq', hsame⟩ := hfresh p' h p.members
  cases hq.symm.trans hq'
  exact hiff.mp (indistinguishable_iff.mp hsame)

/-- An object behaves like a fresh one exactly when it has no bytes set behind the options of the
frame. -/
theorem likeFresh_iff (h : (Packet.analyze b b.length).run p = .ok () p') :
    LikeFresh k p b ↔ NoResidue k p.members b := by
  constructor
  · exact fun hfresh => hfresh.noResidue h
  · intro hnone p₁ hp₁ fresh
    cases h.symm.trans hp₁
    obtain ⟨q, hq, hiff⟩ := construct_alike_iff h fresh
    exact ⟨q, hq, indistinguishable_iff.mpr (hiff.mpr hnone)⟩

/-- A frame without options. -/
def plainFrame : Bytes := List.replicate 14 0 ++ [0x45] ++ List.replicate 19 0

/-- A frame with one word of options. -/
def optionFrame : Bytes :=
  List.replicate 14 0 ++ [0x46] ++ List.replicate 19 0 ++ [0xde, 0xad, 0xbe, 0xef]

/-- The members of an IPv4 object before its constructor has run. -/
def freshIpv4 : Ipv4 :=
  ⟨⟨.new, .new, 0⟩, ⟨0, 0, 0, 0, 0, 0, 0, 0, 0, .new, .new, Vector.replicate 40 0⟩⟩

/-- A frame with two words of options. -/
def longerFrame : Bytes :=
  List.replicate 14 0 ++ [0x47] ++ List.replicate 19 0 ++ [0x07, 0x07, 0x04, 0, 0, 0, 0, 0]

/-- An object constructed from a frame with options is as good as new for a frame with more. -/
theorem likeFresh_longerFrame :
    ∃ p : Packet (Members .ipv4),
      Packet.construct freshIpv4 optionFrame optionFrame.length = .ok () p ∧
      LikeFresh .ipv4 p longerFrame := by
  obtain ⟨m₀, rest, hzero, -, hconstruct⟩ :=
    construct_decodeAll (k := .ipv4) (p := ⟨freshIpv4, .new 128⟩) (b := optionFrame) rfl freshIpv4
  obtain ⟨rest', hall⟩ := analyze_decodeAll (headers_eq_slots .ipv4) (b := longerFrame)
    (p := ⟨freshIpv4, .new 128⟩) rfl
  have hnone : NoResidue .ipv4 (Member.decodeAll (slots .ipv4) optionFrame m₀) longerFrame := by
    intro option hoption i hi
    have hleft : (readIp (optionFrame.drop 14) m₀.ip).option = option := Option.some.inj hoption
    -- the first frame fills the first four bytes, the second one the first eight
    have hbehind : (((optionFrame.drop 14).drop 20).take
        (4 * ((optionFrame.getD 14 0).toNat % 16) - 20)).length ≤ (i : ℕ) :=
      le_trans (by decide) hi
    rw [← hleft, get_option_readIp, List.getD_eq_default _ _ hbehind, hzero m₀.ip.option rfl]
    exact Vector.getElem_replicate _
  exact ⟨_, hconstruct, (likeFresh_iff (hall _)).mpr hnone⟩

/-- An object constructed from a frame with options has them left for a frame without. -/
theorem options_left_behind :
    ∃ p : Packet (Members .ipv4),
      Packet.construct freshIpv4 optionFrame optionFrame.length = .ok () p ∧
      ¬ LikeFresh .ipv4 p plainFrame := by
  obtain ⟨m₀, rest, -, -, hconstruct⟩ :=
    construct_decodeAll (k := .ipv4) (p := ⟨freshIpv4, .new 128⟩) (b := optionFrame) rfl freshIpv4
  refine ⟨_, hconstruct, fun hfresh => ?_⟩
  -- the members that are left do not matter for whether the second frame is accepted
  obtain ⟨rest', hall⟩ := analyze_decodeAll (headers_eq_slots .ipv4) (b := plainFrame)
    (p := ⟨freshIpv4, .new 128⟩) rfl
  have hzero := hfresh.noResidue (hall _) _ rfl 0 (by decide)
  change (readIp (optionFrame.drop 14) m₀.ip).option.get 0 = 0 at hzero
  rw [get_option_readIp] at hzero
  exact absurd (show (0xde : UInt8) = 0 from hzero) (by decide)

end Fresh

end Pgen.PacketReuse
