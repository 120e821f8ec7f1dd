import Pgen.FrameReading
import Pgen.PacketStreams
import Pgen.PcapRecords
import Pgen.Refinement

/-!
# `pgen::module::check`

The self test of the library: every frame of a capture file is decoded into a packet, encoded again
and compared. It ends on every file. On a well-formed capture it judges the frames one by one up to
the first that the packet class refuses, and its judgements are known in advance: only `ipv6` can
miss a frame, by its traffic class and flow label. How it ends at a refused frame is known too.
-/
namespace Pgen.ModuleCheck
open ByteMemory StdioFile StructLayout FileStream FrameQueue CorePacket PcapStream ProtocolIpv6
  PacketCopies PacketReuse PacketPrefix PacketStreams FrameReading HeaderReads WhileLoop Refinement

section Model

variable {M : Type} [PacketClass M]

/-- What `check` works on: its stream, the caller's packet, what it printed, the frames that the
callback was called with, and its counter, an `int`. -/
structure CheckState (M : Type) where
  handle : File
  pack : Packet M
  printed : List String
  handed : List Bytes
  count : Int32

namespace CheckState

def putHandle (handle : File) (s : CheckState M) : CheckState M := { s with handle := handle }

def putPack (pack : Packet M) (s : CheckState M) : CheckState M := { s with pack := pack }

end CheckState

def ofExcept {σ α : Type} : Except Failure α → Exec σ α
  | .ok a => pure a
  | .error e => throw e

def printLine (line : String) : Exec (CheckState M) Unit :=
  modify fun s => { s with printed := s.printed ++ [line] }

/-- `if (callback) callback(data, datalen);` -/
def call (callback : Bool) (data : Bytes) (datalen : ℕ) : Exec (CheckState M) Unit :=
  if callback then modify fun s => { s with handed := s.handed ++ [data.take datalen] } else pure ()

/-- The comparison of the compiled packet with the frame. -/
def compareFrame (callback : Bool) (data : Bytes) (datalen : ℕ) : Exec (CheckState M) Unit := do
  let s ← get
  let length ← ofExcept s.pack.length
  if datalen ≠ length then
    printLine "binary operation havs length error \n"
    call callback data datalen
  else
    let raw ← ofExcept s.pack.rawData
    let compiled ← load raw 0 datalen
    let received ← load data 0 datalen
    if compiled = received then printLine "binary operation is successed\n"
    else
      printLine "binary operation havs binary error \n"
      call callback data datalen

/-- One pass of the loop; `data` is what the array holds when it comes to life. -/
def checkPass (callback : Bool) (data : Vector UInt8 10000) :
    Exec (CheckState M) (Option Int32) := do
  let atEnd ← onMember CheckState.handle CheckState.putHandle eof
  if atEnd then
    let s ← get
    pure (some s.count)
  else
    let (datalen, data) ← onMember CheckState.handle CheckState.putHandle (recv data.toList)
    onMember CheckState.pack CheckState.putPack (Packet.analyze data datalen)
    onMember CheckState.pack CheckState.putPack Packet.compile
    compareFrame callback data datalen
    modify fun s => { s with count := s.count + 1 }
    pure none

def checkOpen (name : String) (disk : Option Bytes) : Exec (CheckState M) Unit :=
  onMember CheckState.handle CheckState.putHandle do
    let _ ← openStream name .pcapRead disk

/-- How `check(pack, name, callback)` ends. `handle` is the stream before it is opened. -/
inductive Checks (callback : Bool) (datas : ℕ → Vector UInt8 10000) (name : String)
    (disk : Option Bytes) (handle : File) (pack : Packet M) : Outcome (CheckState M) Int32 → Prop
  | refused {e : Failure} {s : CheckState M} :
      (checkOpen name disk).run ⟨handle, pack, [], [], 0⟩ = .error e s →
      Checks callback datas name disk handle pack (.error e s)
  | opened {s : CheckState M} {r : Outcome (CheckState M) Int32} :
      (checkOpen name disk).run ⟨handle, pack, [], [], 0⟩ = .ok () s →
      Runs (fun i => checkPass callback (datas i)) 0 s r →
      Checks callback datas name disk handle pack r

end Model

section Termination

variable {M : Type} [PacketClass M]

/-- A receive call that returns has consumed a header at least. -/
theorem recv_consumes {buf : Bytes} {f f' : File} {r : ℕ × Bytes}
    (h : (recv buf).run f = .ok r f') : f'.rest.length < f.rest.length := by
  obtain ⟨ph, f₁, hhead, h⟩ := bind_eq_ok.mp h
  obtain ⟨hpos, hlen, -, rfl⟩ := readStruct_eq_ok.mp hhead
  obtain ⟨-, h⟩ := throwIf_bind_eq_ok.mp h
  obtain ⟨mem, f₂, hread, h⟩ := bind_eq_ok.mp h
  obtain ⟨-, -, -, -, rfl⟩ := read_eq_ok.mp hread
  cases h
  rw [rest_advance, rest_advance, List.length_drop, List.length_drop]
  omega

theorem leaves_ofExcept {σ υ α : Type} {view : σ → υ} (x : Except Failure α) :
    Leaves view (ofExcept x : Exec σ α) := by
  cases x with
  | ok a => exact leaves_pure a
  | error e => exact leaves_throw e

omit [PacketClass M] in
theorem leaves_call {υ : Type} {view : CheckState M → υ}
    (h : ∀ s handed, view { s with handed := handed } = view s) (callback : Bool) (data : Bytes)
    (n : ℕ) : Leaves view (call callback data n) := by
  cases callback with
  | true => exact leaves_modify fun s => h s _
  | false => exact leaves_pure ()

/-- The comparison changes neither the stream nor the packet. -/
theorem leaves_compareFrame {υ : Type} {view : CheckState M → υ}
    (h : ∀ s printed handed, view { s with printed := printed, handed := handed } = view s)
    (callback : Bool) (data : Bytes) (n : ℕ) : Leaves view (compareFrame callback data n) := by
  have hprint (line : String) : Leaves view (printLine line : Exec (CheckState M) Unit) :=
    leaves_modify fun s => h s _ s.handed
  have hcall := leaves_call (fun s handed => h s s.printed handed) callback data n
  refine leaves_bind (fun _ => rfl) fun s => leaves_bind (leaves_ofExcept _) fun length => ?_
  split_ifs
  · exact leaves_bind (hprint _) fun _ => hcall
  · refine leaves_bind (leaves_ofExcept _) fun raw => leaves_bind (leaves_load _ _ _) fun a =>
      leaves_bind (leaves_load _ _ _) fun b => ?_
    split_ifs
    · exact hprint _
    · exact leaves_bind (hprint _) fun _ => hcall

/-- A pass that goes on has consumed some of the file. -/
theorem checkPass_consumes {callback : Bool} {data : Vector UInt8 10000} {s s' : CheckState M}
    (h : (checkPass callback data).run s = .ok none s') :
    s'.handle.rest.length < s.handle.rest.length := by
  obtain ⟨atEnd, s₁, heof, h⟩ := bind_eq_ok.mp h
  obtain ⟨f₁, hf₁, rfl⟩ := onMember_eq_ok heof
  rw [eof_run] at hf₁
  obtain ⟨rfl, rfl⟩ := EStateM.Result.ok.inj hf₁
  split_ifs at h with hend
  · cases h
  obtain ⟨⟨n, array⟩, s₂, hrecv, h⟩ := bind_eq_ok.mp h
  obtain ⟨f₂, hf₂, rfl⟩ := onMember_eq_ok hrecv
  have hlt := recv_consumes hf₂
  have hleaves : Leaves CheckState.handle (do
      onMember CheckState.pack CheckState.putPack (Packet.analyze array n)
      onMember CheckState.pack CheckState.putPack Packet.compile
      compareFrame callback array n
      modify fun s => { s with count := s.count + 1 }
      pure none : Exec (CheckState M) (Option Int32)) :=
    leaves_bind (leaves_onMember _ fun _ _ => rfl) fun _ =>
      leaves_bind (leaves_onMember _ fun _ _ => rfl) fun _ =>
      leaves_bind (leaves_compareFrame (fun _ _ _ => rfl) _ _ _) fun _ =>
      leaves_bind (leaves_modify fun _ => rfl) fun _ => leaves_pure _
  have hhandle : s'.handle = f₂ := by
    have hsame := hleaves (CheckState.putHandle f₂ (CheckState.putHandle (probed s.handle) s))
    rw [h] at hsame
    exact hsame
  change f₂.rest.length < (probed s.handle).rest.length at hlt
  rw [hhandle]
  rwa [rest_probed] at hlt

/-- The test ends on every file, whatever its content, and for every packet class. -/
theorem check_terminates (callback : Bool) (datas : ℕ → Vector UInt8 10000) (name : String)
    (disk : Option Bytes) (handle : File) (pack : Packet M) :
    ∃ r, Checks callback datas name disk handle pack r ∧
      ∀ r', Checks callback datas name disk handle pack r' → r' = r := by
  cases hopen : (checkOpen name disk).run (⟨handle, pack, [], [], 0⟩ : CheckState M) with
  | error e s =>
    refine ⟨_, .refused hopen, fun r' h => ?_⟩
    cases h with
    | refused hopen' => cases hopen'.symm.trans hopen; rfl
    | opened hopen' => cases hopen'.symm.trans hopen
  | ok u s =>
    obtain ⟨r, hr⟩ := runs_total (fun s : CheckState M => s.handle.rest.length)
      (fun i s s' h => checkPass_consumes h) 0 s
    refine ⟨r, .opened hopen hr, fun r' h => ?_⟩
    cases h with
    | refused hopen' => cases hopen'.symm.trans hopen
    | opened hopen' hr' =>
      cases hopen'.symm.trans hopen
      exact hr'.unique hr

end Termination

section Judgements

variable {k : Kind}

/-- What decoding and encoding makes of a frame that the class accepts. -/
def reproduced : Kind → Bytes → Bytes
  | .ethernet, b => b
  | .arp, b => b
  | .ipv4, b => b
  | .ipv6, b => b.take 14 ++ zeroFlow (b.drop 14)
  | .udp, b => b

/-- How the test fails at a frame: an exception when the array has no room for it, and what the
class refuses it with else. -/
def failure (k : Kind) (b : Bytes) : Option Failure :=
  if 10000 < b.length then some (.exception "pgen::pcap_stream::recv: buffer length is too small")
  else refusal k b

/-- The frame fits the array, and the class accepts it. -/
def accepts (k : Kind) (b : Bytes) : Bool := (failure k b).isNone

/-- The line that is printed for an accepted frame. -/
def judgement (k : Kind) (b : Bytes) : String :=
  if reproduced k b = b then "binary operation is successed\n"
  else "binary operation havs binary error \n"

/-- The calls of the callback for an accepted frame. -/
def complaint (k : Kind) (callback : Bool) (b : Bytes) : List Bytes :=
  if reproduced k b = b then [] else if callback then [b] else []

theorem failure_of_le {b : Bytes} (hle : b.length ≤ 10000) (p : Packet (Members k)) :
    failure k b = verdict ((Packet.analyze b b.length).run p) := by
  rw [failure, if_neg (Nat.not_lt.mpr hle), verdict_analyze k (by omega)]

theorem accepts_iff {b : Bytes} (p : Packet (Members k)) :
    accepts k b = true ↔
      b.length ≤ 10000 ∧ ∃ p', (Packet.analyze b b.length).run p = .ok () p' := by
  rw [accepts, Option.isNone_iff_eq_none]
  rcases Nat.lt_or_ge 10000 b.length with hlong | hle
  · rw [failure, if_pos hlong]
    exact iff_of_false nofun fun h => absurd hlong (Nat.not_lt.mpr h.1)
  · rw [failure_of_le hle p, verdict_eq_none]
    exact ⟨fun ⟨_, p', h⟩ => ⟨hle, p', h⟩, fun ⟨_, p', h⟩ => ⟨(), p', h⟩⟩

/-- The raw bytes are exactly as many as the length says. -/
theorem take_rawData {M : Type} [PacketClass M] [RegularPacket M] {p : Packet M} {raw : Bytes}
    {n : ℕ} (hraw : p.rawData = .ok raw) (hlen : p.length = .ok n) : raw.take n = raw := by
  have hsize : raw.length = n := Except.ok.inj ((length_rawData hraw).symm.trans hlen)
  rw [← hsize, List.take_length]

theorem compile_frame {M : Type} [PacketClass M] [LawfulPacket M] [RegularPacket M]
    {p p' : Packet M} {b : Bytes} (h : (Packet.analyze b b.length).run p = .ok () p') :
    ∃ p'', Packet.compile.run p' = .ok () p'' ∧ p''.length = .ok b.length ∧
      p''.rawData = .ok b := by
  obtain ⟨p'', hcompile, hlen, -, raw, hraw, htake⟩ := frameIdentity p p' b h
  rw [take_rawData hraw hlen] at htake
  exact ⟨p'', hcompile, hlen, htake ▸ hraw⟩

theorem compile_reproduced {p p' : Packet (Members k)} {b : Bytes}
    (h : (Packet.analyze b b.length).run p = .ok () p') :
    ∃ p'', Packet.compile.run p' = .ok () p'' ∧ p''.length = .ok b.length ∧
      p''.rawData = .ok (reproduced k b) := by
  cases k with
  | ethernet => exact compile_frame (M := ProtocolPackets.Ethernet) h
  | arp => exact compile_frame (M := ProtocolPackets.Arp) h
  | ipv4 => exact compile_frame (M := ProtocolPackets.Ipv4) h
  | udp => exact compile_frame (M := ProtocolPackets.Udp) h
  | ipv6 =>
    obtain ⟨p'', hcompile, hlen, raw, hraw, htake⟩ := frameIdentity_zeroFlow h
    have hall := take_rawData (M := Ipv6) hraw hlen
    exact ⟨p'', hcompile, hlen, hraw.trans (congrArg Except.ok (hall.symm.trans htake))⟩

theorem call_run (callback : Bool) (data : Bytes) (n : ℕ) (s : CheckState (Members k)) :
    (call callback data n).run s =
      .ok () { s with handed := s.handed ++ if callback then [data.take n] else [] } := by
  cases callback with
  | true => rfl
  | false =>
    obtain ⟨handle, pack, printed, handed, count⟩ := s
    simp [call, EStateM.run_pure]

/-- The comparison judges an accepted frame at the front of the array. -/
theorem compareFrame_run (callback : Bool) {b rest : Bytes} {s : CheckState (Members k)}
    (hlen : s.pack.length = .ok b.length) (hraw : s.pack.rawData = .ok (reproduced k b)) :
    (compareFrame callback (b ++ rest) b.length).run s =
      .ok () { s with
        printed := s.printed ++ [judgement k b]
        handed := s.handed ++ complaint k callback b } := by
  have hsize : (reproduced k b).length = b.length :=
    Except.ok.inj ((length_rawData hraw).symm.trans hlen)
  have hcompiled : (load (reproduced k b) 0 b.length).run s = .ok (reproduced k b) s := by
    rw [load_ok (by omega), List.drop_zero, ← hsize, List.take_length]
  have hreceived : (load (b ++ rest) 0 b.length).run s = .ok b s := by
    rw [load_ok (by simp), List.drop_zero, List.take_left' rfl]
  unfold compareFrame
  rw [run_bind_ok (run_get s), hlen, hraw]
  change (if b.length ≠ b.length then _ else _ : Exec (CheckState (Members k)) Unit).run s = _
  rw [if_neg (not_not.mpr rfl)]
  change (load (reproduced k b) 0 b.length >>= fun _ => _).run s = _
  rw [run_bind_ok hcompiled, run_bind_ok hreceived]
  by_cases hsame : reproduced k b = b
  · rw [if_pos hsame, judgement, if_pos hsame, complaint, if_pos hsame, List.append_nil]
    rfl
  · rw [if_neg hsame, judgement, if_neg hsame, complaint, if_neg hsame]
    change (call callback (b ++ rest) b.length).run _ = _
    rw [call_run, List.take_left' rfl]

end Judgements

section Passes

variable {k : Kind} (callback : Bool) (data : Vector UInt8 10000) {s : CheckState (Members k)}
  {b : Bytes} {q : List (Option Bytes)}

theorem checkPass_end (h : Holds s.handle []) :
    ∃ f, (checkPass callback data).run s = .ok (some s.count) (CheckState.putHandle f s) := by
  obtain ⟨f, heof, -⟩ := recv_simulates.eof_run h
  exact ⟨f, run_bind_ok (onMember_ok heof)⟩

/-- What a pass does up to the call of `analyze`. -/
theorem checkPass_frame (h : Holds s.handle (some b :: q)) (hle : b.length ≤ 10000) :
    ∃ f, Holds f q ∧ (checkPass callback data).run s =
      (do
        onMember CheckState.pack CheckState.putPack
          (Packet.analyze (b ++ data.toList.drop b.length) b.length)
        onMember CheckState.pack CheckState.putPack Packet.compile
        compareFrame callback (b ++ data.toList.drop b.length) b.length
        modify fun s => { s with count := s.count + 1 }
        pure none : Exec (CheckState (Members k)) (Option Int32)).run
          (CheckState.putHandle f s) := by
  obtain ⟨f₁, heof, hf₁⟩ := recv_simulates.eof_run h
  obtain ⟨f₂, hrecv, hf₂⟩ : ∃ f₂, (recv data.toList).run f₁ = .ok (received data.toList b) f₂ ∧
      Holds f₂ q := recv_simulates.recv_run hf₁ rfl (by rwa [Vector.length_toList])
  refine ⟨f₂, hf₂, ?_⟩
  unfold checkPass
  rw [run_bind_ok (onMember_ok heof)]
  change (onMember _ _ (recv data.toList) >>= fun _ => _).run _ = _
  rw [run_bind_ok (onMember_ok hrecv)]
  rfl

theorem analyze_array (p : Packet (Members k)) (hle : b.length ≤ 10000) :
    (Packet.analyze (b ++ data.toList.drop b.length) b.length).run p =
      (Packet.analyze b b.length).run p := by
  refine analyze_append p b _ ?_
  rw [List.length_append, List.length_drop, Vector.length_toList]
  omega

/-- An accepted frame is judged and counted. -/
theorem checkPass_accepts (h : Holds s.handle (some b :: q)) (hacc : accepts k b = true) :
    ∃ f p, Holds f q ∧ (checkPass callback data).run s =
      .ok none ⟨f, p, s.printed ++ [judgement k b], s.handed ++ complaint k callback b,
        s.count + 1⟩ := by
  obtain ⟨hle, p', hp'⟩ := (accepts_iff s.pack).mp hacc
  obtain ⟨p'', hcompile, hlen, hraw⟩ := compile_reproduced hp'
  obtain ⟨f, hf, hpass⟩ := checkPass_frame callback data h hle
  refine ⟨f, p'', hf, hpass.trans ?_⟩
  have hanalyze := (analyze_array data s.pack hle).trans hp'
  let s₁ := CheckState.putPack p' (CheckState.putHandle f s)
  let s₂ := CheckState.putPack p'' s₁
  have h₁ : (onMember CheckState.pack CheckState.putPack _).run (CheckState.putHandle f s) =
      .ok () s₁ := onMember_ok hanalyze
  have h₂ : (onMember CheckState.pack CheckState.putPack _).run s₁ = .ok () s₂ :=
    onMember_ok hcompile
  rw [run_bind_ok h₁, run_bind_ok h₂, run_bind_ok (compareFrame_run callback hlen hraw)]
  rfl

/-- A frame that is refused, or too long for the array, ends the test. -/
theorem checkPass_refuses (h : Holds s.handle (some b :: q)) (hacc : ¬ accepts k b = true) :
    ∃ e f p, failure k b = some e ∧ (checkPass callback data).run s =
      .error e ⟨f, p, s.printed, s.handed, s.count⟩ := by
  rcases Nat.lt_or_ge 10000 b.length with hlong | hle
  · obtain ⟨f₁, heof, hf₁⟩ := recv_simulates.eof_run h
    obtain ⟨w, tail, ⟨-, ph, hph, rfl⟩, hrest, -⟩ := holdsFrames_cons hf₁
    rw [List.append_assoc] at hrest
    obtain ⟨f₂, hrecv, -⟩ := PcapRecords.recv_run hrest data.toList
    rw [if_pos (by rw [Vector.length_toList]; omega)] at hrecv
    refine ⟨_, f₂, s.pack, if_pos hlong, ?_⟩
    unfold checkPass
    rw [run_bind_ok (onMember_ok heof)]
    exact run_bind_error (onMember_error hrecv)
  · obtain ⟨f, -, hpass⟩ := checkPass_frame callback data h hle
    cases hr : (Packet.analyze b b.length).run s.pack with
    | ok u p' => exact absurd ((accepts_iff s.pack).mpr ⟨hle, p', hr⟩) hacc
    | error e p' =>
      have hanalyze := (analyze_array data s.pack hle).trans hr
      have h₁ : (onMember CheckState.pack CheckState.putPack _).run (CheckState.putHandle f s) =
          .error e (CheckState.putPack p' (CheckState.putHandle f s)) := onMember_error hanalyze
      refine ⟨e, f, p', ?_, hpass.trans (run_bind_error h₁)⟩
      rw [failure_of_le hle s.pack, hr]
      rfl

end Passes

section Captures

variable {k : Kind}

/-- How the test of these frames ends: it judges the ones in front of the first that is refused,
and fails as that one says. -/
structure Judged (callback : Bool) (frames good : List Bytes) (s : CheckState (Members k))
    (r : Outcome (CheckState (Members k)) Int32) : Prop where
  printed : (finalState r).printed = s.printed ++ good.map (judgement k)
  handed : (finalState r).handed = s.handed ++ good.flatMap (complaint k callback)
  returned : good = frames → ∃ s', r = .ok (s.count + .ofNat frames.length) s'
  failed : ∀ b rest, frames = good ++ b :: rest → ∃ e s', failure k b = some e ∧ r = .error e s'

theorem runs_judged (callback : Bool) (datas : ℕ → Vector UInt8 10000) {frames : List Bytes}
    (i : ℕ) {s : CheckState (Members k)} (h : Holds s.handle (frames.map some)) :
    ∃ r, Runs (fun i => checkPass callback (datas i)) i s r ∧
      Judged callback frames (frames.takeWhile (accepts k)) s r := by
  induction frames generalizing i s with
  | nil =>
    obtain ⟨f, hpass⟩ := checkPass_end callback (datas i) h
    exact ⟨_, .returns hpass, by simp [finalState, CheckState.putHandle],
      by simp [finalState, CheckState.putHandle], fun _ => ⟨CheckState.putHandle f s, by simp⟩,
      nofun⟩
  | cons b frames ih =>
    by_cases hacc : accepts k b = true
    · obtain ⟨f, p', hf, hpass⟩ := checkPass_accepts callback (datas i) h hacc
      obtain ⟨r, hr, hj⟩ := ih (i + 1) (s := ⟨f, p', s.printed ++ [judgement k b],
        s.handed ++ complaint k callback b, s.count + 1⟩) hf
      rw [List.takeWhile_cons_of_pos hacc]
      refine ⟨r, .goesOn hpass hr, ?_, ?_, fun heq => ?_, fun b' rest heq => ?_⟩
      · rw [hj.printed, List.map_cons, List.append_assoc, List.singleton_append]
      · rw [hj.handed, List.flatMap_cons, List.append_assoc]
      · obtain ⟨s', rfl⟩ := hj.returned (List.tail_eq_of_cons_eq heq)
        refine ⟨s', ?_⟩
        rw [List.length_cons, Nat.add_comm, Int32.ofNat_add, ← Int32.add_assoc]
        rfl
      · exact hj.failed b' rest (List.tail_eq_of_cons_eq heq)
    · obtain ⟨e, f, p', he, hpass⟩ := checkPass_refuses callback (datas i) h hacc
      rw [List.takeWhile_cons_of_neg hacc]
      refine ⟨_, .throws hpass, by simp [finalState], by simp [finalState],
        fun heq => (List.cons_ne_nil b frames heq.symm).elim, fun b' rest heq => ⟨e, _, ?_, rfl⟩⟩
      rwa [← List.head_eq_of_cons_eq heq]

/-- On a capture of whole records the test prints a line for each frame in front of the first one
that the class refuses or the array has no room for, and fails there as that frame makes it. When
there is no such frame it returns how many there are, as far as an `int` can hold the number. -/
theorem check_frames (callback : Bool) (datas : ℕ → Vector UInt8 10000) (name : String)
    (handle : File) (p : Packet (Members k)) {header : Bytes} (hh : header.length = 24)
    {ws frames : List Bytes} (hws : List.Forall₂ (fun w b => IsRecord w (some b)) ws frames) :
    ∃ r, Checks callback datas name (some (header ++ ws.flatten)) handle p r ∧
      Judged callback frames (frames.takeWhile (accepts k)) ⟨handle, p, [], [], 0⟩ r ∧
      (frames.length < 2^31 → frames.takeWhile (accepts k) = frames →
        ∃ count s', r = .ok count s' ∧ count.toInt = frames.length) := by
  obtain ⟨h, f, hopen, hrest⟩ := openStream_read name ws.flatten hh handle
  have hcheck : (checkOpen name (some (header ++ ws.flatten))).run
      (⟨handle, p, [], [], 0⟩ : CheckState (Members k)) = .ok () ⟨f, p, [], [], 0⟩ :=
    onMember_ok (run_bind_ok hopen)
  have hholds : Holds f (frames.map some) := ⟨ws, List.forall₂_map_right_iff.mpr hws, hrest⟩
  obtain ⟨r, hr, hj⟩ := runs_judged callback datas 0 (s := ⟨f, p, [], [], 0⟩) hholds
  refine ⟨r, .opened hcheck hr, ⟨hj.printed, hj.handed, hj.returned, hj.failed⟩, ?_⟩
  intro hlt hall
  obtain ⟨s', hreturns⟩ := hj.returned hall
  refine ⟨_, s', hreturns, ?_⟩
  rw [Int32.zero_add, Int32.toInt_ofNat_of_lt hlt]

/-- Two frames that the class accepts, of which the second is labelled, and one it refuses. -/
theorem check_frames_ipv6 : ∃ r : Outcome (CheckState (Members .ipv6)) Int32,
    let plain : Bytes := List.replicate 54 0
    let labelled : Bytes := List.replicate 14 0 ++ [0x61] ++ List.replicate 39 0
    let p : Packet (Members .ipv6) := ⟨⟨⟨.new, .new, 0⟩, ⟨0, 0, 0, 0, 0, 0, .new, .new⟩⟩, .new 128⟩
    let ws := [plain, labelled, [1]].map fun b =>
      PcapPacketHeader.layout.enc (sentHeader b.length) ++ b
    Checks true (fun _ => Vector.replicate 10000 0) "in.pcap"
        (some (List.replicate 24 0 ++ ws.flatten)) (File.start []) p r ∧
      (finalState r).printed =
        ["binary operation is successed\n", "binary operation havs binary error \n"] ∧
      (finalState r).handed = [labelled] ∧
      ∃ s, r = .error (.exception "pgen::ethernet_header::read: Buffer length is too small") s := by
  let frames : List Bytes :=
    [List.replicate 54 0, List.replicate 14 0 ++ [0x61] ++ List.replicate 39 0, [1]]
  have hrecords : List.Forall₂ (fun w b => IsRecord w (some b))
      (frames.map fun b => PcapPacketHeader.layout.enc (sentHeader b.length) ++ b) frames := by
    have hlens : ∀ b ∈ frames, 0 < b.length ∧ b.length < 2^32 := by decide
    rw [List.forall₂_map_left_iff, List.forall₂_same]
    intro b hb
    obtain ⟨hpos, hlt⟩ := hlens b hb
    exact ⟨hpos, _, UInt32.toNat_ofNat_of_lt' hlt, rfl⟩
  obtain ⟨r, hchecks, hj, -⟩ := check_frames (k := .ipv6) true (fun _ => Vector.replicate 10000 0)
    "in.pcap" (File.start [])
    ⟨⟨⟨.new, .new, 0⟩, ⟨0, 0, 0, 0, 0, 0, .new, .new⟩⟩, .new 128⟩
    (List.length_replicate (n := 24) (a := 0)) hrecords
  have hgood : frames.takeWhile (accepts .ipv6) = frames.take 2 := by decide
  rw [hgood] at hj
  obtain ⟨e, s, he, hr⟩ := hj.failed [1] [] rfl
  exact ⟨r, hchecks, hj.printed, hj.handed, s, hr.trans (by cases he; rfl)⟩

end Captures

end Pgen.ModuleCheck
