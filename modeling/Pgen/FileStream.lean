import Pgen.StdioFile
import Pgen.StructLayout

/-!
# `file_stream`

The stream operations every capture format shares. The state is the `FILE` behind `_fd`; a read
stores into an object given by its bytes and an offset.
-/
namespace Pgen.FileStream
open ByteMemory StdioFile StructLayout

/-- The modes every stream class is opened with. -/
inductive OpenMode
  | pcapRead
  | pcapWrite
  | pcapngRead
  | pcapngWrite
  | netif
  deriving DecidableEq, Repr

def fopen (name : String) (mode : AccessMode) (disk : Option Bytes) : Exec File Unit :=
  match StdioFile.fopen mode disk with
  | some f => set f
  | none => throw (.exception ("pgen::file_stream::fopen:" ++ name ++ " "))

def write (buf : Bytes) : Exec File Unit := do
  let numberOfWrite ← fwrite buf
  throwIf (numberOfWrite ≠ 1) "pgen::file_stream::fwirte::fwite: "

/-- Reads `buflen` bytes to `off` of the object `mem` and returns the object. -/
def read (mem : Bytes) (off buflen : ℕ) : Exec File Bytes := do
  let (got, numberOfRead) ← fread buflen
  if off + got.length ≤ mem.length then
    throwIf (numberOfRead ≠ 1) "pgen::file_stream::fread::fread: "
    pure (splice mem off got)
  else throw .storeFault

/-- `read` into a record, all of which is overwritten when the call returns. -/
def readStruct {S : Type} (L : Layout S) : Exec File S := do
  let mem ← read (List.replicate L.size 0) 0 L.size
  pure (L.dec mem)

/-- The end-of-file probe: it reads a byte and pushes it back. -/
def feof : Exec File Bool := do
  let (got, res) ← fread 1
  let f ← get
  if res ≠ 1 ∧ f.atEof = true then pure true
  else
    ungetc (got.headD 0)
    pure false

def eof : Exec File Bool := feof

/-- Where the probe leaves the stream. -/
def probed (f : File) : File :=
  match f.rest with
  | [] => f.advance 1
  | c :: _ => { f.advance 1 with unread := some c, atEof := false }

/-- A probe changes nothing that is left to read. -/
@[simp] theorem rest_probed (f : File) : (probed f).rest = f.rest := by
  unfold probed
  cases h : f.rest with
  | nil => simp [h]
  | cons c tail =>
    have ht : (f.advance 1).rest = tail := by simp [h]
    have hu : (f.advance 1).unread = none := by simp [File.advance]
    simp only [File.rest, hu, Option.toList_none, List.nil_append] at ht
    simp only [File.rest, Option.toList_some, List.singleton_append, ht]

/-- Nor does it move the position: the byte it took counts as not read again. -/
@[simp] theorem tell_probed (f : File) : (probed f).tell = f.tell := by
  unfold probed
  cases h : f.rest with
  | nil =>
    have hu : f.unread = none := by
      cases hun : f.unread with
      | none => rfl
      | some c => simp [File.rest, hun] at h
    simp [File.advance, File.tell, h, hu]
  | cons c tail =>
    have ht : (f.advance 1).tell = f.tell + 1 := tell_advance (by simp [h])
    have hu : (f.advance 1).unread = none := by simp [File.advance]
    simp only [File.tell, hu, Option.toList_none, List.length_nil] at ht
    simp only [File.tell, Option.toList_some, List.length_singleton]
    omega

theorem feof_run (f : File) : feof.run f = .ok f.rest.isEmpty (probed f) := by
  have hfr : (fread 1).run f = .ok (f.rest.take 1, if 0 < 1 ∧ 1 ≤ f.rest.length then 1 else 0)
      (f.advance 1) := rfl
  unfold feof probed
  rw [run_bind_ok hfr]
  cases h : f.rest with
  | nil =>
    have he := atEof_advance f 1 (by simp [h])
    simp [EStateM.run_bind, EStateM.run_get, he, EStateM.run_pure]
  | cons c tail => rfl

theorem eof_run (f : File) : eof.run f = .ok f.rest.isEmpty (probed f) := feof_run f

section Reads

theorem read_run (mem : Bytes) (off buflen : ℕ) (f : File) :
    (read mem off buflen).run f =
      if off + min buflen f.rest.length ≤ mem.length then
        if 0 < buflen ∧ buflen ≤ f.rest.length then
          .ok (splice mem off (f.rest.take buflen)) (f.advance buflen)
        else .error (.exception "pgen::file_stream::fread::fread: ") (f.advance buflen)
      else .error .storeFault (f.advance buflen) := by
  have hfr : (fread buflen).run f = .ok (f.rest.take buflen,
      if 0 < buflen ∧ buflen ≤ f.rest.length then 1 else 0) (f.advance buflen) := rfl
  unfold read
  rw [run_bind_ok hfr]
  simp only [List.length_take]
  split_ifs with h1 h2
  · rw [run_bind_ok (throwIf_pass (by simp [h2]) _)]
    rfl
  · rw [run_bind_error (throwIf_fail (by simpa using h2) _)]
  · rfl

/-- A read of bytes that the file does not have is an exception and goes to the end of the file. -/
theorem read_short {mem : Bytes} {off n : ℕ} {f : File} (hn : f.rest.length < n)
    (hfit : off + f.rest.length ≤ mem.length) :
    (read mem off n).run f =
      .error (.exception "pgen::file_stream::fread::fread: ") (f.advance n) := by
  rw [read_run, if_pos (by omega), if_neg (by omega)]

/-- A read returns exactly when it was for some bytes, the file has them and the object too. -/
theorem read_eq_ok {mem mem' : Bytes} {off buflen : ℕ} {f f' : File} :
    (read mem off buflen).run f = .ok mem' f' ↔
      0 < buflen ∧ buflen ≤ f.rest.length ∧ off + buflen ≤ mem.length ∧
        mem' = splice mem off (f.rest.take buflen) ∧ f' = f.advance buflen := by
  rw [read_run]
  split_ifs with h1 h2
  · rw [Nat.min_eq_left h2.2] at h1
    simp [h1, h2, eq_comm]
  · simp only [false_iff]
    rintro ⟨h3, h4, -⟩
    exact h2 ⟨h3, h4⟩
  · simp only [false_iff]
    rintro ⟨-, h4, h5, -⟩
    rw [Nat.min_eq_left h4] at h1
    exact h1 h5

theorem read_ok (mem : Bytes) (off : ℕ) {data post : Bytes} {f : File}
    (hrest : f.rest = data ++ post)
    (hpos : 0 < data.length) (hmem : off + data.length ≤ mem.length) :
    (read mem off data.length).run f = .ok (splice mem off data) (f.advance data.length) := by
  rw [read_eq_ok]
  refine ⟨hpos, by simp [hrest], hmem, by simp [hrest], rfl⟩

theorem read_append_ok {pre data post : Bytes} (tail : Bytes) {off : ℕ} {f : File}
    (hoff : pre.length = off)
    (hrest : f.rest = data ++ post) (hpos : 0 < data.length) (hfit : data.length ≤ tail.length) :
    (read (pre ++ tail) off data.length).run f =
      .ok (pre ++ (data ++ tail.drop data.length)) (f.advance data.length) := by
  rw [read_ok (pre ++ tail) off hrest hpos (by rw [List.length_append]; omega),
    splice_append hoff]

theorem readStruct_eq_ok {S : Type} {L : Layout S} {s : S} {f f' : File} :
    (readStruct L).run f = .ok s f' ↔
      0 < L.size ∧ L.size ≤ f.rest.length ∧ s = L.dec (f.rest.take L.size) ∧
        f' = f.advance L.size := by
  unfold readStruct
  constructor
  · intro h
    obtain ⟨mem, f₁, hr, hp⟩ := bind_eq_ok.mp h
    obtain ⟨hpos, hlen, -, rfl, rfl⟩ := read_eq_ok.mp hr
    cases hp
    refine ⟨hpos, hlen, ?_, rfl⟩
    simp [hlen]
  · rintro ⟨hpos, hlen, rfl, rfl⟩
    have hr : (read (List.replicate L.size 0) 0 L.size).run f =
        .ok (splice (List.replicate L.size 0) 0 (f.rest.take L.size)) (f.advance L.size) :=
      read_eq_ok.mpr ⟨hpos, hlen, by simp, rfl, rfl⟩
    rw [run_bind_ok hr, EStateM.run_pure]
    simp [hlen]

theorem readStruct_enc {S : Type} (L : Layout S) {s : S} {post : Bytes} {f : File}
    (hpos : 0 < L.size) (hrest : f.rest = L.enc s ++ post) :
    (readStruct L).run f = .ok s (f.advance L.size) := by
  rw [readStruct_eq_ok]
  refine ⟨hpos, by simp [hrest], ?_, rfl⟩
  rw [hrest, L.dec_take_enc]

/-- A record the file does not hold in full is an exception. -/
theorem readStruct_short {S : Type} (L : Layout S) {f : File} (h : f.rest.length < L.size) :
    (readStruct L).run f =
      .error (.exception "pgen::file_stream::fread::fread: ") (f.advance L.size) := by
  unfold readStruct
  exact run_bind_error (read_short h (by simp [h.le]))

end Reads

section Writes

/-- The position of a stream opened for writing stays at the end of what it wrote. -/
def AtEnd (f : File) : Prop := f.pos = f.content.length

theorem write_ok {f : File} (hend : AtEnd f) (buf : Bytes) (hpos : 0 < buf.length) :
    ∃ f', (write buf).run f = .ok () f' ∧ f'.content = f.content ++ buf ∧ AtEnd f' := by
  have hfw : (fwrite buf).run f =
      .ok 1 { f with content := splice f.content f.pos buf, pos := f.pos + buf.length } := by
    simp [fwrite, EStateM.run, show buf.length ≠ 0 by omega]
  have hs : splice f.content f.pos buf = f.content ++ buf := by
    unfold AtEnd at hend
    simp [splice, hend]
  refine ⟨{ f with content := splice f.content f.pos buf, pos := f.pos + buf.length }, ?_, hs, ?_⟩
  · unfold write
    rw [run_bind_ok hfw]
    exact throwIf_pass (by simp) _
  · simp only [AtEnd, hs, List.length_append]
    rw [hend]

/-- Calls that each append a frame append the frames in order. -/
theorem forM_append_frames {α : Type} {send : α → Exec File Unit} {IsFrame : Bytes → α → Prop}
    {as : List α} (h : ∀ a ∈ as, ∀ f, AtEnd f → ∃ f' w, (send a).run f = .ok () f' ∧
      f'.content = f.content ++ w ∧ IsFrame w a ∧ AtEnd f')
    {f : File} (hend : AtEnd f) :
    ∃ f' ws, (as.forM send).run f = .ok () f' ∧ f'.content = f.content ++ ws.flatten ∧
      List.Forall₂ IsFrame ws as ∧ AtEnd f' := by
  induction as generalizing f with
  | nil => exact ⟨f, [], rfl, by simp, .nil, hend⟩
  | cons a as ih =>
    obtain ⟨f₁, w, h₁, hc₁, hw, he₁⟩ := h a (by simp) f hend
    obtain ⟨f₂, ws, h₂, hc₂, hws, he₂⟩ := ih (fun b hb => h b (by simp [hb])) he₁
    refine ⟨f₂, w :: ws, ?_, ?_, .cons hw hws, he₂⟩
    · change (send a >>= fun _ => as.forM send).run f = _
      rw [run_bind_ok h₁, h₂]
    · rw [hc₂, hc₁, List.flatten_cons, List.append_assoc]

end Writes

end Pgen.FileStream
