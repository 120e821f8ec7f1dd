import Pgen.ByteMemory

/-!
# A standard I/O stream over a file

A stream is the content of its file, a position, the byte that `ungetc` pushed back and the
end-of-file indicator. `fread` and `fwrite` move one item; a zero size moves nothing and
reports zero items.
-/
namespace Pgen.StdioFile
open ByteMemory

structure File where
  content : Bytes
  pos : ℕ
  unread : Option UInt8
  atEof : Bool
  deriving DecidableEq, Repr

/-- A stream on a file of this content, positioned at its start. -/
def File.start (content : Bytes) : File := ⟨content, 0, none, false⟩

/-- The bytes still to be read, the pushed-back one first. -/
def File.rest (f : File) : Bytes := f.unread.toList ++ f.content.drop f.pos

/-- The file position as `::ftell` reports it: the pushed-back byte counts as not read. -/
def File.tell (f : File) : ℤ := f.pos - f.unread.toList.length

/-- The stream after a request for `size` bytes. -/
def File.advance (f : File) (size : ℕ) : File :=
  if size = 0 then f
  else ⟨f.content, f.pos + ((f.rest.take size).length - f.unread.toList.length), none,
    f.atEof || decide (f.rest.length < size)⟩

/-- `::fread(buf, size, 1, fd)`: the bytes stored and the number of whole items. -/
def fread (size : ℕ) : Exec File (Bytes × ℕ) := fun f =>
  .ok (f.rest.take size, if 0 < size ∧ size ≤ f.rest.length then 1 else 0) (f.advance size)

def ungetc (c : UInt8) : Exec File Unit := fun f =>
  .ok () { f with unread := some c, atEof := false }

/-- `::fwrite(buf, size, 1, fd)`, which completes: the number of whole items. -/
def fwrite (data : Bytes) : Exec File ℕ := fun f =>
  if data.length = 0 then .ok 0 f
  else .ok 1 { f with content := splice f.content f.pos data, pos := f.pos + data.length }

inductive AccessMode
  | rb
  | wb
  deriving DecidableEq, Repr

/-- `disk` is what `::fopen` finds under the name, `none` when the call fails. -/
def fopen (mode : AccessMode) (disk : Option Bytes) : Option File :=
  match mode with
  | .rb => disk.map File.start
  | .wb => disk.map fun _ => File.start []

@[simp] theorem rest_start (content : Bytes) : (File.start content).rest = content := by
  simp [File.start, File.rest]

/-- A request consumes what it stores: the pushed-back byte first, then the file. -/
@[simp] theorem rest_advance (f : File) (size : ℕ) : (f.advance size).rest = f.rest.drop size := by
  unfold File.advance
  split_ifs with h
  · simp [h]
  · obtain ⟨content, pos, unread, atEof⟩ := f
    obtain ⟨n, rfl⟩ : ∃ n, size = n + 1 := ⟨size - 1, by omega⟩
    cases unread with
    | none =>
      simp only [File.rest, Option.toList_none, List.nil_append, List.length_nil, Nat.sub_zero,
        List.length_take, List.length_drop, List.drop_drop]
      rcases Nat.le_total (n + 1) (content.length - pos) with hle | hle
      · rw [Nat.min_eq_left hle]
      · rw [Nat.min_eq_right hle, List.drop_of_length_le (by omega),
          List.drop_of_length_le (by omega)]
    | some c =>
      simp only [File.rest, Option.toList_some, Option.toList_none, List.nil_append,
        List.cons_append, List.take_succ_cons, List.length_cons, List.length_nil, Nat.zero_add,
        Nat.add_sub_cancel, List.drop_succ_cons, List.length_take, List.length_drop,
        List.drop_drop]
      rcases Nat.le_total n (content.length - pos) with hle | hle
      · rw [Nat.min_eq_left hle]
      · rw [Nat.min_eq_right hle, List.drop_of_length_le (by omega),
          List.drop_of_length_le (by omega)]

/-- A request that the file can meet moves the position by its size. -/
theorem tell_advance {f : File} {size : ℕ} (h : size ≤ f.rest.length) :
    (f.advance size).tell = f.tell + size := by
  have hunread : f.unread.toList.length ≤ 1 := by cases f.unread <;> simp
  unfold File.advance
  split_ifs with h₀
  · simp [h₀]
  · simp only [File.tell, List.length_take, Nat.min_eq_left h, Option.toList_none,
      List.length_nil]
    omega

theorem atEof_advance (f : File) (size : ℕ) (h : f.rest.length < size) :
    (f.advance size).atEof = true := by
  simp [File.advance, h, show size ≠ 0 by omega]

end Pgen.StdioFile
