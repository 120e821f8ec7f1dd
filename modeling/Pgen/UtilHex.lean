import Pgen.CText
import Pgen.CorePacket
import Pgen.StructLayout

/-!
# `pgen::hex`

The dump of a buffer in lines of sixteen bytes: the offset of the line, the bytes in hexadecimal,
and the bytes as text. The offset is printed from a variable that is never advanced, and a last
line of at most eight bytes lacks the blank that parts the two halves of a longer one.
-/
namespace Pgen.UtilHex
open ByteMemory CText StructLayout CorePacket

section Model

/-- `printf` with its conversions done; the state is what was printed so far. -/
def printf (s : Text) : Exec Text Unit := modify (· ++ s)

/-- `%04zx` -/
def hexSize (n : ℕ) : Text :=
  List.replicate (4 - (Nat.toDigits 16 n).length) '0' ++ Nat.toDigits 16 n

/-- One pass of the loop that prints bytes in hexadecimal. -/
def hexCell (data : Bytes) (i : ℕ) : Exec Text Unit := do
  if i = 8 then printf [' ']
  let b ← Layout.u8.load data i
  printf (' ' :: hexByte b)

/-- The character that stands for a byte. -/
def shownChar (c : UInt8) : Char :=
  if ¬ (0x20 ≤ c.toNat ∧ c.toNat ≤ 0x7e) then '.' else Char.ofNat c.toNat

/-- One pass of the loop that prints bytes as text. -/
def textCell (data : Bytes) (i : ℕ) : Exec Text Unit := do
  if i = 8 then printf [' ', ' ']
  let c ← Layout.u8.load data i
  printf [shownChar c]

/-- One pass of the loop over the lines, of which `n` bytes are left. -/
def hexLine (row : ℕ) (data : Bytes) (n : ℕ) : Exec Text Unit := do
  printf (hexSize row ++ [':', ' ', ' ', ' '])
  (List.range' 0 n).forM (hexCell data)
  (List.range' n (16 - n)).forM fun _ => printf [' ', ' ', ' ']
  printf [' ', ' ', ' ']
  (List.range' 0 n).forM (textCell data)
  printf ['\n']

/-- The loop over the lines, which hands `row` on as it is. -/
def hexLoop (row : ℕ) (data : Bytes) (bufferlen : ℕ) : Exec Text Unit :=
  if 0 < bufferlen then do
    let n := min bufferlen 16
    hexLine row data n
    hexLoop row (data.drop n) (bufferlen - n)
  else pure ()
termination_by bufferlen

def hex (buffer : Bytes) (bufferlen : ℕ) : Exec Text Unit := hexLoop 0 buffer bufferlen

end Model

section Lines

theorem printf_run (s out : Text) : (printf s).run out = .ok () (out ++ s) := rfl

variable {cell : ℕ → UInt8 → Text}

/-- What a loop over the bytes from number `i` on prints, where each byte gives `cell`. -/
def cells (cell : ℕ → UInt8 → Text) (i : ℕ) (chunk : Bytes) : Text :=
  (chunk.zipIdx i).flatMap fun p => cell p.2 p.1

@[simp] theorem cells_nil (i : ℕ) : cells cell i [] = [] := rfl

@[simp] theorem cells_cons (i : ℕ) (b : UInt8) (chunk : Bytes) :
    cells cell i (b :: chunk) = cell i b ++ cells cell (i + 1) chunk := rfl

theorem forM_cells {body : ℕ → Exec Text Unit} {data chunk rest : Bytes}
    (hbody : ∀ i b out, data[i]? = some b → (body i).run out = .ok () (out ++ cell i b))
    {i : ℕ} (hdata : data.drop i = chunk ++ rest) (out : Text) :
    ((List.range' i chunk.length).forM body).run out = .ok () (out ++ cells cell i chunk) := by
  induction chunk generalizing i out with
  | nil => simp [EStateM.run_pure]
  | cons b chunk ih =>
    have hb : data[i]? = some b := by
      rw [← List.head?_drop, hdata]
      rfl
    have hnext : data.drop (i + 1) = chunk ++ rest := by
      rw [← List.drop_drop, hdata]
      rfl
    change (body i >>= fun _ => (List.range' (i + 1) chunk.length).forM body).run out = _
    rw [run_bind_ok (hbody i b out hb), ih hnext, List.append_assoc, cells_cons]

/-- The blanks that stand for missing bytes. -/
theorem forM_blanks (i k : ℕ) (out : Text) :
    ((List.range' i k).forM fun _ => printf [' ', ' ', ' ']).run out =
      .ok () (out ++ List.replicate (3 * k) ' ') := by
  induction k generalizing i out with
  | zero => simp [EStateM.run_pure]
  | succ k ih =>
    change (printf [' ', ' ', ' '] >>= fun _ => (List.range' (i + 1) k).forM _).run out = _
    rw [run_bind_ok (printf_run _ out), ih, List.append_assoc]
    congr 1

def hexText (i : ℕ) (b : UInt8) : Text := (if i = 8 then [' '] else []) ++ ' ' :: hexByte b

def shownText (i : ℕ) (b : UInt8) : Text := (if i = 8 then [' ', ' '] else []) ++ [shownChar b]

theorem load_byte {data : Bytes} {i : ℕ} {b : UInt8} (h : data[i]? = some b) (out : Text) :
    (Layout.u8.load data i).run out = .ok b out := by
  obtain ⟨hi, rfl⟩ := List.getElem?_eq_some_iff.mp h
  rw [Layout.load_ok _ (by simpa [Layout.u8] using hi), List.drop_eq_getElem_cons hi]
  rfl

theorem hexCell_run {data : Bytes} (i : ℕ) (b : UInt8) (out : Text) (h : data[i]? = some b) :
    (hexCell data i).run out = .ok () (out ++ hexText i b) := by
  unfold hexCell hexText
  split_ifs
  · refine (run_bind_ok (printf_run _ out)).trans ((run_bind_ok (load_byte h _)).trans ?_)
    rw [printf_run, List.append_assoc]
  · exact run_bind_ok (load_byte h out)

theorem textCell_run {data : Bytes} (i : ℕ) (b : UInt8) (out : Text) (h : data[i]? = some b) :
    (textCell data i).run out = .ok () (out ++ shownText i b) := by
  unfold textCell shownText
  split_ifs
  · refine (run_bind_ok (printf_run _ out)).trans ((run_bind_ok (load_byte h _)).trans ?_)
    rw [printf_run, List.append_assoc]
  · exact run_bind_ok (load_byte h out)

/-- What stands between the colon and the text column of a line. -/
def groupColumn (chunk : Bytes) : Text :=
  [' ', ' ', ' '] ++ (cells hexText 0 chunk ++
    (List.replicate (3 * (16 - chunk.length)) ' ' ++ [' ', ' ', ' ']))

/-- A line without the newline. -/
def lineText (row : ℕ) (chunk : Bytes) : Text :=
  hexSize row ++ ':' :: (groupColumn chunk ++ cells shownText 0 chunk)

theorem hexLine_run (row : ℕ) {data : Bytes} {n : ℕ} (hn : n ≤ data.length) (out : Text) :
    (hexLine row data n).run out = .ok () (out ++ (lineText row (data.take n) ++ ['\n'])) := by
  have hlen : (data.take n).length = n := by simpa using hn
  have hdata : data.drop 0 = data.take n ++ data.drop n := (List.take_append_drop n data).symm
  have hhex := forM_cells hexCell_run hdata
  have htext := forM_cells textCell_run hdata
  rw [hlen] at hhex htext
  unfold hexLine
  rw [run_bind_ok (printf_run _ out), run_bind_ok (hhex _), run_bind_ok (forM_blanks _ _ _),
    run_bind_ok (printf_run _ _), run_bind_ok (htext _), printf_run]
  simp [lineText, groupColumn, hlen]

/-- The lines of a dump whose lines all carry the same label. -/
def dumpLines (row : ℕ) (buffer : Bytes) : List Text :=
  (List.range ((buffer.length + 15) / 16)).map fun k =>
    lineText row ((buffer.drop (16 * k)).take 16)

theorem dumpLines_nil (row : ℕ) : dumpLines row [] = [] := rfl

theorem dumpLines_of_pos (row : ℕ) {buffer : Bytes} (h : 0 < buffer.length) :
    dumpLines row buffer =
      lineText row (buffer.take 16) :: dumpLines row (buffer.drop 16) := by
  have hcount : (buffer.length + 15) / 16 = ((buffer.drop 16).length + 15) / 16 + 1 := by
    rw [List.length_drop]
    omega
  rw [dumpLines, hcount, List.range_succ_eq_map, List.map_cons, List.map_map]
  refine congrArg₂ List.cons rfl (List.map_congr_left fun k _ => ?_)
  simp [Nat.mul_add, Nat.add_comm]

theorem hexLoop_run (row : ℕ) (data : Bytes) (out : Text) :
    (hexLoop row data data.length).run out =
      .ok () (out ++ (dumpLines row data).flatMap (· ++ ['\n'])) := by
  induction hn : data.length using Nat.strong_induction_on generalizing data out with
  | _ n ih =>
    subst hn
    rw [hexLoop]
    split_ifs with h
    · have htake : data.take (min data.length 16) = data.take 16 := by
        rw [Nat.min_comm, ← List.take_eq_take_min]
      have hdrop : data.drop (min data.length 16) = data.drop 16 := by
        rw [Nat.min_comm, ← List.drop_eq_drop_min]
      have hrest := ih (data.length - min data.length 16) (by omega) (data.drop 16)
        (out ++ (lineText row (data.take 16) ++ ['\n'])) (by rw [List.length_drop]; omega)
      rw [run_bind_ok (hexLine_run row (Nat.min_le_left _ _) out), htake, hdrop, hrest,
        dumpLines_of_pos row h, List.flatMap_cons, List.append_assoc]
    · rw [List.eq_nil_of_length_eq_zero (Nat.eq_zero_of_not_pos h), dumpLines_nil]
      simp [EStateM.run_pure]

end Lines

section Faithful

/-- Two hexadecimal digits for each byte in order, with blanks in front of them and behind. -/
inductive Lists : Bytes → Text → Prop
  | nil : Lists [] []
  | blank {chunk : Bytes} {t : Text} : Lists chunk t → Lists chunk (' ' :: t)
  | byte {b : UInt8} {chunk : Bytes} {t : Text} : Lists chunk (' ' :: t) →
      Lists (b :: chunk) (hexByte b ++ ' ' :: t)

/-- Where the text column of a line of sixteen bytes starts, counted from the colon. -/
def textColumnStart : ℕ := 55

/-- The text column, in two halves with a gap. -/
def textColumn (chunk : Bytes) : Text :=
  (chunk.take 8).map shownChar ++
    ((if 8 < chunk.length then [' ', ' '] else []) ++ (chunk.drop 8).map shownChar)

/-- A line that shows these bytes, of which the first is at this offset. -/
def Shows (offset : ℕ) (chunk : Bytes) (line : Text) : Prop :=
  ∃ groups, line = hexSize offset ++ ':' :: (groups ++ textColumn chunk) ∧ Lists chunk groups ∧
    groups.length = textColumnStart

/-- A dump of the buffer: a line for every sixteen bytes, each labelled with its offset. -/
def Faithful (buffer : Bytes) (out : Text) : Prop :=
  ∃ lines : List Text, out = lines.flatMap (· ++ ['\n']) ∧ (∀ line ∈ lines, '\n' ∉ line) ∧
    lines.length = (buffer.length + 15) / 16 ∧
    ∀ k line, lines[k]? = some line → Shows (16 * k) ((buffer.drop (16 * k)).take 16) line

theorem lines_unique {lines lines' : List Text} (h : ∀ line ∈ lines, '\n' ∉ line)
    (h' : ∀ line ∈ lines', '\n' ∉ line)
    (heq : lines.flatMap (· ++ ['\n']) = lines'.flatMap (· ++ ['\n'])) : lines = lines' := by
  induction lines generalizing lines' with
  | nil =>
    cases lines' with
    | nil => rfl
    | cons line' lines' => simp at heq
  | cons line lines ih =>
    cases lines' with
    | nil => simp at heq
    | cons line' lines' =>
      rw [List.forall_mem_cons] at h h'
      simp only [List.flatMap_cons, List.append_assoc, List.singleton_append] at heq
      have hline : line = line' := by
        have htake := congrArg (List.takeWhile (· ≠ '\n')) heq
        rwa [List.takeWhile_append_of_pos (by simpa using fun c hc => ne_of_mem_of_not_mem hc h.1),
          List.takeWhile_append_of_pos (by simpa using fun c hc => ne_of_mem_of_not_mem hc h'.1),
          List.takeWhile_cons_of_neg (by simp), List.takeWhile_cons_of_neg (by simp),
          List.append_nil, List.append_nil] at htake
      subst hline
      have hrest := List.tail_eq_of_cons_eq (List.append_cancel_left heq)
      rw [ih h.2 h'.2 hrest]

theorem lists_replicate (k : ℕ) : Lists [] (List.replicate k ' ') := by
  induction k with
  | zero => exact .nil
  | succ k ih => exact .blank ih

theorem lists_cells (chunk : Bytes) (i : ℕ) {k : ℕ} (hk : 0 < k) :
    Lists chunk (cells hexText i chunk ++ List.replicate k ' ') ∧
      (cells hexText i chunk ++ List.replicate k ' ').head? = some ' ' := by
  induction chunk generalizing i with
  | nil =>
    obtain ⟨k, rfl⟩ := Nat.exists_eq_succ_of_ne_zero hk.ne'
    exact ⟨lists_replicate _, rfl⟩
  | cons b chunk ih =>
    obtain ⟨hlists, hhead⟩ := ih (i + 1)
    obtain ⟨t, ht⟩ := List.head?_eq_some_iff.mp hhead
    rw [ht] at hlists
    rw [cells_cons, List.append_assoc, ht, hexText]
    split_ifs
    · exact ⟨.blank (.blank (.byte hlists)), rfl⟩
    · exact ⟨.blank (.byte hlists), rfl⟩

theorem groupColumn_lists (chunk : Bytes) : Lists chunk (groupColumn chunk) := by
  have h := (lists_cells chunk 0 (k := 3 * (16 - chunk.length) + 3) (by omega)).1
  rw [List.replicate_add] at h
  exact .blank (.blank (.blank h))

theorem length_cells_hexText (chunk : Bytes) (i : ℕ) : (cells hexText i chunk).length =
    3 * chunk.length + if i ≤ 8 ∧ 8 < i + chunk.length then 1 else 0 := by
  induction chunk generalizing i with
  | nil => simp
  | cons b chunk ih =>
    rw [cells_cons, List.length_append, ih, hexText]
    simp only [hexByte, List.length_append, List.length_cons, List.length_nil]
    split_ifs <;> simp <;> omega

/-- Only with more than eight bytes does the text column start where it does on a full line. -/
theorem length_groupColumn {chunk : Bytes} (h : chunk.length ≤ 16) :
    (groupColumn chunk).length = if 8 < chunk.length then textColumnStart else 54 := by
  have hs : textColumnStart = 55 := rfl
  simp only [groupColumn, List.length_append, length_cells_hexText, List.length_replicate,
    List.length_cons, List.length_nil]
  split_ifs <;> omega

theorem cells_shownText (chunk : Bytes) (i : ℕ) (h : 8 < i) :
    cells shownText i chunk = chunk.map shownChar := by
  induction chunk generalizing i with
  | nil => rfl
  | cons b chunk ih =>
    rw [cells_cons, ih (i + 1) (by omega), shownText, if_neg (by omega)]
    rfl

theorem cells_shownText_halves (chunk : Bytes) {i k : ℕ} (h : i + k = 8) :
    cells shownText i chunk = (chunk.take k).map shownChar ++
      ((if k < chunk.length then [' ', ' '] else []) ++ (chunk.drop k).map shownChar) := by
  induction chunk generalizing i k with
  | nil => simp
  | cons b chunk ih =>
    cases k with
    | zero =>
      rw [cells_cons, cells_shownText chunk (i + 1) (by omega), shownText, if_pos (by omega)]
      simp
    | succ k =>
      rw [cells_cons, ih (i := i + 1) (k := k) (by omega), shownText, if_neg (by omega)]
      simp

theorem lineText_eq (row : ℕ) (chunk : Bytes) :
    lineText row chunk = hexSize row ++ ':' :: (groupColumn chunk ++ textColumn chunk) := by
  rw [lineText, cells_shownText_halves chunk (Nat.zero_add 8), textColumn]

theorem newline_notMem_hexByte (b : UInt8) : '\n' ∉ hexByte b := by
  have hdigit : ∀ n < 16, '\n' ≠ hexDigitChar n := by decide
  have hb := b.toNat_lt
  simp only [hexByte, List.mem_cons, List.not_mem_nil, or_false, not_or]
  exact ⟨hdigit _ (by omega), hdigit _ (by omega)⟩

theorem newline_ne_shownChar (c : UInt8) : '\n' ≠ shownChar c := by
  have hshown : ∀ n < 0x7f, 0x20 ≤ n → '\n' ≠ Char.ofNat n := by decide
  by_cases h : 0x20 ≤ c.toNat ∧ c.toNat ≤ 0x7e
  · rw [shownChar, if_neg (not_not.mpr h)]
    exact hshown _ (by omega) h.1
  · rw [shownChar, if_pos h]
    decide

theorem newline_notMem_of_lists {chunk : Bytes} {t : Text} (h : Lists chunk t) : '\n' ∉ t := by
  induction h with
  | nil => simp
  | blank _ ih => simpa using ih
  | byte _ ih => simpa [newline_notMem_hexByte] using ih

theorem newline_notMem_textColumn (chunk : Bytes) : '\n' ∉ textColumn chunk := by
  have hmap (t : Bytes) : '\n' ∉ t.map shownChar := by
    simpa using fun c _ => (newline_ne_shownChar c).symm
  unfold textColumn
  split_ifs <;> simp only [List.mem_append, not_or] <;> simp [-List.map_take, -List.map_drop, hmap]

theorem newline_notMem_lineText (chunk : Bytes) : '\n' ∉ lineText 0 chunk := by
  have hlabel : '\n' ∉ hexSize 0 := by decide
  rw [lineText_eq, List.mem_append, List.mem_cons, List.mem_append]
  simp [hlabel, newline_notMem_of_lists (groupColumn_lists chunk), newline_notMem_textColumn]

theorem newline_notMem_dumpLines (buffer : Bytes) : ∀ line ∈ dumpLines 0 buffer, '\n' ∉ line := by
  intro line hline
  obtain ⟨k, -, rfl⟩ := List.mem_map.mp hline
  exact newline_notMem_lineText _

theorem dumpLines_getElem? {buffer : Bytes} {k : ℕ} {line : Text} :
    (dumpLines 0 buffer)[k]? = some line ↔
      k < (buffer.length + 15) / 16 ∧ lineText 0 ((buffer.drop (16 * k)).take 16) = line := by
  rw [dumpLines, List.getElem?_map, Option.map_eq_some_iff]
  constructor
  · rintro ⟨k', hk, rfl⟩
    obtain ⟨hlt, rfl⟩ := List.getElem?_eq_some_iff.mp hk
    simpa using hlt
  · rintro ⟨hk, rfl⟩
    exact ⟨k, by simp [hk], rfl⟩

/-- `hex` prints a faithful dump of the buffer. -/
def Dumps (buffer : Bytes) : Prop :=
  ∃ out, (hex buffer buffer.length).run [] = .ok () out ∧ Faithful buffer out

/-- A dump is faithful when each of its lines is. -/
theorem dumps_iff (buffer : Bytes) :
    Dumps buffer ↔ ∀ k < (buffer.length + 15) / 16,
      Shows (16 * k) ((buffer.drop (16 * k)).take 16)
        (lineText 0 ((buffer.drop (16 * k)).take 16)) := by
  have hrun : (hex buffer buffer.length).run [] = _ := hexLoop_run 0 buffer []
  constructor
  · rintro ⟨out, hout, lines, heq, hline, -, hshows⟩ k hk
    cases hrun.symm.trans hout
    rw [← lines_unique (newline_notMem_dumpLines buffer) hline heq] at hshows
    exact hshows k _ (dumpLines_getElem?.mpr ⟨hk, rfl⟩)
  · intro h
    refine ⟨_, hrun, dumpLines 0 buffer, rfl, newline_notMem_dumpLines buffer,
      by simp [dumpLines], ?_⟩
    intro k line hline
    obtain ⟨hk, rfl⟩ := dumpLines_getElem?.mp hline
    exact h k hk

/-- A line shows its bytes at offset 0 when there are more than eight of them, and never at the
offset of the second line. -/
theorem shows_lineText_zero_iff {chunk : Bytes} (h : chunk.length ≤ 16) :
    Shows 0 chunk (lineText 0 chunk) ↔ 8 < chunk.length := by
  have hlen := length_groupColumn h
  have hs : textColumnStart = 55 := rfl
  rw [lineText_eq]
  constructor
  · rintro ⟨groups, heq, -, hgroups⟩
    have hcol := congrArg List.length heq
    simp only [List.length_append, List.length_cons, hgroups] at hcol
    by_contra hle
    rw [if_neg hle] at hlen
    omega
  · intro hlt
    rw [if_pos hlt] at hlen
    exact ⟨_, rfl, groupColumn_lists chunk, hlen⟩

theorem not_shows_lineText_sixteen (chunk : Bytes) : ¬ Shows 16 chunk (lineText 0 chunk) := by
  rintro ⟨groups, heq, -, -⟩
  have hlabel := (List.append_inj heq (by decide)).1
  exact absurd hlabel (by decide)

theorem not_dumps_of_length {buffer : Bytes} (h : 16 < buffer.length) : ¬ Dumps buffer :=
  fun hd => not_shows_lineText_sixteen _ ((dumps_iff buffer).mp hd 1 (by omega))

/-- A dump is faithful exactly when it has no line but the first and that one has more than eight
bytes. -/
theorem dumps_iff_length (buffer : Bytes) :
    Dumps buffer ↔ buffer = [] ∨ 8 < buffer.length ∧ buffer.length ≤ 16 := by
  have hfirst : buffer.length ≤ 16 → (buffer.drop (16 * 0)).take 16 = buffer := by
    intro hle
    rw [Nat.mul_zero, List.drop_zero, List.take_of_length_le hle]
  constructor
  · intro h
    rcases Nat.eq_zero_or_pos buffer.length with hzero | hpos
    · exact .inl (List.eq_nil_of_length_eq_zero hzero)
    · have hle : buffer.length ≤ 16 := Nat.le_of_not_lt fun hgt => not_dumps_of_length hgt h
      have hshows := (dumps_iff buffer).mp h 0 (by omega)
      rw [hfirst hle] at hshows
      exact .inr ⟨(shows_lineText_zero_iff hle).mp hshows, hle⟩
  · intro h
    rw [dumps_iff]
    intro k hk
    rcases h with rfl | ⟨hlt, hle⟩
    · simp at hk
    · obtain rfl : k = 0 := by omega
      rw [hfirst hle]
      exact (shows_lineText_zero_iff hle).mpr hlt

/-- The second line of a dump of seventeen bytes carries the label of the first, and its text
column starts a column early. -/
theorem dump_seventeen :
    (∃ line, (hex (List.replicate 17 0x41) 17).run [] = .ok ()
      (line ++ '\n' :: "0000:    41".toList ++ List.replicate 48 ' ' ++ ['A', '\n'])) ∧
    ¬ Dumps (List.replicate 17 0x41) := by
  have hrun : (hex (List.replicate 17 0x41) 17).run [] = _ :=
    hexLoop_run 0 (List.replicate 17 0x41) []
  refine ⟨⟨lineText 0 (List.replicate 16 0x41), hrun.trans (congrArg _ (by decide))⟩, ?_⟩
  exact not_dumps_of_length (by decide)

end Faithful

section Packets

variable {M : Type} [PacketClass M]

/-- `packet::hex` -/
def packetHex (p : Packet M) : Exec Text Unit :=
  match p.rawData, p.length with
  | .ok raw, .ok length => hex raw length
  | .error e, _ => throw e
  | .ok _, .error e => throw e

/-- A packet whose headers fit into the headroom is dumped from its first header to the end. -/
theorem packetHex_run (p : Packet M) (hfit : p.headerLength ≤ 128) (out : Text) :
    ∃ raw, p.rawData = .ok raw ∧
      (packetHex p).run out = .ok () (out ++ (dumpLines 0 raw).flatMap (· ++ ['\n'])) := by
  have hpre := p.raw.length_take_pivot
  have hraw := rawData_eq (vec_eq p) hpre hfit
  have hlength := length_eq (vec_eq p) hpre
  have hsize : ((p.raw.vec.take 128).drop (128 - p.headerLength) ++ p.raw.vec.drop 128).length =
      (p.raw.vec.drop 128).length + p.headerLength := by
    rw [List.length_append, List.length_drop, hpre]
    omega
  refine ⟨_, hraw, ?_⟩
  rw [packetHex, hraw, hlength, ← hsize]
  exact hexLoop_run 0 _ out

end Packets

end Pgen.UtilHex
