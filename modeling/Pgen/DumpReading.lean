import Pgen.AddressNotation
import Pgen.PacketStreams
import Pgen.UtilHex

/-!
# Dumps read back

Two dumps are printed for a reader: `hex`, by columns, and `bin`, which prints the bits of a byte
from the lowest on. Either text has all of the bytes, also where the labels and columns of `hex`
are not what they should be.
-/
namespace Pgen.DumpReading
open ByteMemory CText StructLayout AddressNotation CorePacket PacketCodec PacketCopies PacketReuse
  PacketStreams UtilHex

section Hex

/-- The bytes that pairs of hexadecimal digits stand for. -/
def readPairs : Text → Bytes
  | c :: d :: t =>
    match hexValue c, hexValue d with
    | some hi, some lo => UInt8.ofNat (16 * hi + lo) :: readPairs t
    | _, _ => []
  | _ => []

/-- The bytes of a line, from the columns behind its label where no text can stand. -/
def readHexLine (line : Text) : Bytes := readPairs (((line.drop 5).take 54).filter (· ≠ ' '))

def readHexDump (out : Text) : Bytes := (out.splitOn '\n').flatMap readHexLine

theorem readPairs_flatMap (chunk : Bytes) : readPairs (chunk.flatMap hexByte) = chunk := by
  induction chunk with
  | nil => rfl
  | cons b chunk ih =>
    have hb := b.toNat_lt
    have hhi := hexValue_hexDigitChar (show b.toNat / 16 < 16 by omega)
    have hlo := hexValue_hexDigitChar (show b.toNat % 16 < 16 by omega)
    have hnumber : 16 * (b.toNat / 16) + b.toNat % 16 = b.toNat := by omega
    simp [hexByte, readPairs, hhi, hlo, hnumber, ih]

theorem filter_hexByte (b : UInt8) : (hexByte b).filter (· ≠ ' ') = hexByte b := by
  have hdigit : ∀ n < 16, hexDigitChar n ≠ ' ' := by decide
  have hb := b.toNat_lt
  simp [hexByte, hdigit (b.toNat / 16) (by omega), hdigit (b.toNat % 16) (by omega)]

/-- Without its blanks a list of bytes is their digits. -/
theorem filter_of_lists {chunk : Bytes} {t : Text} (h : Lists chunk t) :
    t.filter (· ≠ ' ') = chunk.flatMap hexByte := by
  induction h with
  | nil => rfl
  | blank _ ih => simpa using ih
  | @byte b chunk t _ ih =>
    rw [List.filter_append, filter_hexByte, ih, List.flatMap_cons]

/-- The column that a short line lacks is a blank. -/
theorem groupColumn_blank (chunk : Bytes) : ∃ front, groupColumn chunk = front ++ [' '] :=
  ⟨[' ', ' ', ' '] ++ (cells hexText 0 chunk ++
    (List.replicate (3 * (16 - chunk.length)) ' ' ++ [' ', ' '])), by simp [groupColumn]⟩

theorem filter_columns {chunk : Bytes} (h : chunk.length ≤ 16) (text : Text) :
    ((groupColumn chunk ++ text).take 54).filter (· ≠ ' ') = chunk.flatMap hexByte := by
  have hlen := length_groupColumn h
  have hall := filter_of_lists (groupColumn_lists chunk)
  have hstart : textColumnStart = 55 := rfl
  obtain ⟨front, hfront⟩ := groupColumn_blank chunk
  by_cases hlong : 8 < chunk.length
  · rw [if_pos hlong, hfront, List.length_append, List.length_singleton] at hlen
    rw [hfront] at hall ⊢
    rw [List.append_assoc, List.take_left' (by omega)]
    simpa using hall
  · rw [if_neg hlong] at hlen
    rw [List.take_left' hlen, hall]

theorem readHexLine_lineText {chunk : Bytes} (h : chunk.length ≤ 16) :
    readHexLine (lineText 0 chunk) = chunk := by
  have hdrop : (lineText 0 chunk).drop 5 = groupColumn chunk ++ textColumn chunk := by
    rw [lineText_eq]
    rfl
  rw [readHexLine, hdrop, filter_columns h, readPairs_flatMap]

theorem splitOn_lines {lines : List Text} (h : ∀ line ∈ lines, '\n' ∉ line) :
    (lines.flatMap (· ++ ['\n'])).splitOn '\n' = lines ++ [[]] := by
  have hjoin : lines.flatMap (· ++ ['\n']) = ['\n'].intercalate (lines ++ [[]]) := by
    clear h
    induction lines with
    | nil => rfl
    | cons line lines ih =>
      rw [List.flatMap_cons, ih]
      cases lines <;> simp [List.intercalate, List.intersperse]
  rw [hjoin]
  refine List.splitOn_intercalate '\n' ?_ (by simp)
  intro line hline
  rcases List.mem_append.mp hline with hline | hline
  · exact h line hline
  · simp [List.mem_singleton.mp hline]

/-- What `hex` prints of a buffer gives the buffer back. -/
theorem readHexDump_dumpLines (buffer : Bytes) :
    readHexDump ((dumpLines 0 buffer).flatMap (· ++ ['\n'])) = buffer := by
  rw [readHexDump, splitOn_lines (newline_notMem_dumpLines buffer), List.flatMap_append]
  have hend : [([] : Text)].flatMap readHexLine = [] := rfl
  rw [hend, List.append_nil]
  induction hn : buffer.length using Nat.strong_induction_on generalizing buffer with
  | _ n ih =>
    rcases Nat.eq_zero_or_pos buffer.length with hzero | hpos
    · rw [List.eq_nil_of_length_eq_zero hzero]
      rfl
    · have hless : (buffer.drop 16).length < n := by
        rw [List.length_drop]
        omega
      have hrest := ih _ hless (buffer.drop 16) rfl
      rw [dumpLines_of_pos 0 hpos, List.flatMap_cons, hrest,
        readHexLine_lineText (List.length_take_le 16 buffer), List.take_append_drop]

/-- The dump of a compiled packet, read back, is decoded to the same packet. -/
theorem packetHex_reads_back {k : Kind} {p : Packet (Members k)}
    (hv : CodedPacket.Valid p.members) (hsize : size ⟨k, p⟩ < 2^64) (fresh : Members k) :
    ∃ compiled out, Packet.compile.run p = .ok () compiled ∧
      (packetHex compiled).run [] = .ok () out ∧
      ∃ q, Packet.construct fresh (readHexDump out) (readHexDump out).length = .ok () q ∧
        SamePacket ⟨k, p⟩ ⟨k, q⟩ := by
  obtain ⟨⟨compiled, hcompile, hraw, -⟩, hlen, -⟩ := frameOf_spec hv
  obtain ⟨raw, hraw', hout⟩ := packetHex_run compiled (RegularPacket.headerLength_le compiled) []
  cases hraw.symm.trans hraw'
  obtain ⟨q, hq, hsame⟩ := construct_frame hv fresh [] (by rw [List.append_nil, hlen]; exact hsize)
  rw [List.append_nil] at hq
  refine ⟨compiled, _, hcompile, hout, q, ?_, hsame⟩
  rw [List.nil_append, readHexDump_dumpLines]
  exact hq

theorem packetHex_reads_back_udp :
    ∃ compiled out, Packet.compile.run PacketLayout.clearedUdp = .ok () compiled ∧
      (packetHex compiled).run [] = .ok () out ∧
      ∃ q, Packet.construct PacketLayout.clearedUdp.members (readHexDump out)
          (readHexDump out).length = .ok () q ∧
        SamePacket ⟨.udp, PacketLayout.clearedUdp⟩ ⟨.udp, q⟩ :=
  packetHex_reads_back (k := .udp) (p := PacketLayout.clearedUdp)
    ⟨⟨rfl, rfl⟩, ⟨by decide, rfl, rfl⟩, trivial⟩ (by decide) _

end Hex

section Bin

/-- `'0' + (c & 1)` -/
def bitChar (c : UInt8) : Char := Char.ofNat ('0'.toNat + (c &&& 1).toNat)

/-- One pass of the loop over the bits of a byte. -/
def bitPass (s : Text × UInt8) (j : ℕ) : Text × UInt8 := (s.1.set j (bitChar s.2), s.2 >>> 1)

/-- One pass of the loop over the bytes, which hands `buf` on. -/
def binPass (p0 : Bytes) (buf : Text) (i : ℕ) : Exec Text Text := do
  let c ← Layout.u8.load p0 i
  let buf := ((List.range 8).foldl bitPass (buf, c)).1
  printf buf
  if (i + 1) % 8 = 0 then printf ['\n']
  pure buf

def bin (buffer : Bytes) (bufferlen : ℕ) : Exec Text Unit := do
  let _ ← (List.range' 0 bufferlen).foldlM (binPass buffer)
    ['0', '0', '0', '0', '0', '0', '0', '0', ' ']

/-- The bits of a byte from the lowest on. -/
def bitText (c : UInt8) : Text :=
  [bitChar c, bitChar (c >>> 1), bitChar (c >>> 1 >>> 1), bitChar (c >>> 1 >>> 1 >>> 1),
    bitChar (c >>> 1 >>> 1 >>> 1 >>> 1), bitChar (c >>> 1 >>> 1 >>> 1 >>> 1 >>> 1),
    bitChar (c >>> 1 >>> 1 >>> 1 >>> 1 >>> 1 >>> 1),
    bitChar (c >>> 1 >>> 1 >>> 1 >>> 1 >>> 1 >>> 1 >>> 1)]

/-- Whatever digits `buf` has, the loop leaves those of the byte. -/
theorem foldl_bitPass {digits : Text} (h : digits.length = 8) (c : UInt8) :
    ((List.range 8).foldl bitPass (digits ++ [' '], c)).1 = bitText c ++ [' '] := by
  match digits, h with
  | [_, _, _, _, _, _, _, _], _ => rfl

@[simp] theorem length_bitText (c : UInt8) : (bitText c).length = 8 := rfl

/-- The text that byte number `i` gives. -/
def binText (i : ℕ) (c : UInt8) : Text :=
  bitText c ++ ' ' :: if (i + 1) % 8 = 0 then ['\n'] else []

theorem binPass_run {data : Bytes} {i : ℕ} {c : UInt8} (hc : data[i]? = some c) {digits : Text}
    (h : digits.length = 8) (out : Text) :
    (binPass data (digits ++ [' ']) i).run out = .ok (bitText c ++ [' ']) (out ++ binText i c) := by
  unfold binPass binText
  rw [run_bind_ok (load_byte hc out)]
  simp only [foldl_bitPass h]
  rw [run_bind_ok (printf_run _ out)]
  split_ifs
  · rw [run_bind_ok (printf_run _ _), EStateM.run_pure]
    simp
  · simp [EStateM.run_pure]

theorem binLoop_run {data chunk rest : Bytes} {i : ℕ} (hdata : data.drop i = chunk ++ rest)
    {digits : Text} (h : digits.length = 8) (out : Text) :
    ∃ buf, ((List.range' i chunk.length).foldlM (binPass data) (digits ++ [' '])).run out =
      .ok buf (out ++ cells binText i chunk) := by
  induction chunk generalizing i digits out with
  | nil => exact ⟨digits ++ [' '], by simp [EStateM.run_pure]⟩
  | cons c chunk ih =>
    have hc : data[i]? = some c := by
      rw [← List.head?_drop, hdata]
      rfl
    have hnext : data.drop (i + 1) = chunk ++ rest := by
      rw [← List.drop_drop, hdata]
      rfl
    obtain ⟨buf, hbuf⟩ := ih hnext (length_bitText c) (out ++ binText i c)
    refine ⟨buf, ?_⟩
    rw [List.length_cons, List.range'_succ, List.foldlM_cons, run_bind_ok (binPass_run hc h out),
      hbuf, List.append_assoc, cells_cons]

def bitValue (c : Char) : ℕ := if c = '1' then 1 else 0

/-- The bytes that groups of eight bits stand for, the lowest bit first. -/
def readOctets : Text → Bytes
  | c0 :: c1 :: c2 :: c3 :: c4 :: c5 :: c6 :: c7 :: t =>
    UInt8.ofNat (Nat.ofDigits 2 ([c0, c1, c2, c3, c4, c5, c6, c7].map bitValue)) :: readOctets t
  | _ => []

/-- The bytes of a dump by bits, in lines of any length. -/
def readBinDump (out : Text) : Bytes := readOctets (out.filter fun c => c = '0' ∨ c = '1')

theorem bitChar_eq (c : UInt8) : bitChar c = if c.toNat % 2 = 0 then '0' else '1' := by
  have hand : (c &&& 1).toNat = c.toNat % 2 := Nat.and_one_is_mod c.toNat
  rw [bitChar, hand]
  rcases Nat.mod_two_eq_zero_or_one c.toNat with h | h <;> rw [h] <;> rfl

theorem bitChar_cases (c : UInt8) : bitChar c = '0' ∨ bitChar c = '1' := by
  rw [bitChar_eq]
  split_ifs <;> simp

theorem bitValue_bitChar (c : UInt8) : bitValue (bitChar c) = c.toNat % 2 := by
  rw [bitChar_eq, bitValue]
  split_ifs <;> simp_all

theorem toNat_shiftRight_one (c : UInt8) : (c >>> 1).toNat = c.toNat / 2 := by
  simp [Nat.shiftRight_eq_div_pow]

theorem readOctets_bitText (c : UInt8) (t : Text) :
    readOctets (bitText c ++ t) = c :: readOctets t := by
  have hc := c.toNat_lt
  apply congrArg₂ List.cons _ rfl
  apply UInt8.toNat_inj.mp
  simp only [List.map_cons, List.map_nil, bitValue_bitChar, toNat_shiftRight_one,
    Nat.ofDigits_cons, Nat.ofDigits_nil, UInt8.toNat_ofNat']
  omega

theorem filter_bitText (c : UInt8) :
    (bitText c).filter (fun d => d = '0' ∨ d = '1') = bitText c := by
  simp [bitText, bitChar_cases]

theorem readBinDump_cells (chunk : Bytes) (i : ℕ) :
    readBinDump (cells binText i chunk) = chunk := by
  unfold readBinDump
  induction chunk generalizing i with
  | nil => rfl
  | cons c chunk ih =>
    have hgap : (' ' :: if (i + 1) % 8 = 0 then ['\n'] else []).filter
        (fun d => d = '0' ∨ d = '1') = [] := by
      split_ifs <;> rfl
    rw [cells_cons, binText, List.filter_append, List.filter_append, filter_bitText, hgap,
      List.append_nil, readOctets_bitText, ih]

theorem count_cells (chunk : Bytes) (i : ℕ) :
    (cells binText i chunk).count '\n' = (i + chunk.length) / 8 - i / 8 := by
  have hchar (d : UInt8) : bitChar d ≠ '\n' := by
    rcases bitChar_cases d with h | h <;> simp [h]
  induction chunk generalizing i with
  | nil => simp
  | cons c chunk ih =>
    have hbits : (bitText c).count '\n' = 0 := by
      simp [bitText, hchar]
    rw [cells_cons, List.count_append, ih, binText, List.count_append, hbits, List.length_cons]
    split_ifs <;> simp <;> omega

/-- What `bin` prints of a buffer gives the buffer back, and it has a line for every eight bytes
and what is left of them. -/
theorem bin_reads_back (buffer : Bytes) (out : Text) :
    ∃ printed, (bin buffer buffer.length).run out = .ok () (out ++ printed) ∧
      readBinDump printed = buffer ∧ printed.count '\n' = buffer.length / 8 := by
  have hdata : buffer.drop 0 = buffer ++ [] := by simp
  have hdigits : (List.replicate 8 '0').length = 8 := rfl
  obtain ⟨buf, hbuf⟩ := binLoop_run hdata hdigits out
  refine ⟨cells binText 0 buffer, run_bind_ok hbuf, readBinDump_cells buffer 0, ?_⟩
  rw [count_cells]
  simp

end Bin

end Pgen.DumpReading
