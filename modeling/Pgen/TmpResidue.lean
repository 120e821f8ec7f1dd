import Pgen.TmpReader

/-!
# What the reader of `pgen_extend` shows of its own memory

The header check of `tmp_header::read` asks for four of the eight bytes that it reads then. For a
frame with four to seven bytes behind the UDP header the length of the message comes from the
array behind the frame, and with it what is printed and whether the program goes on.
-/
namespace Pgen.TmpResidue
open ByteMemory StdioFile CorePacket ProtocolHeaders ProtocolIp HeaderReads FrameReading ExtendTmp
  TmpFrames TmpReader

section Frames

variable {b t : Bytes} {i n o : ℕ}

/-- Where the data starts is a matter of the frame alone. -/
theorem payload_append (b t : Bytes) : payload (b ++ t) b.length = payload b b.length := by
  unfold payload
  by_cases h14 : b.length < 14
  · rw [if_pos h14, if_pos h14]
  rw [if_neg h14, if_neg h14, wordAt_append (by omega)]
  by_cases h34 : b.length < 34
  · rw [if_pos (show b.length < 34 ∨ b.length < 14 + ipLength (b ++ t) from .inl h34),
      if_pos (show b.length < 34 ∨ b.length < 14 + ipLength b from .inl h34)]
  have hlen : ipLength (b ++ t) = ipLength b := by
    rw [ipLength, ipLength, byteAt_append (by omega)]
  rw [hlen, byteAt_append (by omega)]
  by_cases h22 : b.length < 22 + ipLength b
  · rw [if_pos h22, if_pos h22]
  rw [wordAt_append (by omega), wordAt_append (by omega)]

/-- The low byte of the message length decides whether the message ends inside the array. -/
def Straddles (b : Bytes) (o : ℕ) : Prop :=
  o + 8 + 256 * byteAt b (o + 6) ≤ 10000 ∧ 10000 < o + 8 + (256 * byteAt b (o + 6) + 255)

/-- The length field of the message is not in the frame, or its high byte is and leaves open how
the frame ends. -/
def Leaks (b : Bytes) : Prop :=
  ∃ o, payload b b.length = .ok (some o) ∧ o + 4 ≤ b.length ∧ b.length < o + 8 ∧
    (b.length = o + 7 → byteAt b (o + 6) = 0 ∨ Straddles b o)

/-- What the reader finds in a frame at the front of the array. -/
def shown (array : Vector UInt8 10000) (b : Bytes) : Except Failure (Option Line) :=
  finding (b ++ array.toList.drop b.length) b.length

/-- A message whose header the frame holds, or does not even begin, is one of the frame alone. -/
theorem message_append (h : b.length < o + 4 ∨ o + 8 ≤ b.length) :
    message (b ++ t) b.length o = message b b.length o := by
  unfold message
  by_cases h4 : b.length < o + 4
  · rw [if_pos h4, if_pos h4]
  have h8 : ¬ b.length < o + 8 := by omega
  rw [if_neg h4, if_neg h4, wordAt_append (by omega), dwordAt_append (by omega)]
  generalize wordAt b (o + 6) = len
  by_cases hsmall : o + 8 ≤ b.length ∧ b.length < o + 8 + len
  · rw [if_pos hsmall, if_pos hsmall]
  have hhead (m : ℕ) : ¬ (b.length < o + 8 ∧ m < o + 8 + len) := fun hlt => h8 hlt.1
  rw [if_neg hsmall, if_neg hsmall, if_neg (hhead _), if_neg (hhead _),
    List.drop_append_of_le_length (by omega), List.take_append_of_le_length]
  rw [List.length_drop]
  omega

theorem shown_some (h : payload b b.length = .ok (some o)) (array : Vector UInt8 10000) :
    shown array b = (message (b ++ array.toList.drop b.length) b.length o).map some := by
  unfold shown finding
  rw [payload_append, h]

theorem length_array (h : b.length ≤ 10000) (array : Vector UInt8 10000) :
    (b ++ array.toList.drop b.length).length = 10000 := by
  rw [List.length_append, List.length_drop, Vector.length_toList]
  omega

/-- The message header of an accepted frame is far from the end of the array. -/
theorem payload_le (h : payload b n = .ok (some o)) : o ≤ 82 := by
  obtain ⟨-, -, -, -, rfl⟩ := payload_some h
  unfold ipLength
  omega

/-- A message that goes beyond a frame with a part of its header: either the read of the message
leaves the array, or the length of the contents has wrapped around. -/
theorem message_of_long {memory : Bytes} (hmem : memory.length = 10000)
    (h4 : o + 4 ≤ n) (h8 : n < o + 8) (hlen : 255 ≤ wordAt memory (o + 6)) :
    message memory n o = if 10000 < o + 8 + wordAt memory (o + 6) then .error .loadFault
      else .error .lengthError := by
  unfold message
  rw [if_neg (by omega), if_neg (by omega), if_pos (show n < o + 4 + _ by omega), hmem]
  simp only [h8, true_and]

/-- Seven bytes of which the last says that the message is too long, and whether it ends inside
the array. -/
theorem message_seven (h : b.length = o + 7) (hhigh : byteAt b (o + 6) ≠ 0)
    (hstraddle : ¬ Straddles b o) (ho : o ≤ 82) (array : Vector UInt8 10000) :
    message (b ++ array.toList.drop b.length) b.length o =
      if 10000 < o + 8 + 256 * byteAt b (o + 6) then .error .loadFault
      else .error .lengthError := by
  have hlow := (List.getD (b ++ array.toList.drop b.length) (o + 7) 0).toNat_lt
  have hword : wordAt (b ++ array.toList.drop b.length) (o + 6) =
      256 * byteAt b (o + 6) + byteAt (b ++ array.toList.drop b.length) (o + 7) := by
    rw [wordAt, byteAt_append (by omega)]
  rw [message_of_long (length_array (by omega) array) (by omega) (by omega) (by omega), hword]
  unfold Straddles at hstraddle
  unfold byteAt at hstraddle ⊢
  split_ifs <;> first | rfl | omega

/-- A frame that does not leak is the same in every array. -/
theorem shown_eq (h : ¬ Leaks b) (array array' : Vector UInt8 10000) :
    shown array b = shown array' b := by
  cases hp : payload b b.length with
  | error e => simp only [shown, finding, payload_append, hp]
  | ok found =>
    cases found with
    | none => simp only [shown, finding, payload_append, hp]
    | some o =>
      rw [shown_some hp, shown_some hp]
      by_cases hwhole : b.length < o + 4 ∨ o + 8 ≤ b.length
      · rw [message_append hwhole, message_append hwhole]
      · have hseven : b.length = o + 7 ∧ byteAt b (o + 6) ≠ 0 ∧ ¬ Straddles b o := by
          by_contra hne
          refine h ⟨o, hp, by omega, by omega, fun h7 => ?_⟩
          by_contra hleak
          exact hne ⟨h7, fun h6 => hleak (.inl h6), fun hs => hleak (.inr hs)⟩
        obtain ⟨h7, h6, hs⟩ := hseven
        rw [message_seven h7 h6 hs (payload_le hp), message_seven h7 h6 hs (payload_le hp)]

def filled (v : UInt8) : Vector UInt8 10000 := Vector.replicate 10000 v

theorem byteAt_filled {v : UInt8} (h : b.length ≤ i) (hi : i < 10000) :
    byteAt (b ++ (filled v).toList.drop b.length) i = v.toNat := by
  have hsplit : b.length + (i - b.length) = i := by omega
  have hin : i - b.length < 10000 - b.length := by omega
  rw [byteAt, List.getD_append_right _ _ _ _ h, filled, Vector.toList_replicate,
    List.drop_replicate, List.getD_replicate _ hin]

/-- The message length that the array of zeros gives, or the array of ones. -/
theorem wordAt_filled {v : UInt8} (h : b.length < o + 8) (ho : o ≤ 82) :
    wordAt (b ++ (filled v).toList.drop b.length) (o + 6) =
      256 * (if o + 6 < b.length then byteAt b (o + 6) else v.toNat) + v.toNat := by
  rw [wordAt, byteAt_filled (i := o + 6 + 1) (by omega) (by omega)]
  split_ifs with hin
  · rw [byteAt_append hin]
  · rw [byteAt_filled (Nat.not_lt.mp hin) (by omega)]

/-- A frame that leaves its length field to the memory is accepted in an array of zeros. -/
theorem message_of_zero {memory : Bytes} (hmem : memory.length = 10000) (ho : o ≤ 82)
    (h4 : o + 4 ≤ n) (h8 : n < o + 8) (hlen : wordAt memory (o + 6) = 0) :
    ∃ line, message memory n o = .ok line := by
  unfold message
  simp only [hlen]
  rw [if_neg (by omega), if_neg (by omega), if_neg (by omega), if_neg (by omega)]
  exact ⟨_, rfl⟩

/-- A frame that leaks ends in one way in an array of zeros and in another in an array of ones. -/
theorem shown_of_leaks (h : Leaks b) :
    (∃ line, shown (filled 0) b = .ok (some line)) ∧ (∃ e, shown (filled 255) b = .error e) ∨
      shown (filled 0) b = .error .lengthError ∧ shown (filled 255) b = .error .loadFault := by
  obtain ⟨o, hp, h4, h8, hhigh⟩ := h
  have ho := payload_le hp
  have hzeros := wordAt_filled (v := 0) h8 ho
  have hones := wordAt_filled (v := 255) h8 ho
  have hmem₀ := length_array (b := b) (by omega) (filled 0)
  have hmem := length_array (b := b) (by omega) (filled 255)
  rw [shown_some hp, shown_some hp]
  generalize b ++ (filled 0).toList.drop b.length = zeros at *
  generalize b ++ (filled 255).toList.drop b.length = ones at *
  change _ = _ + 0 at hzeros
  change _ = _ + 255 at hones
  rw [message_of_long hmem h4 h8 (by omega), hones]
  by_cases hin : o + 6 < b.length ∧ byteAt b (o + 6) ≠ 0
  · obtain ⟨hle, hlt⟩ := (hhigh (by omega)).resolve_left hin.2
    rw [if_pos hin.1] at hzeros ⊢
    change _ = 256 * byteAt b (o + 6) at hzeros
    rw [message_of_long hmem₀ h4 h8 (by omega), hzeros, if_neg (Nat.not_lt.mpr hle), if_pos hlt]
    exact .inr ⟨rfl, rfl⟩
  · have hnone : (if o + 6 < b.length then byteAt b (o + 6) else (0 : UInt8).toNat) = 0 := by
      split_ifs with h6
      · exact not_not.mp fun hne => hin ⟨h6, hne⟩
      · rfl
    rw [hnone] at hzeros
    obtain ⟨line, hline⟩ := message_of_zero hmem₀ ho h4 h8 hzeros
    rw [hline]
    refine .inl ⟨⟨line, rfl⟩, ?_⟩
    split_ifs <;> exact ⟨_, rfl⟩

end Frames

section Runs

variable {bs : List Bytes}

/-- The frames up to the first at which the program ends. -/
def reached : List Bytes → List Bytes
  | [] => []
  | b :: bs => b :: if (shown (filled 0) b).isOk then reached bs else []

def localsWith (v : UInt8) : Locals where
  buf := filled v
  eth := ⟨.new, .new, 0⟩
  ip := Ipv4Header.cleared
  udp := ⟨0, 0, 0, 0⟩
  pack := ⟨⟨0, 0, 0, []⟩, ⟨0, 0, 0, 0⟩, Ipv4Header.cleared, ⟨.new, .new, 0⟩⟩

/-- The findings give the same lines and the same end for all memories. -/
def Determined (k : ℕ) (bs : List Bytes) : Prop :=
  ∀ locals locals', lines (findings locals k bs) = lines (findings locals' k bs) ∧
    ending (findings locals k bs) = ending (findings locals' k bs)

theorem findings_cons (locals : ℕ → Locals) (k : ℕ) (b : Bytes) (bs : List Bytes) :
    findings locals k (b :: bs) = shown (locals k).buf b :: findings locals (k + 1) bs := rfl

theorem not_determined_of_leaks {b : Bytes} (h : Leaks b) (k : ℕ) :
    ¬ Determined k (b :: bs) := by
  intro hdet
  obtain ⟨hlines, hending⟩ := hdet (fun _ => localsWith 0) fun _ => localsWith 255
  rw [findings_cons, findings_cons] at hlines hending
  change lines (shown (filled 0) b :: _) = lines (shown (filled 255) b :: _) at hlines
  change ending (shown (filled 0) b :: _) = ending (shown (filled 255) b :: _) at hending
  rcases shown_of_leaks h with ⟨⟨line, hzeros⟩, e, hones⟩ | ⟨hzeros, hones⟩
  · rw [hzeros, hones] at hlines
    exact List.cons_ne_nil _ _ hlines
  · rw [hzeros, hones] at hending
    cases hending

theorem determined_cons {b : Bytes} (h : ¬ Leaks b) (k : ℕ) :
    Determined k (b :: bs) ↔ (shown (filled 0) b).isOk = true → Determined (k + 1) bs := by
  have hsame (locals : ℕ → Locals) : shown (locals k).buf b = shown (filled 0) b :=
    shown_eq h _ _
  unfold Determined
  simp only [findings_cons, hsame]
  cases shown (filled 0) b with
  | error e => simp [lines, ending, Except.isOk, Except.toBool]
  | ok line => simp [lines, ending, Except.isOk, Except.toBool]

theorem determined_iff (k : ℕ) : Determined k bs ↔ ∀ b ∈ reached bs, ¬ Leaks b := by
  induction bs generalizing k with
  | nil => simp [Determined, reached, findings]
  | cons b bs ih =>
    by_cases hleaks : Leaks b
    · refine iff_of_false (not_determined_of_leaks hleaks k) fun h => ?_
      exact h b (by simp [reached]) hleaks
    · rw [determined_cons hleaks, ih, reached, List.forall_mem_cons]
      split_ifs with hok
      · simp [hleaks, hok]
      · simp [hleaks, hok]

/-- Two runs on one file print the same lines and end in the same way, whatever the memory of the
program holds, exactly if no frame that they come to leaves its length field to the memory. -/
theorem reader_determined_iff (name : String) (content : Bytes) (stream : File) :
    (∀ locals locals' r r', Reads locals name (some content) stream r →
      Reads locals' name (some content) stream r' →
      (finalState r).printed = (finalState r').printed ∧ verdict r = verdict r') ↔
      ∀ b ∈ reached (frames (content.drop 24)), ¬ Leaks b := by
  rw [← determined_iff 0]
  rcases Nat.lt_or_ge content.length 24 with hshort | hlong
  · -- no frame is received
    refine iff_of_true (fun locals locals' r r' h h' => ?_) ?_
    · have hr := prints_of_reads locals name content stream h
      have hr' := prints_of_reads locals' name content stream h'
      rw [Prints, if_pos hshort] at hr hr'
      exact ⟨hr.1.trans hr'.1.symm, hr.2.trans hr'.2.symm⟩
    · have hnone : content.drop 24 = [] := List.drop_eq_nil_of_le hshort.le
      rw [hnone, frames]
      simp [Determined, findings]
  have hlong : ¬ content.length < 24 := Nat.not_lt.mpr hlong
  constructor
  · intro h locals locals'
    obtain ⟨r, hreads, hr⟩ := reads_prints locals name content stream
    obtain ⟨r', hreads', hr'⟩ := reads_prints locals' name content stream
    rw [Prints, if_neg hlong] at hr hr'
    rw [← hr.1, ← hr.2, ← hr'.1, ← hr'.2]
    exact h locals locals' r r' hreads hreads'
  · intro h locals locals' r r' hreads hreads'
    have hr := prints_of_reads locals name content stream hreads
    have hr' := prints_of_reads locals' name content stream hreads'
    rw [Prints, if_neg hlong] at hr hr'
    rw [hr.1, hr.2, hr'.1, hr'.2]
    exact h locals locals'

end Runs

end Pgen.TmpResidue
