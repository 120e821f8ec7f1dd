import Pgen.CaptureFormats

/-!
# Capture files whose writer was stopped

A writer that is stopped leaves some prefix of the bytes it was about to write. From a prefix that
contains the lead a reader gets the frames whose blocks are whole, and then an exception.
-/
namespace Pgen.CaptureCrash
open ByteMemory StdioFile FileStream FrameQueue CaptureFormats

section Prefixes

variable {α : Type} {a b c : List α}

/-- A prefix is the whole list or lacks something behind it. -/
theorem eq_or_lacks (h : a <+: b) : a = b ∨ ∃ more, more ≠ [] ∧ a ++ more = b := by
  obtain ⟨more, rfl⟩ := h
  by_cases hmore : more = []
  · simp [hmore]
  · exact .inr ⟨more, hmore, rfl⟩

/-- Of two prefixes of a list the first is one of the second, or lacks something of it. -/
theorem prefix_or_lacks (ha : a <+: c) (hb : b <+: c) :
    a <+: b ∨ ∃ more, more ≠ [] ∧ b ++ more = a := by
  rcases List.prefix_or_prefix_of_prefix ha hb with h | h
  · exact .inl h
  · obtain rfl | hlacks := eq_or_lacks h
    · exact .inl (List.prefix_refl _)
    · exact .inr hlacks

end Prefixes

section Writing

variable {fmt : Format} {frames : List Bytes} {f : File}

theorem sends_ok (hfit : ∀ frame ∈ frames, fmt.Fits frame) (hend : AtEnd f) (j : ℕ) :
    ∃ file, ((frames.take j).forM fmt.send).run f = .ok () file ∧ f.content <+: file.content := by
  obtain ⟨file, ws, hr, hc, hws, -⟩ := forM_append_frames
    (fun frame hmem _ he => send_frame fmt (hfit frame (List.mem_of_mem_take hmem)) he) hend
  exact ⟨file, hr, ws.flatten, hc.symm⟩

/-- A prefix of what a writer appended has the blocks of the first `k` frames, and these are the
frames whose sending it has outlived. -/
theorem surviving_blocks (hfit : ∀ frame ∈ frames, fmt.Fits frame) (hend : AtEnd f) :
    ∃ written, (frames.forM fmt.send).run f = .ok () written ∧ f.content <+: written.content ∧
      ∀ cut, f.content <+: cut → cut <+: written.content → ∃ k ≤ frames.length,
        (∀ j ≤ frames.length, ∃ file, ((frames.take j).forM fmt.send).run f = .ok () file ∧
          (file.content <+: cut ↔ j ≤ k)) ∧
        ∃ ws tail, List.Forall₂ fmt.IsFrame ws ((frames.take k).map some) ∧ fmt.Torn tail ∧
          cut = f.content ++ ws.flatten ++ tail := by
  induction frames generalizing f with
  | nil =>
    refine ⟨f, rfl, List.prefix_refl _, fun cut hlo hhi => ⟨0, Nat.le_refl 0, ?_, ?_⟩⟩
    · intro j hj
      exact ⟨f, by rw [List.take_nil]; rfl, by simpa [hlo] using hj⟩
    · have hcut := List.IsPrefix.eq_of_length_le hhi hlo.length_le
      exact ⟨[], [], .nil, .inl rfl, by simp [hcut]⟩
  | cons frame frames ih =>
    have hfit' := List.forall_mem_cons.mp hfit
    obtain ⟨f₁, w, h₁, hc₁, hw, he₁⟩ := send_frame fmt hfit'.1 hend
    obtain ⟨written, h₂, hpre, hcuts⟩ := ih hfit'.2 he₁
    have hstep : ∀ (rest : List Bytes), ((frame :: rest).forM fmt.send).run f =
        (rest.forM fmt.send).run f₁ := fun rest => run_bind_ok h₁
    have hf₁ : f.content <+: f₁.content := ⟨w, hc₁.symm⟩
    refine ⟨written, (hstep _).trans h₂, hf₁.trans hpre, fun cut hlo hhi => ?_⟩
    obtain hwhole | ⟨more, hmore, heq⟩ := prefix_or_lacks hpre hhi
    · obtain ⟨k, hk, hfiles, ws, tail, hws, htorn, rfl⟩ := hcuts cut hwhole hhi
      refine ⟨k + 1, Nat.succ_le_succ hk, fun j hj => ?_, w :: ws, tail, .cons hw hws, htorn, ?_⟩
      · cases j with
        | zero => exact ⟨f, rfl, by simpa using hlo⟩
        | succ j =>
          obtain ⟨file, hr, hiff⟩ := hfiles j (Nat.le_of_succ_le_succ hj)
          exact ⟨file, (hstep _).trans hr, by simpa using hiff⟩
      · simp [hc₁]
    · -- the block of this frame was not finished
      obtain ⟨part, rfl⟩ := hlo
      refine ⟨0, Nat.zero_le _, fun j hj => ?_, [], part, .nil, .inr ⟨frame, more, hmore, ?_⟩, ?_⟩
      · cases j with
        | zero => exact ⟨f, rfl, by simp⟩
        | succ j =>
          obtain ⟨file, hr, hle⟩ := sends_ok hfit'.2 he₁ j
          refine ⟨file, (hstep _).trans hr, ?_⟩
          have hlt : (f.content ++ part).length < f₁.content.length := by
            have hlen := congrArg List.length heq
            have hpos := List.length_pos_iff.mpr hmore
            rw [List.length_append] at hlen
            omega
          have hno : ¬ file.content <+: f.content ++ part := fun h =>
            absurd (hle.trans h).length_le (Nat.not_le_of_lt hlt)
          simp [hno]
      · rw [hc₁, List.append_assoc] at heq
        exact (List.append_cancel_left heq) ▸ hw
      · simp

end Writing

section Reading

/-- Calls with room for the frames receive exactly these, and another call throws an exception. -/
def GivesExactly (fmt : Format) (opened : File) (frames : List Bytes) : Prop :=
  ∀ calls more, List.Forall₂ (fun c frame => frame.length ≤ c.2.2.length) calls frames →
    ∃ finished, (session eof fmt.recv calls).run opened = .ok (List.zipWith
        (fun c frame => (List.replicate c.1 false, Format.answer c.2 frame)) calls frames)
      finished ∧
    ∃ what last, (fmt.recv more).run finished = .error (.exception what) last

/-- Whatever prefix of a capture file is left of it, as long as the lead is: with `k` the number of
frames that are whole in it, reading it gives exactly these. -/
theorem crash_reads_back (fmt : Format) (name : String) (old : Bytes)
    (tmpBuffer tmpBuffer' : PcapngStream.Scratch) (f₀ : File) {frames : List Bytes}
    (hfit : ∀ frame ∈ frames, fmt.Fits frame) :
    ∃ lead, (fmt.openWrite name (some old) tmpBuffer).run f₀ = .ok () lead ∧
    ∃ written, (fmt.writeFrames name (some old) tmpBuffer frames).run f₀ = .ok () written ∧
      lead.content <+: written.content ∧
      ∀ cut, lead.content <+: cut → cut <+: written.content → ∃ k ≤ frames.length,
        (∀ j ≤ frames.length, ∃ file,
          (fmt.writeFrames name (some old) tmpBuffer (frames.take j)).run f₀ = .ok () file ∧
          (file.content <+: cut ↔ j ≤ k)) ∧
        ∃ opened, (fmt.openRead name (some cut) tmpBuffer').run f₀ = .ok () opened ∧
          GivesExactly fmt opened (frames.take k) := by
  obtain ⟨lead, hlead, hend, hopen⟩ := open_holds fmt name old tmpBuffer tmpBuffer' f₀
  obtain ⟨written, hw, hpre, hcuts⟩ := surviving_blocks hfit hend
  refine ⟨lead, hlead, written, (run_bind_ok hlead).trans hw, hpre, fun cut hlo hhi => ?_⟩
  obtain ⟨k, hk, hfiles, ws, tail, hws, htorn, rfl⟩ := hcuts cut hlo hhi
  obtain ⟨opened, ho, hholds⟩ := hopen hws tail
  refine ⟨k, hk, fun j hj => ?_, opened, ho, fun calls more hroom => ?_⟩
  · obtain ⟨file, hr, hiff⟩ := hfiles j hj
    exact ⟨file, (run_bind_ok hlead).trans hr, hiff⟩
  · obtain ⟨finished, hr, skips, hskips, hleft⟩ :=
      session_front (simulatesFront fmt tail) hroom fmt.lead (lead_none fmt) hholds
    exact ⟨finished, hr, recv_front_end htorn hskips hleft more⟩

theorem crash_reads_back_pcapng : ∃ lead, (Format.pcapng.openWrite "out.pcapng" (some [])
      (Vector.replicate 1000 0)).run (File.start []) = .ok () lead ∧
    ∃ written, (Format.pcapng.writeFrames "out.pcapng" (some []) (Vector.replicate 1000 0)
        [[1, 2, 3], [4, 5]]).run (File.start []) = .ok () written ∧
      lead.content <+: written.content ∧
      ∀ cut, lead.content <+: cut → cut <+: written.content → ∃ k ≤ 2,
        (∀ j ≤ 2, ∃ file, (Format.pcapng.writeFrames "out.pcapng" (some [])
            (Vector.replicate 1000 0) ([[1, 2, 3], [4, 5]].take j)).run (File.start []) =
            .ok () file ∧ (file.content <+: cut ↔ j ≤ k)) ∧
        ∃ opened, (Format.pcapng.openRead "out.pcapng" (some cut) (Vector.replicate 1000 7)).run
            (File.start []) = .ok () opened ∧
          GivesExactly .pcapng opened ([[1, 2, 3], [4, 5]].take k) :=
  crash_reads_back .pcapng _ _ _ _ _ (by simp [Format.Fits, Format.maxFrame])

end Reading

end Pgen.CaptureCrash
