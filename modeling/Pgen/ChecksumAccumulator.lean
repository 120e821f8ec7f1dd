import Pgen.UdpChecksum

/-!
# What the accumulator of `checksum` holds on entry

The arrays on the stack are overwritten before they are read, so what they held does not reach a
checksum. The accumulator is added to, never assigned: two runs agree on all headers only when
they find the same value in it.
-/
namespace Pgen.ChecksumAccumulator
open ByteMemory StructLayout OnesComplement UtilChecksum ProtocolIp ProtocolHeaders UdpChecksum

section Fold

/-- Two accumulators leave the same word when words of this total are added and the carry is folded
back. -/
def SameFold (s₁ s₂ : UInt32) (total : ℕ) : Prop :=
  fold 65536 ((s₁.toNat + total) % 2^32) % 65536 = fold 65536 ((s₂.toNat + total) % 2^32) % 65536

theorem checksum_eq_iff (s₁ s₂ : UInt32) (data : Bytes) :
    checksum s₁ data = checksum s₂ data ↔ SameFold s₁ s₂ (wordTotal data) := by
  rw [← UInt16.toNat_inj, checksum_toNat, checksum_toNat, SameFold]
  omega

/-- One more word moves the folded sum by itself and by the carry out of the low half. -/
theorem fold_add_word (x t : ℕ) :
    fold 65536 ((x + t) % 2^32) % 65536 =
      (x % 65536 + x / 65536 + t + (x % 65536 + t) / 65536) % 65536 := by
  unfold fold
  omega

/-- A word on which only the larger of two low halves carries tells the sums apart. -/
theorem low_not_lt {a b c d : ℕ} (hb : b < 65536)
    (h : ∀ t < 65536, (a + c + t + (a + t) / 65536) % 65536 =
      (b + d + t + (b + t) / 65536) % 65536) : ¬ a < b := by
  intro hlt
  have h0 := h 0 (by norm_num)
  have hcarry := h (65536 - b) (by omega)
  have ha₀ : (a + 0) / 65536 = 0 := Nat.div_eq_of_lt (by omega)
  have hb₀ : (b + 0) / 65536 = 0 := Nat.div_eq_of_lt (by omega)
  have ha₁ : (a + (65536 - b)) / 65536 = 0 := Nat.div_eq_of_lt (by omega)
  have hb₁ : (b + (65536 - b)) / 65536 = 1 := by rw [Nat.add_sub_cancel' hb.le]
  rw [ha₀, hb₀] at h0
  rw [ha₁, hb₁] at hcarry
  omega

/-- Accumulators that no last word tells apart are equal. -/
theorem eq_of_fold_eq {x y : ℕ} (hx : x < 2^32) (hy : y < 2^32)
    (h : ∀ t < 65536, fold 65536 ((x + t) % 2^32) % 65536 = fold 65536 ((y + t) % 2^32) % 65536) :
    x = y := by
  have hword (t : ℕ) (ht : t < 65536) := (fold_add_word x t).symm.trans
    ((h t ht).trans (fold_add_word y t))
  have hxy := low_not_lt (Nat.mod_lt y (by norm_num)) hword
  have hyx := low_not_lt (Nat.mod_lt x (by norm_num)) fun t ht => (hword t ht).symm
  have h0 := hword 0 (by norm_num)
  have hlow : x % 65536 = y % 65536 := by omega
  rw [hlow] at h0
  omega

theorem eq_of_sameFold {s₁ s₂ : UInt32} {total : ℕ}
    (h : ∀ t < 65536, SameFold s₁ s₂ (total + t)) : s₁ = s₂ := by
  have h₁ := s₁.toNat_lt
  have h₂ := s₂.toNat_lt
  have hshift (s : UInt32) (t : ℕ) :
      ((s.toNat + total) % 2^32 + t) % 2^32 = (s.toNat + (total + t)) % 2^32 := by omega
  have hmod : (s₁.toNat + total) % 2^32 = (s₂.toNat + total) % 2^32 := by
    apply eq_of_fold_eq (Nat.mod_lt _ (by norm_num)) (Nat.mod_lt _ (by norm_num))
    intro t ht
    rw [hshift, hshift]
    exact h t ht
  apply UInt32.toNat_inj.mp
  omega

end Fold

section Runs

/-- Any two runs on this header give the same checksum. -/
def IpAgrees (s₁ s₂ : UInt32) (h : Ipv4Header) : Prop :=
  ∀ fresh₁ fresh₂ : ℕ → UInt8, ∃ check, (IpChecksum.calcChecksum s₁ fresh₁ h).run h = .ok check h ∧
    (IpChecksum.calcChecksum s₂ fresh₂ h).run h = .ok check h

/-- Any two runs on these headers and this payload give the same checksum. -/
def UdpAgrees (s₁ s₂ : UInt32) (iph : Ipv4Header) (h : UdpHeader) (payload : Bytes) : Prop :=
  ∀ fresh₁ fresh₂ : ℕ → UInt8, ∃ check,
    (calcChecksum s₁ fresh₁ iph payload payload.length h).run h = .ok check h ∧
    (calcChecksum s₂ fresh₂ iph payload payload.length h).run h = .ok check h

theorem ntohs_injective {x y : UInt16} (h : ntohs x = ntohs y) : x = y := by
  rw [← htons_ntohs x, h, htons_ntohs]

/-- Runs that both return, whatever the arrays held, agree when their results do. -/
theorem agree_iff {σ : Type} {run₁ run₂ : (ℕ → UInt8) → Outcome σ UInt16} {c₁ c₂ : UInt16} {s : σ}
    (h₁ : ∀ fresh, run₁ fresh = .ok (ntohs c₁) s) (h₂ : ∀ fresh, run₂ fresh = .ok (ntohs c₂) s) :
    (∀ fresh₁ fresh₂, ∃ check, run₁ fresh₁ = .ok check s ∧ run₂ fresh₂ = .ok check s) ↔
      c₁ = c₂ := by
  constructor
  · intro h
    obtain ⟨check, hc₁, hc₂⟩ := h (fun _ => 0) (fun _ => 0)
    cases hc₁.symm.trans (h₁ _)
    have hok := hc₂.symm.trans (h₂ _)
    simp only [EStateM.Result.ok.injEq, and_true] at hok
    exact ntohs_injective hok
  · intro h fresh₁ fresh₂
    exact ⟨ntohs c₁, h₁ fresh₁, h ▸ h₂ fresh₂⟩

theorem ipAgrees_iff (s₁ s₂ : UInt32) {h : Ipv4Header} (h5 : 5 ≤ h.hlen.toNat) :
    IpAgrees s₁ s₂ h ↔ SameFold s₁ s₂ (wordTotal h.encoding) :=
  (agree_iff (fun fresh => IpChecksum.calcChecksum_ok s₁ fresh h5 h)
    (fun fresh => IpChecksum.calcChecksum_ok s₂ fresh h5 h)).trans (checksum_eq_iff s₁ s₂ _)

theorem udpAgrees_iff (s₁ s₂ : UInt32) (iph : Ipv4Header) (h : UdpHeader) (payload : Bytes) :
    UdpAgrees s₁ s₂ iph h payload ↔ SameFold s₁ s₂ (wordTotal (message iph h payload)) :=
  (agree_iff (fun fresh => calcChecksum_ok s₁ fresh iph payload h h)
    (fun fresh => calcChecksum_ok s₂ fresh iph payload h h)).trans (checksum_eq_iff s₁ s₂ _)

end Runs

section AllHeaders

def withId (h : Ipv4Header) (id : UInt16) : Ipv4Header := { h with id := id }

theorem wordTotal_withId (h : Ipv4Header) : ∃ total, ∀ id,
    wordTotal (withId h id).encoding = total + (htons id).toNat := by
  have hpre : ∃ pre post : Bytes, pre.length % 2 = 0 ∧
      ∀ id, (withId h id).encoding = pre ++ (Layout.u16.enc (htons id) ++ post) := by
    refine ⟨Layout.nibbles.enc (h.hlen, h.version) ++ Layout.u8.enc h.tos ++
      Layout.u16.enc (htons h.totLen), Layout.u16.enc (htons h.fragOff) ++ Layout.u8.enc h.ttl ++
      Layout.u8.enc h.protocol ++ Layout.u16.enc (htons h.check) ++
      (Layout.array 4).enc h.src.copytoarray ++ (Layout.array 4).enc h.dst.copytoarray ++
      h.option.toList.take (h.length - Ipv4Header.minLength), ?_, fun id => ?_⟩
    · simp only [List.length_append, Layout.enc_length]
      rfl
    · simp only [Ipv4Header.encoding, Ipv4Header.toIp, withId, Ip.layout, Layout.rename,
        Layout.pair, Equiv.coe_fn_mk, List.append_assoc]
      rfl
  obtain ⟨pre, post, heven, henc⟩ := hpre
  refine ⟨wordTotal pre + wordTotal post, fun id => ?_⟩
  rw [henc, wordTotal_append heven, IpChecksum.wordTotal_u16]
  omega

/-- The port that is stored as this word. -/
theorem htons_ntohs_ofNat {t : ℕ} (ht : t < 65536) :
    (htons (ntohs (UInt16.ofNat t))).toNat = t := by
  rw [htons_ntohs, UInt16.toNat_ofNat_of_lt' ht]

theorem eq_of_ipAgrees {s₁ s₂ : UInt32}
    (h : ∀ iph : Ipv4Header, 5 ≤ iph.hlen.toNat → IpAgrees s₁ s₂ iph) : s₁ = s₂ := by
  obtain ⟨total, htotal⟩ := wordTotal_withId Ipv4Header.cleared
  have hall : ∀ t < 65536, SameFold s₁ s₂ (total + t) := by
    intro t ht
    have h5 : 5 ≤ (withId Ipv4Header.cleared (ntohs (UInt16.ofNat t))).hlen.toNat := Nat.le_refl 5
    have hsame := (ipAgrees_iff s₁ s₂ h5).mp (h _ h5)
    rwa [htotal, htons_ntohs_ofNat ht] at hsame
  exact eq_of_sameFold hall

theorem eq_of_udpAgrees {s₁ s₂ : UInt32}
    (h : ∀ (iph : Ipv4Header) (u : UdpHeader) (payload : Bytes), 5 ≤ iph.hlen.toNat →
      UdpAgrees s₁ s₂ iph u payload) : s₁ = s₂ := by
  have hall : ∀ t < 65536, SameFold s₁ s₂
      (wordTotal (PseudoHeader.layout.enc (pseudoHeader Ipv4Header.cleared)) + t) := by
    intro t ht
    have hsame := (udpAgrees_iff s₁ s₂ _ _ _).mp
      (h Ipv4Header.cleared ⟨ntohs (UInt16.ofNat t), 0, 0, 0⟩ [] (by decide))
    have hzero : (htons 0).toNat = 0 := rfl
    have hnil : wordTotal [] = 0 := rfl
    simp only [wordTotal_message, htons_ntohs_ofNat ht, hzero, hnil, Nat.add_zero] at hsame
    exact hsame
  exact eq_of_sameFold hall

/-- On given input two runs agree exactly when their accumulators fold to the same word, and on
all input exactly when they found the same accumulator. -/
theorem calcChecksum_agree_iff (s₁ s₂ : UInt32) :
    (∀ h : Ipv4Header, 5 ≤ h.hlen.toNat →
      (IpAgrees s₁ s₂ h ↔ SameFold s₁ s₂ (wordTotal h.encoding))) ∧
    (∀ (iph : Ipv4Header) (h : UdpHeader) (payload : Bytes),
      UdpAgrees s₁ s₂ iph h payload ↔ SameFold s₁ s₂ (wordTotal (message iph h payload))) ∧
    ((∀ h : Ipv4Header, 5 ≤ h.hlen.toNat → IpAgrees s₁ s₂ h) ↔ s₁ = s₂) ∧
    ((∀ (iph : Ipv4Header) (h : UdpHeader) (payload : Bytes), 5 ≤ iph.hlen.toNat →
      UdpAgrees s₁ s₂ iph h payload) ↔ s₁ = s₂) := by
  refine ⟨fun h h5 => ipAgrees_iff s₁ s₂ h5, udpAgrees_iff s₁ s₂, ⟨eq_of_ipAgrees, ?_⟩,
    ⟨eq_of_udpAgrees, ?_⟩⟩
  · rintro rfl h h5
    exact (ipAgrees_iff s₁ s₁ h5).mpr rfl
  · rintro rfl iph h payload -
    exact (udpAgrees_iff s₁ s₁ iph h payload).mpr rfl

/-- A run that finds zero and one that finds one in the accumulator. -/
theorem cleared_not_agrees : ¬ IpAgrees 0 1 Ipv4Header.cleared := by
  rw [ipAgrees_iff _ _ (by decide), SameFold]
  decide

end AllHeaders

end Pgen.ChecksumAccumulator
