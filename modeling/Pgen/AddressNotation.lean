import Pgen.MacParser

/-!
# The notations of the addresses are parsed back

What `%02x`, `%d` and `%04x` print between separators is accepted by `sscanf` and `inet_pton` and
gives the same numbers.
-/
namespace Pgen.AddressNotation
open CText MacParser

section Hexadecimal

theorem hexValue_hexDigitChar {n : ℕ} (h : n < 16) : hexValue (hexDigitChar n) = some n := by
  have hall : ∀ n < 16, hexValue (hexDigitChar n) = some n := by decide
  exact hall n h

theorem isGroup_hexByte (b : UInt8) : IsGroup (hexByte b) b := by
  have hb := b.toNat_lt
  have hgroup := IsGroup.mk (hexValue_hexDigitChar (show b.toNat / 16 < 16 by omega))
    (hexValue_hexDigitChar (show b.toNat % 16 < 16 by omega))
  rwa [Nat.div_add_mod, UInt8.ofNat_toNat] at hgroup

/-- The characters of `%04x` are digits, with the word as their number. -/
theorem hexGroup_hexWord (w : UInt16) : hexGroup (hexWord w) = some w := by
  have hw := w.toNat_lt
  have h₃ := hexValue_hexDigitChar (show w.toNat / 4096 < 16 by omega)
  have h₂ := hexValue_hexDigitChar (show w.toNat / 256 % 16 < 16 by omega)
  have h₁ := hexValue_hexDigitChar (show w.toNat / 16 % 16 < 16 by omega)
  have h₀ := hexValue_hexDigitChar (show w.toNat % 16 < 16 by omega)
  have hnumber : 16 * (16 * (16 * (w.toNat / 4096) + w.toNat / 256 % 16) + w.toNat / 16 % 16) +
      w.toNat % 16 = w.toNat := by omega
  simp [hexGroup, hexWord, h₃, h₂, h₁, h₀, hnumber]

theorem hexWord_injective : Function.Injective hexWord := by
  intro v w h
  have hgroup := congrArg hexGroup h
  rwa [hexGroup_hexWord, hexGroup_hexWord, Option.some.injEq] at hgroup

/-- A group is made of digits. -/
theorem hexGroup_digits {g : Text} {w : UInt16} (h : hexGroup g = some w) :
    g ≠ [] ∧ ∀ c ∈ g, hexValue c ≠ none := by
  unfold hexGroup at h
  split_ifs at h with hg
  refine ⟨hg.1, fun c hc hnone => ?_⟩
  have hdigit := List.all_eq_true.mp hg.2.2 c hc
  simp [hnone] at hdigit

end Hexadecimal

section Decimal

/-- No zero stands in front of a number. -/
theorem head_toDigits {n : ℕ} (h : 0 < n) : (Nat.toDigits 10 n).head? ≠ some '0' := by
  induction n using Nat.strong_induction_on with
  | _ n ih =>
    rw [Nat.toDigits_eq_if (by decide)]
    split_ifs with hlt
    · have hdigit : ∀ m < 10, 0 < m → Nat.digitChar m ≠ '0' := by decide
      simpa using hdigit n hlt h
    · rw [List.head?_append_of_ne_nil _ Nat.toDigits_ne_nil]
      exact ih (n / 10) (by omega) (by omega)

theorem isDigit_toDigits {n : ℕ} {c : Char} (h : c ∈ Nat.toDigits 10 n) : isDigit c = true := by
  have hdigit := Nat.isDigit_of_mem_toDigits (by decide) (by decide) h
  simpa [isDigit, Char.isDigit, UInt32.le_iff_toNat_le] using hdigit

theorem decimalOctet_decimalByte (b : UInt8) : decimalOctet (decimalByte b) = some b := by
  have hb := b.toNat_lt
  have hvalue : (decimalByte b).foldl (fun n c => 10 * n + (c.toNat - 48)) 0 = b.toNat :=
    Nat.ofDigitChars_ten_toDigits
  have hzero : (decimalByte b).length = 1 ∨ (decimalByte b).head? ≠ some '0' := by
    rcases Nat.eq_zero_or_pos b.toNat with h | h
    · left
      simp [decimalByte, h]
    · exact .inr (head_toDigits h)
  unfold decimalOctet
  rw [hvalue, if_pos ⟨Nat.toDigits_ne_nil, List.all_eq_true.mpr fun c => isDigit_toDigits, hzero,
    by omega⟩, UInt8.ofNat_toNat]

theorem length_decimalByte (b : UInt8) : (decimalByte b).length ≤ 3 :=
  (Nat.length_toDigits_le_iff (by decide) (by decide)).mpr (by have hb := b.toNat_lt; omega)

end Decimal

section Separators

theorem length_intercalate_le {sep : Char} {n : ℕ} {groups : List Text}
    (h : ∀ g ∈ groups, g.length ≤ n) :
    (List.intercalate [sep] groups).length ≤ groups.length * (n + 1) - 1 := by
  induction groups with
  | nil => simp
  | cons g groups ih =>
    cases groups with
    | nil => simpa using h g (by simp)
    | cons g' groups =>
      have hg := h g (by simp)
      have hrest := ih fun k hk => h k (List.mem_cons_of_mem _ hk)
      rw [List.intercalate_cons_cons, List.length_append, List.length_append,
        List.length_singleton, List.length_cons, Nat.succ_mul]
      rw [List.length_cons, Nat.succ_mul] at hrest ⊢
      omega

theorem splitGap_append {g t : Text} (hg : ':' ∉ g) (h : splitGap t = none) :
    splitGap (g ++ t) = none := by
  induction g with
  | nil => exact h
  | cons c g ih =>
    have hc : c ≠ ':' := fun hc => hg (hc ▸ List.mem_cons_self)
    rw [List.cons_append, splitGap.eq_2 _ _ (fun rest hrest => absurd hrest hc),
      ih fun hmem => hg (List.mem_cons_of_mem _ hmem)]
    rfl

theorem splitGap_colon {t : Text} (hhead : t.head? ≠ some ':') (h : splitGap t = none) :
    splitGap (':' :: t) = none := by
  cases t with
  | nil => rfl
  | cons c t =>
    rw [splitGap.eq_2 _ _ (fun rest _ hrest => hhead (by rw [hrest]; rfl)), h]
    rfl

/-- Groups that are not empty and have no colons leave no gap. -/
theorem splitGap_groups {groups : List Text} (h : ∀ g ∈ groups, g ≠ [] ∧ ':' ∉ g) :
    splitGap (List.intercalate [':'] groups) = none := by
  induction groups with
  | nil => rfl
  | cons g groups ih =>
    have hg := h g (by simp)
    cases groups with
    | nil =>
      rw [List.intercalate_singleton, ← List.append_nil g]
      exact splitGap_append hg.2 rfl
    | cons g' groups =>
      have hrest := ih fun k hk => h k (List.mem_cons_of_mem _ hk)
      have hg' := h g' (by simp)
      rw [List.intercalate_cons_cons, List.append_assoc, List.singleton_append]
      refine splitGap_append hg.2 (splitGap_colon ?_ hrest)
      cases g' with
      | nil => exact absurd rfl hg'.1
      | cons c g' =>
        rw [List.intercalate_cons_cons_left]
        intro hcolon
        cases hcolon
        exact hg'.2 List.mem_cons_self

end Separators

section Addresses

/-- Six groups of two digits. -/
def macText (raw : Vector UInt8 6) : Text := List.intercalate [':'] (raw.toList.map hexByte)

/-- Four decimal numbers. -/
def ipv4Text (raw : Vector UInt8 4) : Text := List.intercalate ['.'] (raw.toList.map decimalByte)

/-- Eight groups of four digits. -/
def ipv6Text (groups : Vector UInt16 8) : Text :=
  List.intercalate [':'] (groups.toList.map hexWord)

theorem length_macText (raw : Vector UInt8 6) : (macText raw).length ≤ 17 := by
  have hlen := @length_intercalate_le ':' 2 (raw.toList.map hexByte)
    (List.forall_mem_map.mpr fun b _ => Nat.le_refl 2)
  rwa [List.length_map, Vector.length_toList] at hlen

theorem length_ipv4Text (raw : Vector UInt8 4) : (ipv4Text raw).length ≤ 15 := by
  have hlen := @length_intercalate_le '.' 3 (raw.toList.map decimalByte)
    (List.forall_mem_map.mpr fun b _ => length_decimalByte b)
  rwa [List.length_map, Vector.length_toList] at hlen

theorem length_ipv6Text (groups : Vector UInt16 8) : (ipv6Text groups).length ≤ 39 := by
  have hlen := @length_intercalate_le ':' 4 (groups.toList.map hexWord)
    (List.forall_mem_map.mpr fun w _ => Nat.le_refl 4)
  rwa [List.length_map, Vector.length_toList] at hlen

theorem cStr_ipv4Text (raw : Vector UInt8 4) : cStr (ipv4Text raw) = ipv4Text raw := by
  refine cStr_intercalate (by decide) (List.forall_mem_map.mpr fun b _ c hc hnull => ?_)
  have hdigit : isDigit c = true := isDigit_toDigits hc
  simp [isDigit, hnull] at hdigit

/-- Groups of digits have no null character. -/
theorem ne_null_of_hexGroup {g : Text} {w : UInt16} (h : hexGroup g = some w) :
    ∀ c ∈ g, c.toNat ≠ 0 := by
  intro c hc hnull
  exact (hexGroup_digits h).2 c hc (by simp [hexValue, hnull])

theorem cStr_hexGroups {texts : List Text} {words : List UInt16}
    (h : List.Forall₂ (fun g w => hexGroup g = some w) texts words) :
    cStr (List.intercalate [':'] texts) = List.intercalate [':'] texts :=
  cStr_intercalate (by decide) (forall_groups h ne_null_of_hexGroup)

theorem isMacText_macText (raw : Vector UInt8 6) : IsMacText (macText raw) raw := by
  refine ⟨raw.toList.map hexByte, ?_, rfl⟩
  rw [List.forall₂_map_left_iff]
  exact List.forall₂_same.mpr fun b _ => isGroup_hexByte b

theorem inetPton_ipv4Text (raw : Vector UInt8 4) : inetPton (ipv4Text raw) = some raw := by
  have hdot : ∀ g ∈ raw.toList.map decimalByte, '.' ∉ g := by
    intro g hg hmem
    obtain ⟨b, -, rfl⟩ := List.mem_map.mp hg
    exact absurd (isDigit_toDigits hmem) (by decide)
  have hsplit := List.splitOn_intercalate '.' hdot (List.ne_nil_of_length_pos (by simp))
  obtain ⟨⟨l⟩, hl⟩ := raw
  match l, hl with
  | [a, b, c, d], _ =>
    unfold inetPton ipv4Text
    rw [hsplit]
    simp [decimalOctet_decimalByte]

theorem hexGroups_texts {texts : List Text} {words : List UInt16}
    (h : List.Forall₂ (fun g w => hexGroup g = some w) texts words) :
    hexGroups texts = some words := by
  induction h with
  | nil => rfl
  | @cons g w texts words hg hrest ih =>
    cases hrest with
    | nil =>
      have hdot : '.' ∉ g := fun hmem => (hexGroup_digits hg).2 '.' hmem rfl
      simp [hexGroups, hdot, hg]
    | cons hg' hrest =>
      rw [hexGroups, hg, ih]
      · rfl
      · simp

/-- Eight groups of up to four digits are parsed to their numbers, whoever wrote them. -/
theorem inetPton6_groups {texts : List Text} {groups : Vector UInt16 8}
    (h : List.Forall₂ (fun g w => hexGroup g = some w) texts groups.toList) :
    inetPton6 (List.intercalate [':'] texts) = some groups := by
  have hdigits : ∀ g ∈ texts, g ≠ [] ∧ ':' ∉ g := forall_groups h fun hg =>
    ⟨(hexGroup_digits hg).1, fun hmem => (hexGroup_digits hg).2 ':' hmem rfl⟩
  have hne : texts ≠ [] := List.ne_nil_of_length_pos (by simp [h.length_eq])
  have hsplit := List.splitOn_intercalate ':' (fun g hg => (hdigits g hg).2) hne
  unfold inetPton6
  rw [splitGap_groups hdigits]
  have hwords : groups.toList.toArray = groups.toArray := Array.toArray_toList
  simp [hsplit, hexGroups_texts h, hwords]

theorem splitOn_ipv6Text (groups : Vector UInt16 8) :
    (ipv6Text groups).splitOn ':' = groups.toList.map hexWord := by
  refine List.splitOn_intercalate ':' (List.forall_mem_map.mpr fun w _ hmem => ?_)
    (List.ne_nil_of_length_pos (by simp))
  exact (hexGroup_digits (hexGroup_hexWord w)).2 ':' hmem rfl

theorem hexGroup_ipv6Text (groups : Vector UInt16 8) :
    List.Forall₂ (fun g w => hexGroup g = some w) (groups.toList.map hexWord) groups.toList := by
  rw [List.forall₂_map_left_iff]
  exact List.forall₂_same.mpr fun w _ => hexGroup_hexWord w

end Addresses

end Pgen.AddressNotation
