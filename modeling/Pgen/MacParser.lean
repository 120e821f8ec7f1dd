import Pgen.CoreAddress

/-!
# What `macaddress::set_str` accepts

A MAC address is written as six groups of two hexadecimal digits with colons between them. The
parser asks for 17 characters and six conversions `%02x`, and such a conversion also takes blanks
in front of its number, a sign, and a single digit; what follows the last one is not looked at.
-/
namespace Pgen.MacParser
open ByteMemory CText CoreAddress

section Characters

theorem not_isSpace_of_hexValue {c : Char} {n : ℕ} (h : hexValue c = some n) :
    isSpace c = false := by
  unfold hexValue at h
  unfold isSpace
  dsimp only at h
  split_ifs at h <;> simp <;> omega

theorem ne_of_hexValue {c d : Char} {n : ℕ} (h : hexValue c = some n) (hd : hexValue d = none) :
    c ≠ d := by
  rintro rfl
  simp [h] at hd

end Characters

section Conversions

theorem scanHex_blank {blank : Text} (h : ∀ x ∈ blank, isSpace x = true) (width : ℕ) (t : Text) :
    scanHex width (blank ++ t) = scanHex width t := by
  unfold scanHex
  rw [List.dropWhile_append_of_pos h]

theorem scanDigits_pair {c d : Char} {h l : ℕ} (hc : hexValue c = some h)
    (hd : hexValue d = some l) (t : Text) :
    scanDigits 2 (c :: d :: t) = some (16 * h + l, t) := by
  simp [scanDigits, hc, hd]

theorem scanDigits_single {c : Char} {h : ℕ} (hc : hexValue c = some h) {t : Text}
    (hstop : ∀ d ∈ t.head?, hexValue d = none) : scanDigits 2 (c :: t) = some (h, t) := by
  cases t with
  | nil => simp [scanDigits, hc]
  | cons d t =>
    have hd : hexValue d = none := hstop d rfl
    simp [scanDigits, hc, hd]

theorem scanDigits_one {c : Char} {h : ℕ} (hc : hexValue c = some h) (t : Text) :
    scanDigits 1 (c :: t) = some (h, t) := by
  simp [scanDigits, hc]

theorem isSome_scanDigits {c : Char} {h : ℕ} (hc : hexValue c = some h) (width : ℕ) (t : Text) :
    (scanDigits (width + 1) (c :: t)).isSome = true := by
  simp [scanDigits, hc]

theorem exists_digit {width : ℕ} {t : Text} {r : ℕ × Text} (h : scanDigits width t = some r) :
    ∃ c u n, t = c :: u ∧ hexValue c = some n := by
  unfold scanDigits at h
  cases width with
  | zero => simp at h
  | succ width =>
    cases t with
    | nil => simp at h
    | cons c u =>
      cases hc : hexValue c with
      | none => simp [hc] at h
      | some n => exact ⟨c, u, n, rfl, hc⟩

/-- A number with neither sign nor prefix is scanned as its digits. -/
theorem scanHex_unsigned {c : Char} {t : Text} (hspace : isSpace c = false) (hminus : c ≠ '-')
    (hplus : c ≠ '+') (hzero : ¬ (c = '0' ∧ (t.head? = some 'x' ∨ t.head? = some 'X'))) :
    scanHex 2 (c :: t) = (scanDigits 2 (c :: t)).map fun r => (UInt32.ofNat r.1, r.2) := by
  have hsign : scanSign 2 (c :: t) = (false, 2, c :: t) := by
    unfold scanSign
    split <;> simp_all
  have hscan : scanPrefix 2 (c :: t) = (2, c :: t) := by
    unfold scanPrefix
    split <;> simp_all
  unfold scanHex
  rw [List.dropWhile_cons_of_neg (by simp [hspace]), hsign]
  dsimp only
  rw [hscan]
  cases scanDigits 2 (c :: t) <;> rfl

/-- A prefix uses the width up. -/
theorem scanHex_zero_x {t : Text} (h : t.head? = some 'x' ∨ t.head? = some 'X') :
    scanHex 2 ('0' :: t) = none := by
  cases t with
  | nil => simp at h
  | cons x t =>
    rcases h with h | h <;> cases h <;> simp [scanHex, isSpace, scanSign, scanPrefix, scanDigits]

/-- After a sign there is room for one character. -/
theorem scanHex_sign {sign : Char} (hsign : sign = '-' ∨ sign = '+') (t : Text) :
    (scanHex 2 (sign :: t)).map Prod.snd = (scanDigits 1 t).map Prod.snd := by
  have hscan : scanPrefix 1 t = (1, t) := by
    unfold scanPrefix
    split <;> simp_all
  rcases hsign with rfl | rfl <;> unfold scanHex <;>
    rw [List.dropWhile_cons_of_neg (by decide)] <;>
    simp only [scanSign, hscan] <;> cases scanDigits 1 t <;> rfl

theorem scanHex_signed {sign c : Char} {h : ℕ} (hsign : sign = '-' ∨ sign = '+')
    (hc : hexValue c = some h) (t : Text) :
    scanHex 2 (sign :: c :: t) =
      some (if sign = '-' then -UInt32.ofNat h else UInt32.ofNat h, t) := by
  have hscan : scanPrefix 1 (c :: t) = (1, c :: t) := by
    unfold scanPrefix
    split <;> simp_all
  rcases hsign with rfl | rfl <;> unfold scanHex <;>
    rw [List.dropWhile_cons_of_neg (by decide)] <;>
    simp only [scanSign, hscan, scanDigits_one hc] <;> rfl

theorem scanHex_pair {c d : Char} {h l : ℕ} (hc : hexValue c = some h) (hd : hexValue d = some l)
    (t : Text) : scanHex 2 (c :: d :: t) = some (UInt32.ofNat (16 * h + l), t) := by
  have hx : ¬ (c = '0' ∧ ((d :: t).head? = some 'x' ∨ (d :: t).head? = some 'X')) := by
    rintro ⟨-, h | h⟩ <;> cases h <;> cases hd
  rw [scanHex_unsigned (not_isSpace_of_hexValue hc) (ne_of_hexValue hc rfl)
    (ne_of_hexValue hc rfl) hx, scanDigits_pair hc hd]
  rfl

end Conversions

section Fields

/-- What one conversion `%02x` takes from a text that goes on with `after`. -/
inductive Field : Text → Text → Prop
  | pair {blank : Text} {c d : Char} {h l : ℕ} {after : Text} :
      (∀ x ∈ blank, isSpace x = true) → hexValue c = some h → hexValue d = some l →
      Field (blank ++ [c, d]) after
  | digit {blank : Text} {c : Char} {h : ℕ} {after : Text} :
      (∀ x ∈ blank, isSpace x = true) → hexValue c = some h →
      ¬ (c = '0' ∧ (after.head? = some 'x' ∨ after.head? = some 'X')) →
      Field (blank ++ [c]) after
  | signed {blank : Text} {sign c : Char} {h : ℕ} {after : Text} :
      (∀ x ∈ blank, isSpace x = true) → sign = '-' ∨ sign = '+' → hexValue c = some h →
      Field (blank ++ [sign, c]) after

def numeral (digits : Text) : UInt8 :=
  UInt8.ofNat (digits.foldl (fun n c => 16 * n + (hexValue c).getD 0) 0)

/-- The octet that is made of a field: its number modulo 256. -/
def fieldOctet (f : Text) : UInt8 :=
  match f.dropWhile isSpace with
  | '-' :: digits => -numeral digits
  | '+' :: digits => numeral digits
  | digits => numeral digits

/-- A conversion that has taken the field stops there. -/
def Stops (f after : Text) : Prop :=
  (f.dropWhile isSpace).length = 2 ∨ ∀ d ∈ after.head?, hexValue d = none

/-- A text that begins with so many fields with colons between them. -/
inductive Fields : ℕ → Text → Prop
  | last {f after : Text} : Field f after → Fields 1 (f ++ after)
  | more {n : ℕ} {f t : Text} : Field f (':' :: t) → Fields n t → Fields (n + 1) (f ++ ':' :: t)

theorem dropWhile_blank {blank f : Text} {c : Char} (h : ∀ x ∈ blank, isSpace x = true)
    (hc : isSpace c = false) : (blank ++ c :: f).dropWhile isSpace = c :: f := by
  rw [List.dropWhile_append_of_pos h, List.dropWhile_cons_of_neg (by simp [hc])]

/-- A number without a sign. -/
theorem fieldOctet_digits {blank digits : Text} {c : Char} {h : ℕ}
    (hblank : ∀ x ∈ blank, isSpace x = true) (hc : hexValue c = some h) :
    fieldOctet (blank ++ c :: digits) = numeral (c :: digits) := by
  have hminus : c ≠ '-' := ne_of_hexValue hc rfl
  have hplus : c ≠ '+' := ne_of_hexValue hc rfl
  unfold fieldOctet
  rw [dropWhile_blank hblank (not_isSpace_of_hexValue hc)]
  split <;> simp_all

/-- The octets of the fields that a text begins with. -/
inductive Spelled : Text → List UInt8 → Prop
  | last {f after : Text} : Field f after → Stops f after → Spelled (f ++ after) [fieldOctet f]
  | more {f t : Text} {octets : List UInt8} : Field f (':' :: t) → Spelled t octets →
      Spelled (f ++ ':' :: t) (fieldOctet f :: octets)

/-- A field is converted to its octet, and what follows it is left. -/
theorem Field.scanHex {f after : Text} (h : Field f after) (hstop : Stops f after) :
    ∃ v, CText.scanHex 2 (f ++ after) = some (v, after) ∧ v.toUInt8 = fieldOctet f := by
  cases h with
  | @pair blank c d h l _ hblank hc hd =>
    rw [List.append_assoc, scanHex_blank hblank, fieldOctet_digits hblank hc]
    refine ⟨_, scanHex_pair hc hd after, ?_⟩
    simp [numeral, hc, hd]
  | @digit blank c h _ hblank hc hx =>
    have hone : ((blank ++ [c]).dropWhile isSpace).length ≠ 2 := by
      rw [dropWhile_blank hblank (not_isSpace_of_hexValue hc)]
      simp
    have hstop := hstop.resolve_left hone
    rw [List.append_assoc, scanHex_blank hblank, List.cons_append, List.nil_append,
      scanHex_unsigned (not_isSpace_of_hexValue hc) (ne_of_hexValue hc rfl)
        (ne_of_hexValue hc rfl) hx, scanDigits_single hc hstop, fieldOctet_digits hblank hc]
    exact ⟨_, rfl, by simp [numeral, hc]⟩
  | @signed blank sign c h _ hblank hsign hc =>
    rw [List.append_assoc, scanHex_blank hblank]
    refine ⟨_, scanHex_signed hsign hc after, ?_⟩
    rcases hsign with rfl | rfl
    · simp [fieldOctet, dropWhile_blank hblank, isSpace, numeral, hc]
    · simp [fieldOctet, dropWhile_blank hblank, isSpace, numeral, hc]

theorem stops_colon (f t : Text) : Stops f (':' :: t) := .inr (by simp [hexValue])

theorem Field.isSome_scanHex {f after : Text} (h : Field f after) :
    (CText.scanHex 2 (f ++ after)).isSome = true := by
  cases h with
  | @pair blank c d h l _ hblank hc hd =>
    rw [List.append_assoc, scanHex_blank hblank, List.cons_append, List.cons_append,
      List.nil_append, scanHex_pair hc hd]
    rfl
  | @digit blank c h _ hblank hc hx =>
    rw [List.append_assoc, scanHex_blank hblank, List.cons_append, List.nil_append,
      scanHex_unsigned (not_isSpace_of_hexValue hc) (ne_of_hexValue hc rfl)
        (ne_of_hexValue hc rfl) hx, Option.isSome_map]
    exact isSome_scanDigits hc 1 after
  | @signed blank sign c h _ hblank hsign hc =>
    have hscan := congrArg Option.isSome (scanHex_sign hsign (c :: after))
    rw [Option.isSome_map, Option.isSome_map, scanDigits_one hc] at hscan
    rw [List.append_assoc, scanHex_blank hblank]
    exact hscan

theorem exists_field_signed {blank u rest : Text} {sign : Char} {v : UInt32}
    (hblank : ∀ x ∈ blank, isSpace x = true) (hsign : sign = '-' ∨ sign = '+')
    (h : scanHex 2 (sign :: u) = some (v, rest)) :
    ∃ f, Field f rest ∧ Stops f rest ∧ blank ++ sign :: u = f ++ rest := by
  have hsnd := congrArg (Option.map Prod.snd) h
  rw [scanHex_sign hsign] at hsnd
  obtain ⟨r, hr, -⟩ := Option.map_eq_some_iff.mp hsnd
  obtain ⟨d, u', l, rfl, hd⟩ := exists_digit hr
  rw [scanDigits_one hd] at hsnd
  cases hsnd
  have hspace : isSpace sign = false := by rcases hsign with rfl | rfl <;> decide
  refine ⟨_, .signed hblank hsign hd, .inl ?_, by rw [List.append_assoc]; rfl⟩
  rw [dropWhile_blank hblank hspace]
  rfl

/-- Without a sign there are one or two digits. -/
theorem exists_field_unsigned {blank u rest : Text} {c : Char} {v : UInt32}
    (hblank : ∀ x ∈ blank, isSpace x = true) (hspace : isSpace c = false)
    (hsign : ¬ (c = '-' ∨ c = '+')) (h : scanHex 2 (c :: u) = some (v, rest)) :
    ∃ f, Field f rest ∧ Stops f rest ∧ blank ++ c :: u = f ++ rest := by
  have hx : ¬ (c = '0' ∧ (u.head? = some 'x' ∨ u.head? = some 'X')) := by
    rintro ⟨rfl, hx⟩
    rw [scanHex_zero_x hx] at h
    cases h
  rw [scanHex_unsigned hspace (fun hc => hsign (.inl hc)) (fun hc => hsign (.inr hc)) hx] at h
  obtain ⟨r, hr, hrest⟩ := Option.map_eq_some_iff.mp h
  obtain ⟨_, _, n, hcons, hc⟩ := exists_digit hr
  cases hcons
  by_cases hstop : ∀ d ∈ u.head?, hexValue d = none
  · rw [scanDigits_single hc hstop] at hr
    cases hr
    cases hrest
    exact ⟨_, .digit hblank hc hx, .inr hstop, by rw [List.append_assoc]; rfl⟩
  · cases u with
    | nil => simp at hstop
    | cons d u =>
      cases hd : hexValue d with
      | none => simp [hd] at hstop
      | some l =>
        rw [scanDigits_pair hc hd] at hr
        cases hr
        cases hrest
        refine ⟨_, .pair hblank hc hd, .inl ?_, by rw [List.append_assoc]; rfl⟩
        rw [dropWhile_blank hblank hspace]
        rfl

/-- Whatever a conversion takes is a field. -/
theorem exists_field {t rest : Text} {v : UInt32} (h : scanHex 2 t = some (v, rest)) :
    ∃ f, Field f rest ∧ Stops f rest ∧ t = f ++ rest := by
  have hblank : ∀ x ∈ t.takeWhile isSpace, isSpace x = true := fun x hx =>
    List.mem_takeWhile_imp hx
  have hsplit : t.takeWhile isSpace ++ t.dropWhile isSpace = t := List.takeWhile_append_dropWhile
  have hhead := List.head?_dropWhile_not isSpace t
  rw [← hsplit, scanHex_blank hblank] at h
  cases hu : t.dropWhile isSpace with
  | nil =>
    rw [hu] at h
    cases h
  | cons c u =>
    rw [hu] at h hsplit hhead
    rw [← hsplit]
    by_cases hsign : c = '-' ∨ c = '+'
    · exact exists_field_signed hblank hsign h
    · exact exists_field_unsigned hblank hhead hsign h

/-- All conversions succeed exactly on a text that begins with so many fields. -/
theorem length_sscanfColonHex_iff (n : ℕ) (t : Text) :
    (sscanfColonHex (n + 1) t).length = n + 1 ↔ Fields (n + 1) t := by
  induction n generalizing t with
  | zero =>
    constructor
    · intro h
      cases hscan : scanHex 2 t with
      | none => simp [sscanfColonHex, hscan] at h
      | some r =>
        obtain ⟨f, hf, -, rfl⟩ := exists_field hscan
        exact .last hf
    · intro h
      cases h with
      | last hf =>
        obtain ⟨r, hr⟩ := Option.isSome_iff_exists.mp hf.isSome_scanHex
        unfold sscanfColonHex
        rw [hr]
        split <;> simp_all [sscanfColonHex]
      | more hf ht => cases ht
  | succ n ih =>
    constructor
    · intro h
      unfold sscanfColonHex at h
      split at h
      · simp at h
      · rename_i v rest hscan
        obtain ⟨f, hf, -, rfl⟩ := exists_field hscan
        exact .more hf ((ih rest).mp (Nat.succ.inj h))
      · simp at h
    · intro h
      cases h with
      | @more _ f t hf ht =>
        obtain ⟨v, hr, -⟩ := hf.scanHex (stops_colon f t)
        unfold sscanfColonHex
        rw [hr]
        exact congrArg Nat.succ ((ih t).mpr ht)

/-- The conversions give the octets of the fields. -/
theorem sscanfColonHex_spelled {t : Text} {octets : List UInt8} (h : Spelled t octets) :
    (sscanfColonHex octets.length t).map UInt32.toUInt8 = octets := by
  induction h with
  | last hf hstop =>
    obtain ⟨v, hr, hv⟩ := hf.scanHex hstop
    rw [List.length_singleton]
    unfold sscanfColonHex
    rw [hr]
    split <;> simp_all [sscanfColonHex]
  | @more f t octets hf ht ih =>
    obtain ⟨v, hr, hv⟩ := hf.scanHex (stops_colon f t)
    rw [List.length_cons]
    unfold sscanfColonHex
    rw [hr]
    exact congrArg₂ List.cons hv ih

/-- Where all conversions succeed there is a field for each. -/
theorem spelled_of_length {n : ℕ} {t : Text} (h : (sscanfColonHex (n + 1) t).length = n + 1) :
    Spelled t ((sscanfColonHex (n + 1) t).map UInt32.toUInt8) := by
  induction n generalizing t with
  | zero =>
    cases hscan : scanHex 2 t with
    | none => simp [sscanfColonHex, hscan] at h
    | some r =>
      obtain ⟨v, rest⟩ := r
      obtain ⟨f, hf, hstop, rfl⟩ := exists_field hscan
      obtain ⟨w, hr, hw⟩ := hf.scanHex hstop
      have hone := sscanfColonHex_spelled (.last hf hstop)
      rw [List.length_singleton] at hone
      rw [hone]
      exact .last hf hstop
  | succ n ih =>
    unfold sscanfColonHex at h ⊢
    split at h
    · simp at h
    · rename_i v rest hscan
      obtain ⟨f, hf, -, rfl⟩ := exists_field hscan
      obtain ⟨w, hr, hw⟩ := hf.scanHex (stops_colon f rest)
      rw [hr] at hscan
      cases hscan
      rw [List.map_cons, hw]
      exact .more hf (ih (Nat.succ.inj h))
    · simp at h

end Fields

section Groups

/-- Two hexadecimal digits with their value. -/
inductive IsGroup : Text → UInt8 → Prop
  | mk {c d : Char} {h l : ℕ} : hexValue c = some h → hexValue d = some l →
      IsGroup [c, d] (UInt8.ofNat (16 * h + l))

theorem IsGroup.length_eq {g : Text} {v : UInt8} (h : IsGroup g v) : g.length = 2 := by
  cases h
  rfl

theorem IsGroup.not_mem {g : Text} {v : UInt8} (h : IsGroup g v) {c : Char}
    (hc : hexValue c = none) : c ∉ g := by
  cases h with
  | mk hd he => simp [(ne_of_hexValue hd hc).symm, (ne_of_hexValue he hc).symm]

theorem IsGroup.ne_null {g : Text} {v : UInt8} (h : IsGroup g v) : ∀ c ∈ g, c.toNat ≠ 0 := by
  intro c hc hnull
  refine h.not_mem (show hexValue c = none from ?_) hc
  simp [hexValue, hnull]

theorem IsGroup.scanHex {g : Text} {v : UInt8} (h : IsGroup g v) (t : Text) :
    ∃ w : UInt32, scanHex 2 (g ++ t) = some (w, t) ∧ w.toUInt8 = v := by
  cases h with
  | mk hc hd => exact ⟨_, scanHex_pair hc hd t, by simp⟩

variable {groups : List Text} {octets : List UInt8}

/-- Groups with colons between them are converted to their values. -/
theorem sscanfColonHex_groups (h : List.Forall₂ IsGroup groups octets) :
    (sscanfColonHex groups.length (List.intercalate [':'] groups)).map UInt32.toUInt8 = octets := by
  induction h with
  | nil => rfl
  | @cons g v gs vs hg hgs ih =>
    cases hgs with
    | nil =>
      obtain ⟨w, hscan, rfl⟩ := hg.scanHex []
      rw [List.append_nil] at hscan
      simp [sscanfColonHex, hscan]
    | @cons g' v' gs vs hg' hgs =>
      obtain ⟨w, hscan, rfl⟩ := hg.scanHex (':' :: List.intercalate [':'] (g' :: gs))
      rw [List.intercalate_cons_cons, List.append_assoc, List.singleton_append, List.length_cons]
      unfold sscanfColonHex
      rw [hscan]
      exact congrArg (_ :: ·) ih

theorem length_groups (h : List.Forall₂ IsGroup groups octets) (hne : groups ≠ []) :
    (List.intercalate [':'] groups).length = 3 * groups.length - 1 := by
  induction h with
  | nil => exact absurd rfl hne
  | @cons g v gs vs hg hgs ih =>
    cases hgs with
    | nil => simp [hg.length_eq]
    | @cons g' v' gs vs hg' hgs =>
      have hrest := ih (List.cons_ne_nil _ _)
      rw [List.intercalate_cons_cons, List.length_append, List.length_append, hg.length_eq, hrest]
      simp only [List.length_cons, List.length_nil]
      omega

theorem splitOn_groups (h : List.Forall₂ IsGroup groups octets) (hne : groups ≠ []) :
    (List.intercalate [':'] groups).splitOn ':' = groups :=
  List.splitOn_intercalate ':' (forall_groups h fun hg => hg.not_mem rfl) hne

theorem cStr_groups (h : List.Forall₂ IsGroup groups octets) :
    cStr (List.intercalate [':'] groups) = List.intercalate [':'] groups :=
  cStr_intercalate (by decide) (forall_groups h IsGroup.ne_null)

end Groups

section SetStr

variable {s : Text}

/-- Six groups of exactly two hexadecimal digits with single colons between them. -/
def IsMacText (s : Text) (octets : Vector UInt8 6) : Prop :=
  ∃ groups : List Text, List.Forall₂ IsGroup groups octets.toList ∧
    s = List.intercalate [':'] groups

/-- What the parser looks for instead: 17 characters that begin with six fields. -/
def Liberal (s : Text) : Prop := s.length = 17 ∧ Fields 6 (cStr s)

/-- The texts of MAC addresses are taken over with the values of their groups, by an object in any
state; any other text is refused, and the object keeps its state. -/
structure ParsesExactly (s : Text) : Prop where
  accepts : ∀ octets, IsMacText s octets →
    ∀ a, (MacAddress.setStr s).run a = .ok () (a.setbyarray octets)
  refuses : (¬ ∃ octets, IsMacText s octets) →
    ∀ a, ∃ what, (MacAddress.setStr s).run a = .error (.exception what) a

theorem IsMacText.length_groups {octets : Vector UInt8 6} {groups : List Text}
    (h : List.Forall₂ IsGroup groups octets.toList) : groups.length = 6 := by
  rw [h.length_eq, Vector.length_toList]

theorem ofFn_values {buf : List UInt32} {octets : Vector UInt8 6}
    (h : buf.map UInt32.toUInt8 = octets.toList) :
    Vector.ofFn (fun i : Fin 6 => (buf.getD i 0).toUInt8) = octets := by
  apply Vector.ext
  intro i hi
  have hlen := congrArg List.length h
  rw [List.length_map, Vector.length_toList] at hlen
  have hget : (buf.map UInt32.toUInt8)[i]? = octets.toList[i]? := by rw [h]
  rw [Vector.getElem_ofFn]
  simpa [hlen, hi] using hget

/-- The text of an address is one that the parser looks for, and it finds the groups' values. -/
theorem setStr_macText {octets : Vector UInt8 6} (h : IsMacText s octets) (a : MacAddress) :
    (MacAddress.setStr s).run a = .ok () (a.setbyarray octets) := by
  obtain ⟨groups, hgroups, rfl⟩ := h
  have hsix := IsMacText.length_groups hgroups
  have hne : groups ≠ [] := List.ne_nil_of_length_pos (by omega)
  have hlen : (List.intercalate [':'] groups).length = MacAddress.strlength := by
    rw [length_groups hgroups hne, hsix]
    rfl
  have hvalues := sscanfColonHex_groups hgroups
  rw [hsix] at hvalues
  have hcount : (sscanfColonHex 6 (List.intercalate [':'] groups)).length = 6 := by
    have hl := congrArg List.length hvalues
    rwa [List.length_map, Vector.length_toList] at hl
  rw [MacAddress.setStr_ok hlen (congrArg _ (cStr_groups hgroups)) hcount, ofFn_values hvalues]

theorem setStr_liberal (h : Liberal s) (a : MacAddress) :
    ∃ a', (MacAddress.setStr s).run a = .ok () a' :=
  ⟨_, MacAddress.setStr_ok h.1 rfl ((length_sscanfColonHex_iff 5 (cStr s)).mpr h.2) a⟩

theorem setStr_error (h : ¬ Liberal s) (a : MacAddress) :
    (MacAddress.setStr s).run a =
      .error (.exception "pgen::macaddress::set_str: Format error") a := by
  unfold MacAddress.setStr
  by_cases hs : s.length ≠ MacAddress.strlength
  · rw [run_bind_error (throwIf_fail hs a)]
  · have hfields : (sscanfColonHex 6 (cStr s)).length ≠ 6 := fun hn =>
      h ⟨not_not.mp hs, (length_sscanfColonHex_iff 5 (cStr s)).mp hn⟩
    rw [run_bind_ok (throwIf_pass hs a), run_bind_error (throwIf_fail hfields a)]

/-- The parser is exact on a text unless this is one it is liberal with. -/
theorem setStr_parsesExactly_iff (s : Text) :
    ParsesExactly s ↔ (Liberal s → ∃ octets, IsMacText s octets) := by
  constructor
  · intro hexact hliberal
    by_contra hnot
    obtain ⟨a', hok⟩ := setStr_liberal hliberal MacAddress.new
    obtain ⟨what, herror⟩ := hexact.refuses hnot MacAddress.new
    rw [hok] at herror
    cases herror
  · intro h
    refine ⟨fun octets hoctets a => setStr_macText hoctets a, fun hnot a => ?_⟩
    exact ⟨_, setStr_error (fun hliberal => hnot (h hliberal)) a⟩

/-- Six single digits and a remark. -/
def shortGroups : Text := "1:2:3:4:5:6 spare".toList

theorem setStr_shortGroups : ¬ ParsesExactly shortGroups := by
  intro hexact
  have hscan : (sscanfColonHex 6 (cStr shortGroups)).length = 6 := by decide
  have hnot : ¬ ∃ octets, IsMacText shortGroups octets := by
    rintro ⟨octets, groups, hgroups, htext⟩
    have hne : groups ≠ [] := List.ne_nil_of_length_pos (by
      rw [IsMacText.length_groups hgroups]
      decide)
    have hpair := forall_groups hgroups IsGroup.length_eq
    rw [← splitOn_groups hgroups hne, ← htext] at hpair
    exact absurd hpair (by decide)
  obtain ⟨what, herror⟩ := hexact.refuses hnot MacAddress.new
  rw [MacAddress.setStr_ok (by decide) rfl hscan] at herror
  cases herror

end SetStr

end Pgen.MacParser
