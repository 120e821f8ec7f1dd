import Mathlib

/-!
# Formatted text of the C library

The conversions `%02x`, `%04x` and `%d`, the scanning of hexadecimal numbers with a maximum width as
`sscanf` does it, and the notations of `inet_pton`.
-/
namespace Pgen.CText

abbrev Text := List Char

section Printing

def hexDigitChar (n : ℕ) : Char := Char.ofNat (if n < 10 then 48 + n else 87 + n)

/-- `%02x` of a byte. -/
def hexByte (b : UInt8) : Text := [hexDigitChar (b.toNat / 16), hexDigitChar (b.toNat % 16)]

/-- `%04x` of a 16-bit word. -/
def hexWord (w : UInt16) : Text :=
  [hexDigitChar (w.toNat / 4096), hexDigitChar (w.toNat / 256 % 16),
    hexDigitChar (w.toNat / 16 % 16), hexDigitChar (w.toNat % 16)]

/-- `%d` of a byte. -/
def decimalByte (b : UInt8) : Text := Nat.toDigits 10 b.toNat

end Printing

section Scanning

/-- What `c_str` hands to a C function: the text up to its first null character. -/
def cStr (s : Text) : Text := s.takeWhile fun c => c.toNat ≠ 0

def isSpace (c : Char) : Bool := c.toNat = 32 || (9 ≤ c.toNat && c.toNat ≤ 13)

def hexValue (c : Char) : Option ℕ :=
  let n := c.toNat
  if 48 ≤ n ∧ n ≤ 57 then some (n - 48)
  else if 97 ≤ n ∧ n ≤ 102 then some (n - 87)
  else if 65 ≤ n ∧ n ≤ 70 then some (n - 55)
  else none

/-- At least one and at most `width` hexadecimal digits. -/
def scanDigits (width : ℕ) (s : Text) : Option (ℕ × Text) :=
  let digits := (s.take width).takeWhile fun c => (hexValue c).isSome
  if digits = [] then none
  else some (digits.foldl (fun n c => 16 * n + (hexValue c).getD 0) 0, s.drop digits.length)

/-- An optional sign counts towards the width. -/
def scanSign (width : ℕ) (s : Text) : Bool × ℕ × Text :=
  match width, s with
  | w + 1, '-' :: rest => (true, w, rest)
  | w + 1, '+' :: rest => (false, w, rest)
  | w, s => (false, w, s)

/-- An optional `0x` counts towards the width; digits have to follow it. -/
def scanPrefix (width : ℕ) (s : Text) : ℕ × Text :=
  match width, s with
  | w + 2, '0' :: 'x' :: rest => (w, rest)
  | w + 2, '0' :: 'X' :: rest => (w, rest)
  | w, s => (w, s)

/-- `%x` with a maximum width, into an `unsigned int`: leading white space is skipped and does not
count towards the width. -/
def scanHex (width : ℕ) (s : Text) : Option (UInt32 × Text) := do
  let (negative, width, s) := scanSign width (s.dropWhile isSpace)
  let (width, s) := scanPrefix width s
  let (n, rest) ← scanDigits width s
  pure (if negative then -UInt32.ofNat n else UInt32.ofNat n, rest)

/-- `sscanf` with `n` conversions `%02x` and colons between them: what was converted before the
input stopped to match. -/
def sscanfColonHex : ℕ → Text → List UInt32
  | 0, _ => []
  | n + 1, s =>
    match scanHex 2 s with
    | none => []
    | some (v, ':' :: rest) => v :: sscanfColonHex n rest
    | some (v, _) => [v]

def isDigit (c : Char) : Bool := 48 ≤ c.toNat && c.toNat ≤ 57

/-- A decimal number up to 255 without a leading zero. -/
def decimalOctet (s : Text) : Option UInt8 :=
  let n := s.foldl (fun n c => 10 * n + (c.toNat - 48)) 0
  if s ≠ [] ∧ s.all isDigit ∧ (s.length = 1 ∨ s.head? ≠ some '0') ∧ n ≤ 255
  then some (UInt8.ofNat n) else none

/-- `inet_pton` for `AF_INET`. -/
def inetPton (s : Text) : Option (Vector UInt8 4) :=
  match s.splitOn '.' with
  | [a, b, c, d] => do
    pure #v[← decimalOctet a, ← decimalOctet b, ← decimalOctet c, ← decimalOctet d]
  | _ => none

/-- One to four hexadecimal digits. -/
def hexGroup (s : Text) : Option UInt16 :=
  let n := s.foldl (fun n c => 16 * n + (hexValue c).getD 0) 0
  if s ≠ [] ∧ s.length ≤ 4 ∧ s.all fun c => (hexValue c).isSome
  then some (UInt16.ofNat n) else none

/-- Groups of which the last can be the dotted decimal notation of two. -/
def hexGroups : List Text → Option (List UInt16)
  | [] => some []
  | [s] =>
    if '.' ∈ s then do
      let v ← inetPton s
      pure [UInt16.ofNat (256 * v[0].toNat + v[1].toNat),
        UInt16.ofNat (256 * v[2].toNat + v[3].toNat)]
    else do pure [← hexGroup s]
  | s :: rest => do pure ((← hexGroup s) :: (← hexGroups rest))

/-- What stands in front of the first `::` and behind it. -/
def splitGap : Text → Option (Text × Text)
  | ':' :: ':' :: rest => some ([], rest)
  | c :: rest => (splitGap rest).map fun p => (c :: p.1, p.2)
  | [] => none

/-- `inet_pton` for `AF_INET6`, with the groups as numbers: there are eight of them, or fewer and a
`::` for those that are zero. -/
def inetPton6 (s : Text) : Option (Vector UInt16 8) := do
  let groups ← match splitGap s with
    | none => hexGroups (s.splitOn ':')
    | some (front, back) => do
      let front ← if front = [] then pure [] else (front.splitOn ':').mapM hexGroup
      let back ← if back = [] then pure [] else hexGroups (back.splitOn ':')
      if front.length + back.length < 8 then
        pure (front ++ List.replicate (8 - (front.length + back.length)) 0 ++ back)
      else none
  if h : groups.toArray.size = 8 then some ⟨groups.toArray, h⟩ else none

end Scanning

section Separators

theorem forall_groups {α : Type} {R : Text → α → Prop} {p : Text → Prop} {groups : List Text}
    {values : List α} (h : List.Forall₂ R groups values) (hp : ∀ {g : Text} {v : α}, R g v → p g) :
    ∀ g ∈ groups, p g :=
  ((List.forall₂_and_left groups values).mp (h.imp fun _ _ hg => ⟨hp hg, hg⟩)).1

theorem mem_of_mem_intercalate {sep c : Char} {groups : List Text}
    (h : c ∈ List.intercalate [sep] groups) : c = sep ∨ ∃ g ∈ groups, c ∈ g := by
  induction groups with
  | nil => simp at h
  | cons g groups ih =>
    cases groups with
    | nil => exact .inr ⟨g, by simp, by simpa using h⟩
    | cons g' groups =>
      rw [List.intercalate_cons_cons, List.mem_append, List.mem_append, List.mem_singleton] at h
      rcases h with (h | h) | h
      · exact .inr ⟨g, by simp, h⟩
      · exact .inl h
      · rcases ih h with h | ⟨k, hk, hc⟩
        · exact .inl h
        · exact .inr ⟨k, List.mem_cons_of_mem _ hk, hc⟩

theorem cStr_intercalate {sep : Char} (hsep : sep.toNat ≠ 0) {groups : List Text}
    (h : ∀ g ∈ groups, ∀ c ∈ g, c.toNat ≠ 0) :
    cStr (List.intercalate [sep] groups) = List.intercalate [sep] groups := by
  refine List.takeWhile_eq_self_iff.mpr fun c hc => ?_
  rcases mem_of_mem_intercalate hc with rfl | ⟨g, hg, hcg⟩
  · simpa using hsep
  · simpa using h g hg c hcg

end Separators

end Pgen.CText
