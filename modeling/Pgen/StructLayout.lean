import Pgen.ByteMemory

/-!
# Layouts of fixed-size records in byte memory

A layout is a bijection between the values of a type and the byte strings of one length. Records
are laid out by pairing the layouts of their members, so the laws of a record follow from those
of its members and no record proves them again.
-/
namespace Pgen.StructLayout
open ByteMemory

structure Layout (S : Type) where
  size : ℕ
  enc : S → Bytes
  dec : Bytes → S
  enc_length : ∀ s, (enc s).length = size
  dec_enc : ∀ s, dec (enc s) = s
  enc_dec : ∀ b, b.length = size → enc (dec b) = b

namespace Layout

variable {S T : Type}

attribute [simp] enc_length dec_enc

theorem enc_injective (L : Layout S) : Function.Injective L.enc := by
  intro s t h
  have hd := congrArg L.dec h
  simpa using hd

/-- Decoding looks at the first `size` bytes only. -/
theorem dec_take_enc (L : Layout S) (s : S) (rest : Bytes) :
    L.dec ((L.enc s ++ rest).take L.size) = s := by
  rw [List.take_left' (L.enc_length s), L.dec_enc]

theorem enc_dec_take (L : Layout S) {b : Bytes} (h : L.size ≤ b.length) :
    L.enc (L.dec (b.take L.size)) = b.take L.size :=
  L.enc_dec _ (by simpa using h)

def u8 : Layout UInt8 where
  size := 1
  enc x := [x]
  dec b := b.getD 0 0
  enc_length _ := rfl
  dec_enc _ := rfl
  enc_dec b h := by
    obtain ⟨x, rfl⟩ := List.length_eq_one_iff.mp h
    rfl

/-- A 16-bit word, least significant byte first. -/
def u16 : Layout UInt16 where
  size := 2
  enc x := [UInt8.ofNat x.toNat, UInt8.ofNat (x.toNat / 256)]
  dec b := UInt16.ofNat ((b.getD 0 0).toNat + 256 * (b.getD 1 0).toNat)
  enc_length _ := rfl
  dec_enc x := by
    apply UInt16.toNat_inj.mp
    have := x.toNat_lt
    simp only [List.getD_cons_zero, List.getD_cons_succ, UInt8.toNat_ofNat', UInt16.toNat_ofNat']
    omega
  enc_dec b h := by
    obtain ⟨x, y, rfl⟩ := List.length_eq_two.mp h
    have hx := x.toNat_lt
    have hy := y.toNat_lt
    simp only [List.getD_cons_zero, List.getD_cons_succ, UInt16.toNat_ofNat', List.cons.injEq,
      and_true, ← UInt8.toNat_inj, UInt8.toNat_ofNat']
    omega

/-- A 32-bit word, least significant byte first. -/
def u32 : Layout UInt32 where
  size := 4
  enc x := [UInt8.ofNat x.toNat, UInt8.ofNat (x.toNat / 256), UInt8.ofNat (x.toNat / 65536),
    UInt8.ofNat (x.toNat / 16777216)]
  dec b := UInt32.ofNat ((b.getD 0 0).toNat + 256 * (b.getD 1 0).toNat +
    65536 * (b.getD 2 0).toNat + 16777216 * (b.getD 3 0).toNat)
  enc_length _ := rfl
  dec_enc x := by
    apply UInt32.toNat_inj.mp
    have := x.toNat_lt
    simp only [List.getD_cons_zero, List.getD_cons_succ, UInt8.toNat_ofNat', UInt32.toNat_ofNat']
    omega
  enc_dec b h := by
    match b, h with
    | [x, y, z, w], _ =>
      have hx := x.toNat_lt
      have hy := y.toNat_lt
      have hz := z.toNat_lt
      have hw := w.toNat_lt
      simp only [List.getD_cons_zero, List.getD_cons_succ, UInt32.toNat_ofNat', List.cons.injEq,
        and_true, ← UInt8.toNat_inj, UInt8.toNat_ofNat']
      omega

/-- Two 4-bit fields sharing a byte, the one declared first in the low half. -/
def nibbles : Layout (BitVec 4 × BitVec 4) where
  size := 1
  enc p := [UInt8.ofNat (p.1.toNat + 16 * p.2.toNat)]
  dec b := (BitVec.ofNat 4 (b.getD 0 0).toNat, BitVec.ofNat 4 ((b.getD 0 0).toNat / 16))
  enc_length _ := rfl
  dec_enc p := by
    obtain ⟨lo, hi⟩ := p
    have hlo := lo.isLt
    have hhi := hi.isLt
    simp only [List.getD_cons_zero, UInt8.toNat_ofNat', Prod.mk.injEq, ← BitVec.toNat_inj,
      BitVec.toNat_ofNat]
    omega
  enc_dec b h := by
    obtain ⟨x, rfl⟩ := List.length_eq_one_iff.mp h
    have hx := x.toNat_lt
    simp only [List.getD_cons_zero, BitVec.toNat_ofNat, List.cons.injEq, and_true,
      ← UInt8.toNat_inj, UInt8.toNat_ofNat']
    omega

/-- An array of `n` bytes. -/
def array (n : ℕ) : Layout (Vector UInt8 n) where
  size := n
  enc v := v.toList
  dec b := ⟨((b ++ List.replicate n 0).take n).toArray, by simp⟩
  enc_length v := by simp
  dec_enc v := by
    apply Vector.toList_inj.mp
    simp [List.take_left' (show v.toList.length = n by simp)]
  enc_dec b h := by simp [List.take_left' h]

/-- Elements one behind the other. -/
def encList (L : Layout S) (l : List S) : Bytes := (l.map L.enc).flatten

def decList (L : Layout S) : ℕ → Bytes → List S
  | 0, _ => []
  | n + 1, b => L.dec (b.take L.size) :: decList L n (b.drop L.size)

theorem encList_length (L : Layout S) (l : List S) : (L.encList l).length = l.length * L.size := by
  induction l with
  | nil => simp [encList]
  | cons s l ih =>
    change (L.enc s ++ L.encList l).length = _
    rw [List.length_append, ih, L.enc_length, List.length_cons]
    ring

theorem decList_length (L : Layout S) (n : ℕ) (b : Bytes) : (L.decList n b).length = n := by
  induction n generalizing b with
  | zero => rfl
  | succ n ih => simp [decList, ih]

theorem decList_encList (L : Layout S) (l : List S) : L.decList l.length (L.encList l) = l := by
  induction l with
  | nil => rfl
  | cons s l ih =>
    change L.decList (l.length + 1) (L.enc s ++ L.encList l) = _
    rw [decList, List.take_left' (L.enc_length s), List.drop_left' (L.enc_length s), L.dec_enc, ih]

theorem encList_decList (L : Layout S) {n : ℕ} {b : Bytes} (h : b.length = n * L.size) :
    L.encList (L.decList n b) = b := by
  induction n generalizing b with
  | zero => simp_all [decList, encList]
  | succ n ih =>
    rw [Nat.succ_mul] at h
    have hdrop : (b.drop L.size).length = n * L.size := by
      rw [List.length_drop]
      omega
    change L.enc (L.dec (b.take L.size)) ++ L.encList (L.decList n (b.drop L.size)) = b
    rw [ih hdrop, L.enc_dec_take (by omega), List.take_append_drop]

/-- An array of `n` elements. -/
def vector (L : Layout S) (n : ℕ) : Layout (Vector S n) where
  size := n * L.size
  enc v := L.encList v.toList
  dec b := ⟨(L.decList n b).toArray, by simp [decList_length]⟩
  enc_length v := by simp [encList_length]
  dec_enc v := by
    apply Vector.toList_inj.mp
    have hdec := L.decList_encList v.toList
    rw [Vector.length_toList] at hdec
    simpa using hdec
  enc_dec b h := by simpa using L.encList_decList h

/-- The members of a record follow one another. -/
def pair (L : Layout S) (M : Layout T) : Layout (S × T) where
  size := L.size + M.size
  enc p := L.enc p.1 ++ M.enc p.2
  dec b := (L.dec (b.take L.size), M.dec (b.drop L.size))
  enc_length p := by simp
  dec_enc p := by
    simp [List.take_left' (L.enc_length p.1), List.drop_left' (L.enc_length p.1)]
  enc_dec b h := by
    have hl : (b.take L.size).length = L.size := by simp; omega
    have hm : (b.drop L.size).length = M.size := by simp; omega
    rw [L.enc_dec _ hl, M.enc_dec _ hm, List.take_append_drop]

/-- Give the members of a tuple their names. -/
def rename (L : Layout S) (e : T ≃ S) : Layout T where
  size := L.size
  enc t := L.enc (e t)
  dec b := e.symm (L.dec b)
  enc_length t := L.enc_length _
  dec_enc t := by simp
  enc_dec b h := by simp [L.enc_dec b h]

section Access

variable {σ : Type}

/-- Read through a pointer to `S` at `off`. -/
def load (L : Layout S) (buffer : Bytes) (off : ℕ) : Exec σ S := do
  let b ← ByteMemory.load buffer off L.size
  pure (L.dec b)

/-- Write all members through a pointer to `S` at `off`. -/
def store (L : Layout S) (off : ℕ) (s : S) : Exec Bytes Unit := ByteMemory.store off (L.enc s)

theorem load_ok (L : Layout S) {buffer : Bytes} {off : ℕ} (h : off + L.size ≤ buffer.length)
    (st : σ) : (L.load buffer off).run st = .ok (L.dec ((buffer.drop off).take L.size)) st := by
  unfold load
  rw [run_bind_ok (ByteMemory.load_ok h st)]
  rfl

theorem load_fault (L : Layout S) {buffer : Bytes} {off : ℕ} (h : buffer.length < off + L.size)
    (st : σ) : (L.load buffer off).run st = .error .loadFault st :=
  run_bind_error (ByteMemory.load_fault h st)

theorem load_eq_ok (L : Layout S) {buffer : Bytes} {off : ℕ} {s : S} {st st' : σ} :
    (L.load buffer off).run st = .ok s st' ↔
      off + L.size ≤ buffer.length ∧ s = L.dec ((buffer.drop off).take L.size) ∧ st' = st := by
  by_cases h : off + L.size ≤ buffer.length
  · simp [L.load_ok h, h, eq_comm]
  · simp [L.load_fault (Nat.not_le.mp h), h]

theorem load_enc (L : Layout S) (s : S) (rest : Bytes) (st : σ) :
    (L.load (L.enc s ++ rest) 0).run st = .ok s st := by
  rw [L.load_ok (by simp), List.drop_zero, L.dec_take_enc]

theorem store_ok (L : Layout S) {mem : Bytes} (s : S) (h : L.size ≤ mem.length) :
    (L.store 0 s).run mem = .ok () (L.enc s ++ mem.drop L.size) := by
  unfold store
  rw [ByteMemory.store_ok (by simpa using h), splice_zero, L.enc_length]

theorem keepsLength_store (L : Layout S) (off : ℕ) (s : S) : KeepsLength (L.store off s) :=
  KeepsLength.store _ _

end Access

end Layout

section NetworkOrder

/-- Host to network order of a 16-bit word on a little-endian host: the bytes are swapped. -/
def htons (x : UInt16) : UInt16 := (x <<< 8) ||| (x >>> 8)

def ntohs (x : UInt16) : UInt16 := (x <<< 8) ||| (x >>> 8)

theorem htons_toNat (x : UInt16) : (htons x).toNat = x.toNat % 256 * 256 + x.toNat / 256 := by
  have hx := x.toNat_lt
  have hl : x.toNat * 2 ^ 8 % 65536 = 2 ^ 8 * (x.toNat % 256) := by omega
  simp only [htons, UInt16.toNat_or, UInt16.toNat_shiftLeft, UInt16.toNat_shiftRight,
    UInt16.reduceToNat, Nat.reduceMod, Nat.reducePow]
  rw [Nat.shiftRight_eq_div_pow, Nat.shiftLeft_eq, hl, ← Nat.two_pow_add_eq_or_of_lt (by omega)]
  omega

@[simp] theorem ntohs_htons (x : UInt16) : ntohs (htons x) = x := by
  apply UInt16.toNat_inj.mp
  have hx := x.toNat_lt
  change (htons (htons x)).toNat = x.toNat
  rw [htons_toNat, htons_toNat]
  omega

@[simp] theorem htons_ntohs (x : UInt16) : htons (ntohs x) = x := ntohs_htons x

end NetworkOrder

end Pgen.StructLayout
