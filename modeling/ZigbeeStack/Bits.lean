import Mathlib.Data.Nat.Basic
import Mathlib.Tactic.Ring
import Mathlib.Tactic.Common

/-! Little-endian byte strings of fixed width, and bit ranges inside a machine word. -/
namespace Bits

def toLeBytes : Nat → Nat → List UInt8
  | 0, _ => []
  | n+1, x => UInt8.ofNat x :: toLeBytes n (x / 256)

def ofLeBytes : List UInt8 → Nat
  | [] => 0
  | b :: bs => b.toNat + 256 * ofLeBytes bs

@[simp] theorem toLeBytes_length (n x : Nat) : (toLeBytes n x).length = n := by
  induction n generalizing x with
  | zero => rfl
  | succ n ih => simp [toLeBytes, ih]

theorem ofLeBytes_toLeBytes (n x : Nat) (h : x < 256 ^ n) : ofLeBytes (toLeBytes n x) = x := by
  induction n generalizing x with
  | zero => simp only [Nat.pow_zero, Nat.lt_one_iff] at h; simp [toLeBytes, ofLeBytes, h]
  | succ n ih =>
    have hq : x / 256 < 256 ^ n := Nat.div_lt_of_lt_mul (by rw [Nat.mul_comm]; exact h)
    have hb : (UInt8.ofNat x).toNat = x % 256 := by simp
    rw [toLeBytes, ofLeBytes, ih _ hq, hb]
    omega

theorem ofLeBytes_lt (bs : List UInt8) : ofLeBytes bs < 256 ^ bs.length := by
  induction bs with
  | nil => simp [ofLeBytes]
  | cons b bs ih =>
    have hb : b.toNat < 256 := b.toNat_lt
    rw [ofLeBytes, List.length_cons, Nat.pow_succ]
    omega

theorem toLeBytes_ofLeBytes (bs : List UInt8) : toLeBytes bs.length (ofLeBytes bs) = bs := by
  induction bs with
  | nil => rfl
  | cons b bs ih =>
    have hb : b.toNat < 256 := b.toNat_lt
    have hrest : (b.toNat + 256 * ofLeBytes bs) / 256 = ofLeBytes bs := by omega
    have hbyte : UInt8.ofNat (b.toNat + 256 * ofLeBytes bs) = b := UInt8.toNat_inj.mp (by simp)
    rw [ofLeBytes, List.length_cons, toLeBytes, hrest, ih, hbyte]

def toBeBytes (n x : Nat) : List UInt8 := (toLeBytes n x).reverse

def ofBeBytes (bs : List UInt8) : Nat := ofLeBytes bs.reverse

@[simp] theorem toBeBytes_length (n x : Nat) : (toBeBytes n x).length = n := by
  simp [toBeBytes]

theorem ofBeBytes_toBeBytes (n x : Nat) (h : x < 256 ^ n) : ofBeBytes (toBeBytes n x) = x := by
  rw [ofBeBytes, toBeBytes, List.reverse_reverse, ofLeBytes_toLeBytes n x h]

theorem ofBeBytes_lt (bs : List UInt8) : ofBeBytes bs < 256 ^ bs.length := by
  simpa [ofBeBytes] using ofLeBytes_lt bs.reverse

theorem toBeBytes_ofBeBytes {n : Nat} {bs : List UInt8} (h : bs.length = n) :
    toBeBytes n (ofBeBytes bs) = bs := by
  have hle := toLeBytes_ofLeBytes bs.reverse
  rw [List.length_reverse, h] at hle
  rw [toBeBytes, ofBeBytes, hle, List.reverse_reverse]

theorem toBeBytes_succ (n x : Nat) :
    toBeBytes (n + 1) x = UInt8.ofNat (x / 256 ^ n) :: toBeBytes n x := by
  have hlast (n x : Nat) : toBeBytes (n + 1) x = toBeBytes n (x / 256) ++ [UInt8.ofNat x] := by
    simp [toBeBytes, toLeBytes]
  induction n generalizing x with
  | zero => simp [toBeBytes, toLeBytes]
  | succ n ih =>
    rw [hlast, ih, hlast n x, Nat.div_div_eq_div_mul, ← Nat.pow_succ', List.cons_append]

/-- A number that fits into fewer bytes has zeros in front. -/
theorem toBeBytes_add_of_lt (m : Nat) {n x : Nat} (h : x < 256 ^ n) :
    toBeBytes (m + n) x = List.replicate m 0 ++ toBeBytes n x := by
  induction m with
  | zero => simp
  | succ m ih =>
    have hzero : x / 256 ^ (m + n) = 0 :=
      Nat.div_eq_of_lt (h.trans_le (Nat.pow_le_pow_right (by decide) (by omega)))
    rw [show m + 1 + n = (m + n) + 1 by omega, toBeBytes_succ, hzero, ih]
    rfl

class Word (α : Type) where
  size : Nat
  toNat : α → Nat
  ofNat : Nat → α
  toNat_lt : ∀ x, toNat x < 256 ^ size
  ofNat_toNat : ∀ x, ofNat (toNat x) = x

instance : Word UInt8 := ⟨1, UInt8.toNat, UInt8.ofNat, UInt8.toNat_lt, fun _ => UInt8.ofNat_toNat⟩

instance : Word UInt16 :=
  ⟨2, UInt16.toNat, UInt16.ofNat, UInt16.toNat_lt, fun _ => UInt16.ofNat_toNat⟩

instance : Word UInt32 :=
  ⟨4, UInt32.toNat, UInt32.ofNat, UInt32.toNat_lt, fun _ => UInt32.ofNat_toNat⟩

instance : Word UInt64 :=
  ⟨8, UInt64.toNat, UInt64.ofNat, UInt64.toNat_lt, fun _ => UInt64.ofNat_toNat⟩

class WordField (β : Type) (α : outParam Type) where
  wrap : α → β
  field : β → α
  wrap_field : ∀ b, wrap (field b) = b

theorem two_pow_bits (n : Nat) : 256 ^ n = 2 ^ (8 * n) := by
  rw [Nat.pow_mul]

theorem Word.toNat_lt_two_pow {α : Type} [Word α] (x : α) : toNat x < 2 ^ (8 * size α) := by
  rw [← two_pow_bits]
  exact toNat_lt x

theorem Word.ext {α : Type} [Word α] {x y : α}
    (h : ∀ i, (toNat x).testBit i = (toNat y).testBit i) : x = y := by
  rw [← ofNat_toNat x, ← ofNat_toNat y, Nat.eq_of_testBit_eq h]

@[simp] theorem toNat_uint8 (x : UInt8) : Word.toNat x = x.toNat := rfl
@[simp] theorem toNat_uint16 (x : UInt16) : Word.toNat x = x.toNat := rfl
@[simp] theorem size_uint8 : Word.size UInt8 = 1 := rfl
@[simp] theorem size_uint16 : Word.size UInt16 = 2 := rfl

/-- Bit fields, by what the documentation of such a crate says: bits `msb` down to `lsb` of a word
are read as a number, and set to the low bits of one, while all other bits stay. -/
class BitRange (α : Type) [Word α] where
  bitRange : α → Nat → Nat → α
  setBitRange : α → Nat → Nat → α → α
  testBit_bitRange : ∀ (x : α) {msb lsb : Nat}, lsb ≤ msb → msb < 8 * Word.size α → ∀ i,
    (Word.toNat (bitRange x msb lsb)).testBit i =
      (decide (lsb + i ≤ msb) && (Word.toNat x).testBit (lsb + i))
  testBit_setBitRange : ∀ (x v : α) {msb lsb : Nat}, lsb ≤ msb → msb < 8 * Word.size α → ∀ i,
    (Word.toNat (setBitRange x msb lsb v)).testBit i =
      if lsb ≤ i ∧ i ≤ msb then (Word.toNat v).testBit (i - lsb) else (Word.toNat x).testBit i

export BitRange (bitRange setBitRange)

section Shifts
variable {w : Nat}

/- How the crate computes them: with shifts and a mask. -/
def getBits (x : BitVec w) (msb lsb : Nat) : BitVec w :=
  (x <<< (w - msb - 1)) >>> (w - msb - 1 + lsb)

def setBits (x : BitVec w) (msb lsb : Nat) (v : BitVec w) : BitVec w :=
  let mask := getBits (BitVec.allOnes w) msb lsb <<< lsb
  (x &&& ~~~mask) ||| ((v <<< lsb) &&& mask)

theorem getLsbD_getBits (x : BitVec w) {msb : Nat} (lsb : Nat) (hm : msb < w) (i : Nat) :
    (getBits x msb lsb).getLsbD i = (decide (lsb + i ≤ msb) && x.getLsbD (lsb + i)) := by
  simp only [getBits, BitVec.getLsbD_ushiftRight, BitVec.getLsbD_shiftLeft]
  by_cases h : lsb + i ≤ msb
  · have h1 : w - msb - 1 + lsb + i < w := by omega
    have h2 : ¬ w - msb - 1 + lsb + i < w - msb - 1 := by omega
    have h3 : w - msb - 1 + lsb + i - (w - msb - 1) = lsb + i := by omega
    simp [h, h1, h2, h3]
  · have h1 : ¬ w - msb - 1 + lsb + i < w := by omega
    simp [h, h1]

theorem getLsbD_setBits (x v : BitVec w) {msb : Nat} (lsb : Nat) (hm : msb < w) (i : Nat) :
    (setBits x msb lsb v).getLsbD i =
      if lsb ≤ i ∧ i ≤ msb then v.getLsbD (i - lsb) else x.getLsbD i := by
  by_cases hi : i < w
  · have hmask : (getBits (BitVec.allOnes w) msb lsb <<< lsb).getLsbD i =
        decide (lsb ≤ i ∧ i ≤ msb) := by
      rw [BitVec.getLsbD_shiftLeft]
      by_cases hl : lsb ≤ i
      · have hidx : lsb + (i - lsb) = i := by omega
        have hone : (getBits (BitVec.allOnes w) msb lsb).getLsbD (i - lsb) = decide (i ≤ msb) := by
          rw [getLsbD_getBits _ _ hm, hidx]
          simp [hi]
        simp [hone, hl, hi]
      · simp [hl, show i < lsb by omega]
    simp only [setBits, BitVec.getLsbD_or, BitVec.getLsbD_and, BitVec.getLsbD_not, hmask,
      BitVec.getLsbD_shiftLeft]
    by_cases h : lsb ≤ i ∧ i ≤ msb
    · simp [h, hi, show ¬ i < lsb by omega]
    · simp [h, hi]
  · rw [if_neg (by omega), BitVec.getLsbD_of_ge _ _ (by omega), BitVec.getLsbD_of_ge _ _ (by omega)]

end Shifts

instance : BitRange UInt8 where
  bitRange x msb lsb := ⟨getBits x.toBitVec msb lsb⟩
  setBitRange x msb lsb v := ⟨setBits x.toBitVec msb lsb v.toBitVec⟩
  testBit_bitRange x _ lsb _ hm := getLsbD_getBits x.toBitVec lsb hm
  testBit_setBitRange x v _ lsb _ hm := getLsbD_setBits x.toBitVec v.toBitVec lsb hm

instance : BitRange UInt16 where
  bitRange x msb lsb := ⟨getBits x.toBitVec msb lsb⟩
  setBitRange x msb lsb v := ⟨setBits x.toBitVec msb lsb v.toBitVec⟩
  testBit_bitRange x _ lsb _ hm := getLsbD_getBits x.toBitVec lsb hm
  testBit_setBitRange x v _ lsb _ hm := getLsbD_setBits x.toBitVec v.toBitVec lsb hm

section BitRange
variable {α : Type} [Word α] [BitRange α] {msb lsb msb' lsb' : Nat}
open BitRange

/-- Reading a range that was just set gives the low bits of the value set. -/
theorem bitRange_set_self (x v : α) (hl : lsb ≤ msb) (hm : msb < 8 * Word.size α) :
    bitRange (setBitRange x msb lsb v) msb lsb = bitRange v (msb - lsb) 0 := by
  refine Word.ext fun i => ?_
  rw [testBit_bitRange _ hl hm, testBit_bitRange _ (Nat.zero_le _) (by omega),
    testBit_setBitRange _ _ hl hm]
  by_cases h : lsb + i ≤ msb
  · simp [h, show i ≤ msb - lsb by omega]
  · simp [h, show ¬ i ≤ msb - lsb by omega]

/-- Setting a range does not touch a disjoint one. -/
theorem bitRange_set_of_disjoint (x v : α) (hl : lsb ≤ msb) (hm : msb < 8 * Word.size α)
    (hl' : lsb' ≤ msb') (hm' : msb' < 8 * Word.size α) (hd : msb < lsb' ∨ msb' < lsb) :
    bitRange (setBitRange x msb' lsb' v) msb lsb = bitRange x msb lsb := by
  refine Word.ext fun i => ?_
  rw [testBit_bitRange _ hl hm, testBit_bitRange _ hl hm, testBit_setBitRange _ _ hl' hm']
  by_cases h : lsb + i ≤ msb
  · rw [if_neg (by omega)]
  · simp [h]

/-- The low bits of a word are what is left of it modulo a power of two. -/
theorem toNat_bitRange_zero (x : α) (hm : msb < 8 * Word.size α) :
    Word.toNat (bitRange x msb 0) = Word.toNat x % 2 ^ (msb + 1) := by
  refine Nat.eq_of_testBit_eq fun i => ?_
  rw [testBit_bitRange _ (Nat.zero_le _) hm, Nat.testBit_mod_two_pow, Nat.zero_add]
  simp only [Nat.lt_succ_iff]

theorem bitRange_of_lt (x : α) (hm : msb < 8 * Word.size α) (h : Word.toNat x < 2 ^ (msb + 1)) :
    bitRange x msb 0 = x := by
  rw [← Word.ofNat_toNat (bitRange x msb 0), toNat_bitRange_zero x hm, Nat.mod_eq_of_lt h,
    Word.ofNat_toNat]

theorem toNat_bitRange_lt (x : α) (hl : lsb ≤ msb) (hm : msb < 8 * Word.size α) :
    Word.toNat (bitRange x msb lsb) < 2 ^ (msb + 1 - lsb) := by
  refine Nat.lt_pow_two_of_testBit _ fun i hi => ?_
  rw [testBit_bitRange _ hl hm, decide_eq_false (by omega), Bool.false_and]

end BitRange

end Bits
