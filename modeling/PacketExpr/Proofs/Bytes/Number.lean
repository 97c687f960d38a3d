import PacketExpr.Bytes
import Mathlib.Data.List.Basic
import Mathlib.Data.List.Induction
import Mathlib.Tactic.Ring

/-!
# Numbers of byte strings and of words

A byte string is a numeral in base 256 and a run of words is one in base 2 ^ 32.  This file relates
the two: `Bytes.toNat` is injective on byte strings of one length, `Bytes.ofNat` inverts it, and the
bytes of consecutive words denote the number that `bigEndian` gives for the words.

The rest of a partial last word counts as padding.  Cutting it off divides the number of the words
by a power of 256, and this is how a value of any length is seen in whole words.
-/

namespace PacketExpr

namespace Bytes

/-- The `size` bytes of a number; what does not fit is dropped. -/
def ofNat : (size number : Nat) → Bytes
  | 0, _ => []
  | size + 1, number => ofNat size (number / 256) ++ [UInt8.ofNat number]

@[simp]
theorem length_ofNat (size number : Nat) : (ofNat size number).length = size := by
  induction size generalizing number with
  | zero => rfl
  | succ size ih => simp [ofNat, ih]

@[simp]
theorem toNat_nil : toNat [] = 0 := rfl

theorem toNat_concat (bytes : Bytes) (byte : UInt8) :
    toNat (bytes ++ [byte]) = toNat bytes * 256 + byte.toNat := by
  simp [toNat]

theorem toNat_append (first second : Bytes) :
    toNat (first ++ second) = toNat first * 256 ^ second.length + toNat second := by
  induction second using List.reverseRecOn with
  | nil => simp
  | append_singleton second byte ih =>
      rw [← List.append_assoc, toNat_concat, ih, toNat_concat, List.length_append,
        List.length_singleton, pow_succ]
      ring

theorem toNat_lt (bytes : Bytes) : toNat bytes < 256 ^ bytes.length := by
  induction bytes using List.reverseRecOn with
  | nil => simp
  | append_singleton bytes byte ih =>
      have byte_lt : byte.toNat < 256 := byte.toNat_lt
      rw [toNat_concat, List.length_append, List.length_singleton, pow_succ]
      omega

theorem toNat_replicate_zero (size : Nat) : toNat (List.replicate size 0) = 0 := by
  induction size with
  | zero => rfl
  | succ size ih => rw [List.replicate_succ', toNat_concat, ih]; rfl

/-- A number that is too large for its bytes loses its highest digits. -/
theorem toNat_ofNat (size number : Nat) : toNat (ofNat size number) = number % 256 ^ size := by
  induction size generalizing number with
  | zero => simp [ofNat, Nat.mod_one]
  | succ size ih =>
      rw [ofNat, toNat_concat, ih, UInt8.toNat_ofNat', pow_succ (256 : Nat) size,
        Nat.mul_comm (256 ^ size), Nat.mod_mul]
      omega

/-- The bytes in front of a string are its number divided by the weight of those behind. -/
theorem toNat_take (bytes : Bytes) (size : Nat) :
    toNat (bytes.take size) = toNat bytes / 256 ^ (bytes.length - size) := by
  have split := toNat_append (bytes.take size) (bytes.drop size)
  have rest_lt := toNat_lt (bytes.drop size)
  rw [List.take_append_drop, List.length_drop] at split
  rw [List.length_drop] at rest_lt
  rw [split, Nat.mul_comm, Nat.mul_add_div (Nat.pow_pos (by decide)), Nat.div_eq_of_lt rest_lt,
    Nat.add_zero]

/-- Two byte strings of one length are equal if they denote the same number. -/
theorem eq_of_toNat_eq {first second : Bytes} (sameLength : first.length = second.length)
    (sameNumber : toNat first = toNat second) : first = second := by
  induction first using List.reverseRecOn generalizing second with
  | nil => exact (List.eq_nil_of_length_eq_zero sameLength.symm).symm
  | append_singleton first byte ih =>
      rcases List.eq_nil_or_concat' second with rfl | ⟨second, other, rfl⟩
      · simp at sameLength
      · rw [toNat_concat, toNat_concat] at sameNumber
        have byte_lt : byte.toNat < 256 := byte.toNat_lt
        have other_lt : other.toNat < 256 := other.toNat_lt
        have sameStart : first = second := by
          apply ih
          · simpa using sameLength
          · omega
        have sameByte : byte = other := UInt8.toNat_inj.mp (by omega)
        rw [sameStart, sameByte]

@[simp]
theorem toNat_ofWord (word : UInt32) : toNat (ofWord word) = word.toNat := by
  have word_lt : word.toNat < 0x100000000 := word.toNat_lt
  simp only [toNat, ofWord, List.foldl_cons, List.foldl_nil, UInt8.toNat_ofNat']
  omega

end Bytes

/-- The number that the first `count` words of a sequence denote, the first word being the most
significant. -/
def bigEndian (word : Nat → UInt32) : (count : Nat) → Nat
  | 0 => 0
  | count + 1 => bigEndian word count * 2 ^ 32 + (word count).toNat

theorem bigEndian_congr {first second : Nat → UInt32} {count : Nat}
    (agree : ∀ index < count, first index = second index) :
    bigEndian first count = bigEndian second count := by
  induction count with
  | zero => rfl
  | succ count ih =>
      rw [bigEndian, bigEndian, agree count (by omega), ih]
      intro index index_lt
      exact agree index (by omega)

/-- The words of a number are its digits, so no other words denote it. -/
theorem eq_of_bigEndian_eq {first second : Nat → UInt32} {count : Nat}
    (sameNumber : bigEndian first count = bigEndian second count) :
    ∀ index < count, first index = second index := by
  induction count with
  | zero => intro index index_lt; omega
  | succ count ih =>
      rw [bigEndian, bigEndian] at sameNumber
      have first_lt := (first count).toNat_lt
      have second_lt := (second count).toNat_lt
      have sameFront : bigEndian first count = bigEndian second count := by omega
      have sameLast : first count = second count := UInt32.toNat_inj.mp (by omega)
      intro index index_lt
      rcases Nat.lt_succ_iff_lt_or_eq.mp index_lt with earlier | rfl
      · exact ih sameFront index earlier
      · exact sameLast

/-- Words are read as one number byte by byte as they are word by word. -/
theorem Bytes.toNat_ofWords_range (word : Nat → UInt32) (count : Nat) :
    Bytes.toNat (Bytes.ofWords ((List.range count).map word)) = bigEndian word count := by
  induction count with
  | zero => rfl
  | succ count ih =>
      simp only [Bytes.ofWords] at ih ⊢
      rw [List.range_succ, List.map_append, List.flatMap_append, Bytes.toNat_append, ih]
      simp [bigEndian]

end PacketExpr
