import PacketExpr.Bytes
import Mathlib.Data.List.GetD

/-!
# Bits of byte strings

The bits of a byte string are numbered from its first byte on, and in each byte from the most
significant bit down, as it is done for addresses.  A byte string is determined by its length and
its bits.
-/

namespace PacketExpr.Bytes

/-- The bit at a position of a byte string; behind the end all bits are clear. -/
def bit (bytes : Bytes) (index : Nat) : Bool :=
  (bytes.getD (index / 8) 0).toNat.testBit (7 - index % 8)

theorem bit_of_length_le {bytes : Bytes} {index : Nat} (behind : 8 * bytes.length ≤ index) :
    bytes.bit index = false := by
  have absent : bytes.getD (index / 8) 0 = 0 := List.getD_eq_default _ _ (by omega)
  rw [bit, absent]
  exact Nat.zero_testBit _

/-- Byte strings of one length with the same bits are the same. -/
theorem eq_of_bit_eq {first second : Bytes} (sameLength : first.length = second.length)
    (sameBits : ∀ index, first.bit index = second.bit index) : first = second := by
  apply List.ext_getElem sameLength
  intro position inFirst inSecond
  apply UInt8.toNat_inj.mp
  apply Nat.eq_of_testBit_eq
  intro place
  by_cases low : place < 8
  · have same := sameBits (8 * position + (7 - place))
    have inByte : (8 * position + (7 - place)) / 8 = position := by omega
    have fromTop : 7 - (8 * position + (7 - place)) % 8 = place := by omega
    rwa [bit, bit, inByte, fromTop, List.getD_eq_getElem _ _ inFirst,
      List.getD_eq_getElem _ _ inSecond] at same
  · have high (byte : UInt8) : byte.toNat.testBit place = false := by
      apply Nat.testBit_lt_two_pow
      calc byte.toNat < 2 ^ 8 := byte.toNat_lt
        _ ≤ 2 ^ place := Nat.pow_le_pow_right (by decide) (by omega)
    rw [high, high]

theorem bit_zipWith_and (first second : Bytes) (index : Nat) :
    bit (List.zipWith (· &&& ·) first second) index = (first.bit index && second.bit index) := by
  have byte : (List.zipWith (· &&& ·) first second).getD (index / 8) 0 =
      first.getD (index / 8) 0 &&& second.getD (index / 8) 0 := by
    simp only [List.getD_eq_getElem?_getD, List.getElem?_zipWith]
    cases first[index / 8]? with
    | none => simp
    | some byte => cases second[index / 8]? <;> simp
  rw [bit, byte, UInt8.toNat_and, Nat.testBit_and, bit, bit]

end PacketExpr.Bytes
