import PacketExpr.Proofs.Bytes.Number
import PacketExpr.Register.File

/-!
# Values in register files

The bytes of a value in a register file are the leading bytes of the words that it occupies.  So the
number that they denote is the number of those words without the padding, and it determines the
bytes.
-/

namespace PacketExpr

theorem wordCount_paddedSize (size : Nat) : wordCount (paddedSize size) = wordCount size := by
  simp only [wordCount, paddedSize]
  omega

namespace RegisterFile

@[simp]
theorem length_bytesAt (file : RegisterFile) (register : Register) (size : Nat) :
    (file.bytesAt register size).length = size := by
  have fits := le_paddedSize size
  simp only [bytesAt, List.length_take, Bytes.length_ofWords, List.length_map, List.length_range]
  rw [paddedSize_eq_wordCount] at fits
  omega

/-- The number of a value is that of its words without the digits of the padding. -/
theorem toNat_bytesAt (file : RegisterFile) (register : Register) (size : Nat) :
    Bytes.toNat (file.bytesAt register size) =
      bigEndian (fun offset => file.word (register.word + offset)) (wordCount size) /
        256 ^ (paddedSize size - size) := by
  rw [bytesAt, Bytes.toNat_take, Bytes.toNat_ofWords_range, Bytes.length_ofWords,
    List.length_map, List.length_range, paddedSize_eq_wordCount, Nat.mul_comm 4]

theorem take_bytesAt_paddedSize (file : RegisterFile) (register : Register) (size : Nat) :
    (file.bytesAt register (paddedSize size)).take size = file.bytesAt register size := by
  rw [bytesAt, bytesAt, wordCount_paddedSize, List.take_take, Nat.min_eq_left (le_paddedSize size)]

/-- Words that denote a number with cleared padding behind it hold the bytes of that number, and the
padding is zero. -/
theorem bytesAt_paddedSize_eq {file : RegisterFile} {register : Register} {size number : Nat}
    (number_lt : number < 256 ^ size)
    (denotes : bigEndian (fun offset => file.word (register.word + offset)) (wordCount size) =
      number * 256 ^ (paddedSize size - size)) :
    file.bytesAt register (paddedSize size) =
      Bytes.ofNat size number ++ List.replicate (paddedSize size - size) 0 := by
  apply Bytes.eq_of_toNat_eq
  · rw [length_bytesAt, List.length_append, Bytes.length_ofNat, List.length_replicate,
      Nat.add_sub_cancel' (le_paddedSize size)]
  · have whole : paddedSize (paddedSize size) - paddedSize size = 0 := by
      rw [paddedSize_eq_wordCount, wordCount_paddedSize, ← paddedSize_eq_wordCount, Nat.sub_self]
    rw [toNat_bytesAt, whole, Nat.pow_zero, Nat.div_one, wordCount_paddedSize, denotes,
      Bytes.toNat_append, Bytes.toNat_ofNat, Nat.mod_eq_of_lt number_lt, List.length_replicate,
      Bytes.toNat_replicate_zero, Nat.add_zero]

theorem bytesAt_eq_ofNat {file : RegisterFile} {register : Register} {size number : Nat}
    {padding : Bytes} (padded : file.bytesAt register (paddedSize size) =
      Bytes.ofNat size number ++ padding) :
    file.bytesAt register size = Bytes.ofNat size number := by
  rw [← take_bytesAt_paddedSize, padded, List.take_left' (Bytes.length_ofNat size number)]

end RegisterFile

end PacketExpr
