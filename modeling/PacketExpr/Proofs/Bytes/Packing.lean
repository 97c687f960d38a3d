import PacketExpr.Proofs.Bytes.Number

/-!
# Packing bytes into words

The words of a byte string hold all of its bytes: read back, they give the byte string, with zero
bytes behind it where it ends inside a word.  So a byte string consists of the leading bytes of its
words, and what is done to the words bit by bit is done to the bytes.
-/

namespace PacketExpr.Bytes

/-- A word that is made of a byte string holds its first four bytes, zero bytes standing for those
that are missing. -/
theorem ofWord_firstWord (bytes : Bytes) :
    ofWord (firstWord bytes) = bytes.take 4 ++ List.replicate (4 - bytes.length) 0 := by
  have word (a b c d : UInt8) : ofWord (firstWord [a, b, c, d]) = [a, b, c, d] := by
    have a_lt := a.toNat_lt
    have b_lt := b.toNat_lt
    have c_lt := c.toNat_lt
    have d_lt := d.toNat_lt
    simp only [ofWord, firstWord, List.getD_cons_zero, List.getD_cons_succ, UInt32.toNat_ofNat',
      List.cons.injEq, and_true, ← UInt8.toNat_inj, UInt8.toNat_ofNat']
    omega
  rcases bytes with _ | ⟨a, _ | ⟨b, _ | ⟨c, _ | ⟨d, rest⟩⟩⟩⟩
  · exact word 0 0 0 0
  · exact word a 0 0 0
  · exact word a b 0 0
  · exact word a b c 0
  · have padded : List.replicate (4 - (a :: b :: c :: d :: rest).length) (0 : UInt8) = [] := by
      simp
    rw [← firstWord_take, padded, List.append_nil]
    exact word a b c d

/-- As many words as a byte string needs give its bytes back. -/
theorem take_ofWords_wordAt {bytes : Bytes} {count : Nat} (room : bytes.length ≤ 4 * count) :
    (ofWords ((List.range count).map (wordAt bytes))).take bytes.length = bytes := by
  induction count generalizing bytes with
  | zero =>
      have empty : bytes = [] := List.eq_nil_of_length_eq_zero (by omega)
      rw [empty]
      rfl
  | succ count ih =>
      have later : (List.range count).map (wordAt bytes ∘ Nat.succ) =
          (List.range count).map (wordAt (bytes.drop 4)) := by
        apply List.map_congr_left
        intro index _
        simp only [Function.comp_apply, wordAt, List.drop_drop]
        congr 2
        omega
      have split : ofWords ((List.range (count + 1)).map (wordAt bytes)) =
          ofWord (firstWord bytes) ++
            ofWords ((List.range count).map (wordAt (bytes.drop 4))) := by
        rw [List.range_succ_eq_map, List.map_cons, List.map_map, later]
        rfl
      have roomForRest : (bytes.drop 4).length ≤ 4 * count := by
        rw [List.length_drop]
        omega
      have rest := ih roomForRest
      rw [List.length_drop] at rest
      rw [split, ofWord_firstWord, List.append_assoc]
      by_cases short : bytes.length ≤ 4
      · rw [List.take_of_length_le short, List.take_left]
      · have front : (bytes.take 4).length = 4 := by
          rw [List.length_take]
          omega
        have noPadding : 4 - bytes.length = 0 := by omega
        rw [noPadding, List.replicate_zero, List.nil_append, List.take_append, front, rest,
          List.take_of_length_le (by omega), List.take_append_drop]

/-- Words whose bytes are all the same give only that byte. -/
theorem take_ofWords_eq_replicate {words : List UInt32} {word : UInt32} {byte : UInt8} {size : Nat}
    (sameBytes : ofWord word = List.replicate 4 byte) (sameWords : ∀ other ∈ words, other = word)
    (room : size ≤ 4 * words.length) : (ofWords words).take size = List.replicate size byte := by
  rw [List.eq_replicate_iff]
  constructor
  · rw [List.length_take, length_ofWords, Nat.min_eq_left room]
  · intro part part_mem
    rcases List.mem_flatMap.mp (List.mem_of_mem_take part_mem) with ⟨other, other_mem, part_mem⟩
    rw [sameWords other other_mem, sameBytes] at part_mem
    exact List.eq_of_mem_replicate part_mem

theorem wordAt_of_length_le {bytes : Bytes} {index : Nat} (behind : bytes.length ≤ 4 * index) :
    wordAt bytes index = 0 := by
  rw [wordAt, List.drop_eq_nil_of_le behind]
  rfl

/-- Zero bytes behind a byte string change none of its words. -/
theorem wordAt_append_replicate_zero (bytes : Bytes) (size index : Nat) :
    wordAt (bytes ++ List.replicate size 0) index = wordAt bytes index := by
  have byte (position : Nat) :
      ((bytes ++ List.replicate size 0).drop (4 * index)).getD position 0 =
        (bytes.drop (4 * index)).getD position 0 := by
    simp only [List.getD_eq_getElem?_getD, List.getElem?_drop, List.getElem?_append]
    split
    · rfl
    · next behind =>
        rw [List.getElem?_eq_none (Nat.le_of_not_lt behind), List.getElem?_replicate]
        split <;> rfl
  simp only [wordAt, firstWord, byte]

theorem wordAt_replicate_zero (size index : Nat) : wordAt (List.replicate size 0) index = 0 := by
  have noBytes := wordAt_append_replicate_zero [] size index
  rw [List.nil_append] at noBytes
  rw [noBytes]
  exact wordAt_of_length_le (Nat.zero_le _)

/-- Padding does not change the words, since zeros are read behind the end anyway. -/
theorem wordAt_padded (bytes : Bytes) (index : Nat) :
    wordAt bytes.padded index = wordAt bytes index :=
  wordAt_append_replicate_zero bytes _ index

theorem take_padded {bytes : Bytes} {size : Nat} (size_le : size ≤ bytes.length) :
    bytes.padded.take size = bytes.take size :=
  List.take_append_of_le_length size_le

theorem getD_toWords (bytes : Bytes) (index : Nat) :
    (toWords bytes).getD index 0 = wordAt bytes index := by
  rw [List.getD_eq_getElem?_getD, getElem?_toWords]
  split
  · rfl
  · next behind =>
      simp only [wordCount] at behind
      rw [wordAt_of_length_le (by omega), Option.getD_none]

/-- The first `size` bytes of a sequence of words. -/
def leading (word : Nat → UInt32) (size : Nat) : Bytes :=
  (ofWords ((List.range (wordCount size)).map word)).take size

theorem leading_congr {first second : Nat → UInt32} {size : Nat}
    (agree : ∀ index < wordCount size, first index = second index) :
    leading first size = leading second size := by
  have sameWords : (List.range (wordCount size)).map first =
      (List.range (wordCount size)).map second := by
    apply List.map_congr_left
    intro index index_mem
    exact agree index (List.mem_range.mp index_mem)
  rw [leading, leading, sameWords]

/-- A byte string consists of the leading bytes of its words. -/
theorem leading_wordAt (bytes : Bytes) : leading (wordAt bytes) bytes.length = bytes := by
  apply take_ofWords_wordAt
  simp only [wordCount]
  omega

theorem leading_take {size other : Nat} (size_le : size ≤ other) (word : Nat → UInt32) :
    (leading word other).take size = leading word size := by
  have moreWords : wordCount other = wordCount size + (wordCount other - wordCount size) := by
    simp only [wordCount]
    omega
  have enough : size ≤ (ofWords ((List.range (wordCount size)).map word)).length := by
    rw [length_ofWords, List.length_map, List.length_range, Nat.mul_comm, ← paddedSize_eq_wordCount]
    exact le_paddedSize size
  rw [leading, List.take_take, Nat.min_eq_left size_le, moreWords, List.range_add, List.map_append,
    ofWords, List.flatMap_append]
  exact List.take_append_of_le_length enough

/-- Bytes that are packed into words come out again. -/
theorem leading_wordAt_of_le {bytes : Bytes} {size : Nat} (size_le : size ≤ bytes.length) :
    leading (wordAt bytes) size = bytes.take size := by
  rw [← leading_take size_le, leading_wordAt]

/-- An operation that works on numbers bit by bit does on a word what it does on its bytes. -/
theorem ofWord_zipWith {onWords : UInt32 → UInt32 → UInt32} {onBytes : UInt8 → UInt8 → UInt8}
    {onNumbers : Nat → Nat → Nat}
    (words : ∀ first second, (onWords first second).toNat = onNumbers first.toNat second.toNat)
    (bytes : ∀ first second, (onBytes first second).toNat = onNumbers first.toNat second.toNat)
    (high : ∀ first second place,
      onNumbers first second / 2 ^ place = onNumbers (first / 2 ^ place) (second / 2 ^ place))
    (low : ∀ first second place,
      onNumbers first second % 2 ^ place = onNumbers (first % 2 ^ place) (second % 2 ^ place))
    (first second : UInt32) :
    ofWord (onWords first second) = List.zipWith onBytes (ofWord first) (ofWord second) := by
  have byte (place divisor : Nat) (isPower : 2 ^ place = divisor) :
      UInt8.ofNat ((onWords first second).toNat / divisor) =
        onBytes (UInt8.ofNat (first.toNat / divisor)) (UInt8.ofNat (second.toNat / divisor)) := by
    apply UInt8.toNat_inj.mp
    rw [bytes, UInt8.toNat_ofNat', UInt8.toNat_ofNat', UInt8.toNat_ofNat', words, ← isPower, high,
      low]
  have last := byte 0 1 rfl
  simp only [Nat.div_one] at last
  simp only [ofWord, List.zipWith_cons_cons, List.zipWith_nil_left, byte 24 0x1000000 rfl,
    byte 16 0x10000 rfl, byte 8 0x100 rfl, last]

theorem ofWord_and (first second : UInt32) :
    ofWord (first &&& second) = List.zipWith (· &&& ·) (ofWord first) (ofWord second) :=
  ofWord_zipWith UInt32.toNat_and UInt8.toNat_and (fun _ _ _ => Nat.and_div_two_pow)
    (fun _ _ _ => Nat.and_mod_two_pow) first second

theorem ofWord_xor (first second : UInt32) :
    ofWord (first ^^^ second) = List.zipWith (· ^^^ ·) (ofWord first) (ofWord second) :=
  ofWord_zipWith UInt32.toNat_xor UInt8.toNat_xor (fun _ _ _ => Nat.xor_div_two_pow)
    (fun _ _ _ => Nat.xor_mod_two_pow) first second

/-- An operation that treats the bytes of a word one by one does so in a sequence of words. -/
theorem leading_zipWith {onWords : UInt32 → UInt32 → UInt32} {onBytes : UInt8 → UInt8 → UInt8}
    (bytewise : ∀ first second, ofWord (onWords first second) =
      List.zipWith onBytes (ofWord first) (ofWord second))
    (first second : Nat → UInt32) (size : Nat) :
    leading (fun index => onWords (first index) (second index)) size =
      List.zipWith onBytes (leading first size) (leading second size) := by
  have whole (indices : List Nat) :
      ofWords (indices.map fun index => onWords (first index) (second index)) =
        List.zipWith onBytes (ofWords (indices.map first)) (ofWords (indices.map second)) := by
    induction indices with
    | nil => rfl
    | cons index indices ih =>
        simp only [ofWords, List.map_cons, List.flatMap_cons] at ih ⊢
        rw [ih, bytewise, List.zipWith_append]
        rw [length_ofWord, length_ofWord]
  rw [leading, whole, List.take_zipWith]
  rfl

end PacketExpr.Bytes
