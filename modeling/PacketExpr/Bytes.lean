/-!
# Bytes and words

Messages are byte strings and register files are made of 32-bit words.  Every number in either of
them is big-endian, and everything in a message starts at a multiple of four bytes.  This file
gives the two roundings that follow from the word size, the conversions between bytes and words,
and `Bytes.toNat`, the number that a whole byte string denotes.
-/

namespace PacketExpr

abbrev Bytes := List UInt8

/-- Number of words that `size` bytes occupy, the last of them possibly in part. -/
def wordCount (size : Nat) : Nat := (size + 3) / 4

/-- Number of bytes that `size` bytes occupy once they are padded to whole words. -/
def paddedSize (size : Nat) : Nat := (size + 3) / 4 * 4

theorem paddedSize_eq_wordCount (size : Nat) : paddedSize size = wordCount size * 4 := rfl

theorem le_paddedSize (size : Nat) : size ≤ paddedSize size := by
  unfold paddedSize
  omega

theorem paddedSize_mod_four (size : Nat) : paddedSize size % 4 = 0 := by
  unfold paddedSize
  omega

namespace Bytes

/-- The number that the bytes denote in base 256, the first byte being the most significant. -/
def toNat (bytes : Bytes) : Nat :=
  bytes.foldl (fun number byte => number * 256 + byte.toNat) 0

def ofUInt16 (number : UInt16) : Bytes :=
  [UInt8.ofNat (number.toNat / 0x100), UInt8.ofNat number.toNat]

def toUInt16 (high low : UInt8) : UInt16 :=
  UInt16.ofNat (high.toNat * 0x100 + low.toNat)

def ofWord (word : UInt32) : Bytes :=
  [UInt8.ofNat (word.toNat / 0x1000000), UInt8.ofNat (word.toNat / 0x10000),
    UInt8.ofNat (word.toNat / 0x100), UInt8.ofNat word.toNat]

/-- The word that the first four bytes denote, missing bytes counting as zero. -/
def firstWord (bytes : Bytes) : UInt32 :=
  UInt32.ofNat ((bytes.getD 0 0).toNat * 0x1000000 + (bytes.getD 1 0).toNat * 0x10000
    + (bytes.getD 2 0).toNat * 0x100 + (bytes.getD 3 0).toNat)

/-- The word at word position `index` of a byte string that zero bytes continue without end. -/
def wordAt (bytes : Bytes) (index : Nat) : UInt32 :=
  firstWord (bytes.drop (4 * index))

def toWord? (bytes : Bytes) : Option UInt32 :=
  if bytes.length = 4 then some (firstWord bytes) else none

/-- The words that the bytes occupy, a partial last word being padded with zero bytes. -/
def toWords : Bytes → List UInt32
  | [] => []
  | byte :: rest => firstWord (byte :: rest.take 3) :: toWords (rest.drop 3)
termination_by bytes => bytes.length
decreasing_by simp only [List.length_drop, List.length_cons]; omega

def ofWords (words : List UInt32) : Bytes := words.flatMap ofWord

/-- The bytes with zero bytes behind them up to the end of the last word. -/
def padded (bytes : Bytes) : Bytes :=
  bytes ++ List.replicate (paddedSize bytes.length - bytes.length) 0

@[simp] theorem length_ofUInt16 (number : UInt16) : (ofUInt16 number).length = 2 := rfl

@[simp] theorem length_ofWord (word : UInt32) : (ofWord word).length = 4 := rfl

theorem toUInt16_ofUInt16 (number : UInt16) :
    toUInt16 (UInt8.ofNat (number.toNat / 0x100)) (UInt8.ofNat number.toNat) = number := by
  apply UInt16.toNat_inj.mp
  have bound : number.toNat < 0x10000 := number.toNat_lt
  simp only [toUInt16, UInt16.toNat_ofNat', UInt8.toNat_ofNat']
  omega

theorem firstWord_ofWord (word : UInt32) : firstWord (ofWord word) = word := by
  apply UInt32.toNat_inj.mp
  have bound : word.toNat < 0x100000000 := word.toNat_lt
  simp only [firstWord, ofWord, List.getD_cons_zero, List.getD_cons_succ, UInt32.toNat_ofNat',
    UInt8.toNat_ofNat']
  omega

theorem toWord?_ofWord (word : UInt32) : toWord? (ofWord word) = some word := by
  simp [toWord?, firstWord_ofWord]

@[simp] theorem length_ofWords (words : List UInt32) :
    (ofWords words).length = 4 * words.length := by
  induction words with
  | nil => rfl
  | cons word words ih =>
    simp only [ofWords, List.flatMap_cons, List.length_append, length_ofWord,
      List.length_cons] at ih ⊢
    omega

@[simp] theorem length_toWords (bytes : Bytes) :
    (toWords bytes).length = wordCount bytes.length := by
  fun_induction toWords bytes with
  | case1 => rfl
  | case2 byte rest ih =>
    simp only [List.length_cons, ih, wordCount, List.length_drop]
    omega

@[simp] theorem length_padded (bytes : Bytes) :
    bytes.padded.length = paddedSize bytes.length := by
  rw [padded, List.length_append, List.length_replicate, Nat.add_sub_cancel' (le_paddedSize _)]

theorem padded_of_wholeWords {bytes : Bytes} (wholeWords : bytes.length % 4 = 0) :
    bytes.padded = bytes := by
  have noPadding : paddedSize bytes.length - bytes.length = 0 := by
    simp only [paddedSize]
    omega
  rw [padded, noPadding, List.replicate_zero, List.append_nil]

/-- Behind whole words, the padding of all the bytes is that of the last ones. -/
theorem padded_append {front : Bytes} (wholeWords : front.length % 4 = 0) (back : Bytes) :
    padded (front ++ back) = front ++ back.padded := by
  have samePadding : paddedSize (front.length + back.length) - (front.length + back.length) =
      paddedSize back.length - back.length := by
    simp only [paddedSize]
    omega
  rw [padded, padded, List.length_append, samePadding, List.append_assoc]

/-- Bytes beyond the fourth have no part in the first word. -/
theorem firstWord_take (bytes : Bytes) : firstWord (bytes.take 4) = firstWord bytes := by
  simp [firstWord]

/-- The words of a byte string are those at its word positions, in order. -/
theorem getElem?_toWords (bytes : Bytes) (index : Nat) :
    (toWords bytes)[index]? =
      if index < wordCount bytes.length then some (wordAt bytes index) else none := by
  fun_induction toWords bytes generalizing index with
  | case1 => simp [wordCount]
  | case2 byte rest ih =>
    cases index with
    | zero =>
      have first : firstWord (byte :: rest.take 3) = firstWord (byte :: rest) :=
        firstWord_take (byte :: rest)
      have someWord : 0 < wordCount (byte :: rest).length := by
        simp only [wordCount, List.length_cons]
        omega
      rw [List.getElem?_cons_zero, if_pos someWord, first]
      rfl
    | succ index =>
      have later : index < wordCount (rest.drop 3).length ↔
          index + 1 < wordCount (byte :: rest).length := by
        simp only [wordCount, List.length_drop, List.length_cons]
        omega
      have position : 4 * (index + 1) = (3 + 4 * index) + 1 := by omega
      rw [List.getElem?_cons_succ, ih]
      simp only [later, wordAt, List.drop_drop, position, List.drop_succ_cons]

end Bytes

end PacketExpr
