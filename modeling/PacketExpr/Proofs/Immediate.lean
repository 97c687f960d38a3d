import PacketExpr.Immediate
import PacketExpr.Proofs.Attribute.Emission
import PacketExpr.Proofs.Bytes.Packing

/-!
# Immediates and their bytes

An immediate that was packed from bytes has exactly these bytes, and they make the same immediate
again.  It is zero if and only if all of its bytes are.  Its bytes are written inside a nested
attribute.
-/

namespace PacketExpr.Immediate

/-- The attribute that holds the bytes of a value. -/
def valueAttribute (bytes : Bytes) : Attribute := ⟨UInt16.ofNat valueKind, bytes⟩

theorem length_bytes (value : Immediate) : value.bytes.length = value.size := by
  have size_le := value.size_le
  rw [bytes, List.length_take, Bytes.length_ofWords, Vector.length_toList]
  omega

/-- Bytes pack into an immediate of their size that holds their words. -/
theorem ofBytes?_eq_some_iff {bytes : Bytes} {value : Immediate} :
    ofBytes? bytes = some value ↔
      value.size = bytes.length ∧
        value.words = Vector.ofFn fun position => Bytes.wordAt bytes position := by
  simp only [ofBytes?]
  constructor
  · intro packs
    split at packs
    · have same := Option.some.inj packs
      rw [← same]
      exact ⟨rfl, rfl⟩
    · cases packs
  · rcases value with ⟨words, size, size_pos, size_le⟩
    rintro ⟨sameSize, sameWords⟩
    dsimp only at sameSize sameWords
    subst sameSize sameWords
    rw [dif_pos ⟨size_pos, size_le⟩]

theorem toList_words_of_ofBytes? {bytes : Bytes} {value : Immediate}
    (packs : ofBytes? bytes = some value) :
    value.words.toList = (List.range 64).map (Bytes.wordAt bytes) := by
  rw [(ofBytes?_eq_some_iff.mp packs).2]
  apply List.ext_getElem
  · simp
  · intro position _ _
    simp

/-- Whatever packs into an immediate is what the immediate has as its bytes. -/
theorem bytes_of_ofBytes? {bytes : Bytes} {value : Immediate}
    (packs : ofBytes? bytes = some value) : value.bytes = bytes := by
  have sameSize := (ofBytes?_eq_some_iff.mp packs).1
  have room : bytes.length ≤ 4 * 64 := by
    have size_le := value.size_le
    omega
  rw [Immediate.bytes, toList_words_of_ofBytes? packs, sameSize]
  exact Bytes.take_ofWords_wordAt room

theorem word?_of_ofBytes? {bytes : Bytes} {value : Immediate} (packs : ofBytes? bytes = some value)
    {position : Nat} (position_lt : position < 64) :
    value.word? position = some (Bytes.wordAt bytes position) := by
  simp only [word?]
  rw [(ofBytes?_eq_some_iff.mp packs).2]
  simp [position_lt]

/-- An immediate that its bytes pack into holds their words. -/
theorem word_eq_wordAt {value : Immediate} (packs : ofBytes? value.bytes = some value)
    {offset : Nat} (offset_lt : offset < 64) :
    value.word offset = Bytes.wordAt value.bytes offset := by
  rw [word, word?_of_ofBytes? packs offset_lt, Option.getD_some]

/-- An immediate that is zero has no bytes but zero. -/
theorem bytes_of_isZero {value : Immediate} (zero : value.isZero = true) :
    value.bytes = List.replicate value.size 0 := by
  have zeroWord : Bytes.ofWord 0 = List.replicate 4 0 := rfl
  apply Bytes.take_ofWords_eq_replicate zeroWord
  · intro other other_mem
    rw [Immediate.isZero, Vector.all_eq_true'] at zero
    exact beq_iff_eq.mp (zero other (Vector.mem_toList_iff.mp other_mem))
  · have size_le := value.size_le
    simp only [Vector.length_toList]
    omega

/-- The words behind the value and the padding are zero, so it is enough that the bytes are. -/
theorem isZero_iff {value : Immediate} (packs : ofBytes? value.bytes = some value) :
    value.isZero = true ↔ value.bytes = List.replicate value.size 0 := by
  constructor
  · exact bytes_of_isZero
  · intro zeroBytes
    have sameWords := (ofBytes?_eq_some_iff.mp packs).2
    rw [isZero, Vector.all_eq_true, sameWords, zeroBytes]
    intro position inside
    simp [Bytes.wordAt_replicate_zero]

/-- The bytes of a word make the immediate of the word. -/
theorem ofBytes?_ofWord (word : UInt32) : ofBytes? (Bytes.ofWord word) = some (ofWord word) := by
  have words : (fun position : Fin 64 => Bytes.wordAt (Bytes.ofWord word) position) =
      fun position => if position.val = 0 then word else 0 := by
    funext position
    split
    · next first =>
        rw [first]
        exact Bytes.firstWord_ofWord word
    · next later =>
        have behind : (Bytes.ofWord word).drop (4 * position.val) = [] := by
          rw [List.drop_eq_nil_iff, Bytes.length_ofWord]
          omega
        rw [Bytes.wordAt, behind]
        rfl
  rw [ofBytes?_eq_some_iff, words]
  exact ⟨rfl, rfl⟩

theorem word_ofWord (word : UInt32) : (ofWord word).word 0 = word := by
  simp [Immediate.word, word?, ofWord]

/-- Four bytes are those of the first word of the immediate that they pack into. -/
theorem ofWord_word_zero {bytes : Bytes} {value : Immediate} (packs : ofBytes? bytes = some value)
    (oneWord : value.size = 4) : Bytes.ofWord (value.word 0) = bytes := by
  have sameSize := (ofBytes?_eq_some_iff.mp packs).1
  have sameBytes := bytes_of_ofBytes? packs
  rw [← sameBytes] at packs
  rw [word_eq_wordAt packs (by decide), sameBytes, Bytes.wordAt, Nat.mul_zero, List.drop_zero,
    Bytes.ofWord_firstWord, ← sameSize, oneWord, List.take_of_length_le (by omega)]
  simp

/-- An immediate is only ever decoded from bytes that pack into it. -/
theorem packs_of_decode {nested : Bytes} {value : Immediate} (decoded : decode nested = .ok value) :
    ofBytes? value.bytes = some value := by
  simp only [decode, bind_eq_ok_iff] at decoded
  rcases decoded with ⟨table, _, found⟩
  split at found
  · next bytes _ =>
      split at found
      · next packs =>
          cases found
          rwa [bytes_of_ofBytes? packs]
      · cases found
  · split at found <;> cases found

/-- Bytes that are short enough are written as a value inside a nested attribute. -/
theorem emits_putBytes (type : UInt16) {bytes : Bytes} (short : bytes.length ≤ maxSize) :
    Write.Emits (putBytes type bytes)
      (Attribute.encode ⟨type ||| Attribute.nestedFlag, (valueAttribute bytes).encode⟩) := by
  have inner : Attribute.headerSize + bytes.length ≤ Attribute.maxSize := by
    simp only [maxSize] at short
    simp only [Attribute.headerSize, Attribute.maxSize]
    omega
  have padded : (valueAttribute bytes).encode.length =
      paddedSize (Attribute.headerSize + bytes.length) := Attribute.length_encode _
  apply Write.emits_putNest (Write.emits_put inner)
  rw [← valueAttribute, padded]
  simp only [maxSize] at short
  simp only [Attribute.headerSize, Attribute.maxSize, paddedSize]
  omega

end PacketExpr.Immediate
