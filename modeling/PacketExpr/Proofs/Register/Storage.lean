import PacketExpr.Proofs.Immediate.Decoding
import PacketExpr.Proofs.Register.Access

/-!
# Storing and loading

Bytes that have been stored at a register are loaded from it again, in whole or in part, and the
words that hold them are those of the immediate that the bytes make.  A store that runs over the end
of the file has replaced the words up to the end by then, and nothing else.

Both outcomes are told from the file that is left, `RegisterFile.overwrite`, word by word.
-/

namespace PacketExpr

namespace RegisterFile

/-- The second file is what the first one becomes when all of a byte string is stored. -/
structure Stores (before after : RegisterFile) (register : Register) (bytes : Bytes) : Prop where
  loads : ∀ size ≤ bytes.length, Access.load register size after = .ok (bytes.take size) after
  padding : Access.load register (paddedSize bytes.length) after =
    .ok (bytes ++ List.replicate (paddedSize bytes.length - bytes.length) 0) after
  words : 1 ≤ bytes.length → bytes.length ≤ 255 →
    ∃ value, Immediate.ofBytes? bytes = some value ∧
      ∀ offset < wordCount bytes.length, ∃ word, value.word? offset = some word ∧
        Access.readWord register offset after = .ok word after
  capacity_eq : after.capacity = before.capacity
  outside : ∀ position, (position < register.word ∨
      register.word + wordCount bytes.length ≤ position) →
    after.word position = before.word position

/-- The second file is what the first one becomes when a byte string runs over its end. -/
structure Overruns (before after : RegisterFile) (register : Register) (bytes : Bytes) : Prop where
  capacity_eq : after.capacity = before.capacity
  inside : ∀ position, register.word ≤ position → position < before.capacity →
    after.word position = Bytes.wordAt bytes (position - register.word)
  outside : ∀ position, position < register.word → after.word position = before.word position
  unreached : before.capacity ≤ register.word → after = before

variable {file : RegisterFile} {register : Register} {bytes : Bytes}

/-- What has been stored is loaded with the padding of its last word. -/
theorem load_overwrite_toWords {size : Nat}
    (room : bytes = [] ∨ register.word + wordCount bytes.length ≤ file.capacity)
    (size_le : size ≤ paddedSize bytes.length) :
    Access.load register size (file.overwrite register.word (Bytes.toWords bytes)) =
      .ok (bytes.padded.take size) (file.overwrite register.word (Bytes.toWords bytes)) := by
  have fewerWords : wordCount size ≤ wordCount bytes.length := by
    simp only [paddedSize] at size_le
    simp only [wordCount]
    omega
  rcases room with rfl | room
  · have nothing : size = 0 := Nat.le_zero.mp size_le
    subst nothing
    rfl
  · rw [Access.load_eq, capacity_overwrite, if_pos (Or.inr (by omega)),
      bytesAt_overwrite_toWords room size_le]

/-- Where there is room, bytes are stored in their words and the padding of the last one is
cleared. -/
theorem stores_overwrite
    (room : bytes = [] ∨ register.word + wordCount bytes.length ≤ file.capacity) :
    file.Stores (file.overwrite register.word (Bytes.toWords bytes)) register bytes where
  loads := by
    intro size size_le
    rw [← Bytes.take_padded size_le]
    exact load_overwrite_toWords room (Nat.le_trans size_le (le_paddedSize _))
  padding := by
    have loaded := load_overwrite_toWords room (Nat.le_refl (paddedSize bytes.length))
    rwa [List.take_of_length_le (by rw [Bytes.length_padded])] at loaded
  words := by
    intro length_pos length_le
    rcases Immediate.exists_ofBytes?_iff.mpr ⟨length_pos, length_le⟩ with ⟨value, packs⟩
    refine ⟨value, packs, ?_⟩
    intro offset offset_lt
    have room : register.word + wordCount bytes.length ≤ file.capacity := by
      apply room.resolve_left
      rintro rfl
      exact absurd length_pos (by decide)
    have inValue : offset < 64 := by
      simp only [wordCount] at offset_lt
      omega
    refine ⟨Bytes.wordAt bytes offset, Immediate.word?_of_ofBytes? packs inValue, ?_⟩
    rw [Access.readWord_eq_ok (by rw [capacity_overwrite]; omega), word_overwrite_toWords,
      if_pos (by omega), Nat.add_sub_cancel_left]
  capacity_eq := capacity_overwrite _ _ _
  outside := by
    intro position outside
    rw [word_overwrite_toWords, if_neg (by omega)]

/-- Where there is no room, the words that are inside of the file are written all the same. -/
theorem overruns_overwrite
    (noRoom : file.capacity < register.word + wordCount bytes.length) :
    file.Overruns (file.overwrite register.word (Bytes.toWords bytes)) register bytes where
  capacity_eq := capacity_overwrite _ _ _
  inside := by
    intro position behind inFile
    rw [word_overwrite_toWords, if_pos (by omega)]
  outside := by
    intro position before
    rw [word_overwrite_toWords, if_neg (by omega)]
  unreached := by
    intro behind
    exact overwrite_of_capacity_le behind _

end RegisterFile

namespace Access

open RegisterFile

/-- A byte string is stored if and only if it is empty or its words are in the file, and what has
been stored is loaded again.  If it does not fit, the words up to the end of the file have been
replaced.  Loading fails if and only if it would leave the file. -/
theorem store_then_load (register : Register) (bytes : Bytes) (file : RegisterFile) :
    ((∃ after, store register bytes file = .ok () after) ↔
      bytes = [] ∨ register.word + wordCount bytes.length ≤ file.capacity) ∧
    (∀ after, store register bytes file = .ok () after → file.Stores after register bytes) ∧
    (∀ error after, store register bytes file = .error error after →
      error = .outsideFile ∧ file.Overruns after register bytes) ∧
    ∀ size, (∃ error after, load register size file = .error error after) ↔
      0 < size ∧ file.capacity < register.word + wordCount size := by
  have stored := store_eq register bytes file
  dsimp only at stored
  refine ⟨?_, ?_, ?_, ?_⟩
  · rw [stored]
    split
    · next room => simp [room]
    · next noRoom => simp [noRoom]
  · intro after succeeds
    rw [stored] at succeeds
    split at succeeds
    · next room =>
        cases succeeds
        exact stores_overwrite room
    · cases succeeds
  · intro error after fails
    rw [stored] at fails
    split at fails
    · cases fails
    · next noRoom =>
        cases fails
        exact ⟨rfl, overruns_overwrite (Nat.lt_of_not_le fun room => noRoom (.inr room))⟩
  · intro size
    rw [load_eq]
    split
    · next room =>
        simp only [reduceCtorEq, exists_false, false_iff]
        omega
    · next noRoom =>
        exact ⟨fun _ => by omega, fun _ => ⟨_, _, rfl⟩⟩

/-- Six bytes fill the last two words of a file, and one word further on only the first four of them
find a place. -/
theorem store_then_load_at_end :
    let bytes : Bytes := [1, 2, 3, 4, 5, 6]
    let file := blank 6
    (∃ after, store ⟨4⟩ bytes file = .ok () after ∧
      load ⟨4⟩ 5 after = .ok [1, 2, 3, 4, 5] after ∧
      load ⟨4⟩ 8 after = .ok [1, 2, 3, 4, 5, 6, 0, 0] after) ∧
    ∃ error after, store ⟨5⟩ bytes file = .error error after ∧
      after.word 5 = 0x01020304 ∧ after.word 4 = 0 := by
  intro bytes file
  constructor
  · rcases store_then_load ⟨4⟩ bytes file with ⟨succeeds, stores, _⟩
    rcases succeeds.mpr (.inr (by decide)) with ⟨after, stored⟩
    have wholeWords : paddedSize bytes.length = 8 := by
      decide
    have padding := (stores after stored).padding
    rw [wholeWords] at padding
    exact ⟨after, stored, (stores after stored).loads 5 (by decide), padding⟩
  · rcases store_then_load ⟨5⟩ bytes file with ⟨_, _, overruns, _⟩
    have fails : store ⟨5⟩ bytes file =
        .error .outsideFile (file.overwrite 5 (Bytes.toWords bytes)) := by
      rw [store_eq, if_neg (by decide)]
    have overrun := (overruns _ _ fails).2
    have firstWord : Bytes.wordAt bytes (5 - 5) = 0x01020304 := by
      decide
    have inside := overrun.inside 5 (by decide) (by decide)
    rw [firstWord] at inside
    exact ⟨_, _, fails, inside, overrun.outside 4 (by decide)⟩

end Access

end PacketExpr
