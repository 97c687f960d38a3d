import PacketExpr.Proofs.Attribute.Session
import PacketExpr.Proofs.Immediate.Decoding

/-!
# Immediates stand for byte strings

The words of an immediate are compared as a whole, although only the first of them hold its bytes.
Nothing is lost or added by that: all that lies behind the bytes is zero.  So immediates that were
packed from bytes are equal if and only if the bytes are, and an immediate is zero if and only if
its bytes are.  What is written of an immediate is read back as the same immediate.
-/

namespace PacketExpr.Immediate

variable {bytes other : Bytes} {value otherValue : Immediate}

/-- The bytes are all that an immediate holds, apart from zeros behind them. -/
structure Packs (bytes : Bytes) (value : Immediate) : Prop where
  size_eq : value.size = bytes.length
  bytes_eq : value.bytes = bytes
  contents : Bytes.ofWords value.words.toList = bytes ++ List.replicate (256 - bytes.length) 0
  behind : ∀ position < 64, wordCount bytes.length ≤ position → value.word? position = some 0
  isZero_iff : value.isZero = true ↔ ∀ byte ∈ bytes, byte = 0

theorem ofWords_of_ofBytes? (packs : ofBytes? bytes = some value) :
    Bytes.ofWords value.words.toList = bytes ++ List.replicate (256 - bytes.length) 0 := by
  have length_le : bytes.length ≤ 255 := (exists_ofBytes?_iff.mp ⟨value, packs⟩).2
  have whole : (bytes ++ List.replicate (256 - bytes.length) 0).length = 256 := by
    rw [List.length_append, List.length_replicate]
    omega
  have sameWords : (List.range 64).map (Bytes.wordAt bytes) = (List.range 64).map
      (Bytes.wordAt (bytes ++ List.replicate (256 - bytes.length) 0)) := by
    apply List.map_congr_left
    intro index _
    exact (Bytes.wordAt_append_replicate_zero ..).symm
  have room : (bytes ++ List.replicate (256 - bytes.length) 0).length ≤ 4 * 64 :=
    Nat.le_of_eq whole
  have front := Bytes.take_ofWords_wordAt room
  rw [whole, List.take_of_length_le (by simp)] at front
  rw [toList_words_of_ofBytes? packs, sameWords, front]

theorem packs_of_ofBytes? (packs : ofBytes? bytes = some value) : Packs bytes value where
  size_eq := (ofBytes?_eq_some_iff.mp packs).1
  bytes_eq := bytes_of_ofBytes? packs
  contents := ofWords_of_ofBytes? packs
  behind := by
    intro position position_lt behind
    simp only [wordCount] at behind
    rw [word?_of_ofBytes? packs position_lt, Bytes.wordAt_of_length_le (by omega)]
  isZero_iff := by
    have sameBytes := bytes_of_ofBytes? packs
    have sameSize := (ofBytes?_eq_some_iff.mp packs).1
    have itself : ofBytes? value.bytes = some value := by
      rw [sameBytes]
      exact packs
    rw [isZero_iff itself, sameBytes, sameSize, List.eq_replicate_iff]
    exact and_iff_right rfl

/-- Packing loses nothing, since a value knows its size. -/
theorem eq_iff_of_ofBytes? (packs : ofBytes? bytes = some value)
    (packsOther : ofBytes? other = some otherValue) : value = otherValue ↔ bytes = other := by
  constructor
  · rintro rfl
    rw [← bytes_of_ofBytes? packs, ← bytes_of_ofBytes? packsOther]
  · rintro rfl
    rw [packs] at packsOther
    exact Option.some.inj packsOther

theorem decodeExact_of_decode {nested : Bytes} (decoded : decode nested = .ok value) (size : Nat) :
    decodeExact nested size =
      if size = value.size then .ok value else .error (.length size value.size) := by
  simp only [decodeExact, decoded, bind, Except.bind, eq_comm]

theorem emits_put (packs : ofBytes? bytes = some value) (type : UInt16) :
    Write.Emits (value.put type)
      (Attribute.encode ⟨type ||| Attribute.nestedFlag, (valueAttribute bytes).encode⟩) := by
  rw [put, bytes_of_ofBytes? packs]
  exact emits_putBytes type (exists_ofBytes?_iff.mp ⟨value, packs⟩).2

theorem length_encode_nested (bytes : Bytes) (type : UInt16) :
    (Attribute.encode ⟨type, (valueAttribute bytes).encode⟩).length =
      8 + paddedSize bytes.length := by
  rw [Attribute.length_encode, Attribute.size, Attribute.length_encode, size_valueAttribute]
  simp only [Attribute.headerSize, paddedSize]
  omega

/-- The outcome of writing an immediate, and what is read from its payload. -/
theorem put_of_ofBytes? (packs : ofBytes? bytes = some value) (type : UInt16) {writer : Writer}
    (sound : writer.Sound) :
    ((∃ after, value.put type writer = .ok () after) ↔
      writer.bytes.length + (8 + paddedSize bytes.length) ≤ writer.limit) ∧
    ∀ after, value.put type writer = .ok () after →
      after = writer.append
        (Attribute.encode ⟨type ||| Attribute.nestedFlag, (valueAttribute bytes).encode⟩) := by
  have emits := emits_put packs type
  have succeeds := emits.succeeds writer sound
  have fails := emits.fails writer sound
  rw [length_encode_nested] at succeeds fails
  by_cases room : writer.bytes.length + (8 + paddedSize bytes.length) ≤ writer.limit
  · rw [succeeds room]
    refine ⟨⟨fun _ => room, fun _ => ⟨_, rfl⟩⟩, ?_⟩
    rintro after ⟨⟩
    rfl
  · rcases fails (Nat.lt_of_not_le room) with ⟨left, failed, _⟩
    rw [failed]
    refine ⟨⟨?_, fun hasRoom => absurd hasRoom room⟩, ?_⟩
    · rintro ⟨after, ⟨⟩⟩
    · rintro after ⟨⟩

/-- The byte strings of 1 to 255 bytes pack into immediates, and each of these immediates holds one
byte string and nothing besides.  A sound writer takes it if there is room for it, and the writers
of all sessions are sound.  Then it is read back, provided that its size is the one that is asked
for. -/
theorem ofBytes?_exact :
    (∀ bytes, (∃ value, ofBytes? bytes = some value) ↔ 1 ≤ bytes.length ∧ bytes.length ≤ 255) ∧
    (∀ bytes value, ofBytes? bytes = some value → Packs bytes value ∧
      (∀ other otherValue, ofBytes? other = some otherValue →
        (value = otherValue ↔ bytes = other)) ∧
      ∀ (type : UInt16) (writer : Writer), writer.Sound →
        ((∃ after, value.put type writer = .ok () after) ↔
          writer.bytes.length + (8 + paddedSize bytes.length) ≤ writer.limit) ∧
        ∀ after, value.put type writer = .ok () after → ∃ payload,
          after = writer.append (Attribute.encode ⟨type ||| Attribute.nestedFlag, payload⟩) ∧
          decode payload = .ok value ∧
          ∀ size, decodeExact payload size =
            if size = bytes.length then .ok value else .error (.length size bytes.length)) ∧
    (∀ (limit : Nat) (session : Session), Session.Reachable limit session →
      session.writer.Sound) ∧
    ∀ word, ofBytes? (Bytes.ofWord word) = some (ofWord word) := by
  refine ⟨fun _ => exists_ofBytes?_iff, ?_, fun _ _ reachable => reachable.valid.sound,
    ofBytes?_ofWord⟩
  intro bytes value packs
  have held := packs_of_ofBytes? packs
  refine ⟨held, fun _ _ => eq_iff_of_ofBytes? packs, ?_⟩
  intro type writer sound
  rcases put_of_ofBytes? packs type sound with ⟨succeeds_iff, written⟩
  refine ⟨succeeds_iff, ?_⟩
  intro after succeeds
  have decoded := decode_encode packs
  refine ⟨(valueAttribute bytes).encode, written after succeeds, decoded, ?_⟩
  intro size
  rw [← held.size_eq]
  exact decodeExact_of_decode decoded size

/-- Five bytes, the last of which begins a second word, in a writer that has just enough room. -/
theorem ofBytes?_exact_partial_word :
    let bytes : Bytes := [0x11, 0x22, 0x33, 0x44, 0x55]
    ∃ value, ofBytes? bytes = some value ∧ value.bytes = bytes ∧ value.word? 2 = some 0 ∧
      ofBytes? (bytes ++ [0]) ≠ some value ∧
      ∃ after payload, value.put 4 (Writer.blank 16) = .ok () after ∧
        after = (Writer.blank 16).append (Attribute.encode ⟨0x8004, payload⟩) ∧
        decodeExact payload 5 = .ok value ∧ decodeExact payload 8 = .error (.length 8 5) := by
  intro bytes
  rcases ofBytes?_exact with ⟨packs_iff, exact, _⟩
  rcases (packs_iff bytes).mpr (by decide) with ⟨value, packs⟩
  rcases exact bytes value packs with ⟨held, eq_iff, writes⟩
  rcases writes 4 (Writer.blank 16) (Writer.sound_blank 16) with ⟨succeeds_iff, written⟩
  rcases succeeds_iff.mpr (by decide) with ⟨after, succeeds⟩
  rcases written after succeeds with ⟨payload, after_eq, _, reads⟩
  refine ⟨value, packs, held.bytes_eq, held.behind 2 (by decide) (by decide), ?_, after, payload,
    succeeds, after_eq, reads 5, reads 8⟩
  intro packsLonger
  exact absurd ((eq_iff _ _ packsLonger).mp rfl) (by decide)

end PacketExpr.Immediate
