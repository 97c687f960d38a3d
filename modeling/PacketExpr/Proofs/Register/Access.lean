import PacketExpr.Proofs.Bytes.Packing
import PacketExpr.Proofs.Except
import PacketExpr.Register.File

/-!
# Checked accesses

Storing goes through the words of a byte string and stops at the first one without a place in the
file, so the words in front of it have been replaced by then.  `RegisterFile.overwrite` is the file
that is left, whether or not the access has failed.  Loading reads the words of a value and changes
nothing.

What has been stored is found again by reading the bytes at the register, with zero bytes behind it
up to the end of its last word.
-/

namespace PacketExpr

namespace RegisterFile

/-- The file with its words from a position on replaced, as far as it goes. -/
def overwrite (file : RegisterFile) (position : Nat) : List UInt32 → RegisterFile
  | [] => file
  | word :: words => (file.set position word).overwrite (position + 1) words

variable {file : RegisterFile}

@[simp]
theorem capacity_overwrite (file : RegisterFile) (position : Nat) (words : List UInt32) :
    (file.overwrite position words).capacity = file.capacity := by
  induction words generalizing file position with
  | nil => rfl
  | cons word words ih => rw [overwrite, ih, capacity_set]

theorem word_overwrite (file : RegisterFile) (position : Nat) (words : List UInt32) (other : Nat) :
    (file.overwrite position words).word other =
      if position ≤ other ∧ other < position + words.length ∧ other < file.capacity then
        words.getD (other - position) 0
      else file.word other := by
  induction words generalizing file position with
  | nil => rw [overwrite, if_neg (by simp; omega)]
  | cons word words ih =>
      rw [overwrite, ih, word_set, capacity_set, List.length_cons]
      rcases Nat.lt_trichotomy other position with before | rfl | behind
      · rw [if_neg (by omega), if_neg (by omega), if_neg (by omega)]
      · rw [if_neg (by omega), Nat.sub_self, List.getD_cons_zero]
        by_cases inside : other < file.capacity
        · rw [if_pos ⟨rfl, inside⟩, if_pos (by omega)]
        · rw [if_neg (by omega), if_neg (by omega)]
      · have sameRange : (position + 1 ≤ other ∧ other < position + 1 + words.length ∧
            other < file.capacity) ↔
            (position ≤ other ∧ other < position + (words.length + 1) ∧
              other < file.capacity) := by
          omega
        have index : other - position = other - (position + 1) + 1 := by omega
        have elsewhere : ¬(position = other ∧ position < file.capacity) := by omega
        simp only [if_neg elsewhere, index, List.getD_cons_succ, sameRange]

theorem set_of_capacity_le {position : Nat} (outside : file.capacity ≤ position) (value : UInt32) :
    file.set position value = file := by
  rw [set, Array.setIfInBounds_eq_of_size_le outside]

theorem overwrite_of_capacity_le {position : Nat} (outside : file.capacity ≤ position)
    (words : List UInt32) : file.overwrite position words = file := by
  induction words generalizing position with
  | nil => rfl
  | cons word words ih => rw [overwrite, set_of_capacity_le outside, ih (by omega)]

/-- As far as the file goes, its words from a position on are replaced by those of a byte string. -/
theorem word_overwrite_toWords (file : RegisterFile) (position : Nat) (bytes : Bytes)
    (other : Nat) :
    (file.overwrite position (Bytes.toWords bytes)).word other =
      if position ≤ other ∧ other < position + wordCount bytes.length ∧ other < file.capacity then
        Bytes.wordAt bytes (other - position)
      else file.word other := by
  rw [word_overwrite, Bytes.length_toWords, Bytes.getD_toWords]

/-- Words that have been replaced by those of a byte string hold its bytes, with zero bytes behind
them up to the end of the last word. -/
theorem bytesAt_overwrite_toWords {register : Register} {bytes : Bytes} {size : Nat}
    (room : register.word + wordCount bytes.length ≤ file.capacity)
    (size_le : size ≤ paddedSize bytes.length) :
    (file.overwrite register.word (Bytes.toWords bytes)).bytesAt register size =
      bytes.padded.take size := by
  have words : ∀ index < wordCount size,
      (file.overwrite register.word (Bytes.toWords bytes)).word (register.word + index) =
        Bytes.wordAt bytes.padded index := by
    intro index index_lt
    have index_lt' : index < wordCount bytes.length := by
      simp only [paddedSize] at size_le
      simp only [wordCount] at index_lt ⊢
      omega
    rw [word_overwrite_toWords, if_pos (by omega), Nat.add_sub_cancel_left, Bytes.wordAt_padded]
  rw [← Bytes.length_padded] at size_le
  calc (file.overwrite register.word (Bytes.toWords bytes)).bytesAt register size
      = Bytes.leading (Bytes.wordAt bytes.padded) size := Bytes.leading_congr words
    _ = bytes.padded.take size := Bytes.leading_wordAt_of_le size_le

end RegisterFile

namespace Access

open RegisterFile

variable {file : RegisterFile} {register : Register}

theorem readWord_eq_ok {offset : Nat} (inside : register.word + offset < file.capacity) :
    readWord register offset file = .ok (file.word (register.word + offset)) file := by
  have present : file.words[register.word + offset]? =
      some (file.word (register.word + offset)) := by
    rw [RegisterFile.word, Array.getD_eq_getD_getElem?, Array.getElem?_eq_getElem inside]
    rfl
  simp only [readWord, present]

theorem readWord_eq_error {offset : Nat} (outside : file.capacity ≤ register.word + offset) :
    readWord register offset file = .error .outsideFile file := by
  have absent : file.words[register.word + offset]? = none := Array.getElem?_eq_none outside
  simp only [readWord, absent]

/-- Words are read one by one, so all of them have to be inside of the file. -/
theorem readWords_eq (register : Register) (offset count : Nat) (file : RegisterFile) :
    readWords register offset count file =
      if count = 0 ∨ register.word + offset + count ≤ file.capacity then
        .ok ((List.range count).map fun index => file.word (register.word + offset + index)) file
      else .error .outsideFile file := by
  induction count generalizing offset with
  | zero => rfl
  | succ count ih =>
      rw [readWords]
      by_cases inside : register.word + offset < file.capacity
      · rw [bind_eq_of_ok (readWord_eq_ok inside)]
        by_cases rest : count = 0 ∨ register.word + (offset + 1) + count ≤ file.capacity
        · have read := ih (offset + 1)
          rw [if_pos rest] at read
          rw [bind_eq_of_ok read, if_pos (by omega), List.range_succ_eq_map, List.map_cons,
            List.map_map]
          have later : (fun index => file.word (register.word + offset + index)) ∘ Nat.succ =
              fun index => file.word (register.word + (offset + 1) + index) := by
            funext index
            simp only [Function.comp_apply]
            congr 1
            omega
          rw [later]
          rfl
        · have read := ih (offset + 1)
          rw [if_neg rest] at read
          rw [bind_eq_of_error read, if_neg (by omega)]
      · rw [bind_eq_of_error (readWord_eq_error (by omega)), if_neg (by omega)]

/-- A value is loaded if it lies inside of the file; one of no bytes can be loaded anywhere. -/
theorem load_eq (register : Register) (size : Nat) (file : RegisterFile) :
    load register size file =
      if size = 0 ∨ register.word + wordCount size ≤ file.capacity then
        .ok (file.bytesAt register size) file
      else .error .outsideFile file := by
  have noWords : wordCount size = 0 ↔ size = 0 := by
    simp only [wordCount]
    omega
  have read := readWords_eq register 0 (wordCount size) file
  simp only [Nat.add_zero, noWords] at read
  rw [load]
  split
  · next room =>
      rw [if_pos room] at read
      rw [bind_eq_of_ok read]
      rfl
  · next outside =>
      rw [if_neg outside] at read
      rw [bind_eq_of_error read]

/-- Words are written one by one up to the end of the file, and those that are inside stay written
where the others fail. -/
theorem writeWords_eq (register : Register) (offset : Nat) (words : List UInt32)
    (file : RegisterFile) :
    let after := file.overwrite (register.word + offset) words
    writeWords register offset words file =
      if words = [] ∨ register.word + offset + words.length ≤ file.capacity then .ok () after
      else .error .outsideFile after := by
  induction words generalizing offset file with
  | nil => rfl
  | cons word words ih =>
      rw [writeWords]
      by_cases inside : register.word + offset < file.capacity
      · have written : writeWord register offset word file =
            .ok () (file.set (register.word + offset) word) := if_pos inside
        have noRoomNeeded : words = [] ↔ words.length = 0 := List.length_eq_zero_iff.symm
        have sameRoom : (words = [] ∨ register.word + (offset + 1) + words.length ≤
            (file.set (register.word + offset) word).capacity) ↔
            (word :: words = [] ∨ register.word + offset + (word :: words).length ≤
              file.capacity) := by
          simp only [capacity_set, noRoomNeeded, List.length_cons, reduceCtorEq, false_or]
          omega
        rw [bind_eq_of_ok written, ih]
        simp only [sameRoom]
        rfl
      · have refused : writeWord register offset word file = .error .outsideFile file :=
          if_neg inside
        have noRoom : ¬(word :: words = [] ∨
            register.word + offset + (word :: words).length ≤ file.capacity) := by
          simp only [reduceCtorEq, List.length_cons, false_or]
          omega
        rw [bind_eq_of_error refused, overwrite_of_capacity_le (by omega)]
        exact (if_neg noRoom).symm

/-- Storing replaces the words of the byte string that are in the file, and succeeds if and only if
all of them are. -/
theorem store_eq (register : Register) (bytes : Bytes) (file : RegisterFile) :
    let after := file.overwrite register.word (Bytes.toWords bytes)
    store register bytes file =
      if bytes = [] ∨ register.word + wordCount bytes.length ≤ file.capacity then .ok () after
      else .error .outsideFile after := by
  have noWords : Bytes.toWords bytes = [] ↔ bytes = [] := by
    rw [← List.length_eq_zero_iff, ← List.length_eq_zero_iff, Bytes.length_toWords]
    simp only [wordCount]
    omega
  have written := writeWords_eq register 0 (Bytes.toWords bytes) file
  simp only [Nat.add_zero, noWords, Bytes.length_toWords] at written
  exact written

end Access

end PacketExpr
