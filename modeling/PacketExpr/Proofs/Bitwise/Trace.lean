import PacketExpr.Bitwise.Eval
import PacketExpr.Proofs.Register.Sweep

/-!
# Traces of evaluation

The trace of an evaluation is the sequence of register files between its turns, and for shifts also
the carries.  Boolean transforms and right shifts visit the words of the destination in order, left
shifts in reverse order.  Each of the three traces is a sweep, so evaluation keeps the capacity of a
file and every word outside of the destination.
-/

namespace PacketExpr

namespace Bitwise

/-- The file after some turns of a boolean transform. -/
def booleanTrace (expression : Bitwise) (mask xor : Operand) (file : RegisterFile) (turn : Nat) :
    RegisterFile :=
  (List.range turn).foldl (expression.booleanStep mask xor) file

/-- The carry and the file after some turns of a right shift. -/
def shiftRightTrace (expression : Bitwise) (amount : Nat) (file : RegisterFile) (turn : Nat) :
    UInt32 × RegisterFile :=
  (List.range turn).foldl (expression.shiftRightStep amount) (0, file)

/-- The carry and the file after some turns of a left shift, which begins at the last word. -/
def shiftLeftTrace (expression : Bitwise) (amount : Nat) (file : RegisterFile) (turn : Nat) :
    UInt32 × RegisterFile :=
  (List.range' (wordCount expression.length - turn) turn).foldr
    (expression.shiftLeftStep amount) (0, file)

variable {expression : Bitwise}

theorem booleanTrace_succ (mask xor : Operand) (file : RegisterFile) (turn : Nat) :
    expression.booleanTrace mask xor file (turn + 1) =
      expression.booleanStep mask xor (expression.booleanTrace mask xor file turn) turn := by
  simp [booleanTrace, List.range_succ]

theorem shiftRightTrace_succ (amount : Nat) (file : RegisterFile) (turn : Nat) :
    expression.shiftRightTrace amount file (turn + 1) =
      expression.shiftRightStep amount (expression.shiftRightTrace amount file turn) turn := by
  simp [shiftRightTrace, List.range_succ]

theorem shiftLeftTrace_succ (amount : Nat) (file : RegisterFile) {turn : Nat}
    (turn_lt : turn < wordCount expression.length) :
    expression.shiftLeftTrace amount file (turn + 1) =
      expression.shiftLeftStep amount (wordCount expression.length - (turn + 1))
        (expression.shiftLeftTrace amount file turn) := by
  have next : wordCount expression.length - (turn + 1) + 1 =
      wordCount expression.length - turn := by omega
  simp only [shiftLeftTrace, List.range'_succ, List.foldr_cons, next]

/-- The turns of a boolean transform write one word each, from the first one on. -/
theorem sweep_booleanTrace (mask xor : Operand) (file : RegisterFile) :
    Sweep (expression.booleanTrace mask xor file) (expression.destination.word + ·)
      (wordCount expression.length) where
  writes turn _ := ⟨_, booleanTrace_succ mask xor file turn⟩
  distinct := by
    intro first _ second _ samePlace
    exact Nat.add_left_cancel samePlace

theorem sweep_shiftRightTrace (amount : Nat) (file : RegisterFile) :
    Sweep (fun turn => (expression.shiftRightTrace amount file turn).2)
      (expression.destination.word + ·) (wordCount expression.length) where
  writes turn _ := ⟨_, congrArg Prod.snd (shiftRightTrace_succ amount file turn)⟩
  distinct := by
    intro first _ second _ samePlace
    exact Nat.add_left_cancel samePlace

/-- The turns of a left shift write one word each, from the last one on. -/
theorem sweep_shiftLeftTrace (amount : Nat) (file : RegisterFile) :
    Sweep (fun turn => (expression.shiftLeftTrace amount file turn).2)
      (fun turn => expression.destination.word + (wordCount expression.length - (turn + 1)))
      (wordCount expression.length) where
  writes turn turn_lt := ⟨_, congrArg Prod.snd (shiftLeftTrace_succ amount file turn_lt)⟩
  distinct := by
    intro first first_lt second second_lt samePlace
    omega

/-- Evaluation is a sweep over the words of the destination, in some order. -/
theorem exists_sweep_run (expression : Bitwise) (file : RegisterFile) :
    ∃ trace place, Sweep trace place (wordCount expression.length) ∧ trace 0 = file ∧
      trace (wordCount expression.length) = expression.run file ∧
      ∀ turn < wordCount expression.length, expression.destination.word ≤ place turn ∧
        place turn < expression.destination.word + wordCount expression.length := by
  cases transform_eq : expression.transform with
  | boolean mask xor =>
      refine ⟨_, _, sweep_booleanTrace mask xor file, rfl, ?_, ?_⟩
      · simp only [run, transform_eq, booleanTrace]
      · intro turn turn_lt
        omega
  | shiftLeft amount =>
      refine ⟨_, _, sweep_shiftLeftTrace amount file, rfl, ?_, ?_⟩
      · simp only [run, transform_eq, shiftLeftTrace, Nat.sub_self, List.range_eq_range']
      · intro turn turn_lt
        omega
  | shiftRight amount =>
      refine ⟨_, _, sweep_shiftRightTrace amount file, rfl, ?_, ?_⟩
      · simp only [run, transform_eq, shiftRightTrace]
      · intro turn turn_lt
        omega

theorem eval_of_small {expression : Bitwise} {file : RegisterFile}
    (small : file.capacity < expression.span) : expression.eval file = file := by
  rw [eval, if_neg]
  rw [fits, decide_eq_true_iff]
  omega

theorem eval_of_fits {expression : Bitwise} {file : RegisterFile}
    (fits : expression.fits file = true) : expression.eval file = expression.run file := by
  rw [eval, if_pos fits]

@[simp]
theorem capacity_eval (expression : Bitwise) (file : RegisterFile) :
    (expression.eval file).capacity = file.capacity := by
  simp only [eval]
  split
  · rcases exists_sweep_run expression file with ⟨trace, place, sweep, start, finish, _⟩
    rw [← finish, ← start]
    exact sweep.capacity_eq (Nat.le_refl _)
  · rfl

theorem word_eval_of_outside (expression : Bitwise) (file : RegisterFile) {position : Nat}
    (outside : position < expression.destination.word ∨
      expression.destination.word + wordCount expression.length ≤ position) :
    (expression.eval file).word position = file.word position := by
  simp only [eval]
  split
  · rcases exists_sweep_run expression file with ⟨trace, place, sweep, start, finish, inside⟩
    rw [← finish, ← start]
    apply sweep.word_eq_of_unvisited (Nat.zero_le _) (Nat.le_refl _)
    intro turn _ turn_lt samePlace
    have := inside turn turn_lt
    omega
  · rfl

/-- The word that a left shift works on at an offset, told from the files before and after: words
of the destination behind that offset have been written already. -/
def shiftLeftRead (expression : Bitwise) (before after : RegisterFile) (offset : Nat) : UInt32 :=
  let position := expression.source.word + offset
  (if expression.destination.word + offset < position ∧
      position < expression.destination.word + wordCount expression.length then
    after.word position
  else
    before.word position) &&& valueMask expression.length offset

/-- The word that a right shift works on at an offset, told from the files before and after: words
of the destination in front of that offset have been written already. -/
def shiftRightRead (expression : Bitwise) (before after : RegisterFile) (offset : Nat) : UInt32 :=
  let position := expression.source.word + offset
  if expression.destination.word ≤ position ∧
      position < expression.destination.word + offset then
    after.word position
  else
    before.word position

/-- What a left shift reads at an offset has been written at offsets behind, or is a word of the
source without its padding. -/
theorem shiftLeftRead_congr {before after otherBefore otherAfter : RegisterFile} {offset : Nat}
    (unwritten : before.word (expression.source.word + offset) &&&
        valueMask expression.length offset =
      otherBefore.word (expression.source.word + offset) &&& valueMask expression.length offset)
    (written : ∀ later, offset < later → later < wordCount expression.length →
      after.word (expression.destination.word + later) =
        otherAfter.word (expression.destination.word + later)) :
    expression.shiftLeftRead before after offset =
      expression.shiftLeftRead otherBefore otherAfter offset := by
  simp only [shiftLeftRead]
  split
  · next visited =>
      have place : expression.source.word + offset = expression.destination.word +
          (expression.source.word + offset - expression.destination.word) := by omega
      rw [place, written _ (by omega) (by omega)]
  · exact unwritten

/-- What a right shift reads at an offset has been written at offsets in front, or is a word of the
source. -/
theorem shiftRightRead_congr {α : Type} (view : UInt32 → α)
    {before after otherBefore otherAfter : RegisterFile} {offset : Nat}
    (unwritten : view (before.word (expression.source.word + offset)) =
      view (otherBefore.word (expression.source.word + offset)))
    (written : ∀ earlier < offset, after.word (expression.destination.word + earlier) =
      otherAfter.word (expression.destination.word + earlier)) :
    view (expression.shiftRightRead before after offset) =
      view (expression.shiftRightRead otherBefore otherAfter offset) :=
  RegisterFile.view_word_congr view unwritten written

/-- What a turn of a left shift reads can be told from the files before and after: a word behind has
its new value by then, and the others still have the old one. -/
theorem word_shiftLeftTrace (amount : Nat) (file : RegisterFile) {turn : Nat}
    (turn_lt : turn < wordCount expression.length) :
    (expression.shiftLeftTrace amount file turn).2.word
        (expression.source.word + (wordCount expression.length - (turn + 1))) &&&
        valueMask expression.length (wordCount expression.length - (turn + 1)) =
      expression.shiftLeftRead file
        (expression.shiftLeftTrace amount file (wordCount expression.length)).2
        (wordCount expression.length - (turn + 1)) := by
  classical
  have visited : ∀ position, (∃ earlier < turn, expression.destination.word +
      (wordCount expression.length - (earlier + 1)) = position) ↔
      expression.destination.word + (wordCount expression.length - (turn + 1)) < position ∧
        position < expression.destination.word + wordCount expression.length := by
    intro position
    constructor
    · rintro ⟨earlier, earlier_lt, rfl⟩
      omega
    · rintro ⟨behind, inside⟩
      refine ⟨expression.destination.word + wordCount expression.length - (position + 1), ?_, ?_⟩
      · omega
      · omega
  have seen := (sweep_shiftLeftTrace amount file).word_eq_ite (Nat.le_of_lt turn_lt)
    (expression.source.word + (wordCount expression.length - (turn + 1)))
  simp only [visited] at seen
  rw [seen]
  rfl

/-- The carry of a turn comes from the word that the turn before has read. -/
theorem carry_shiftLeftTrace (amount : Nat) (file : RegisterFile) {turn : Nat}
    (turn_lt : turn < wordCount expression.length) :
    (expression.shiftLeftTrace amount file turn).1 =
      if turn = 0 then 0
      else carryLeft (expression.shiftLeftRead file
        (expression.shiftLeftTrace amount file (wordCount expression.length)).2
        (wordCount expression.length - turn)) amount := by
  cases turn with
  | zero => rfl
  | succ turn =>
      rw [if_neg (Nat.succ_ne_zero turn), ← word_shiftLeftTrace amount file (by omega),
        shiftLeftTrace_succ amount file (by omega)]
      rfl

/-- Every word of the destination holds the bits of the word that is shifted into it and those that
come from the word behind. -/
theorem word_run_shiftLeft {amount : Nat} (isShift : expression.transform = .shiftLeft amount)
    {file : RegisterFile}
    (inside : expression.destination.word + wordCount expression.length ≤ file.capacity)
    {offset : Nat} (offset_lt : offset < wordCount expression.length) :
    (expression.run file).word (expression.destination.word + offset) =
      (expression.shiftLeftRead file (expression.run file) offset <<< UInt32.ofNat amount) |||
        (if offset + 1 = wordCount expression.length then 0
        else carryLeft (expression.shiftLeftRead file (expression.run file) (offset + 1))
          amount) := by
  have run_eq : expression.run file =
      (expression.shiftLeftTrace amount file (wordCount expression.length)).2 := by
    simp only [run, isShift, shiftLeftTrace, Nat.sub_self, List.range_eq_range']
  have turn_lt : wordCount expression.length - (offset + 1) < wordCount expression.length := by
    omega
  have visits : wordCount expression.length -
      (wordCount expression.length - (offset + 1) + 1) = offset := by omega
  have follows : wordCount expression.length - (wordCount expression.length - (offset + 1)) =
      offset + 1 := by omega
  have first : wordCount expression.length - (offset + 1) = 0 ↔
      offset + 1 = wordCount expression.length := by omega
  have written := (sweep_shiftLeftTrace amount file).word_place turn_lt
    (by rw [visits]; exact Nat.lt_of_lt_of_le (Nat.add_lt_add_left offset_lt _) inside)
    (congrArg Prod.snd (shiftLeftTrace_succ amount file turn_lt))
  rw [word_shiftLeftTrace amount file turn_lt, carry_shiftLeftTrace amount file turn_lt] at written
  simp only [visits, follows, first] at written
  rw [run_eq]
  exact written

/-- What a turn of a right shift reads can be told from the files before and after: a word in front
has its new value by then, and the others still have the old one. -/
theorem word_shiftRightTrace (amount : Nat) (file : RegisterFile) {turn : Nat}
    (turn_lt : turn < wordCount expression.length) :
    (expression.shiftRightTrace amount file turn).2.word (expression.source.word + turn) =
      expression.shiftRightRead file
        (expression.shiftRightTrace amount file (wordCount expression.length)).2 turn := by
  exact (sweep_shiftRightTrace amount file).word_eq_ite_of_forward (Nat.le_of_lt turn_lt)
    (expression.source.word + turn)

theorem carry_shiftRightTrace (amount : Nat) (file : RegisterFile) {turn : Nat}
    (turn_lt : turn < wordCount expression.length) :
    (expression.shiftRightTrace amount file turn).1 =
      if turn = 0 then 0
      else carryRight (expression.shiftRightRead file
        (expression.shiftRightTrace amount file (wordCount expression.length)).2
        (turn - 1)) amount := by
  cases turn with
  | zero => rfl
  | succ turn =>
      rw [if_neg (Nat.succ_ne_zero turn), Nat.add_sub_cancel,
        ← word_shiftRightTrace amount file (by omega), shiftRightTrace_succ]
      rfl

/-- Every word of the destination holds the bits that come from the word in front and those of the
word that is shifted into it; the last word holds no more of them than belong to the value. -/
theorem word_run_shiftRight {amount : Nat} (isShift : expression.transform = .shiftRight amount)
    {file : RegisterFile}
    (inside : expression.destination.word + wordCount expression.length ≤ file.capacity)
    {offset : Nat} (offset_lt : offset < wordCount expression.length) :
    (expression.run file).word (expression.destination.word + offset) =
      ((if offset = 0 then 0
        else carryRight (expression.shiftRightRead file (expression.run file) (offset - 1))
          amount) |||
        (expression.shiftRightRead file (expression.run file) offset >>> UInt32.ofNat amount)) &&&
        valueMask expression.length offset := by
  have run_eq : expression.run file =
      (expression.shiftRightTrace amount file (wordCount expression.length)).2 := by
    simp only [run, isShift, shiftRightTrace]
  have written := (sweep_shiftRightTrace amount file).word_place offset_lt
    (Nat.lt_of_lt_of_le (Nat.add_lt_add_left offset_lt _) inside)
    (congrArg Prod.snd (shiftRightTrace_succ amount file offset))
  rw [word_shiftRightTrace amount file offset_lt,
    carry_shiftRightTrace amount file offset_lt] at written
  rw [run_eq]
  exact written

end Bitwise

end PacketExpr
