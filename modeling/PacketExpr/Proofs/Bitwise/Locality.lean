import Mathlib.Data.Set.Function
import Mathlib.Order.Interval.Set.Defs
import PacketExpr.Proofs.Bitwise.Padding

/-!
# What evaluation depends on

Evaluation depends on the words that it reads and on no others: two files that agree on these words
agree in the destination afterwards, whatever else they hold.  The proof follows both evaluations
turn by turn.  The positions on which the two files agree are never lost, since both write the same
word at the same place, and every turn adds the position that it writes.

So two expressions can be evaluated in either order if neither of them writes a word that the other
one reads or writes.  Every position is then outside of one of the two destinations, and there the
expression that does not write it has no part in the result.
-/

namespace PacketExpr

/-- The positions of the words that `size` bytes at the register occupy. -/
def Register.extent (register : Register) (size : Nat) : Set Nat :=
  Set.Ico register.word (register.word + wordCount size)

theorem Register.add_mem_extent {register : Register} {size offset : Nat}
    (offset_lt : offset < wordCount size) : register.word + offset ∈ register.extent size :=
  ⟨Nat.le_add_right .., Nat.add_lt_add_left offset_lt _⟩

namespace RegisterFile

variable {first second : RegisterFile} {positions : Set Nat}

theorem word_of_capacity_le {file : RegisterFile} {position : Nat}
    (outside : file.capacity ≤ position) : file.word position = 0 := by
  have absent : file.words[position]? = none := Array.getElem?_eq_none outside
  simp [word, absent]

/-- A file is told by its capacity and its words. -/
theorem eq_of_word_eq (sameCapacity : first.capacity = second.capacity)
    (sameWords : ∀ position, first.word position = second.word position) : first = second := by
  rcases first with ⟨words⟩
  rcases second with ⟨others⟩
  congr 1
  apply Array.ext sameCapacity
  intro position inside insideOther
  have same := sameWords position
  simpa [word, inside, insideOther] using same

/-- Two files of one capacity hold the same words at some positions. -/
structure AgreeOn (positions : Set Nat) (first second : RegisterFile) : Prop where
  capacity : first.capacity = second.capacity
  words : Set.EqOn first.word second.word positions

theorem AgreeOn.mono {fewer : Set Nat} (agree : AgreeOn positions first second)
    (subset : fewer ⊆ positions) : AgreeOn fewer first second :=
  ⟨agree.capacity, agree.words.mono subset⟩

/-- Files that agree can be written to at one more place; where the place is outside, it is outside
of both files. -/
theorem AgreeOn.set (agree : AgreeOn positions first second) (position : Nat) (value : UInt32) :
    AgreeOn (insert position positions) (first.set position value)
      (second.set position value) where
  capacity := by simpa using agree.capacity
  words := by
    intro other other_mem
    simp only [word_set, agree.capacity]
    split
    · rfl
    · next unwritten =>
        rcases Set.mem_insert_iff.mp other_mem with rfl | agreed
        · have outside : second.capacity ≤ other := by
            apply Nat.le_of_not_lt
            intro inside
            exact unwritten ⟨rfl, inside⟩
          exact (word_of_capacity_le (agree.capacity ▸ outside)).trans
            (word_of_capacity_le outside).symm
        · exact agree.words agreed

end RegisterFile

open RegisterFile (AgreeOn)

namespace Bitwise

variable {expression : Bitwise} {positions : Set Nat} {offset amount : Nat}

/-- The positions that evaluation reads. -/
def readExtent (expression : Bitwise) : Set Nat :=
  {position | ∃ place ∈ expression.reads, position ∈ place.extent expression.length}

/-- The positions that evaluation writes. -/
def writtenExtent (expression : Bitwise) : Set Nat :=
  expression.destination.extent expression.length

theorem mem_readExtent {place : Register} (place_mem : place ∈ expression.reads)
    (offset_lt : offset < wordCount expression.length) :
    place.word + offset ∈ expression.readExtent :=
  ⟨place, place_mem, Register.add_mem_extent offset_lt⟩

section

variable {State : Type} {Related : Set Nat → State → State → Prop} {first second : State}

/-- Two runs of turns stay related, and the positions on which they agree grow by those that the
turns write. -/
theorem foldl_related {offsets : List Nat} (step : State → Nat → State)
    (turn : ∀ offset ∈ offsets, ∀ positions first second, expression.readExtent ⊆ positions →
      Related positions first second →
        Related (insert (expression.destination.word + offset) positions) (step first offset)
          (step second offset))
    (includes : expression.readExtent ⊆ positions) (start : Related positions first second) :
    Related (positions ∪ (expression.destination.word + ·) '' {offset | offset ∈ offsets})
      (offsets.foldl step first) (offsets.foldl step second) := by
  induction offsets generalizing positions first second with
  | nil => simpa using start
  | cons offset offsets ih =>
      have next := turn offset List.mem_cons_self positions first second includes start
      have rest := ih (fun later later_mem => turn later (List.mem_cons_of_mem _ later_mem))
        (includes.trans (Set.subset_insert ..)) next
      have offsets_eq : {later | later ∈ offset :: offsets} =
          insert offset {later | later ∈ offsets} := by
        ext later
        exact List.mem_cons
      rw [offsets_eq, Set.image_insert_eq, Set.union_insert, ← Set.insert_union]
      exact rest

theorem image_range_eq_writtenExtent {offsets : List Nat}
    (all : ∀ offset, offset ∈ offsets ↔ offset < wordCount expression.length) :
    (expression.destination.word + ·) '' {offset | offset ∈ offsets} =
      expression.writtenExtent := by
  ext position
  constructor
  · rintro ⟨offset, offset_mem, rfl⟩
    exact Register.add_mem_extent ((all offset).mp offset_mem)
  · rintro ⟨starts, ends⟩
    refine ⟨position - expression.destination.word, (all _).mpr ?_, ?_⟩
    · omega
    · exact Nat.add_sub_cancel' starts

end

/-- A turn of a boolean transform depends on no word but those that are read. -/
theorem agreeOn_booleanStep {mask xor : Operand}
    (isBoolean : expression.transform = .boolean mask xor) {first second : RegisterFile}
    (offset_lt : offset < wordCount expression.length)
    (includes : expression.readExtent ⊆ positions) (agree : AgreeOn positions first second) :
    AgreeOn (insert (expression.destination.word + offset) positions)
      (expression.booleanStep mask xor first offset)
      (expression.booleanStep mask xor second offset) := by
  have sameAt {place : Register} (place_mem : place ∈ expression.reads) :
      first.word (place.word + offset) = second.word (place.word + offset) :=
    agree.words (includes (mem_readExtent place_mem offset_lt))
  have sameOperand {operand : Operand} (operand_mem : operand ∈ [mask, xor]) :
      operand.word first offset = operand.word second offset := by
    cases operand with
    | immediate value => rfl
    | register place =>
        apply sameAt
        simp only [reads, isBoolean]
        apply List.mem_cons_of_mem
        exact Transform.mem_registers_iff.mpr ⟨.register place, operand_mem, rfl⟩
  simp only [booleanStep, sameAt (List.mem_cons_self : expression.source ∈ expression.reads),
    sameOperand (List.mem_cons_self : mask ∈ [mask, xor]),
    sameOperand (List.mem_cons_of_mem _ List.mem_cons_self : xor ∈ [mask, xor])]
  exact agree.set ..

/-- Two states of a shift have the same carry, and files that agree on some positions. -/
def SameCarry (positions : Set Nat) (first second : UInt32 × RegisterFile) : Prop :=
  first.1 = second.1 ∧ AgreeOn positions first.2 second.2

theorem sameCarry_shiftLeftStep {first second : UInt32 × RegisterFile}
    (offset_lt : offset < wordCount expression.length)
    (includes : expression.readExtent ⊆ positions) (same : SameCarry positions first second) :
    SameCarry (insert (expression.destination.word + offset) positions)
      (expression.shiftLeftStep amount offset first)
      (expression.shiftLeftStep amount offset second) := by
  rcases same with ⟨sameCarry, agree⟩
  have sameSource := agree.words (includes (mem_readExtent List.mem_cons_self offset_lt))
  simp only [shiftLeftStep, sameCarry, sameSource]
  exact ⟨rfl, agree.set ..⟩

theorem sameCarry_shiftRightStep {first second : UInt32 × RegisterFile}
    (offset_lt : offset < wordCount expression.length)
    (includes : expression.readExtent ⊆ positions) (same : SameCarry positions first second) :
    SameCarry (insert (expression.destination.word + offset) positions)
      (expression.shiftRightStep amount first offset)
      (expression.shiftRightStep amount second offset) := by
  rcases same with ⟨sameCarry, agree⟩
  have sameSource := agree.words (includes (mem_readExtent List.mem_cons_self offset_lt))
  simp only [shiftRightStep, sameCarry, sameSource]
  exact ⟨rfl, agree.set ..⟩

/-- Files that agree on what evaluation reads agree afterwards on what it has written, too. -/
theorem agreeOn_run {first second : RegisterFile} (includes : expression.readExtent ⊆ positions)
    (agree : AgreeOn positions first second) :
    AgreeOn (positions ∪ expression.writtenExtent) (expression.run first)
      (expression.run second) := by
  have noCarry : SameCarry positions (0, first) (0, second) := ⟨rfl, agree⟩
  cases transform_eq : expression.transform with
  | boolean mask xor =>
      rw [← image_range_eq_writtenExtent fun _ => List.mem_range]
      simp only [run, transform_eq]
      apply foldl_related (expression.booleanStep mask xor) _ includes agree
      intro offset offset_mem _ _ _ includes agree
      exact agreeOn_booleanStep transform_eq (List.mem_range.mp offset_mem) includes agree
  | shiftLeft amount =>
      rw [← image_range_eq_writtenExtent fun _ => List.mem_reverse.trans List.mem_range]
      simp only [run, transform_eq, List.foldr_eq_foldl_reverse]
      refine (foldl_related _ ?_ includes noCarry).2
      intro offset offset_mem _ _ _ includes same
      have offset_lt := List.mem_range.mp (List.mem_reverse.mp offset_mem)
      exact sameCarry_shiftLeftStep offset_lt includes same
  | shiftRight amount =>
      rw [← image_range_eq_writtenExtent fun _ => List.mem_range]
      simp only [run, transform_eq]
      refine (foldl_related _ ?_ includes noCarry).2
      intro offset offset_mem _ _ _ includes same
      exact sameCarry_shiftRightStep (List.mem_range.mp offset_mem) includes same

/-- Files that agree on what is read agree after evaluation on no less; a file that is too small is
so on both sides. -/
theorem agreeOn_eval {first second : RegisterFile} (includes : expression.readExtent ⊆ positions)
    (agree : AgreeOn positions first second) :
    AgreeOn positions (expression.eval first) (expression.eval second) := by
  by_cases fits : expression.fits first = true
  · have fitsSecond := fits_congr agree.capacity.symm fits
    rw [eval_of_fits fits, eval_of_fits fitsSecond]
    exact (agreeOn_run includes agree).mono Set.subset_union_left
  · have tooSmall : ¬expression.fits second = true := fun fitsSecond =>
      fits (fits_congr agree.capacity fitsSecond)
    simpa only [eval, if_neg fits, if_neg tooSmall] using agree

theorem agreeOn_eval_self (expression : Bitwise) (file : RegisterFile) :
    AgreeOn (expression.writtenExtent)ᶜ (expression.eval file) file where
  capacity := capacity_eval expression file
  words := by
    intro position unwritten
    apply word_eval_of_outside
    simp only [writtenExtent, Register.extent, Set.mem_compl_iff, Set.mem_Ico] at unwritten
    omega

/-- Files that differ from a third one at most in the destination are equal if the words there
are. -/
theorem eq_of_agreeOn_of_words {file first second : RegisterFile}
    (frame : AgreeOn (expression.writtenExtent)ᶜ first file)
    (otherFrame : AgreeOn (expression.writtenExtent)ᶜ second file)
    (same : ∀ offset < wordCount expression.length,
      first.word (expression.destination.word + offset) =
        second.word (expression.destination.word + offset)) : first = second := by
  apply RegisterFile.eq_of_word_eq (frame.capacity.trans otherFrame.capacity.symm)
  intro position
  by_cases written : position ∈ expression.writtenExtent
  · rcases written with ⟨starts, ends⟩
    have inside := same (position - expression.destination.word) (by omega)
    rwa [Nat.add_sub_cancel' starts] at inside
  · exact (frame.words written).trans (otherFrame.words written).symm

/-- Neither of two expressions writes a word that the other one reads or writes. -/
structure Independent (first second : Bitwise) : Prop where
  ofFirst : ∀ place ∈ second.registers, ∀ position ∈ place.extent second.length,
    position ∉ first.writtenExtent
  ofSecond : ∀ place ∈ first.registers, ∀ position ∈ place.extent first.length,
    position ∉ second.writtenExtent

variable {first second : Bitwise}

theorem Independent.symm (independent : first.Independent second) : second.Independent first :=
  ⟨independent.ofSecond, independent.ofFirst⟩

theorem reads_subset_registers (expression : Bitwise) :
    expression.reads ⊆ expression.registers :=
  List.cons_subset_cons _ (List.subset_cons_self ..)

/-- Where the second expression does not write, it has no part in the result. -/
theorem Independent.word_eval_eval (independent : first.Independent second) (file : RegisterFile)
    {position : Nat} (unwritten : position ∉ second.writtenExtent) :
    (first.eval (second.eval file)).word position = (first.eval file).word position ∧
      (second.eval (first.eval file)).word position = (first.eval file).word position := by
  have readsElsewhere : first.readExtent ⊆ (second.writtenExtent)ᶜ := by
    rintro read ⟨place, place_mem, read_mem⟩
    exact independent.ofSecond place (reads_subset_registers first place_mem) read read_mem
  constructor
  · exact (agreeOn_eval readsElsewhere (agreeOn_eval_self second file)).words unwritten
  · exact (agreeOn_eval_self second (first.eval file)).words unwritten

/-- Expressions of which neither writes a word that the other one reads or writes can be evaluated
in either order, whatever they do, however each of them overlaps itself, and whether or not the file
is large enough for both of them. -/
theorem eval_comm_of_independent (independent : first.Independent second) (file : RegisterFile) :
    second.eval (first.eval file) = first.eval (second.eval file) := by
  apply RegisterFile.eq_of_word_eq
  · simp only [capacity_eval]
  · intro position
    by_cases written : position ∈ second.writtenExtent
    · have unwritten : position ∉ first.writtenExtent :=
        independent.ofFirst _ second.destination_mem_registers position written
      have asSecond := independent.symm.word_eval_eval file unwritten
      exact asSecond.1.trans asSecond.2.symm
    · have asFirst := independent.word_eval_eval file written
      exact asFirst.2.trans asFirst.1.symm

/-- Seven bytes that are shifted one word up over themselves, and eight bytes that are masked by a
register and moved up over themselves; the smaller file has no room for the second expression. -/
theorem eval_comm_of_independent_overlapping :
    let shift : Bitwise := ⟨⟨4⟩, ⟨5⟩, 7, .shiftRight 5⟩
    let move : Bitwise := ⟨⟨8⟩, ⟨9⟩, 8, .boolean (.register ⟨7⟩) (.register ⟨8⟩)⟩
    let large : RegisterFile := ⟨#[0, 0, 0, 0, 0x01234567, 0x89ABCDEF, 1, 0xFFFF, 0x76543210, 2, 3]⟩
    let small : RegisterFile := ⟨#[0, 0, 0, 0, 0x01234567, 0x89ABCDEF, 1, 0xFFFF]⟩
    shift.Independent move ∧ move.eval (shift.eval large) = shift.eval (move.eval large) ∧
      shift.fits small = true ∧ move.fits small = false ∧
      move.eval (shift.eval small) = shift.eval (move.eval small) := by
  intro shift move large small
  have behindShift : ∀ place ∈ move.registers,
      shift.destination.word + wordCount shift.length ≤ place.word := by decide
  have beforeMove : ∀ place ∈ shift.registers,
      place.word + wordCount shift.length ≤ move.destination.word := by decide
  have independent : shift.Independent move := by
    constructor
    · rintro place place_mem position ⟨starts, _⟩ ⟨_, shifted⟩
      exact absurd shifted (Nat.not_lt.mpr ((behindShift place place_mem).trans starts))
    · rintro place place_mem position ⟨_, ends⟩ ⟨moved, _⟩
      exact absurd moved (Nat.not_le.mpr (ends.trans_le (beforeMove place place_mem)))
  exact ⟨independent, eval_comm_of_independent independent large, by decide, by decide,
    eval_comm_of_independent independent small⟩

end Bitwise

end PacketExpr
