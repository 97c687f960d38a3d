import PacketExpr.Register.File
import Mathlib.Data.Nat.Basic

/-!
# Sweeps over register files

Evaluation goes through the words of a value one after the other and writes one word in each turn. A
sweep is the sequence of files that come about in this way.  Since no word is written twice, a file
in the middle of a sweep is made of words of the last file, where turns have been, and of words of
the first file everywhere else.  So what a turn reads can be told from the two ends of the sweep,
however the words that are read and the words that are written overlap.
-/

namespace PacketExpr

namespace RegisterFile

theorem word_set_of_ne {file : RegisterFile} {position other : Nat} (value : UInt32)
    (different : position ≠ other) : (file.set position value).word other = file.word other := by
  rw [word_set, if_neg]
  intro written
  exact different written.1

theorem word_set_self {file : RegisterFile} {position : Nat} (value : UInt32)
    (inside : position < file.capacity) : (file.set position value).word position = value := by
  rw [word_set, if_pos ⟨rfl, inside⟩]

/-- What is seen of a word that has been written already, or else is as before, is the same for two
pairs of files if it is the same before and if they agree on what has been written. -/
theorem view_word_congr {α : Type} (view : UInt32 → α)
    {before after otherBefore otherAfter : RegisterFile} {start count position : Nat}
    (unwritten : view (before.word position) = view (otherBefore.word position))
    (written : ∀ offset < count, after.word (start + offset) = otherAfter.word (start + offset)) :
    view (if start ≤ position ∧ position < start + count then after.word position
        else before.word position) =
      view (if start ≤ position ∧ position < start + count then otherAfter.word position
        else otherBefore.word position) := by
  split
  · next visited =>
      have place : position = start + (position - start) := by omega
      rw [place, written _ (by omega)]
  · exact unwritten

end RegisterFile

/-- The files before, between and after `turns` turns, of which each writes the word at a place of
its own. -/
structure Sweep (file : Nat → RegisterFile) (place : Nat → Nat) (turns : Nat) : Prop where
  writes : ∀ turn < turns, ∃ value, file (turn + 1) = (file turn).set (place turn) value
  distinct : ∀ first < turns, ∀ second < turns, place first = place second → first = second

namespace Sweep

variable {file : Nat → RegisterFile} {place : Nat → Nat} {turns : Nat}

theorem capacity_eq (sweep : Sweep file place turns) {turn : Nat} (reached : turn ≤ turns) :
    (file turn).capacity = (file 0).capacity := by
  induction turn with
  | zero => rfl
  | succ turn ih =>
      rcases sweep.writes turn (by omega) with ⟨value, written⟩
      rw [written, RegisterFile.capacity_set]
      exact ih (by omega)

/-- A word stays as it is while the turns write elsewhere. -/
theorem word_eq_of_unvisited (sweep : Sweep file place turns) {first last position : Nat}
    (ordered : first ≤ last) (reached : last ≤ turns)
    (elsewhere : ∀ turn, first ≤ turn → turn < last → place turn ≠ position) :
    (file last).word position = (file first).word position := by
  induction last, ordered using Nat.le_induction with
  | base => rfl
  | succ last ordered ih =>
      rcases sweep.writes last (by omega) with ⟨value, written⟩
      rw [written, RegisterFile.word_set_of_ne value (elsewhere last ordered (by omega))]
      apply ih
      · omega
      · intro turn after before
        exact elsewhere turn after (by omega)

/-- A word that has been written keeps its value, since no turn comes back to it. -/
theorem word_eq_of_visited (sweep : Sweep file place turns) {turn last : Nat}
    (visited : turn < last) (reached : last ≤ turns) :
    (file last).word (place turn) = (file turns).word (place turn) := by
  symm
  apply sweep.word_eq_of_unvisited reached le_rfl
  intro later after before samePlace
  have := sweep.distinct later before turn (by omega) samePlace
  omega

/-- What a file in the middle of a sweep holds. -/
theorem word_eq_ite (sweep : Sweep file place turns) {turn : Nat} (reached : turn ≤ turns)
    (position : Nat) [Decidable (∃ earlier < turn, place earlier = position)] :
    (file turn).word position =
      if ∃ earlier < turn, place earlier = position then (file turns).word position
      else (file 0).word position := by
  split
  · rename_i visited
    rcases visited with ⟨earlier, earlier_lt, rfl⟩
    exact sweep.word_eq_of_visited earlier_lt reached
  · rename_i unvisited
    apply sweep.word_eq_of_unvisited (Nat.zero_le turn) reached
    intro earlier _ earlier_lt samePlace
    exact unvisited ⟨earlier, earlier_lt, samePlace⟩

/-- What a file holds in the middle of a sweep that goes from the first word to the last. -/
theorem word_eq_ite_of_forward {start : Nat} (sweep : Sweep file (start + ·) turns) {turn : Nat}
    (reached : turn ≤ turns) (position : Nat) :
    (file turn).word position =
      if start ≤ position ∧ position < start + turn then (file turns).word position
      else (file 0).word position := by
  split
  · next visited =>
      have before : position - start < turn := by omega
      have place : start + (position - start) = position := by omega
      have seen := sweep.word_eq_of_visited before reached
      rwa [place] at seen
  · next unvisited =>
      apply sweep.word_eq_of_unvisited (Nat.zero_le turn) reached
      intro earlier _ earlier_lt samePlace
      omega

/-- Each turn leaves in the last file what it writes. -/
theorem word_place (sweep : Sweep file place turns) {turn : Nat} (turn_lt : turn < turns)
    (inside : place turn < (file 0).capacity) {value : UInt32}
    (written : file (turn + 1) = (file turn).set (place turn) value) :
    (file turns).word (place turn) = value := by
  have inTurn : place turn < (file turn).capacity := by
    rwa [sweep.capacity_eq (Nat.le_of_lt turn_lt)]
  rw [← sweep.word_eq_of_visited (Nat.lt_succ_self turn) turn_lt, written,
    RegisterFile.word_set_self value inTurn]

end Sweep

end PacketExpr
