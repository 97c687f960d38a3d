import PacketExpr.Proofs.Json.Number
import PacketExpr.Proofs.Json.String

/-!
# Tokens of a text

A text is written token by token, with any number of blanks before each of them and behind the last.
A string may be spelled in any way, a number is spelled by its digits.  What the readers find at the
front of a text is then the next token, and what they leave is written with the tokens behind it.
-/

namespace PacketExpr.Json

inductive Token where
  /-- A bracket, a colon or a comma. -/
  | mark (c : Char)
  | string (text : String)
  | natural (value : UInt64)

def marks : List Char := ['\x7b', '\x7d', '[', ']', ':', ',']

inductive Token.Spells : Token → List Char → Prop where
  | mark {c : Char} (c_mem : c ∈ marks) : Spells (.mark c) [c]
  | string {text : String} {spelling : List Char} (spells : SpellsText text.toList spelling) :
      Spells (.string text) ('"' :: (spelling ++ ['"']))
  | natural (value : UInt64) : Spells (.natural value) (toString value).toList

/-- The characters are those of the tokens with blanks between them. -/
inductive Written : List Token → List Char → Prop where
  | nil {blanks : List Char} (blank : blanks.all isBlank = true) : Written [] blanks
  | cons {token : Token} {tokens : List Token} {blanks spelling chars : List Char}
      (blank : blanks.all isBlank = true) (first : token.Spells spelling)
      (others : Written tokens chars) : Written (token :: tokens) (blanks ++ (spelling ++ chars))

variable {tokens : List Token} {chars : List Char}

/-- A token without blanks before it. -/
theorem Written.token {token : Token} {spelling : List Char} (others : Written tokens chars)
    (spells : token.Spells spelling) : Written (token :: tokens) (spelling ++ chars) := by
  have noBlanks : [].all isBlank = true := rfl
  exact .cons noBlanks spells others

theorem skipBlanks_append {blanks : List Char} (blank : blanks.all isBlank = true)
    (rest : List Char) : skipBlanks (blanks ++ rest) = skipBlanks rest :=
  List.dropWhile_append_of_pos (List.all_eq_true.mp blank)

theorem skipBlanks_cons {c : Char} (notBlank : isBlank c = false) (rest : List Char) :
    skipBlanks (c :: rest) = c :: rest :=
  List.dropWhile_cons_of_neg (by simp [notBlank])

theorem Written.skipBlanks_nil (written : Written [] chars) : skipBlanks chars = [] := by
  cases written with
  | nil blank =>
      have skipped := skipBlanks_append blank []
      rw [List.append_nil] at skipped
      exact skipped

theorem not_isBlank_of_mem_marks {c : Char} (c_mem : c ∈ marks) : isBlank c = false := by
  simp only [marks, List.mem_cons, List.not_mem_nil, or_false] at c_mem
  rcases c_mem with rfl | rfl | rfl | rfl | rfl | rfl <;> rfl

theorem Written.skipBlanks_mark {c : Char} (written : Written (.mark c :: tokens) chars) :
    ∃ rest, skipBlanks chars = c :: rest ∧ Written tokens rest := by
  cases written with
  | cons blank first others =>
      cases first with
      | mark c_mem =>
          rw [skipBlanks_append blank]
          exact ⟨_, skipBlanks_cons (not_isBlank_of_mem_marks c_mem) _, others⟩

/-- Behind blanks stands the text that comes next, in quotation marks. -/
theorem Written.readString {text : String} (written : Written (.string text :: tokens) chars) :
    ∃ inside rest, skipBlanks chars = '"' :: inside ∧ Json.readString inside = .ok (text, rest) ∧
      Written tokens rest := by
  cases written with
  | cons blank first others =>
      cases first with
      | string spells =>
          rw [skipBlanks_append blank, List.cons_append, List.append_assoc]
          exact ⟨_, _, skipBlanks_cons rfl _, readString_of_spells spells, others⟩

theorem endsNumber_of_isBlank {c : Char} (blank : isBlank c = true) (rest : List Char) :
    EndsNumber (c :: rest) := by
  rintro next ⟨⟩
  simp only [isBlank, Bool.or_eq_true, beq_iff_eq] at blank
  rcases blank with ((rfl | rfl) | rfl) | rfl <;> decide

theorem endsNumber_of_mem_marks {c : Char} (c_mem : c ∈ marks) (rest : List Char) :
    EndsNumber (c :: rest) := by
  rintro next ⟨⟩
  simp only [marks, List.mem_cons, List.not_mem_nil, or_false] at c_mem
  rcases c_mem with rfl | rfl | rfl | rfl | rfl | rfl <;> decide

/-- No number goes on behind a mark or blanks. -/
theorem Written.endsNumber {c : Char} (written : Written (.mark c :: tokens) chars) :
    EndsNumber chars := by
  cases written with
  | @cons _ _ blanks _ _ blank first others =>
      cases first with
      | mark c_mem =>
          cases blanks with
          | nil => exact endsNumber_of_mem_marks c_mem _
          | cons other blanks =>
              rw [List.all_cons, Bool.and_eq_true] at blank
              exact endsNumber_of_isBlank blank.1 _

/-- A number ends where the mark behind it begins, or a blank in front of that mark. -/
theorem Written.readNumber {c : Char} {value : UInt64}
    (written : Written (.natural value :: .mark c :: tokens) chars) :
    ∃ digit digits rest, skipBlanks chars = digit :: digits ∧ startsNumber digit = true ∧
      Json.readNumber (digit :: digits) = .ok (.natural value, rest) ∧
      Written (.mark c :: tokens) rest := by
  cases written with
  | @cons _ _ _ _ rest blank first others =>
      cases first with
      | natural =>
          have reads := readNumber_toString value others.endsNumber
          rcases exists_toString_eq_cons value.toNat with ⟨digit, digits, spelling, isFirst⟩
          have sameSpelling : (toString value).toList = digit :: digits := spelling
          rw [sameSpelling, List.cons_append] at reads
          have notBlank : isBlank digit = false := by
            apply Bool.eq_false_iff.mpr
            intro blankDigit
            have noDigit := (endsNumber_of_isBlank blankDigit [] digit rfl).1
            exact absurd (isFirst.symm.trans noDigit) (by decide)
          rw [skipBlanks_append blank, sameSpelling, List.cons_append]
          refine ⟨digit, digits ++ rest, rest, skipBlanks_cons notBlank _, ?_, reads, others⟩
          simp [startsNumber, isFirst]

end PacketExpr.Json
