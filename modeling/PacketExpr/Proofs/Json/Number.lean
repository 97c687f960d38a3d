import PacketExpr.Proofs.Except
import PacketExpr.Proofs.Text.Digits

/-!
# Reading numerals

A number of 64 bits is read back from its decimal digits, wherever these end: before the end of the
text, or before a character that cannot go on with a number.
-/

namespace PacketExpr.Json

/-- No number that ends before `rest` goes on there. -/
def EndsNumber (rest : List Char) : Prop :=
  ∀ c ∈ rest.head?, isDigit c = false ∧ c ≠ '.' ∧ c ≠ 'e' ∧ c ≠ 'E'

variable {rest : List Char}

/-- No number but zero is printed with a zero in front, which the reader would refuse. -/
theorem head?_toDigits_ne_zero {number : Nat} (number_pos : 0 < number) :
    (Nat.toDigits 10 number).head? ≠ some '0' := by
  induction number using Nat.strongRecOn with
  | _ number ih =>
      rw [Nat.toDigits_eq_if (by decide)]
      split
      · next oneDigit =>
          have each : ∀ digit : Fin 10, 0 < digit.val → some (Nat.digitChar digit) ≠ some '0' := by
            decide
          exact each ⟨number, oneDigit⟩ number_pos
      · next moreDigits =>
          have smaller := ih (number / 10) (by omega) (by omega)
          cases front : Nat.toDigits 10 (number / 10) with
          | nil => exact absurd front Nat.toDigits_ne_nil
          | cons digit digits =>
              rw [front] at smaller
              exact smaller

/-- Only zero is written with a zero in front, and then it is the only digit. -/
theorem toString_ne_zero_cons (number : Nat) (digit : Char) (digits : List Char) :
    (toString number).toList ≠ '0' :: digit :: digits := by
  intro leadingZero
  rcases Nat.eq_zero_or_pos number with rfl | number_pos
  · cases leadingZero
  · apply head?_toDigits_ne_zero number_pos
    rw [← toList_toString, leadingZero]
    rfl

theorem exists_toString_eq_cons (number : Nat) :
    ∃ c digits, (toString number).toList = c :: digits ∧ isDigit c = true := by
  cases written : (toString number).toList with
  | nil => exact absurd (toList_toString number ▸ written) Nat.toDigits_ne_nil
  | cons c digits =>
      have c_mem : c ∈ (toString number).toList := written ▸ List.mem_cons_self
      exact ⟨c, digits, rfl, isDigit_of_mem_toString c_mem⟩

theorem takeWhile_isDigit_append {digits : List Char} (allDigits : ∀ c ∈ digits, isDigit c = true)
    (ends : EndsNumber rest) : (digits ++ rest).takeWhile isDigit = digits := by
  rw [List.takeWhile_append_of_pos allDigits]
  cases rest with
  | nil => exact List.append_nil _
  | cons c rest => rw [List.takeWhile_cons_of_neg (by simp [(ends c rfl).1]), List.append_nil]

theorem dropWhile_isDigit_append {digits : List Char} (allDigits : ∀ c ∈ digits, isDigit c = true)
    (ends : EndsNumber rest) : (digits ++ rest).dropWhile isDigit = rest := by
  rw [List.dropWhile_append_of_pos allDigits]
  cases rest with
  | nil => rfl
  | cons c rest => exact List.dropWhile_cons_of_neg (by simp [(ends c rfl).1])

/-- The digits of a number are read up to where it ends. -/
theorem readDigits_toString (number : Nat) (ends : EndsNumber rest) :
    readDigits ((toString number).toList ++ rest) = .ok ((toString number).toList, rest) := by
  have allDigits : ∀ c ∈ (toString number).toList, isDigit c = true :=
    fun _ => isDigit_of_mem_toString
  have front := takeWhile_isDigit_append allDigits ends
  have behind := dropWhile_isDigit_append allDigits ends
  rcases exists_toString_eq_cons number with ⟨c, digits, written, isFirst⟩
  rw [written] at front behind ⊢
  simp only [readDigits, List.cons_append, isFirst, if_true] at front behind ⊢
  rw [front, behind]

theorem readIntegerDigits_toString (number : Nat) (ends : EndsNumber rest) :
    readIntegerDigits ((toString number).toList ++ rest) =
      .ok ((toString number).toList, rest) := by
  rw [readIntegerDigits, readDigits_toString number ends]
  simp only [bind, Except.bind]
  split
  · next leadingZero => exact absurd leadingZero (toString_ne_zero_cons number _ _)
  · rfl

theorem readFraction_of_ends (ends : EndsNumber rest) : readFraction rest = .ok (none, rest) := by
  unfold readFraction
  split
  · exact absurd rfl (ends '.' rfl).2.1
  · rfl

theorem readExponent_of_ends (ends : EndsNumber rest) : readExponent rest = .ok (none, rest) := by
  unfold readExponent
  split
  · exact absurd rfl (ends 'e' rfl).2.2.1
  · exact absurd rfl (ends 'E' rfl).2.2.2
  · rfl

theorem numberOfDigits_toString (value : UInt64) :
    numberOfDigits false (toString value.toNat).toList = .ok (.natural value) := by
  have value_lt : value.toNat < wordBound := value.toNat_lt
  simp only [numberOfDigits, digitsValue_toString, Bool.false_eq_true, false_and, if_false,
    not_false_eq_true, value_lt, and_self, if_true, UInt64.ofNat_toNat]

/-- The digits of a number of 64 bits are read as this number. -/
theorem readNumber_toString (value : UInt64) (ends : EndsNumber rest) :
    readNumber ((toString value).toList ++ rest) = .ok (.natural value, rest) := by
  have unsigned : readUnsigned false ((toString value.toNat).toList ++ rest) =
      .ok (.natural value, rest) := by
    simp only [readUnsigned, readIntegerDigits_toString _ ends, readFraction_of_ends ends,
      readExponent_of_ends ends, numberOfDigits_toString, bind, Except.bind, pure, Except.pure]
  rw [← unsigned]
  rcases exists_toString_eq_cons value.toNat with ⟨c, digits, written, isFirst⟩
  change readNumber ((toString value.toNat).toList ++ rest) = _
  rw [written, List.cons_append]
  unfold readNumber
  split
  · next same =>
      rw [List.head_eq_of_cons_eq same] at isFirst
      cases isFirst
  · rfl

end PacketExpr.Json
