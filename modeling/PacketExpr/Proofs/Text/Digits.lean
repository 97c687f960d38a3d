import PacketExpr.Json.Number
import PacketExpr.Text.Hex

/-!
# Digits

Numbers are written in decimal digits, and bytes in pairs of hexadecimal digits.  Both can be read
back from their digits, so no two numbers and no two byte strings have the same text.
-/

namespace PacketExpr

namespace Json

theorem digitsValue_eq_ofDigitChars (digits : List Char) :
    digitsValue digits = Nat.ofDigitChars 10 digits 0 := by
  simp only [digitsValue, Nat.ofDigitChars, digitValue, Nat.mul_comm]

theorem toList_toString (number : Nat) : (toString number).toList = Nat.toDigits 10 number := by
  rw [Nat.toString_eq_repr, Nat.toList_repr]

theorem isDigit_of_mem_toString {number : Nat} {c : Char}
    (c_mem : c ∈ (toString number).toList) : isDigit c = true := by
  rw [toList_toString] at c_mem
  exact Nat.isDigit_of_mem_toDigits (by decide) (by decide) c_mem

/-- The digits under which a number is written denote the number. -/
theorem digitsValue_toString (number : Nat) : digitsValue (toString number).toList = number := by
  rw [toList_toString, digitsValue_eq_ofDigitChars]
  exact Nat.ofDigitChars_ten_toDigits

theorem toString_injective {number other : Nat} (same : toString number = toString other) :
    number = other := by
  rw [← digitsValue_toString number, same, digitsValue_toString]

end Json

namespace Hex

theorem value?_digit {number : Nat} (number_lt : number < 16) :
    value? (digit number) = some number := by
  have each : ∀ small : Fin 16, value? (digit small) = some small.val := by decide
  exact each ⟨number, number_lt⟩

theorem isSome_value?_of_mem_digits {bytes : Bytes} {c : Char} (c_mem : c ∈ digits bytes) :
    (value? c).isSome = true := by
  rcases List.mem_flatMap.mp c_mem with ⟨byte, _, c_mem⟩
  have byte_lt := byte.toNat_lt
  simp only [List.mem_cons, List.not_mem_nil, or_false] at c_mem
  rcases c_mem with rfl | rfl
  · rw [value?_digit (by omega)]
    rfl
  · rw [value?_digit (by omega)]
    rfl

theorem digit_injective {number other : Nat} (number_lt : number < 16) (other_lt : other < 16)
    (same : digit number = digit other) : number = other := by
  have sameValue := congrArg value? same
  rw [value?_digit number_lt, value?_digit other_lt] at sameValue
  exact Option.some.inj sameValue

/-- A byte string can be told from its digits. -/
theorem digits_injective {bytes others : Bytes} (same : digits bytes = digits others) :
    bytes = others := by
  induction bytes generalizing others with
  | nil =>
      cases others with
      | nil => rfl
      | cons other others => cases same
  | cons byte bytes ih =>
      cases others with
      | nil => cases same
      | cons other others =>
          simp only [digits, List.flatMap_cons, List.cons_append, List.nil_append,
            List.cons.injEq] at same
          rcases same with ⟨sameHigh, sameLow, sameRest⟩
          have byte_lt := byte.toNat_lt
          have other_lt := other.toNat_lt
          have high := digit_injective (by omega) (by omega) sameHigh
          have low := digit_injective (by omega) (by omega) sameLow
          have sameByte : byte.toNat = other.toNat := by omega
          rw [UInt8.toNat_inj.mp sameByte, ih sameRest]

theorem ofBytes_injective {bytes others : Bytes} (same : ofBytes bytes = ofBytes others) :
    bytes = others :=
  digits_injective (String.ofList_injective same)

end Hex

end PacketExpr
