import PacketExpr.Json.String
import PacketExpr.Proofs.Except
import PacketExpr.Proofs.Text.Digits

/-!
# Reading strings

A text can be spelled in many ways as a string: each character as itself, unless it is a quotation
mark, a backslash or a control character, by a letter if it has one, or by number.  Whatever the
spelling, the text is read back.  In particular a text is read back from the string that it is
written as, so this string determines the text.
-/

namespace PacketExpr.Json

/-- Four hexadecimal digits, of either case, spell a unit. -/
inductive SpellsUnit : List Char → Nat → Prop where
  | digits {w x y z : Char} {a b c d : Nat} (first : Hex.value? w = some a)
      (second : Hex.value? x = some b) (third : Hex.value? y = some c)
      (fourth : Hex.value? z = some d) :
      SpellsUnit [w, x, y, z] (0x1000 * a + 0x100 * b + 0x10 * c + d)

/-- The characters that can be escaped by a letter, each behind its letter. -/
def shortEscapes : List (Char × Char) :=
  [('"', '"'), ('\\', '\\'), ('/', '/'), ('b', '\x08'), ('f', '\x0c'), ('n', '\n'), ('r', '\r'),
    ('t', '\t')]

/-- Whether a character may stand for itself. -/
def isPlain (c : Char) : Bool := 0x20 ≤ c.toNat && c != '"' && c != '\\'

/-- The characters of a string that stand for one character of its text. -/
inductive SpellsChar : Char → List Char → Prop where
  | plain {c : Char} (plain : isPlain c = true) : SpellsChar c [c]
  | short {letter c : Char} (escapes : (letter, c) ∈ shortEscapes) : SpellsChar c ['\\', letter]
  | unit {digits : List Char} {unit : Nat} (spells : SpellsUnit digits unit)
      (noHalf : isHighHalf unit = false ∧ isLowHalf unit = false) :
      SpellsChar (Char.ofNat unit) ('\\' :: 'u' :: digits)
  | halves {highDigits lowDigits : List Char} {high low : Nat}
      (spellsHigh : SpellsUnit highDigits high) (spellsLow : SpellsUnit lowDigits low)
      (isHigh : isHighHalf high = true) (isLow : isLowHalf low = true) :
      SpellsChar (Char.ofNat (0x10000 + 0x400 * (high - 0xD800) + (low - 0xDC00)))
        ('\\' :: 'u' :: highDigits ++ '\\' :: 'u' :: lowDigits)

/-- The characters between the quotation marks of a string stand for a text. -/
inductive SpellsText : List Char → List Char → Prop where
  | nil : SpellsText [] []
  | cons {c : Char} {text spelling spellings : List Char} (first : SpellsChar c spelling)
      (others : SpellsText text spellings) : SpellsText (c :: text) (spelling ++ spellings)

variable {rest : List Char}

/-- The reader has fuel for each byte of a text, and a text has no fewer bytes than characters. -/
theorem length_le_utf8ByteSize (chars : List Char) :
    chars.length ≤ (String.ofList chars).utf8ByteSize := by
  induction chars with
  | nil => exact Nat.zero_le _
  | cons c chars ih =>
      have size_pos := c.utf8Size_pos
      rw [String.ofList_cons, String.utf8ByteSize_append, String.utf8ByteSize_singleton,
        List.length_cons]
      omega

theorem readUnit_of_spells {digits : List Char} {unit : Nat} (spells : SpellsUnit digits unit) :
    readUnit (digits ++ rest) = .ok (unit, rest) := by
  cases spells with
  | @digits w x y z a b c d first second third fourth =>
      have enough : 4 ≤ (String.ofList [w, x, y, z]).utf8ByteSize :=
        length_le_utf8ByteSize [w, x, y, z]
      have read : [w, x, y, z].mapM Hex.value? = some [a, b, c, d] := by
        simp [first, second, third, fourth]
      have front : ([w, x, y, z] ++ rest).take 4 = [w, x, y, z] := rfl
      have behind : ([w, x, y, z] ++ rest).drop 4 = rest := rfl
      have sameUnit : ((a * 16 + b) * 16 + c) * 16 + d =
          0x1000 * a + 0x100 * b + 0x10 * c + d := by omega
      rw [readUnit, front, behind, if_neg (Nat.not_lt.mpr enough), read]
      simp only [sameUnit]

/-- A unit that is no half of a pair is a character by itself. -/
theorem readNumberEscape_of_unit {digits : List Char} {unit : Nat} (spells : SpellsUnit digits unit)
    (noHalf : isHighHalf unit = false ∧ isLowHalf unit = false) :
    readNumberEscape (digits ++ rest) = .ok (Char.ofNat unit, rest) := by
  simp only [readNumberEscape, readUnit_of_spells spells, bind, Except.bind, noHalf.1, noHalf.2,
    Bool.false_eq_true, if_false]

/-- The two halves of a pair are never the same unit. -/
theorem not_isLowHalf_of_isHighHalf {unit : Nat} (isHigh : isHighHalf unit = true) :
    isLowHalf unit = false := by
  simp only [isHighHalf, Bool.and_eq_true, decide_eq_true_eq] at isHigh
  simp only [isLowHalf, Bool.and_eq_false_iff, decide_eq_false_iff_not]
  omega

theorem readNumberEscape_of_halves {highDigits lowDigits : List Char} {high low : Nat}
    (spellsHigh : SpellsUnit highDigits high) (spellsLow : SpellsUnit lowDigits low)
    (isHigh : isHighHalf high = true) (isLow : isLowHalf low = true) :
    readNumberEscape (highDigits ++ '\\' :: 'u' :: (lowDigits ++ rest)) =
      .ok (Char.ofNat (0x10000 + 0x400 * (high - 0xD800) + (low - 0xDC00)), rest) := by
  have joined : joinHalves high low =
      Char.ofNat (0x10000 + 0x400 * (high - 0xD800) + (low - 0xDC00)) := by
    rw [joinHalves, Nat.mul_comm, Nat.add_right_comm, Nat.add_comm _ 0x10000, Nat.add_assoc]
  simp only [readNumberEscape, readUnit_of_spells spellsHigh, readUnit_of_spells spellsLow, bind,
    Except.bind, not_isLowHalf_of_isHighHalf isHigh, isHigh, isLow, Bool.false_eq_true, if_false,
    if_true, joined]

theorem readEscape_short {letter c : Char} (escapes : (letter, c) ∈ shortEscapes) :
    readEscape (letter :: rest) = .ok (c, rest) := by
  simp only [shortEscapes, List.mem_cons, Prod.mk.injEq, List.not_mem_nil, or_false] at escapes
  rcases escapes with ⟨rfl, rfl⟩ | ⟨rfl, rfl⟩ | ⟨rfl, rfl⟩ | ⟨rfl, rfl⟩ | ⟨rfl, rfl⟩ | ⟨rfl, rfl⟩ |
    ⟨rfl, rfl⟩ | ⟨rfl, rfl⟩ <;> rfl

variable {body after : List Char}

theorem readStringBody_escape {c : Char} {chars behind : List Char}
    (escape : readEscape chars = .ok (c, behind))
    (reads : readStringBody behind = .ok (body, after)) :
    readStringBody ('\\' :: chars) = .ok (c :: body, after) := by
  rw [readStringBody]
  split
  · next failed => cases escape.symm.trans failed
  · next read =>
      cases escape.symm.trans read
      rw [reads]
      rfl

/-- However a character is spelled, it is read and the rest goes on behind it. -/
theorem readStringBody_spelling {c : Char} {spelling : List Char} (spells : SpellsChar c spelling)
    (reads : readStringBody rest = .ok (body, after)) :
    readStringBody (spelling ++ rest) = .ok (c :: body, after) := by
  cases spells with
  | plain plain =>
      simp only [isPlain, Bool.and_eq_true, decide_eq_true_eq, bne_iff_ne] at plain
      rcases plain with ⟨⟨printable, noQuote⟩, noBackslash⟩
      rw [List.singleton_append, readStringBody]
      · rw [if_neg (Nat.not_lt.mpr printable), reads]
        rfl
      · exact noQuote
      · exact noBackslash
  | short escapes => exact readStringBody_escape (readEscape_short escapes) reads
  | unit spellsUnit noHalf =>
      exact readStringBody_escape (readNumberEscape_of_unit spellsUnit noHalf) reads
  | halves spellsHigh spellsLow isHigh isLow =>
      rw [List.append_assoc]
      apply readStringBody_escape _ reads
      exact readNumberEscape_of_halves spellsHigh spellsLow isHigh isLow

/-- A text that is spelled in any way is read up to the quotation mark behind it. -/
theorem readStringBody_of_spells {text spelling : List Char} (spells : SpellsText text spelling) :
    readStringBody (spelling ++ '"' :: rest) = .ok (text, rest) := by
  induction spells with
  | nil => rw [List.nil_append, readStringBody]
  | cons first others ih =>
      rw [List.append_assoc]
      exact readStringBody_spelling first ih

/-- A string is read as the text that it spells. -/
theorem readString_of_spells {text : String} {spelling : List Char}
    (spells : SpellsText text.toList spelling) :
    readString (spelling ++ '"' :: rest) = .ok (text, rest) := by
  simp only [readString, readStringBody_of_spells spells, bind, Except.bind, pure, Except.pure,
    String.ofList_toList]

/-- Without characters that have to be escaped, a text spells itself. -/
theorem spellsText_self {text : List Char} (plain : text.all isPlain = true) :
    SpellsText text text := by
  induction text with
  | nil => exact .nil
  | cons c text ih =>
      rw [List.all_cons, Bool.and_eq_true] at plain
      exact .cons (.plain plain.1) (ih plain.2)

/-- A control character is spelled by its number, of which two digits are enough. -/
theorem spellsChar_control {c : Char} (control : c.toNat < 0x20) :
    SpellsChar c ['\\', 'u', '0', '0', Hex.digit (c.toNat / 16), Hex.digit (c.toNat % 16)] := by
  have zero : Hex.value? '0' = some 0 := rfl
  have high : Hex.value? (Hex.digit (c.toNat / 16)) = some (c.toNat / 16) :=
    Hex.value?_digit (by omega)
  have low : Hex.value? (Hex.digit (c.toNat % 16)) = some (c.toNat % 16) :=
    Hex.value?_digit (by omega)
  have spells := SpellsUnit.digits zero zero high low
  have unit : 0x1000 * 0 + 0x100 * 0 + 0x10 * (c.toNat / 16) + c.toNat % 16 = c.toNat := by omega
  rw [unit] at spells
  have noHalf : isHighHalf c.toNat = false ∧ isLowHalf c.toNat = false := by
    simp only [isHighHalf, isLowHalf, Bool.and_eq_false_iff, decide_eq_false_iff_not]
    omega
  have spelled := SpellsChar.unit spells noHalf
  rwa [Char.ofNat_toNat] at spelled

theorem spellsChar_spelling (c : Char) : SpellsChar c (spelling c) := by
  unfold spelling
  split
  case h_8 =>
    split
    · next control => exact spellsChar_control control
    · next printable =>
        apply SpellsChar.plain
        simp_all [isPlain]
  all_goals exact .short (by decide)

theorem spellsText_flatMap_spelling (text : List Char) :
    SpellsText text (text.flatMap spelling) := by
  induction text with
  | nil => exact .nil
  | cons c text ih =>
      rw [List.flatMap_cons]
      exact .cons (spellsChar_spelling c) ih

theorem readString_string (text : String) (rest : List Char) :
    readString ((string text).toList.tail ++ rest) = .ok (text, rest) := by
  have body : (string text).toList.tail ++ rest = text.toList.flatMap spelling ++ '"' :: rest := by
    rw [string, String.toList_ofList]
    simp
  rw [body]
  exact readString_of_spells (spellsText_flatMap_spelling text.toList)

theorem string_injective {text other : String} (same : string text = string other) :
    text = other := by
  have read := readString_string text []
  rw [same, readString_string] at read
  cases read
  rfl

end PacketExpr.Json
