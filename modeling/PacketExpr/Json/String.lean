import PacketExpr.Json.Basic

/-!
# JSON strings

A string ends at a quotation mark that no backslash precedes.  Control characters have to be
escaped, and an escape by number gives one unit of 16 bits: a character beyond the first 65536 takes
two of them, a high and a low half, and neither half may stand alone.

Where a text is written as a string, only what has to be escaped is: quotation marks, backslashes
and control characters, by a letter if they have one and else by number.  JSON would allow for other
spellings; that these are the ones that are written is assumed of the library serde_json.
-/

namespace PacketExpr

namespace Json

/-- Reads the four hexadecimal digits of a unit.  The text ends too early if fewer than four bytes
of it are left. -/
def readUnit (chars : List Char) : Except JsonError (Nat × List Char) :=
  if (String.ofList (chars.take 4)).utf8ByteSize < 4 then
    .error .unexpectedEnd
  else
    match (chars.take 4).mapM Hex.value? with
    | some [a, b, c, d] => .ok (((a * 16 + b) * 16 + c) * 16 + d, chars.drop 4)
    | _ => .error .malformed

/-- Whether a unit is the first half of a character. -/
def isHighHalf (unit : Nat) : Bool := 0xD800 ≤ unit && unit ≤ 0xDBFF

/-- Whether a unit is the second half of a character. -/
def isLowHalf (unit : Nat) : Bool := 0xDC00 ≤ unit && unit ≤ 0xDFFF

/-- The character that two halves make. -/
def joinHalves (high low : Nat) : Char :=
  Char.ofNat ((high - 0xD800) * 0x400 + (low - 0xDC00) + 0x10000)

/-- Reads an escape by number, from behind its letter on. -/
def readNumberEscape (chars : List Char) : Except JsonError (Char × List Char) := do
  let (unit, rest) ← readUnit chars
  if isLowHalf unit then
    .error .malformed
  else if isHighHalf unit then
    match rest with
    | '\\' :: 'u' :: more => do
      let (low, rest) ← readUnit more
      if isLowHalf low then .ok (joinHalves unit low, rest) else .error .malformed
    | [] | ['\\'] => .error .unexpectedEnd
    | _ => .error .malformed
  else
    .ok (Char.ofNat unit, rest)

/-- Reads an escape, from behind its backslash on. -/
def readEscape : List Char → Except JsonError (Char × List Char)
  | [] => .error .unexpectedEnd
  | '"' :: rest => .ok ('"', rest)
  | '\\' :: rest => .ok ('\\', rest)
  | '/' :: rest => .ok ('/', rest)
  | 'b' :: rest => .ok ('\x08', rest)
  | 'f' :: rest => .ok ('\x0c', rest)
  | 'n' :: rest => .ok ('\n', rest)
  | 'r' :: rest => .ok ('\r', rest)
  | 't' :: rest => .ok ('\t', rest)
  | 'u' :: rest => readNumberEscape rest
  | _ => .error .malformed

theorem length_le_of_readUnit {chars rest : List Char} {unit : Nat}
    (reads : readUnit chars = .ok (unit, rest)) : rest.length ≤ chars.length := by
  unfold readUnit at reads
  split at reads
  · contradiction
  · split at reads
    · simp only [Except.ok.injEq, Prod.mk.injEq] at reads
      rw [← reads.2, List.length_drop]
      omega
    · contradiction

/-- Neither half of a pair is read from characters that are not there. -/
theorem length_le_of_readNumberEscape {chars rest : List Char} {c : Char}
    (reads : readNumberEscape chars = .ok (c, rest)) : rest.length ≤ chars.length := by
  unfold readNumberEscape at reads
  cases first : readUnit chars with
  | error error => simp [first, bind, Except.bind] at reads
  | ok pair =>
    obtain ⟨unit, behind⟩ := pair
    have shorter := length_le_of_readUnit first
    simp only [first, bind, Except.bind] at reads
    split at reads
    · contradiction
    · split at reads
      · split at reads
        · rename_i more
          cases second : readUnit more with
          | error error => simp [second] at reads
          | ok pair =>
            obtain ⟨low, after⟩ := pair
            have shorterStill := length_le_of_readUnit second
            simp only [second] at reads
            split at reads
            · simp only [Except.ok.injEq, Prod.mk.injEq] at reads
              simp only [List.length_cons] at shorter
              rw [← reads.2]
              omega
            · contradiction
        · contradiction
        · contradiction
        · contradiction
      · simp only [Except.ok.injEq, Prod.mk.injEq] at reads
        rw [← reads.2]
        exact shorter

/-- An escape uses up at least one character. -/
theorem length_lt_of_readEscape {chars rest : List Char} {c : Char}
    (reads : readEscape chars = .ok (c, rest)) : rest.length < chars.length := by
  unfold readEscape at reads
  split at reads
  case h_10 => exact Nat.lt_succ_of_le (length_le_of_readNumberEscape reads)
  all_goals first
    | contradiction
    | simp only [Except.ok.injEq, Prod.mk.injEq] at reads
      simp [← reads.2]

/-- Reads the characters of a string, from behind its opening quotation mark on. -/
def readStringBody : List Char → Except JsonError (List Char × List Char)
  | [] => .error .unexpectedEnd
  | '"' :: rest => .ok ([], rest)
  | '\\' :: rest =>
    match _ : readEscape rest with
    | .error error => .error error
    | .ok (c, behind) => do
      let (body, after) ← readStringBody behind
      return (c :: body, after)
  | c :: rest =>
    if c.toNat < 0x20 then
      .error .malformed
    else do
      let (body, after) ← readStringBody rest
      return (c :: body, after)
termination_by chars => chars.length
decreasing_by
  · have shorter := length_lt_of_readEscape (by assumption)
    simp only [List.length_cons]
    omega
  · simp only [List.length_cons]
    omega

/-- Reads a string, from behind its opening quotation mark on. -/
def readString (chars : List Char) : Except JsonError (String × List Char) := do
  let (body, rest) ← readStringBody chars
  return (String.ofList body, rest)

/-- What is written for a character of a text inside of a string. -/
def spelling : Char → List Char
  | '"' => ['\\', '"']
  | '\\' => ['\\', '\\']
  | '\x08' => ['\\', 'b']
  | '\x0c' => ['\\', 'f']
  | '\n' => ['\\', 'n']
  | '\r' => ['\\', 'r']
  | '\t' => ['\\', 't']
  | c =>
    if c.toNat < 0x20 then
      ['\\', 'u', '0', '0', Hex.digit (c.toNat / 16), Hex.digit (c.toNat % 16)]
    else
      [c]

/-- A text as a string, with its quotation marks. -/
def string (text : String) : String :=
  String.ofList ('"' :: text.toList.flatMap spelling ++ ['"'])

end Json

end PacketExpr
