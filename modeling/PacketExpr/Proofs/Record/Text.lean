import PacketExpr.Proofs.Json.String
import PacketExpr.Record

/-!
# The text of a record

The text of a record is made of the keys and values of its fields.  A key ends at the first
quotation mark, and no value but the time has a comma in it, so the fields can be read off the text
from left to right, those that are left out included.  The values are names, numbers and operands,
which are also told apart by their texts.  So the text determines the record and the time.
-/

namespace PacketExpr

namespace Record

/-- The keys of an object, each with the text of its value unless it is left out. -/
abbrev Fields := List (String × Option String)

/-- The texts of the fields that are not left out. -/
def members (fields : Fields) : List String :=
  fields.flatMap fun field => member field.1 field.2

/-- The text of an object. -/
def object (members : List String) : String :=
  "\x7b" ++ String.intercalate "," members ++ "\x7d"

/-- A key up to its colon. -/
def opening (key : String) : List Char := '"' :: key.toList ++ ['"', ':']

/-- Fields that are followed by commas. -/
def entries : Fields → List Char
  | [] => []
  | (_, none) :: fields => entries fields
  | (key, some value) :: fields => opening key ++ (value.toList ++ ',' :: entries fields)

/-- The fields can be told from the text that they are written to, if `rest` comes behind them. -/
structure Readable (fields : Fields) (rest : List Char) : Prop where
  distinct : (fields.map Prod.fst).Nodup
  plainKeys : ∀ key ∈ fields.map Prod.fst, '"' ∉ key.toList
  noCommas : ∀ field ∈ fields, ∀ value ∈ field.2, ',' ∉ value.toList
  behind : ∀ key ∈ fields.map Prod.fst, ¬opening key <+: rest

theorem Readable.tail {field : String × Option String} {fields : Fields} {rest : List Char}
    (readable : Readable (field :: fields) rest) : Readable fields rest where
  distinct := (List.nodup_cons.mp readable.distinct).2
  plainKeys key key_mem := readable.plainKeys key (List.mem_cons_of_mem _ key_mem)
  noCommas other other_mem := readable.noCommas other (List.mem_cons_of_mem _ other_mem)
  behind key key_mem := readable.behind key (List.mem_cons_of_mem _ key_mem)

/-- What comes before the first `mark` is the same if the whole is. -/
theorem eq_of_append_cons {mark : Char} {front otherFront rest otherRest : List Char}
    (none_mark : mark ∉ front) (none_otherMark : mark ∉ otherFront)
    (same : front ++ mark :: rest = otherFront ++ mark :: otherRest) :
    front = otherFront ∧ rest = otherRest := by
  induction front generalizing otherFront with
  | nil =>
      cases otherFront with
      | nil => exact ⟨rfl, List.tail_eq_of_cons_eq same⟩
      | cons c otherFront =>
          have isMark : mark = c := List.head_eq_of_cons_eq same
          exact absurd (isMark ▸ List.mem_cons_self) none_otherMark
  | cons c front ih =>
      cases otherFront with
      | nil =>
          have isMark : c = mark := List.head_eq_of_cons_eq same
          exact absurd (isMark ▸ List.mem_cons_self) none_mark
      | cons other otherFront =>
          rcases List.cons.inj same with ⟨rfl, sameTail⟩
          rcases ih (fun mem => none_mark (List.mem_cons_of_mem _ mem))
            (fun mem => none_otherMark (List.mem_cons_of_mem _ mem)) sameTail with ⟨rfl, sameRest⟩
          exact ⟨rfl, sameRest⟩

/-- A key ends at its quotation mark, so no key begins another one. -/
theorem eq_of_begins_opening {key other : String} {rest : List Char} (plain : '"' ∉ key.toList)
    (otherPlain : '"' ∉ other.toList) (opens : opening key <+: opening other ++ rest) :
    key = other := by
  rcases opens with ⟨behind, same⟩
  have sameFront : key.toList ++ '"' :: (':' :: behind) = other.toList ++ '"' :: (':' :: rest) := by
    simpa [opening] using same
  exact String.toList_injective (eq_of_append_cons plain otherPlain sameFront).1

/-- Fields begin with none but their own keys. -/
theorem mem_keys_of_begins_opening {fields : Fields} {rest : List Char} {key : String}
    (plain : '"' ∉ key.toList) (plainKeys : ∀ other ∈ fields.map Prod.fst, '"' ∉ other.toList)
    (opens : opening key <+: entries fields ++ rest) :
    key ∈ fields.map Prod.fst ∨ opening key <+: rest := by
  induction fields with
  | nil => exact Or.inr opens
  | cons field fields ih =>
      rcases field with ⟨other, value⟩
      cases value with
      | none =>
          have laterPlain : ∀ other ∈ fields.map Prod.fst, '"' ∉ other.toList :=
            fun other other_mem => plainKeys other (List.mem_cons_of_mem _ other_mem)
          rcases ih laterPlain opens with key_mem | opensRest
          · exact Or.inl (List.mem_cons_of_mem _ key_mem)
          · exact Or.inr opensRest
      | some value =>
          rw [entries, List.append_assoc] at opens
          have sameKey := eq_of_begins_opening plain (plainKeys other List.mem_cons_self) opens
          exact Or.inl (sameKey ▸ List.mem_cons_self)

/-- A key that is used once is not found behind its own member. -/
theorem Readable.not_begins_opening {key : String} {value : Option String} {fields : Fields}
    {rest : List Char} (readable : Readable ((key, value) :: fields) rest) :
    ¬opening key <+: entries fields ++ rest := by
  intro opens
  rcases mem_keys_of_begins_opening (readable.plainKeys key List.mem_cons_self)
    readable.tail.plainKeys opens with key_mem | opensRest
  · exact (List.nodup_cons.mp readable.distinct).1 key_mem
  · exact readable.behind key List.mem_cons_self opensRest

/-- Two lists of fields with the same keys are equal if they are written to the same text.  A key
that is left out on one side only is not found later on that side either. -/
theorem eq_of_entries_append {fields others : Fields} {rest otherRest : List Char}
    (readable : Readable fields rest) (otherReadable : Readable others otherRest)
    (sameKeys : fields.map Prod.fst = others.map Prod.fst)
    (same : entries fields ++ rest = entries others ++ otherRest) :
    fields = others ∧ rest = otherRest := by
  induction fields generalizing others with
  | nil =>
      cases others with
      | nil => exact ⟨rfl, same⟩
      | cons other others => cases sameKeys
  | cons field fields ih =>
      cases others with
      | nil => cases sameKeys
      | cons other others =>
          rcases field with ⟨key, value⟩
          rcases other with ⟨otherKey, otherValue⟩
          rcases List.cons.inj sameKeys with ⟨sameKey, sameLater⟩
          cases sameKey
          have apart := readable.not_begins_opening
          have otherApart := otherReadable.not_begins_opening
          cases value with
          | none =>
              cases otherValue with
              | none =>
                  rcases ih readable.tail otherReadable.tail sameLater same with ⟨rfl, sameRest⟩
                  exact ⟨rfl, sameRest⟩
              | some otherValue =>
                  rw [entries, entries, List.append_assoc] at same
                  exact absurd ⟨_, same.symm⟩ apart
          | some value =>
              cases otherValue with
              | none =>
                  rw [entries, entries, List.append_assoc] at same
                  exact absurd ⟨_, same⟩ otherApart
              | some otherValue =>
                  have noComma := readable.noCommas _ List.mem_cons_self value rfl
                  have noOtherComma := otherReadable.noCommas _ List.mem_cons_self otherValue rfl
                  simp only [entries, List.append_assoc, List.append_cancel_left_eq,
                    List.cons_append] at same
                  rcases eq_of_append_cons noComma noOtherComma same with ⟨sameValue, sameTail⟩
                  rcases ih readable.tail otherReadable.tail sameLater sameTail with ⟨rfl, sameRest⟩
                  rw [String.toList_injective sameValue]
                  exact ⟨rfl, sameRest⟩

/-- The fields of a record without the time. -/
def fields (record : Record) : Fields := [
  ("expr", some (Json.string Bitwise.name)),
  ("op", some (Json.string record.operation.name)),
  ("sreg", some (toString record.source)),
  ("dreg", some (toString record.destination)),
  ("len", some (toString record.length)),
  ("mask", record.mask.map OperandRecord.render),
  ("xor", record.xor.map OperandRecord.render),
  ("shift", record.amount.map toString)]

def keys : List String := ["expr", "op", "sreg", "dreg", "len", "mask", "xor", "shift"]

theorem keys_fields (record : Record) : record.fields.map Prod.fst = keys := rfl

theorem plain_of_mem_keys : ∀ key ∈ keys, '"' ∉ key.toList := by decide

/-- The text of a record without the time. -/
def renderUntimed (record : Record) : String := object (members record.fields)

/-- The text of the field that holds the time. -/
def timeMember (time : String) : String := "\"timestamp\":" ++ Json.string time

theorem render_eq_object (record : Record) (time : String) :
    record.render time = object (members record.fields ++ [timeMember time]) := by
  simp only [render, object, members, fields, List.flatMap_cons, List.flatMap_nil, List.append_nil,
    List.append_assoc]
  rfl

/-- The time is the last field of a record. -/
theorem toList_render (record : Record) (time : String) :
    (record.render time).toList =
      record.renderUntimed.toList.dropLast ++ (',' :: (timeMember time).toList ++ ['\x7d']) := by
  have behind : String.intercalate "," (members record.fields ++ [timeMember time]) =
      String.intercalate "," (members record.fields) ++ "," ++ timeMember time := by
    rw [String.intercalate_append_of_ne_nil (by simp [members, fields, member]) (by simp),
      String.intercalate_singleton]
  simp only [render_eq_object, renderUntimed, object, behind, String.toList_append]
  rw [show "\x7d".toList = ['\x7d'] from rfl, List.dropLast_concat]
  simp

theorem toList_intercalate_members (fields : Fields) (last : String) :
    (String.intercalate "," (members fields ++ [last])).toList = entries fields ++ last.toList := by
  induction fields with
  | nil => exact congrArg String.toList String.intercalate_singleton
  | cons field fields ih =>
      rcases field with ⟨key, value⟩
      cases value with
      | none => exact ih
      | some value =>
          have first : members ((key, some value) :: fields) =
              ("\"" ++ key ++ "\":" ++ value) :: members fields := rfl
          rw [first, List.cons_append, String.intercalate_cons_of_ne_nil (by simp),
            String.toList_append, ih]
          simp [entries, opening]

/-- A record is written as its entries, each with a comma behind, and then the time. -/
theorem toList_render_eq_entries (record : Record) (time : String) :
    (record.render time).toList =
      '\x7b' :: (entries record.fields ++ ((timeMember time).toList ++ ['\x7d'])) := by
  rw [render_eq_object, object, String.toList_append, String.toList_append,
    toList_intercalate_members, List.append_assoc, List.append_assoc]
  rfl

theorem comma_notMem_toString (number : Nat) : ',' ∉ (toString number).toList := by
  intro comma_mem
  cases Json.isDigit_of_mem_toString comma_mem

/-- No operand is written with a comma, so its member ends at the first one. -/
theorem comma_notMem_operand (operand : OperandRecord) : ',' ∉ operand.render.toList := by
  cases operand with
  | immediate bytes =>
      intro comma_mem
      have digit : ',' ∈ Hex.digits bytes := by
        simpa [OperandRecord.render, Hex.ofBytes] using comma_mem
      cases Hex.isSome_value?_of_mem_digits digit
  | register number =>
      intro comma_mem
      have digit : ',' ∈ (toString number).toList := by
        simpa [OperandRecord.render] using comma_mem
      exact comma_notMem_toString number.toNat digit

theorem comma_notMem_name (operation : Operation) :
    ',' ∉ (Json.string operation.name).toList := by
  cases operation <;> decide

/-- An operand is read off its text, which begins in another way for a register than for an
immediate. -/
theorem operand_injective {operand other : OperandRecord} (same : operand.render = other.render) :
    operand = other := by
  cases operand with
  | immediate bytes =>
      cases other with
      | immediate others =>
          have sameText : Hex.ofBytes bytes = Hex.ofBytes others := by
            simpa [OperandRecord.render] using same
          rw [Hex.ofBytes_injective sameText]
      | register number =>
          have texts := congrArg String.toList same
          simp [OperandRecord.render] at texts
  | register number =>
      cases other with
      | immediate others =>
          have texts := congrArg String.toList same
          simp [OperandRecord.render] at texts
      | register otherNumber =>
          have sameText : toString number = toString otherNumber := by
            simpa [OperandRecord.render] using same
          rw [UInt32.toNat_inj.mp (Json.toString_injective sameText)]

theorem name_injective {operation other : Operation} (same : operation.name = other.name) :
    operation = other := by
  cases operation <;> cases other <;> first | rfl | exact absurd same (by decide)

/-- A record is determined by its fields, numbers by their digits and operands by their texts. -/
theorem fields_injective {record other : Record} (same : record.fields = other.fields) :
    record = other := by
  rcases record with ⟨operation, source, destination, length, mask, xor, amount⟩
  rcases other with ⟨_, _, _, _, _, _, _⟩
  simp only [fields, List.cons.injEq, Prod.mk.injEq, Option.some.injEq, true_and, and_true] at same
  rcases same with ⟨sameOperation, sameSource, sameDestination, sameLength, sameMask, sameXor,
    sameAmount⟩
  have operands := Option.map_injective fun _ _ => operand_injective
  have numbers := Option.map_injective fun _ _ => Json.toString_injective
  rw [name_injective (Json.string_injective sameOperation),
    UInt32.toNat_inj.mp (Json.toString_injective sameSource),
    UInt32.toNat_inj.mp (Json.toString_injective sameDestination),
    Json.toString_injective sameLength, operands sameMask, operands sameXor, numbers sameAmount]

/-- The entries of a record can be told apart: its keys are distinct, no value has a comma, and the
time has a key of its own. -/
theorem readable_fields (record : Record) (time : String) :
    Readable record.fields ((timeMember time).toList ++ ['\x7d']) where
  distinct := by
    rw [keys_fields]
    decide
  plainKeys := plain_of_mem_keys
  noCommas := by
    simp only [fields, List.forall_mem_cons, List.not_mem_nil, false_implies, implies_true,
      and_true, Option.mem_def, Option.some.injEq, forall_eq', Option.map_eq_some_iff]
    refine ⟨by decide, comma_notMem_name _, comma_notMem_toString _, comma_notMem_toString _,
      comma_notMem_toString _, ?_, ?_, ?_⟩
    · rintro _ ⟨mask, _, rfl⟩
      exact comma_notMem_operand mask
    · rintro _ ⟨xor, _, rfl⟩
      exact comma_notMem_operand xor
    · rintro _ ⟨amount, _, rfl⟩
      exact comma_notMem_toString amount
  behind := by
    intro key key_mem opens
    have isTime : (timeMember time).toList = opening "timestamp" ++ (Json.string time).toList :=
      String.toList_append
    rw [isTime, List.append_assoc] at opens
    have isKey : key ∈ keys := key_mem
    rw [eq_of_begins_opening (plain_of_mem_keys key isKey) (by decide) opens] at isKey
    exact absurd isKey (by decide)

/-- The text of a record tells the record and the time. -/
theorem render_injective {record other : Record} {time otherTime : String}
    (same : record.render time = other.render otherTime) : record = other ∧ time = otherTime := by
  have texts := congrArg String.toList same
  rw [toList_render_eq_entries, toList_render_eq_entries] at texts
  rcases eq_of_entries_append (readable_fields record time) (readable_fields other otherTime) rfl
    (List.tail_eq_of_cons_eq texts) with ⟨sameFields, sameTime⟩
  have sameMember : timeMember time = timeMember otherTime :=
    String.toList_injective (List.append_cancel_right sameTime)
  refine ⟨fields_injective sameFields, ?_⟩
  apply Json.string_injective
  simpa [timeMember] using sameMember

theorem renderUntimed_injective {record other : Record}
    (same : record.renderUntimed = other.renderUntimed) : record = other := by
  have sameTimed : record.render "" = other.render "" := by
    apply String.toList_injective
    rw [toList_render, toList_render, same]
  exact (render_injective sameTimed).1

end Record

end PacketExpr
