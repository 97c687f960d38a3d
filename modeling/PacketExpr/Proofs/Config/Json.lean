import PacketExpr.Config.Json
import PacketExpr.Proofs.Json.Token

/-!
# Reading configurations

A mapping that gives some of the fields once each is read as the configuration with these values,
the others having their defaults: in whatever order the fields are, with any blanks between the
tokens, and however the keys are spelled.  Only the number of words is looked at then, whether it is
given or not.  The text of a configuration is such a mapping, so it is read back.

The mapping is read member by member.  Each member takes one turn of `Config.readMapping`, so the
fields that are given by the members so far are what the induction has to carry.
-/

namespace PacketExpr.Config

open Json

def memberTokens (member : Field × UInt64) : List Token :=
  [.string member.1.name, .mark ':', .natural member.2]

/-- The tokens of a mapping with the given members. -/
def mappingTokens (members : List (Field × UInt64)) : List Token :=
  [.mark '\x7b'] ++ [.mark ','].intercalate (members.map memberTokens) ++ [.mark '\x7d']

/-- The tokens behind a member of a mapping, if the given members come after it. -/
def laterTokens : List (Field × UInt64) → List Token
  | [] => [.mark '\x7d']
  | member :: members => .mark ',' :: (memberTokens member ++ laterTokens members)

theorem intercalate_memberTokens (member : Field × UInt64) (members : List (Field × UInt64)) :
    [.mark ','].intercalate ((member :: members).map memberTokens) ++ [.mark '\x7d'] =
      memberTokens member ++ laterTokens members := by
  induction members generalizing member with
  | nil => rfl
  | cons next members ih =>
      rw [List.map_cons, List.map_cons, List.intercalate_cons_cons, List.append_assoc,
        ← List.map_cons, ih next]
      rfl

/-- The tokens behind the opening bracket of a mapping. -/
def innerTokens : List (Field × UInt64) → List Token
  | [] => [.mark '\x7d']
  | member :: members => memberTokens member ++ laterTokens members

theorem mappingTokens_eq (members : List (Field × UInt64)) :
    mappingTokens members = .mark '\x7b' :: innerTokens members := by
  cases members with
  | nil => rfl
  | cons member members =>
      rw [mappingTokens, List.append_assoc, intercalate_memberTokens]
      rfl

/-- Behind a number comes a mark, a comma or the end of the mapping, so that the number ends
there. -/
theorem exists_laterTokens_eq (members : List (Field × UInt64)) :
    ∃ c tokens, laterTokens members = .mark c :: tokens := by
  cases members with
  | nil => exact ⟨_, _, rfl⟩
  | cons member members => exact ⟨_, _, rfl⟩

variable {tokens : List Token} {chars : List Char}

theorem readColon_written (written : Written (.mark ':' :: tokens) chars) :
    ∃ rest, readColon chars = .ok rest ∧ Written tokens rest := by
  rcases written.skipBlanks_mark with ⟨rest, found, others⟩
  refine ⟨rest, ?_, others⟩
  simp only [readColon, found]

/-- A number is read up to the mark behind it. -/
theorem readValue_written {c : Char} {value : UInt64}
    (written : Written (.natural value :: .mark c :: tokens) chars) :
    ∃ rest, readValue chars = .ok (value, rest) ∧ Written (.mark c :: tokens) rest := by
  rcases written.readNumber with ⟨digit, digits, rest, found, isStart, reads, others⟩
  refine ⟨rest, ?_, others⟩
  simp only [readValue, found, isStart, if_true, reads, bind, Except.bind]

theorem readKeyStart_first {key : String} (written : Written (.string key :: tokens) chars) :
    ∃ inside rest, readKeyStart true chars = .ok (true, inside) ∧
      readString inside = .ok (key, rest) ∧ Written tokens rest := by
  rcases written.readString with ⟨inside, rest, found, reads, others⟩
  refine ⟨inside, rest, ?_, reads, others⟩
  simp [readKeyStart, found]

theorem readKeyStart_later {key : String}
    (written : Written (.mark ',' :: .string key :: tokens) chars) :
    ∃ inside rest, readKeyStart false chars = .ok (true, inside) ∧
      readString inside = .ok (key, rest) ∧ Written tokens rest := by
  rcases written.skipBlanks_mark with ⟨behind, found, writtenBehind⟩
  rcases writtenBehind.readString with ⟨inside, rest, foundKey, reads, others⟩
  refine ⟨inside, rest, ?_, reads, others⟩
  simp [readKeyStart, found, foundKey]

theorem readKeyStart_end (isFirst : Bool) (written : Written (.mark '\x7d' :: tokens) chars) :
    ∃ rest, readKeyStart isFirst chars = .ok (false, rest) ∧ Written tokens rest := by
  rcases written.skipBlanks_mark with ⟨rest, found, others⟩
  refine ⟨rest, ?_, others⟩
  simp only [readKeyStart, found]

theorem fieldOfKey_name (field : Field) : fieldOfKey field.name = .ok field := by
  cases field <;> rfl

/-- A member that is new is added to the given values. -/
theorem readMapping_member {given : Given} {field : Field} {value : UInt64} {c : Char}
    {inside behind : List Char} (starts : readKeyStart given.isBlank chars = .ok (true, inside))
    (key : readString inside = .ok (field.name, behind))
    (written : Written (.mark ':' :: .natural value :: .mark c :: tokens) behind)
    (isNew : given.get? field = none) :
    ∃ rest, readMapping given chars = readMapping (given.set field value) rest ∧
      Written (.mark c :: tokens) rest := by
  rcases readColon_written written with ⟨behindColon, colon, writtenValue⟩
  rcases readValue_written writtenValue with ⟨rest, reads, others⟩
  refine ⟨rest, ?_, others⟩
  rw [readMapping]
  simp only [starts, key, fieldOfKey_name, colon, reads, bind, Except.bind, if_true]
  split
  · next found => cases isNew.symm.trans found
  · rfl

theorem readMapping_end (given : Given) (written : Written [.mark '\x7d'] chars) :
    ∃ rest, readMapping given chars = .ok (given, rest) ∧ Written [] rest := by
  rcases readKeyStart_end given.isBlank written with ⟨rest, ends, nothing⟩
  refine ⟨rest, ?_, nothing⟩
  rw [readMapping]
  simp only [ends, bind, Except.bind]
  rfl

namespace Given

/-- The values with those of the members. -/
def setAll (given : Given) (members : List (Field × UInt64)) : Given :=
  members.foldl (fun given member => given.set member.1 member.2) given

theorem get?_blank (field : Field) : get? {} field = none := by
  cases field <;> rfl

theorem get?_set (given : Given) (field other : Field) (value : UInt64) :
    (given.set field value).get? other =
      if other = field then some value else given.get? other := by
  cases field <;> cases other <;> rfl

theorem isBlank_set (given : Given) (field : Field) (value : UInt64) :
    (given.set field value).isBlank = false := by
  cases field with
  | registerWords => rfl
  | dumpLimit => exact Bool.and_false _

/-- The fields of later members have no value yet when the first one is set. -/
theorem isNew_set {given : Given} {field : Field} {value : UInt64}
    {members : List (Field × UInt64)} (distinct : (((field, value) :: members).map Prod.fst).Nodup)
    (isNew : ∀ other ∈ ((field, value) :: members).map Prod.fst, given.get? other = none) :
    ∀ other ∈ members.map Prod.fst, (given.set field value).get? other = none := by
  intro other other_mem
  have different : other ≠ field :=
    fun same => (List.nodup_cons.mp distinct).1 (same ▸ other_mem)
  rw [get?_set, if_neg different]
  exact isNew other (List.mem_cons_of_mem _ other_mem)

/-- Members for different fields without a value give these fields their values. -/
theorem get?_setAll {given : Given} {members : List (Field × UInt64)}
    (distinct : (members.map Prod.fst).Nodup)
    (isNew : ∀ field ∈ members.map Prod.fst, given.get? field = none) (field : Field) :
    (given.setAll members).get? field = (members.lookup field).or (given.get? field) := by
  induction members generalizing given with
  | nil => rfl
  | cons member members ih =>
      rcases member with ⟨first, value⟩
      have rest := ih (List.nodup_cons.mp distinct).2 (isNew_set distinct isNew)
      change ((given.set first value).setAll members).get? field = _
      rw [rest, get?_set]
      by_cases isFirst : field = first
      · subst isFirst
        have notAgain : members.lookup field = none := by
          apply List.lookup_eq_none_iff.mpr
          intro other other_mem
          apply bne_iff_ne.mpr
          rintro rfl
          exact (List.nodup_cons.mp distinct).1 (List.mem_map.mpr ⟨other, other_mem, rfl⟩)
        rw [notAgain, if_pos rfl, List.lookup_cons_self]
        rfl
      · have different : (field == first) = false := beq_eq_false_iff_ne.mpr isFirst
        rw [if_neg isFirst, List.lookup_cons, different]

end Given

/-- Behind some members, the others are read one by one. -/
theorem readMapping_later {members : List (Field × UInt64)} {given : Given}
    (someGiven : given.isBlank = false) (distinct : (members.map Prod.fst).Nodup)
    (isNew : ∀ field ∈ members.map Prod.fst, given.get? field = none)
    (written : Written (laterTokens members) chars) :
    ∃ rest, readMapping given chars = .ok (given.setAll members, rest) ∧ Written [] rest := by
  induction members generalizing given chars with
  | nil => exact readMapping_end given written
  | cons member members ih =>
      rcases member with ⟨field, value⟩
      rcases exists_laterTokens_eq members with ⟨c, tokens, later⟩
      have writtenMember : Written (.mark ',' :: .string field.name :: .mark ':' ::
          .natural value :: .mark c :: tokens) chars := later ▸ written
      rcases readKeyStart_later writtenMember with ⟨inside, behind, starts, key, writtenValue⟩
      rw [← someGiven] at starts
      rcases readMapping_member starts key writtenValue (isNew field List.mem_cons_self) with
        ⟨rest, turn, writtenRest⟩
      rw [turn]
      apply ih (Given.isBlank_set ..) (List.nodup_cons.mp distinct).2
        (Given.isNew_set distinct isNew)
      rw [later]
      exact writtenRest

/-- The members of a mapping are set one after the other, and none is refused as long as their names
are distinct. -/
theorem readMapping_written {members : List (Field × UInt64)}
    (distinct : (members.map Prod.fst).Nodup) (written : Written (innerTokens members) chars) :
    ∃ rest, readMapping {} chars = .ok (Given.setAll {} members, rest) ∧ Written [] rest := by
  cases members with
  | nil => exact readMapping_end {} written
  | cons member members =>
      rcases member with ⟨field, value⟩
      rcases exists_laterTokens_eq members with ⟨c, tokens, later⟩
      rw [innerTokens, later] at written
      rcases readKeyStart_first written with ⟨inside, behindKey, startsFirst, key, writtenValue⟩
      have starts : readKeyStart (Given.isBlank {}) chars = .ok (true, inside) := startsFirst
      rcases readMapping_member starts key writtenValue (Given.get?_blank field) with
        ⟨rest, turn, writtenRest⟩
      rw [turn]
      apply readMapping_later (Given.isBlank_set ..) (List.nodup_cons.mp distinct).2
        (Given.isNew_set distinct fun other _ => Given.get?_blank other)
      rw [later]
      exact writtenRest

/-- A mapping that is spelled in any way is read as a configuration, with its default for each field
that is left out. -/
theorem readText_written {members : List (Field × UInt64)} {text : String}
    (distinct : (members.map Prod.fst).Nodup)
    (written : Written (mappingTokens members) text.toList) :
    readText text = .ok {
      registerWords := (members.lookup .registerWords).getD 20
      dumpLimit := (members.lookup .dumpLimit).getD 4096 } := by
  rw [mappingTokens_eq] at written
  rcases written.skipBlanks_mark with ⟨behind, found, writtenBehind⟩
  rcases readMapping_written distinct writtenBehind with ⟨rest, reads, nothing⟩
  have values := Given.get?_setAll distinct fun field _ => Given.get?_blank field
  have registerWords := values .registerWords
  have dumpLimit := values .dumpLimit
  simp only [Given.get?, Option.or_none] at registerWords dumpLimit
  simp only [readText, readGiven, found, reads, nothing.skipBlanks_nil, bind, Except.bind,
    List.isEmpty_nil, if_true, Given.toConfig, registerWords, dumpLimit]
  rfl

/-- The configuration, provided that its register files can be. -/
def checked (config : Config) : Except Error Config :=
  if 8 ≤ config.registerWords.toNat ∧ config.registerWords.toNat ≤ 1024 then
    .ok config
  else
    .error (.invalidConfig (.invalidCapacity config.registerWords.toNat))

/-- A configuration that has been read is checked in full, whichever fields were given. -/
theorem ofJson_of_readText {text : String} {config : Config} (reads : readText text = .ok config) :
    ofJson text = config.checked := by
  have accepted : (readText text).mapError Error.json = .ok config := mapError_eq_ok_iff.mpr reads
  by_cases bounds : 8 ≤ config.registerWords.toNat ∧ config.registerWords.toNat ≤ 1024
  · have valid : config.layout = .ok ⟨_, bounds.1, bounds.2⟩ := dif_pos bounds
    have checks : config.layout.mapError Error.invalidConfig = .ok _ :=
      mapError_eq_ok_iff.mpr valid
    rw [checked, if_pos bounds]
    simp only [ofJson, accepted, checks, bind, Except.bind]
    rfl
  · have invalid : config.layout = .error (.invalidCapacity config.registerWords.toNat) :=
      dif_neg bounds
    have fails : config.layout.mapError Error.invalidConfig = .error _ :=
      mapError_eq_error_iff.mpr ⟨_, invalid, rfl⟩
    rw [checked, if_neg bounds]
    simp only [ofJson, accepted, fails, bind, Except.bind]

/-- A member with its key in plain letters. -/
def memberText (member : Field × UInt64) : List Char :=
  '"' :: (member.1.name.toList ++ ['"']) ++ ':' :: (toString member.2).toList

theorem memberText_written (member : Field × UInt64) (others : Written tokens chars) :
    Written (memberTokens member ++ tokens) (memberText member ++ chars) := by
  have plain : SpellsText member.1.name.toList member.1.name.toList := by
    apply spellsText_self
    cases member.1 <;> decide
  have value := others.token (.natural member.2)
  have behindKey := value.token (.mark (c := ':') (by decide))
  rw [memberText, List.append_assoc]
  exact behindKey.token (.string plain)

/-- Both fields of a configuration with their values. -/
def members (config : Config) : List (Field × UInt64) :=
  [(.registerWords, config.registerWords), (.dumpLimit, config.dumpLimit)]

theorem distinct_members (config : Config) : (config.members.map Prod.fst).Nodup := by
  change [Field.registerWords, Field.dumpLimit].Nodup
  decide

/-- The text of a configuration is a mapping of both of its fields. -/
theorem toJson_written (config : Config) :
    Written (mappingTokens config.members) config.toJson.toList := by
  have text : config.toJson.toList =
      '\x7b' :: (memberText (.registerWords, config.registerWords) ++
        ',' :: (memberText (.dumpLimit, config.dumpLimit) ++ ['\x7d'])) := by
    have front : "\x7b\"register_words\":".toList =
        '\x7b' :: '"' :: (Field.registerWords.name.toList ++ ['"', ':']) := by decide
    have middle : ",\"dump_limit\":".toList =
        ',' :: '"' :: (Field.dumpLimit.name.toList ++ ['"', ':']) := by decide
    have last : "\x7d".toList = ['\x7d'] := by decide
    unfold toJson
    simp only [memberText, String.toList_append, front, middle, last, List.append_assoc,
      List.cons_append, List.nil_append]
  have nothing : Written [] [] := .nil rfl
  have closing := nothing.token (.mark (c := '\x7d') (by decide))
  have second := memberText_written (.dumpLimit, config.dumpLimit) closing
  have comma := second.token (.mark (c := ',') (by decide))
  have first := memberText_written (.registerWords, config.registerWords) comma
  rw [text, mappingTokens_eq]
  exact first.token (.mark (c := '\x7b') (by decide))

/-- The text of a configuration is read back as the configuration, and a mapping that gives some of
the fields once each as one with these values; in both cases the number of words has to be one that
register files can have. -/
theorem ofJson_exact :
    (∀ config : Config, ofJson config.toJson = config.checked) ∧
    ∀ (members : List (Field × UInt64)) (text : String), (members.map Prod.fst).Nodup →
      Written (mappingTokens members) text.toList →
        ofJson text = checked {
          registerWords := (members.lookup .registerWords).getD 20
          dumpLimit := (members.lookup .dumpLimit).getD 4096 } := by
  refine ⟨?_, ?_⟩
  · intro config
    have reads := readText_written (distinct_members config) (toJson_written config)
    exact ofJson_of_readText reads
  · intro members text distinct written
    exact ofJson_of_readText (readText_written distinct written)

/-- The largest number, in a mapping with many blanks and an escape in its only key; and a
configuration whose register files would be too large. -/
theorem ofJson_exact_blanks :
    ofJson " \x7b\n\"\\u0064ump_limit\"\t:18446744073709551615 \x7d\r\n" =
        .ok { registerWords := 20, dumpLimit := 18446744073709551615 } ∧
      ofJson (toJson { registerWords := 1025, dumpLimit := 1 }) =
        .error (.invalidConfig (.invalidCapacity 1025)) := by
  have escaped : SpellsChar 'd' "\\u0064".toList :=
    .unit (.digits (a := 0) (b := 0) (c := 6) (d := 4) rfl rfl rfl rfl) ⟨rfl, rfl⟩
  have plain : SpellsText "ump_limit".toList "ump_limit".toList := spellsText_self (by decide)
  have key : SpellsText Field.dumpLimit.name.toList ("\\u0064".toList ++ "ump_limit".toList) :=
    .cons escaped plain
  have closing : Written [.mark '\x7d'] (" ".toList ++ (['\x7d'] ++ "\r\n".toList)) :=
    .cons (by decide) (.mark (by decide)) (.nil (by decide))
  have value := closing.token (.natural 18446744073709551615)
  have colon : Written (.mark ':' :: _) ("\t".toList ++ ([':'] ++ _)) :=
    .cons (by decide) (.mark (by decide)) value
  have member : Written (.string Field.dumpLimit.name :: _) ("\n".toList ++ ('"' :: _ ++ _)) :=
    .cons (by decide) (.string key) colon
  have mapping : Written (mappingTokens [(.dumpLimit, 18446744073709551615)])
      (" ".toList ++ (['\x7b'] ++ _)) :=
    .cons (by decide) (.mark (by decide)) member
  exact ⟨ofJson_exact.2 [(.dumpLimit, 18446744073709551615)] _ (by decide) mapping,
    ofJson_exact.1 _⟩

end PacketExpr.Config
