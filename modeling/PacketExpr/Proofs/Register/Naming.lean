import PacketExpr.Register.Basic

/-!
# Names of registers

A number names at most one register, whatever the size of the file.  A register may have two names,
a wide one and a single one, and it is written under one of them, which names it again.  So the
numbers under which registers are written tell them apart.

Layouts differ only in how far the file goes.  A number that resolves in one of them resolves to the
same register in every layout that reaches it, and so does the number under which the register is
written.  No file goes so far that the word of a register would not fit into sixteen bits.
-/

namespace PacketExpr

attribute [ext] Register

namespace Layout

theorem wordOfNumber?_of_wide {number : Nat} (number_le : number ≤ 4) :
    wordOfNumber? number = some (4 * number) := by
  have isWide : number ≤ Register.lastWide := number_le
  rw [wordOfNumber?, if_pos isWide, Nat.mul_comm, Register.wideWords]

theorem wordOfNumber?_of_single {number : Nat} (le_number : 8 ≤ number) :
    wordOfNumber? number = some (number - 4) := by
  have notWide : ¬number ≤ Register.lastWide := by
    simp only [Register.lastWide]
    omega
  have isSingle : Register.firstSingle ≤ number := le_number
  rw [wordOfNumber?, if_neg notWide, if_pos isSingle, Register.firstSingle, Register.wideWords]
  congr 1
  omega

/-- Between the wide numbers and the single ones three are not used. -/
theorem wordOfNumber?_eq_none_iff {number : Nat} :
    wordOfNumber? number = none ↔ 5 ≤ number ∧ number ≤ 7 := by
  unfold wordOfNumber?
  split
  · next wide =>
      simp only [Register.lastWide] at wide
      simp only [reduceCtorEq, false_iff]
      omega
  · next notWide =>
      simp only [Register.lastWide] at notWide
      split
      · next single =>
          simp only [Register.firstSingle] at single
          simp only [reduceCtorEq, false_iff]
          omega
      · next notSingle =>
          simp only [Register.firstSingle] at notSingle
          simp only [true_iff]
          omega

end Layout

namespace Register

/-- The register that a number stands for in a file without end.  The first numbers count wide
registers from the verdict on, the later ones count single words from behind the verdict. -/
inductive NamedBy : Register → UInt32 → Prop where
  | wide {number : UInt32} (number_le : number.toNat ≤ 4) : NamedBy ⟨4 * number.toNat⟩ number
  | single {number : UInt32} (le_number : 8 ≤ number.toNat) : NamedBy ⟨number.toNat - 4⟩ number

/-- What becomes of a register where sixteen bits are kept of its word. -/
def narrow (register : Register) : Register := ⟨(UInt16.ofNat register.word).toNat⟩

variable {register other : Register} {number : UInt32}

/-- Sixteen bits are enough for every word that a file may have. -/
theorem narrow_eq (inFile : register.word < maxWords) : register.narrow = register := by
  have fits : register.word < 2 ^ 16 := Nat.lt_trans inFile (by decide)
  rw [narrow, UInt16.toNat_ofNat', Nat.mod_eq_of_lt fits]

/-- Of the numbers that are not wide, only the unused ones are not single. -/
theorem namedBy_iff_wordOfNumber? :
    register.NamedBy number ↔ Layout.wordOfNumber? number.toNat = some register.word := by
  constructor
  · intro named
    cases named with
    | wide number_le => exact Layout.wordOfNumber?_of_wide number_le
    | single le_number => exact Layout.wordOfNumber?_of_single le_number
  · intro names
    have isUsed : ¬(5 ≤ number.toNat ∧ number.toNat ≤ 7) := by
      rw [← Layout.wordOfNumber?_eq_none_iff, names]
      exact Option.some_ne_none _
    rcases Nat.lt_or_ge 4 number.toNat with notWide | number_le
    · have le_number : 8 ≤ number.toNat := by omega
      rw [Layout.wordOfNumber?_of_single le_number, Option.some.injEq] at names
      have register_eq : register = ⟨number.toNat - 4⟩ := Register.ext names.symm
      rw [register_eq]
      exact .single le_number
    · rw [Layout.wordOfNumber?_of_wide number_le, Option.some.injEq] at names
      have register_eq : register = ⟨4 * number.toNat⟩ := Register.ext names.symm
      rw [register_eq]
      exact .wide number_le

namespace NamedBy

theorem unique (named : register.NamedBy number) (namedOther : other.NamedBy number) :
    register = other := by
  rw [namedBy_iff_wordOfNumber?] at named namedOther
  rw [named, Option.some.injEq] at namedOther
  exact Register.ext namedOther

/-- No number names a register that begins inside the verdict. -/
theorem begins (named : register.NamedBy number) :
    register.word = 0 ∨ wideWords ≤ register.word := by
  simp only [wideWords]
  cases named with
  | wide number_le => dsimp only; omega
  | single le_number => dsimp only; omega

/-- The number under which a register is written is one of its names. -/
theorem namedBy_number (named : register.NamedBy number) (inFile : register.word < maxWords) :
    register.NamedBy register.number :=
  namedBy_iff_wordOfNumber?.mpr (Layout.wordOfNumber?_number named.begins inFile)

end NamedBy

/-- Registers that are named by the numbers under which they are written are told apart by them. -/
theorem eq_of_number_eq (named : register.NamedBy register.number)
    (namedOther : other.NamedBy other.number) (same : register.number = other.number) :
    register = other := by
  rw [same] at named
  exact named.unique namedOther

end Register

namespace Layout

open Register

variable {layout : Layout} {register : Register} {number : UInt32}

theorem resolve_eq_ok_iff :
    layout.resolve number = .ok register ↔
      wordOfNumber? number.toNat = some register.word ∧ register.word < layout.words := by
  simp only [resolve]
  cases wordOfNumber? number.toNat with
  | none => simp
  | some word =>
      dsimp only
      constructor
      · split
        · rintro ⟨rfl⟩
          exact ⟨rfl, by assumption⟩
        · rintro ⟨⟩
      · rintro ⟨⟨rfl⟩, inFile⟩
        rw [if_pos inFile]

/-- A number is resolved to the register that it names in a file without end, if the layout reaches
as far. -/
theorem resolve_eq_ok_iff_namedBy :
    layout.resolve number = .ok register ↔
      register.NamedBy number ∧ register.word < layout.words := by
  rw [resolve_eq_ok_iff, namedBy_iff_wordOfNumber?]

theorem resolve_eq_error_iff {error : RegisterError} :
    layout.resolve number = .error error ↔
      (wordOfNumber? number.toNat = none ∧ error = .unknown number) ∨
        ∃ word, wordOfNumber? number.toNat = some word ∧ layout.words ≤ word ∧
          error = .outOfRange number := by
  simp only [resolve]
  cases wordOfNumber? number.toNat with
  | none => simp [eq_comm]
  | some word =>
      dsimp only
      split
      · next inside => simp [Nat.not_le_of_lt inside]
      · next outside => simp [Nat.le_of_not_lt outside, eq_comm]

theorem word_lt_maxWords (inFile : register.word < layout.words) : register.word < maxWords :=
  Nat.lt_of_lt_of_le inFile layout.le_maxWords

theorem namedBy_number_of_resolve (resolved : layout.resolve number = .ok register) :
    register.NamedBy register.number := by
  rcases resolve_eq_ok_iff_namedBy.mp resolved with ⟨named, inFile⟩
  exact named.namedBy_number (word_lt_maxWords inFile)

/-- A number that resolves to a register is one of its names, and sixteen bits are enough for the
word.  In every layout that reaches the register, the same number resolves to it again, and so does
the number under which it is written, which no other register of the file has.  A number is unknown
if and only if it is one of the unused ones, and otherwise it is out of range if and only if the
word that it stands for is not in the file. -/
theorem resolve_canonical (layout : Layout) (number : UInt32) :
    (∀ register, layout.resolve number = .ok register →
      register.NamedBy number ∧ register.word < layout.words ∧ register.narrow = register ∧
      (∀ reaching : Layout, register.word < reaching.words →
        reaching.resolve register.number = .ok register ∧
          reaching.resolve number = .ok register) ∧
      ∀ otherNumber other, layout.resolve otherNumber = .ok other →
        (register = other ↔ register.number = other.number)) ∧
    ∀ error, layout.resolve number = .error error ↔
      (5 ≤ number.toNat ∧ number.toNat ≤ 7) ∧ error = .unknown number ∨
        (∃ register : Register, register.NamedBy number ∧ layout.words ≤ register.word) ∧
          error = .outOfRange number := by
  constructor
  · intro register resolved
    rcases resolve_eq_ok_iff_namedBy.mp resolved with ⟨named, inFile⟩
    have namedBack := namedBy_number_of_resolve resolved
    refine ⟨named, inFile, narrow_eq (word_lt_maxWords inFile), ?_, ?_⟩
    · intro reaching inReaching
      exact ⟨resolve_eq_ok_iff_namedBy.mpr ⟨namedBack, inReaching⟩,
        resolve_eq_ok_iff_namedBy.mpr ⟨named, inReaching⟩⟩
    · intro otherNumber other otherResolved
      constructor
      · rintro rfl
        rfl
      · exact eq_of_number_eq namedBack (namedBy_number_of_resolve otherResolved)
  · intro error
    rw [resolve_eq_error_iff, wordOfNumber?_eq_none_iff]
    apply or_congr_right
    constructor
    · rintro ⟨word, names, outside, rfl⟩
      exact ⟨⟨⟨word⟩, namedBy_iff_wordOfNumber?.mpr names, outside⟩, rfl⟩
    · rintro ⟨⟨register, named, outside⟩, rfl⟩
      exact ⟨register.word, namedBy_iff_wordOfNumber?.mp named, outside, rfl⟩

/-- The word behind the default file is aligned like a wide register, but it has a number of its
own, which is not that of the register at word 4.  The last word of the largest file keeps its place
in sixteen bits, and the number behind it names nothing in the file. -/
theorem resolve_canonical_aligned :
    let layout : Layout := ⟨1024, by decide, by decide⟩
    let reaching : Layout := ⟨21, by decide, by decide⟩
    let aligned : Register := ⟨20⟩
    layout.resolve 24 = .ok aligned ∧ aligned.word < reaching.words ∧
      reaching.resolve aligned.number = .ok aligned ∧ reaching.resolve 24 = .ok aligned ∧
      layout.resolve 8 = .ok ⟨4⟩ ∧ aligned.number ≠ (Register.mk 4).number ∧
      layout.resolve 1027 = .ok ⟨1023⟩ ∧ (Register.mk 1023).narrow = ⟨1023⟩ ∧
      layout.resolve 1028 = .error (.outOfRange 1028) := by
  intro layout reaching aligned
  have resolved : layout.resolve 24 = .ok aligned := rfl
  have wideResolved : layout.resolve 8 = .ok ⟨4⟩ := rfl
  have lastResolved : layout.resolve 1027 = .ok ⟨1023⟩ := rfl
  rcases (resolve_canonical layout 24).1 aligned resolved with ⟨-, -, -, again, apart⟩
  have inReaching : aligned.word < reaching.words := by
    decide
  have numbers_ne : aligned.number ≠ (Register.mk 4).number := by
    intro same
    exact absurd ((apart 8 ⟨4⟩ wideResolved).mpr same) (by decide)
  have narrowed := ((resolve_canonical layout 1027).1 ⟨1023⟩ lastResolved).2.2.1
  have outside : layout.resolve 1028 = .error (.outOfRange 1028) := by
    have named : (Register.mk 1024).NamedBy 1028 := namedBy_iff_wordOfNumber?.mpr rfl
    exact ((resolve_canonical layout 1028).2 _).mpr (Or.inr ⟨⟨⟨1024⟩, named, by decide⟩, rfl⟩)
  exact ⟨resolved, inReaching, (again reaching inReaching).1, (again reaching inReaching).2,
    wideResolved, numbers_ne, lastResolved, narrowed, outside⟩

end Layout

end PacketExpr
