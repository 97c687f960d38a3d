import PacketExpr.Proofs.Bitwise.Guarded

/-!
# Safety of accepted expressions

Everything that evaluation relies on is checked when an expression is accepted.  So an expression
that has been read from a table, whatever schema the table was read with, never touches a word that
is not there and never shifts a word by its whole width, in register files of any size.  It changes
no word outside of its destination, and in particular it leaves the verdict alone.

The layout of a configuration is the link to its register files: a file that the configuration makes
is large enough for every expression that is accepted under it.
-/

namespace PacketExpr

theorem Config.registers_eq_ok {config : Config} {capacity : Nat} {file : RegisterFile}
    (made : config.registers capacity = .ok file) :
    ∃ layout, config.layout = .ok layout ∧ layout.words ≤ capacity ∧
      file = RegisterFile.blank capacity := by
  simp only [Config.registers, bind_eq_ok_iff, ite_error_eq_ok_iff, Except.ok.injEq] at made
  rcases made with ⟨layout, hasLayout, large, blank⟩
  exact ⟨layout, hasLayout, Nat.not_lt.mp large, blank.symm⟩

/-- What is accepted in an envelope was accepted from the data inside. -/
theorem Envelope.exists_decode_eq_ok {config : Config} {message : Bytes} {expression : Bitwise}
    (accepted : (Envelope.decode config message).outcome = .ok expression) :
    ∃ layout data, config.layout = .ok layout ∧ Bitwise.decode layout data = .ok expression := by
  rw [Envelope.decode] at accepted
  cases opened_eq : Envelope.openMessage config message with
  | error error => simp [opened_eq] at accepted
  | ok opened =>
      have hasLayout : config.layout = .ok opened.layout := by
        simp only [Envelope.openMessage, bind_eq_ok_iff, mapError_eq_ok_iff] at opened_eq
        rcases opened_eq with ⟨layout, hasLayout, table, _, name, _, rest⟩
        cases name with
        | none => cases rest
        | some name =>
            cases data_eq : table.get? Envelope.Field.data.kind with
            | none => simp [data_eq] at rest
            | some data =>
                simp only [data_eq, Except.ok.injEq] at rest
                rw [← rest, hasLayout]
      simp only [opened_eq, Envelope.Opened.decode] at accepted
      split at accepted
      · cases accepted
      · refine ⟨opened.layout, opened.data, hasLayout, ?_⟩
        cases decoded : Bitwise.decode opened.layout opened.data with
        | error error => simp [decoded] at accepted
        | ok found => simpa [decoded] using accepted

namespace Bitwise

theorem WellPlaced.evalGuarded_eq_ok {layout : Layout} {expression : Bitwise}
    (placed : expression.WellPlaced layout) (file : RegisterFile) :
    expression.evalGuarded file = .ok () (expression.eval file) :=
  Bitwise.evalGuarded_eq_ok placed.length_le placed.amount file

/-- No expression that is placed in a layout writes the words of the verdict, as its destination
lies behind them. -/
theorem WellPlaced.word_eval_of_verdict {layout : Layout} {expression : Bitwise}
    (placed : expression.WellPlaced layout) (file : RegisterFile) {position : Nat}
    (verdict : position < 4) : (expression.eval file).word position = file.word position := by
  apply word_eval_of_outside
  have behind := (placed.registers _ expression.destination_mem_registers).1
  omega

/-- Each expression of a list is evaluated with checks as without them, on the file that the ones
before have left. -/
theorem forM_evalGuarded_eq_ok {expressions : List Bitwise}
    (placed : ∀ expression ∈ expressions, ∃ layout, expression.WellPlaced layout)
    (file : RegisterFile) :
    (forM expressions evalGuarded : Guarded Unit) file = .ok () (evalAll expressions file) := by
  induction expressions generalizing file with
  | nil => rfl
  | cons expression expressions ih =>
      rcases placed expression List.mem_cons_self with ⟨layout, headPlaced⟩
      rw [List.forM_cons, bind_eq_of_ok (headPlaced.evalGuarded_eq_ok file)]
      apply ih
      intro later later_mem
      exact placed later (List.mem_cons_of_mem _ later_mem)

theorem word_evalAll_of_verdict {expressions : List Bitwise}
    (placed : ∀ expression ∈ expressions, ∃ layout, expression.WellPlaced layout)
    (file : RegisterFile) {position : Nat} (verdict : position < 4) :
    (evalAll expressions file).word position = file.word position := by
  induction expressions generalizing file with
  | nil => rfl
  | cons expression expressions ih =>
      rcases placed expression List.mem_cons_self with ⟨layout, headPlaced⟩
      rw [evalAll, List.foldl_cons, ← headPlaced.word_eval_of_verdict file verdict]
      apply ih
      intro later later_mem
      exact placed later (List.mem_cons_of_mem _ later_mem)

theorem fits_of_registers {config : Config} {capacity : Nat} {made file : RegisterFile}
    {message : Bytes} {expression : Bitwise} (making : config.registers capacity = .ok made)
    (accepted : (Envelope.decode config message).outcome = .ok expression)
    (sameCapacity : file.capacity = capacity) : expression.fits file = true := by
  rcases Config.registers_eq_ok making with ⟨layout, hasLayout, large, _⟩
  rcases Envelope.exists_decode_eq_ok accepted with ⟨decodeLayout, data, decodeHas, decoded⟩
  rcases decode_eq_ok_iff.mp decoded with ⟨table, _, describes⟩
  have sameLayout : layout = decodeLayout := by
    rw [hasLayout] at decodeHas
    exact Except.ok.inj decodeHas
  have span_le := describes.wellPlaced.span_le
  rw [fits, decide_eq_true_iff, sameCapacity]
  rw [← sameLayout] at span_le
  omega

/-- An accepted expression is well placed, so its evaluation does not fault and changes nothing
outside of its destination; a run of accepted expressions keeps the verdict; and no expression is
too large for the files of its configuration. -/
theorem eval_safe_of_accepted :
    (∀ (layout : Layout) (table : AttributeTable) (expression : Bitwise),
      ofTable layout table = .ok expression →
        expression.WellPlaced layout ∧
        ∀ file : RegisterFile,
          expression.evalGuarded.run file = .ok () (expression.eval file) ∧
          (expression.eval file).capacity = file.capacity ∧
          (file.capacity < expression.span → expression.eval file = file) ∧
          ∀ position, (position < expression.destination.word ∨
              expression.destination.word + wordCount expression.length ≤ position) →
            (expression.eval file).word position = file.word position) ∧
    (∀ expressions : List Bitwise,
      (∀ expression ∈ expressions, ∃ layout table, ofTable layout table = .ok expression) →
        ∀ file : RegisterFile,
          (forM expressions evalGuarded : Guarded Unit).run file =
            .ok () (evalAll expressions file) ∧
          ∀ position < 4, (evalAll expressions file).word position = file.word position) ∧
    (∀ (config : Config) (capacity : Nat) (made : RegisterFile) (message : Bytes)
      (expression : Bitwise), config.registers capacity = .ok made →
        (Envelope.decode config message).outcome = .ok expression →
          made.capacity = capacity ∧
          ∀ file : RegisterFile, file.capacity = capacity →
            expression.fits file = true ∧ expression.eval file = expression.run file) := by
  refine ⟨?_, ?_, ?_⟩
  · intro layout table expression accepted
    have placed := wellPlaced_of_ofTable accepted
    refine ⟨placed, ?_⟩
    intro file
    refine ⟨placed.evalGuarded_eq_ok file, capacity_eval expression file, eval_of_small, ?_⟩
    intro position outside
    exact word_eval_of_outside expression file outside
  · intro expressions accepted file
    have placed : ∀ expression ∈ expressions, ∃ layout, expression.WellPlaced layout := by
      intro expression expression_mem
      rcases accepted expression expression_mem with ⟨layout, table, read⟩
      exact ⟨layout, wellPlaced_of_ofTable read⟩
    refine ⟨forM_evalGuarded_eq_ok placed file, ?_⟩
    intro position verdict
    exact word_evalAll_of_verdict placed file verdict
  · intro config capacity made message expression making accepted
    have madeCapacity : made.capacity = capacity := by
      rcases Config.registers_eq_ok making with ⟨layout, _, _, rfl⟩
      exact RegisterFile.capacity_blank capacity
    refine ⟨madeCapacity, ?_⟩
    intro file sameCapacity
    have fits := fits_of_registers making accepted sameCapacity
    exact ⟨fits, eval_of_fits fits⟩

/-- A left shift of seven bytes by five bits, read from a table and from an envelope, and evaluated
twice in a file of the default size. -/
theorem eval_safe_of_accepted_shift :
    let shift : Bitwise := ⟨⟨4⟩, ⟨8⟩, 7, .shiftLeft 5⟩
    let file : RegisterFile := RegisterFile.blank 20
    shift.WellPlaced Layout.standard ∧
      (forM [shift, shift] evalGuarded : Guarded Unit).run file =
        .ok () (evalAll [shift, shift] file) ∧
      shift.fits file = true := by
  intro shift file
  have accepted : ofTable Layout.standard
      ⟨#[none, some [0, 0, 0, 1], some [0, 0, 0, 2], some [0, 0, 0, 7], none, none,
        some [0, 0, 0, 1], some [0, 8, 0, 1, 0, 0, 0, 5]]⟩ = .ok shift := by
    decide +kernel
  have eachAccepted : ∀ expression ∈ [shift, shift], ∃ layout table,
      ofTable layout table = .ok expression := by
    intro expression expression_mem
    simp only [List.mem_cons, List.not_mem_nil, or_false, or_self] at expression_mem
    subst expression_mem
    exact ⟨_, _, accepted⟩
  have making : Config.registers {} 20 = .ok file := by
    rfl
  have opened : (Envelope.decode {} [0, 12, 0, 1, 98, 105, 116, 119, 105, 115, 101, 0,
      0, 48, 128, 2, 0, 8, 0, 1, 0, 0, 0, 1, 0, 8, 0, 2, 0, 0, 0, 2, 0, 8, 0, 3, 0, 0, 0, 7,
      0, 8, 0, 6, 0, 0, 0, 1, 0, 12, 128, 7, 0, 8, 0, 1, 0, 0, 0, 5]).outcome = .ok shift := by
    decide +kernel
  exact ⟨(eval_safe_of_accepted.1 _ _ _ accepted).1,
    (eval_safe_of_accepted.2.1 _ eachAccepted file).1,
    ((eval_safe_of_accepted.2.2 _ _ _ _ _ making opened).2 file rfl).1⟩

end Bitwise

end PacketExpr
