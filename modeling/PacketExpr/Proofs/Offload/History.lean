import Mathlib.Data.List.Induction
import PacketExpr.Proofs.Offload.Rule

/-!
# Histories of offload contexts

A context is worked on in place: an offload first makes sure that its register has an entry, a blank
one if need be, and checks the size of the field afterwards.  That leaves no blank entries behind,
because an entry without a size is never refused, and so nothing is seen of the order of the steps.

A context is then told from what has been done to it.  The fields that were loaded and the masks
that were put on them make up a log, and for each register the context holds the size from the last
line of the log and the mask from the last line with a mask.
-/

namespace PacketExpr

namespace OffloadContext

/-- The context with an entry for a register, a blank one if there has been none. -/
def touch (context : OffloadContext) (register : Register) : OffloadContext :=
  if (context.entry? register).isSome then context else context.set register ⟨none, none⟩

variable {context : OffloadContext} {register : Register}

theorem entry?_set (context : OffloadContext) (register other : Register) (entry : OffloadEntry) :
    entry? (context.set register entry) other =
      if other = register then some entry else context.entry? other := rfl

/-- Looking up a register enters it without a size, so no size changes. -/
@[simp]
theorem length?_touch (context : OffloadContext) (register : Register) :
    (context.touch register).length? register = context.length? register := by
  rw [touch]
  split
  · rfl
  · next absent =>
      rw [Option.not_isSome_iff_eq_none] at absent
      rw [length?_set_self, length?, absent]
      rfl

/-- An entry that was made blank is overwritten by the one that is set. -/
@[simp]
theorem set_touch (context : OffloadContext) (register : Register) (entry : OffloadEntry) :
    (context.touch register).set register entry = context.set register entry := by
  rw [touch]
  split
  · rfl
  · simp only [set, mk.injEq]
    funext other
    split <;> rfl

theorem touch_eq_self (known : (context.length? register).isSome = true) :
    context.touch register = context := by
  rw [touch, if_pos]
  cases absent : context.entry? register with
  | none => simp [length?, absent] at known
  | some entry => rfl

end OffloadContext

/-- A step that works on a context in place and may refuse. -/
abbrev Offloading := EStateM OffloadError OffloadContext

namespace Bitwise

/-- Adds the expression to a context in place: its register has an entry before the size of the
field is checked. -/
def offloadInPlace (expression : Bitwise) : Offloading MaskEntry := do
  let mask ← MonadExcept.ofExcept expression.offloadMask
  let register := expression.destination
  modify (OffloadContext.touch · register)
  if ((← get).length? register).any (· ≠ expression.length) then
    throw .lengthDiffers
  modify (OffloadContext.set · register ⟨some expression.length, some mask⟩)
  return ⟨register, mask, expression.length⟩

/-- In place or not, an offload has the same outcome, and a refusal leaves the context alone. -/
theorem offloadInPlace_eq (expression : Bitwise) (context : OffloadContext) :
    expression.offloadInPlace context =
      match expression.offload context with
      | .ok (entry, after) => .ok entry after
      | .error error => .error error context := by
  cases eligible : expression.offloadMask with
  | error error =>
      rw [offloadInPlace, offload, eligible]
      rfl
  | ok mask =>
      let register := expression.destination
      let touched := context.touch register
      have masks : (MonadExcept.ofExcept (.ok mask) : Offloading Bytes) context =
          .ok mask context := rfl
      have touches : (modify (OffloadContext.touch · register) : Offloading PUnit) context =
          .ok () touched := rfl
      have gets : (get : Offloading OffloadContext) touched = .ok touched touched := rfl
      have sameSize : touched.length? register = context.length? register :=
        OffloadContext.length?_touch context register
      rw [offloadInPlace, offload, eligible, bind_eq_of_ok masks, bind_eq_of_ok touches,
        bind_eq_of_ok gets, sameSize]
      by_cases differs : (context.length? register).any (· ≠ expression.length) = true
      · have untouched : touched = context :=
          OffloadContext.touch_eq_self (Option.isSome_of_any differs)
        have refuses : (throw .lengthDiffers : Offloading PUnit) touched =
            .error .lengthDiffers touched := rfl
        rw [if_pos differs, bind_eq_of_error refuses, untouched]
        simp only [bind, Except.bind]
        rw [if_pos differs]
      · rw [if_neg differs]
        simp only [bind, Except.bind]
        rw [if_neg differs]
        exact congrArg (EStateM.Result.ok _) (OffloadContext.set_touch context register _)

theorem offloadInPlace_eq_ok_iff {expression : Bitwise} {context after : OffloadContext}
    {entry : MaskEntry} :
    expression.offloadInPlace context = .ok entry after ↔
      expression.offload context = .ok (entry, after) := by
  rw [offloadInPlace_eq]
  cases expression.offload context with
  | error error => simp
  | ok outcome => simp [Prod.ext_iff]

theorem offloadInPlace_eq_error_iff {expression : Bitwise} {context after : OffloadContext}
    {error : OffloadError} :
    expression.offloadInPlace context = .error error after ↔
      expression.offload context = .error error ∧ after = context := by
  rw [offloadInPlace_eq]
  cases expression.offload context with
  | error other => simp [eq_comm]
  | ok outcome => simp

end Bitwise

namespace OffloadContext

/-- What can be done to a context. -/
inductive Action where
  /-- A field of `length` bytes is loaded into a register. -/
  | load (register : Register) (length : Nat)
  /-- An expression is to be offloaded, which may be refused. -/
  | offload (expression : Bitwise)

/-- A line of a log: a register was given a field of `length` bytes, or a mask for one. -/
structure Effect where
  register : Register
  length : Nat
  mask : Option Bytes
deriving DecidableEq

/-- Does something to a context in place; a refused offload has no effect to log. -/
def perform (action : Action) (context : OffloadContext) : Option Effect × OffloadContext :=
  match action with
  | .load register length => (some ⟨register, length, none⟩, context.setLength register length)
  | .offload expression =>
      match expression.offloadInPlace context with
      | .ok entry after => (some ⟨entry.register, entry.length, some entry.mask⟩, after)
      | .error _ after => (none, after)

/-- Does one thing after the other to a context; gives the log and the context in the end. -/
def performAll : List Action → OffloadContext → List Effect × OffloadContext
  | [], context => ([], context)
  | action :: actions, context =>
      let (effect?, after) := perform action context
      let (log, final) := performAll actions after
      (effect?.toList ++ log, final)

/-- Enters a line of a log: the size replaces the one before, and so does the mask if there is
one. -/
def enter (context : OffloadContext) (effect : Effect) : OffloadContext :=
  context.set effect.register
    ⟨some effect.length, effect.mask.or (context.mask? effect.register)⟩

/-- The lines of a log on one register. -/
def linesOn (register : Register) (log : List Effect) : List Effect :=
  log.filter (·.register = register)

/-- An action changes the context by what it logs and by nothing else. -/
theorem perform_eq (action : Action) (context : OffloadContext) :
    (perform action context).2 = (perform action context).1.toList.foldl enter context := by
  cases action with
  | load register length => rfl
  | offload expression =>
      rw [perform]
      cases outcome : expression.offloadInPlace context with
      | ok entry after =>
          have offloaded := Bitwise.offloadInPlace_eq_ok_iff.mp outcome
          rcases Bitwise.offload_eq_ok_iff.mp offloaded with ⟨mask, _, _, rfl, rfl⟩
          rfl
      | error error after => exact (Bitwise.offloadInPlace_eq_error_iff.mp outcome).2

/-- The context after a list of actions is what their log makes of the context before. -/
theorem performAll_eq (actions : List Action) (context : OffloadContext) :
    (performAll actions context).2 = (performAll actions context).1.foldl enter context := by
  induction actions generalizing context with
  | nil => rfl
  | cons action actions ih =>
      rw [performAll, List.foldl_append, ← perform_eq]
      exact ih _

theorem linesOn_concat (register : Register) (log : List Effect) (effect : Effect) :
    linesOn register (log ++ [effect]) =
      if effect.register = register then linesOn register log ++ [effect]
      else linesOn register log := by
  rw [linesOn, List.filter_append]
  split
  · next same => simp [linesOn, same]
  · next different => simp [linesOn, different]

theorem getLast?_filterMap_mask_concat (lines : List Effect) (effect : Effect) :
    ((lines ++ [effect]).filterMap Effect.mask).getLast? =
      effect.mask.or (lines.filterMap Effect.mask).getLast? := by
  rw [List.filterMap_append]
  cases hasMask : effect.mask with
  | none => simp [hasMask]
  | some mask => simp [hasMask]

/-- What a log leaves behind for a register: nothing unless there is a line on it, and else the size
of its last line and the mask of its last line with a mask.  The induction is from the end of the
log, since its last line decides for the register that it is on. -/
theorem entry?_foldl_enter (log : List Effect) (register : Register) :
    entry? (log.foldl enter .empty) register =
      (linesOn register log).getLast?.map fun last =>
        ⟨some last.length, ((linesOn register log).filterMap Effect.mask).getLast?⟩ := by
  induction log using List.reverseRecOn with
  | nil => rfl
  | append_singleton log effect ih =>
      rw [List.foldl_append, List.foldl_cons, List.foldl_nil, enter, entry?_set, linesOn_concat]
      by_cases same : effect.register = register
      · have maskBefore : (log.foldl enter .empty).mask? register =
            ((linesOn register log).filterMap Effect.mask).getLast? := by
          rw [mask?, ih]
          cases lines : (linesOn register log).getLast? with
          | none => rw [List.getLast?_eq_none_iff.mp lines]; rfl
          | some last => rfl
        rw [if_pos same.symm, if_pos same, List.getLast?_concat, same, maskBefore,
          getLast?_filterMap_mask_concat]
        rfl
      · rw [if_neg (Ne.symm same), if_neg same, ih]

/-- A context that began empty has an entry for exactly those registers that a field was loaded into
or an expression offloaded on.  The entry holds the size that came last and the mask of the last
expression, if there was one.  An offload changes no other register, and one that is refused changes
nothing, although it is done in place. -/
theorem entry_of_performAll (actions : List Action) (register : Register) :
    let log := (performAll actions .empty).1
    let final := (performAll actions .empty).2
    let lines := linesOn register log
    (final.entry? register = none ↔ lines = []) ∧
    (∀ last, lines.getLast? = some last →
      final.entry? register = some ⟨some last.length, (lines.filterMap Effect.mask).getLast?⟩) ∧
    ∀ (expression : Bitwise) (context : OffloadContext),
      (∀ entry after, expression.offloadInPlace context = .ok entry after →
        expression.offload context = .ok (entry, after) ∧
        (∃ mask, expression.offloadMask = .ok mask ∧
          entry = ⟨expression.destination, mask, expression.length⟩) ∧
        ∀ other, other ≠ expression.destination → after.entry? other = context.entry? other) ∧
      ∀ error after, expression.offloadInPlace context = .error error after →
        expression.offload context = .error error ∧ after = context := by
  intro log final lines
  have held : final.entry? register = lines.getLast?.map fun last =>
      ⟨some last.length, (lines.filterMap Effect.mask).getLast?⟩ := by
    rw [← entry?_foldl_enter, ← performAll_eq]
  refine ⟨?_, ?_, ?_⟩
  · rw [held, Option.map_eq_none_iff, List.getLast?_eq_none_iff]
  · intro last isLast
    rw [held, isLast, Option.map_some]
  · intro expression context
    constructor
    · intro entry after outcome
      have offloaded := Bitwise.offloadInPlace_eq_ok_iff.mp outcome
      rcases Bitwise.offload_eq_ok_iff.mp offloaded with ⟨mask, eligible, _, entry_eq, after_eq⟩
      refine ⟨offloaded, ⟨mask, eligible, entry_eq⟩, ?_⟩
      intro other different
      rw [after_eq, entry?_set, if_neg different]
    · intro error after outcome
      exact Bitwise.offloadInPlace_eq_error_iff.mp outcome

/-- A field of another size behind a mask keeps the mask, and a refused shift makes no entry. -/
theorem entry_of_performAll_reloaded :
    let actions : List Action := [.load ⟨4⟩ 4, .offload (Bitwise.keepWord 0xFFFF0000),
      .offload ⟨⟨8⟩, ⟨8⟩, 4, .shiftLeft 1⟩, .load ⟨4⟩ 2]
    let final := (performAll actions .empty).2
    final.entry? ⟨4⟩ = some ⟨some 2, some [0xFF, 0xFF, 0, 0]⟩ ∧ final.entry? ⟨8⟩ = none := by
  intro actions final
  have log : (performAll actions .empty).1 =
      [⟨⟨4⟩, 4, none⟩, ⟨⟨4⟩, 4, some [0xFF, 0xFF, 0, 0]⟩, ⟨⟨4⟩, 2, none⟩] := by
    decide +kernel
  constructor
  · rw [(entry_of_performAll actions ⟨4⟩).2.1 ⟨⟨4⟩, 2, none⟩ (by rw [log]; rfl), log]
    rfl
  · rw [(entry_of_performAll actions ⟨8⟩).1, log]
    rfl

end OffloadContext

end PacketExpr
