import PacketExpr.Proofs.Offload.History

/-!
# Sizes of masks and fields

A mask is recorded together with the size of the field that it is for, and it has that size.  When
another field is loaded into the register afterwards, the size is replaced and the mask is not.  So
the entry of a register holds a mask of its size if and only if the field that was loaded last, if
there was one behind the mask, is of the size of the field that the mask has been made for.

In the log of a context this is seen on the lines of one register: behind the last line with a mask
there are only loads, and the last of them decides.
-/

namespace PacketExpr

namespace OffloadContext

variable {action : Action} {actions : List Action} {context : OffloadContext}
  {register : Register} {length : Nat} {mask : Bytes}

/-- What is to be offloaded has been accepted in some layout. -/
def Action.Accepted : Action → Prop
  | .load .. => True
  | .offload expression => ∃ layout table, Bitwise.ofTable layout table = .ok expression

/-- A mask in a log is of the size of its field. -/
theorem length_mask_of_perform (accepted : action.Accepted) :
    ∀ line ∈ (perform action context).1, ∀ mask ∈ line.mask, mask.length = line.length := by
  cases action with
  | load register length =>
      rintro _ ⟨rfl⟩ _ ⟨⟩
  | offload expression =>
      rcases accepted with ⟨layout, table, accepted⟩
      rw [perform]
      cases outcome : expression.offloadInPlace context with
      | error error after =>
          rintro _ ⟨⟩
      | ok entry after =>
          have offloaded := Bitwise.offloadInPlace_eq_ok_iff.mp outcome
          rcases Bitwise.offload_eq_ok_iff.mp offloaded with ⟨found, eligible, _, rfl, _⟩
          rintro _ ⟨rfl⟩ _ ⟨rfl⟩
          exact Bitwise.length_of_offloadMask eligible (Bitwise.wellPlaced_of_ofTable accepted)

theorem length_mask_of_performAll (accepted : ∀ action ∈ actions, action.Accepted) :
    ∀ line ∈ (performAll actions context).1, ∀ mask ∈ line.mask, mask.length = line.length := by
  induction actions generalizing context with
  | nil => exact nofun
  | cons action actions ih =>
      rcases List.forall_mem_cons.mp accepted with ⟨acceptedFirst, acceptedLater⟩
      intro line line_mem
      rcases List.mem_append.mp line_mem with first | later
      · exact length_mask_of_perform acceptedFirst line (Option.mem_toList.mp first)
      · exact ih acceptedLater line later

/-- The last line with a mask has only lines without masks behind it. -/
theorem exists_last_masked {lines : List Effect}
    (last : (lines.filterMap Effect.mask).getLast? = some mask) :
    ∃ earlier masked loads, lines = earlier ++ masked :: loads ∧ masked.mask = some mask ∧
      ∀ line ∈ loads, line.mask = none := by
  rcases List.getLast?_eq_some_iff.mp last with ⟨front, filtered⟩
  rcases List.filterMap_eq_append_iff.mp filtered with ⟨earlier, rest, rfl, _, restFiltered⟩
  rcases List.filterMap_eq_cons_iff.mp restFiltered with
    ⟨unmasked, masked, loads, rfl, _, isMask, noMasks⟩
  refine ⟨earlier ++ unmasked, masked, loads, by simp, isMask, ?_⟩
  exact List.filterMap_eq_nil_iff.mp noMasks

theorem getLast?_of_entry?
    (held : entry? (performAll actions .empty).2 register = some ⟨some length, some mask⟩) :
    let lines := linesOn register (performAll actions .empty).1
    (∃ last, lines.getLast? = some last ∧ last.length = length) ∧
      (lines.filterMap Effect.mask).getLast? = some mask := by
  rw [performAll_eq, entry?_foldl_enter, Option.map_eq_some_iff] at held
  rcases held with ⟨last, isLast, sameEntry⟩
  simp only [OffloadEntry.mk.injEq, Option.some.injEq] at sameEntry
  exact ⟨⟨last, isLast, sameEntry.1⟩, sameEntry.2⟩

/-- The mask that a context holds for a register has been made for a field of its own size, and only
loads have come after it.  It is of the size that the context holds for the register if and only if
the last of these loads, if there are any, is of that size. -/
theorem length_mask_eq_iff (accepted : ∀ action ∈ actions, action.Accepted)
    (held : entry? (performAll actions .empty).2 register = some ⟨some length, some mask⟩) :
    ∃ earlier masked loads,
      linesOn register (performAll actions .empty).1 = earlier ++ masked :: loads ∧
        masked.mask = some mask ∧ masked.length = mask.length ∧
        (∀ line ∈ loads, line.mask = none) ∧
        (mask.length = length ↔ ∀ last ∈ loads.getLast?, last.length = mask.length) := by
  rcases getLast?_of_entry? held with ⟨⟨last, isLast, lastLength⟩, lastMask⟩
  rcases exists_last_masked lastMask with ⟨earlier, masked, loads, lines_eq, isMask, noMasks⟩
  have masked_mem : masked ∈ (performAll actions .empty).1 := by
    have onRegister : masked ∈ linesOn register (performAll actions .empty).1 := by
      rw [lines_eq]
      exact List.mem_append_right _ List.mem_cons_self
    exact List.mem_of_mem_filter onRegister
  have ownSize := length_mask_of_performAll accepted masked masked_mem mask isMask
  refine ⟨earlier, masked, loads, lines_eq, isMask, ownSize.symm, noMasks, ?_⟩
  rw [lines_eq] at isLast
  rcases List.eq_nil_or_concat' loads with rfl | ⟨front, load, rfl⟩
  · have same : masked = last := by simpa using isLast
    simp [← lastLength, ← same, ownSize]
  · rw [← List.cons_append, ← List.append_assoc, List.getLast?_concat] at isLast
    have same : load = last := Option.some.inj isLast
    rw [List.getLast?_concat, ← lastLength, ← same]
    constructor
    · rintro sameSize _ ⟨rfl⟩
      exact sameSize.symm
    · intro sameSize
      exact (sameSize load rfl).symm

/-- A field of two bytes and then one of four are loaded behind a mask of four bytes, which is as
long as the last of them. -/
theorem length_mask_eq_iff_reloaded :
    let actions : List Action :=
      [.offload (Bitwise.keepWord 0xFFFF0000), .load ⟨4⟩ 2, .load ⟨4⟩ 4]
    (∀ action ∈ actions, action.Accepted) ∧
      entry? (performAll actions .empty).2 ⟨4⟩ = some ⟨some 4, some [0xFF, 0xFF, 0, 0]⟩ ∧
      ∃ earlier masked loads,
        linesOn ⟨4⟩ (performAll actions .empty).1 = earlier ++ masked :: loads ∧
          masked.mask = some [0xFF, 0xFF, 0, 0] ∧ ∀ last ∈ loads.getLast?, last.length = 4 := by
  intro actions
  have accepted : ∀ action ∈ actions, action.Accepted := by
    simp [actions, Action.Accepted, Bitwise.exists_accepts_keepWord]
  have held : entry? (performAll actions .empty).2 ⟨4⟩ =
      some ⟨some 4, some [0xFF, 0xFF, 0, 0]⟩ := by
    decide +kernel
  rcases length_mask_eq_iff accepted held
    with ⟨earlier, masked, loads, lines_eq, isMask, _, _, sameSize_iff⟩
  exact ⟨accepted, held, earlier, masked, loads, lines_eq, isMask, sameSize_iff.mp rfl⟩

/-- A field of two bytes that is loaded behind a mask of four bytes keeps that mask, so not every
context holds masks of the size of their fields only. -/
theorem mask_outlasts_field :
    ¬∀ actions : List Action, (∀ action ∈ actions, action.Accepted) →
      ∀ register length mask,
        entry? (performAll actions .empty).2 register = some ⟨some length, some mask⟩ →
          mask.length = length := by
  intro alwaysSameSize
  let actions : List Action := [.offload (Bitwise.keepWord 0xFFFF0000), .load ⟨4⟩ 2]
  have accepted : ∀ action ∈ actions, action.Accepted := by
    simp [actions, Action.Accepted, Bitwise.exists_accepts_keepWord]
  have held : entry? (performAll actions .empty).2 ⟨4⟩ =
      some ⟨some 2, some [0xFF, 0xFF, 0, 0]⟩ := by
    decide +kernel
  have sameSize : 4 = 2 := alwaysSameSize actions accepted ⟨4⟩ 2 [0xFF, 0xFF, 0, 0] held
  cases sameSize

end OffloadContext

end PacketExpr
