import PacketExpr.Proofs.Bitwise.Guarded
import PacketExpr.Proofs.Offload.Eligible

/-!
# Masks of whole rules

The expressions of a rule are offloaded one after the other into one context.  Software puts all of
their masks on the value, but the context keeps only the mask that was recorded last.  So hardware
that works from the context does the work of the whole rule if and only if no earlier mask clears a
bit that the last one keeps.

The proof follows the list of expressions twice, once through the contexts and once through the
register files, and meets in the list of their masks.
-/

namespace PacketExpr

namespace Bytes

variable {value mask last : Bytes} {masks : List Bytes}

theorem masked_assoc (value mask other : Bytes) :
    (value.masked mask).masked other = value.masked (mask.masked other) := by
  apply List.ext_getElem
  · simp [Nat.min_assoc]
  · intro position _ _
    simp [masked, UInt8.and_assoc]

theorem masked_comm (value mask : Bytes) : value.masked mask = mask.masked value :=
  List.zipWith_comm_of_comm UInt8.and_comm

@[simp]
theorem masked_self (value : Bytes) : value.masked value = value := by
  apply List.ext_getElem
  · simp
  · intro position _ _
    simp [masked]

theorem ones_masked (mask : Bytes) : masked (List.replicate mask.length 0xFF) mask = mask := by
  apply List.ext_getElem
  · simp
  · intro position _ _
    simp only [masked, List.getElem_zipWith, List.getElem_replicate]
    exact UInt8.neg_one_and

/-- The value with masks put on it one after the other. -/
def maskedAll (value : Bytes) (masks : List Bytes) : Bytes := masks.foldl masked value

/-- Masks can be put on a value in any order. -/
theorem maskedAll_masked (value mask : Bytes) (masks : List Bytes) :
    (value.masked mask).maskedAll masks = (value.maskedAll masks).masked mask := by
  induction masks generalizing value with
  | nil => rfl
  | cons first masks ih =>
      have swapped : (value.masked mask).masked first = (value.masked first).masked mask := by
        rw [masked_assoc, masked_comm mask, ← masked_assoc]
      calc (value.masked mask).maskedAll (first :: masks)
        _ = ((value.masked mask).masked first).maskedAll masks := rfl
        _ = ((value.masked first).masked mask).maskedAll masks := by rw [swapped]
        _ = ((value.masked first).maskedAll masks).masked mask := ih _

/-- A mask that has been put on a value has nothing left to clear. -/
theorem maskedAll_masked_of_mem (mask_mem : mask ∈ masks) :
    (value.maskedAll masks).masked mask = value.maskedAll masks := by
  induction masks generalizing value with
  | nil => cases mask_mem
  | cons first masks ih =>
      rcases List.mem_cons.mp mask_mem with rfl | later
      · have applied : value.maskedAll (mask :: masks) = (value.maskedAll masks).masked mask :=
          maskedAll_masked value mask masks
        rw [applied, masked_assoc, masked_self]
      · exact ih later

theorem maskedAll_eq_self (clears : ∀ mask ∈ masks, value.masked mask = value) :
    value.maskedAll masks = value := by
  induction masks with
  | nil => rfl
  | cons first masks ih =>
      rw [maskedAll, List.foldl_cons, clears first List.mem_cons_self]
      apply ih
      intro mask later
      exact clears mask (List.mem_cons_of_mem _ later)

/-- One mask does the work of all if none of the others clears a bit that it keeps. -/
theorem maskedAll_eq_masked (last_mem : last ∈ masks)
    (narrowest : ∀ mask ∈ masks, last.masked mask = last) :
    value.maskedAll masks = value.masked last := by
  rw [← maskedAll_masked_of_mem last_mem, ← maskedAll_masked]
  apply maskedAll_eq_self
  intro mask mask_mem
  rw [masked_assoc, narrowest mask mask_mem]

end Bytes

namespace RegisterFile

/-- A file in which every bit is set. -/
def ones (capacity : Nat) : RegisterFile := ⟨Array.replicate capacity 0xFFFFFFFF⟩

@[simp]
theorem capacity_ones (capacity : Nat) : (ones capacity).capacity = capacity :=
  Array.size_replicate

theorem bytesAt_ones {register : Register} {size capacity : Nat}
    (room : register.word + wordCount size ≤ capacity) :
    (ones capacity).bytesAt register size = List.replicate size 0xFF := by
  have fullWord : Bytes.ofWord 0xFFFFFFFF = List.replicate 4 0xFF := rfl
  apply Bytes.take_ofWords_eq_replicate fullWord
  · intro word word_mem
    rcases List.mem_map.mp word_mem with ⟨offset, offset_mem, rfl⟩
    have offset_lt := List.mem_range.mp offset_mem
    have inside : register.word + offset < capacity := by omega
    simp [word, ones, inside]
  · have size_le := le_paddedSize size
    rw [paddedSize_eq_wordCount] at size_le
    simp only [List.length_map, List.length_range]
    omega

end RegisterFile

namespace OffloadContext

/-- A context before the first offload, in which the size of the field in one register may be
known. -/
def fresh (register : Register) : (loaded : Option Nat) → OffloadContext
  | none => empty
  | some length => empty.setLength register length

theorem mask?_fresh (register : Register) (loaded : Option Nat) :
    (fresh register loaded).mask? register = none := by
  cases loaded with
  | none => rfl
  | some length => exact mask?_set_self

end OffloadContext

namespace Bitwise

variable {expression : Bitwise} {expressions : List Bitwise} {register : Register}
  {context after : OffloadContext} {size : Nat} {last : Bytes}

/-- Offloads the expressions of a rule one after the other, as long as none is refused. -/
def offloadAll (expressions : List Bitwise) (context : OffloadContext) :
    Except OffloadError OffloadContext :=
  expressions.foldlM (fun context expression => Prod.snd <$> expression.offload context) context

/-- The masks of those expressions that hardware can run. -/
def masks (expressions : List Bitwise) : List Bytes :=
  expressions.filterMap fun expression => expression.offloadMask.toOption

/-- A rule of accepted expressions that mask one field of `size` bytes in place. -/
structure MasksField (expressions : List Bitwise) (register : Register) (size : Nat) : Prop where
  accepted : ∀ expression ∈ expressions, ∃ layout table, ofTable layout table = .ok expression
  destination : ∀ expression ∈ expressions, expression.destination = register
  eligible : ∀ expression ∈ expressions, ∃ mask, expression.offloadMask = .ok mask
  length : ∀ expression ∈ expressions, expression.length = size

/-- In every file with room for the expressions, all of them together put one mask on the value. -/
def AgreeWith (expressions : List Bitwise) (register : Register) (size : Nat) (mask : Bytes) :
    Prop :=
  ∀ file, (∀ expression ∈ expressions, expression.fits file = true) →
    (evalAll expressions file).bytesAt register size = (file.bytesAt register size).masked mask

/-- A rule is offloaded if its first expression can be, on a field of its size, and then the others
can be on the context with its mask. -/
theorem offloadAll_cons_eq_ok_iff :
    offloadAll (expression :: expressions) context = .ok after ↔
      ∃ mask, expression.offloadMask = .ok mask ∧
        (∀ length ∈ context.length? expression.destination, length = expression.length) ∧
        offloadAll expressions
          (context.set expression.destination ⟨some expression.length, some mask⟩) = .ok after := by
  simp only [offloadAll, List.foldlM_cons, bind_eq_ok_iff, map_eq_ok_iff]
  constructor
  · rintro ⟨middle, ⟨⟨entry, _⟩, offloaded, rfl⟩, rest⟩
    rcases offload_eq_ok_iff.mp offloaded with ⟨mask, eligible, sameField, -, rfl⟩
    exact ⟨mask, eligible, sameField, rest⟩
  · rintro ⟨mask, eligible, sameField, rest⟩
    have offloaded := offload_eq_ok_iff.mpr ⟨mask, eligible, sameField, rfl, rfl⟩
    exact ⟨_, ⟨_, offloaded, rfl⟩, rest⟩

theorem eligible_of_offloadAll (offloaded : offloadAll expressions context = .ok after) :
    ∀ expression ∈ expressions, ∃ mask, expression.offloadMask = .ok mask := by
  induction expressions generalizing context with
  | nil => exact nofun
  | cons expression expressions ih =>
      rcases offloadAll_cons_eq_ok_iff.mp offloaded with ⟨mask, eligible, _, rest⟩
      exact List.forall_mem_cons.mpr ⟨⟨mask, eligible⟩, ih rest⟩

/-- Once the size of a field is known, it stays, and every expression that is offloaded has it. -/
theorem length?_offloadAll
    (destination : ∀ expression ∈ expressions, expression.destination = register)
    (offloaded : offloadAll expressions context = .ok after)
    (known : context.length? register = some size) :
    after.length? register = some size ∧ ∀ expression ∈ expressions, expression.length = size := by
  induction expressions generalizing context with
  | nil =>
      cases offloaded
      exact ⟨known, nofun⟩
  | cons expression expressions ih =>
      rcases offloadAll_cons_eq_ok_iff.mp offloaded with ⟨mask, _, sameField, rest⟩
      rcases List.forall_mem_cons.mp destination with ⟨destination_eq, destinations⟩
      rw [destination_eq] at sameField rest
      have sameSize := sameField size known
      rcases ih destinations rest (by simp [sameSize]) with ⟨stillKnown, sameSizes⟩
      exact ⟨stillKnown, List.forall_mem_cons.mpr ⟨sameSize.symm, sameSizes⟩⟩

/-- All expressions of a rule on one register have the size that is recorded for it. -/
theorem length?_offloadAll_cons
    (destination : ∀ other ∈ expression :: expressions, other.destination = register)
    (offloaded : offloadAll (expression :: expressions) context = .ok after) :
    after.length? register = some expression.length ∧
      ∀ other ∈ expression :: expressions, other.length = expression.length := by
  rcases offloadAll_cons_eq_ok_iff.mp offloaded with ⟨mask, _, _, rest⟩
  rcases List.forall_mem_cons.mp destination with ⟨destination_eq, destinations⟩
  rw [destination_eq] at rest
  rcases length?_offloadAll destinations rest OffloadContext.length?_set_self
    with ⟨known, sameSize⟩
  exact ⟨known, List.forall_mem_cons.mpr ⟨rfl, sameSize⟩⟩

theorem masks_cons {mask : Bytes} (eligible : expression.offloadMask = .ok mask) :
    masks (expression :: expressions) = mask :: masks expressions := by
  simp [masks, eligible, Except.toOption]

/-- A mask that is recorded displaces the one before, so in the end there is the last of them. -/
theorem mask?_offloadAll
    (destination : ∀ expression ∈ expressions, expression.destination = register)
    (offloaded : offloadAll expressions context = .ok after) :
    after.mask? register = (masks expressions).getLast?.or (context.mask? register) := by
  induction expressions generalizing context with
  | nil =>
      cases offloaded
      rfl
  | cons expression expressions ih =>
      rcases offloadAll_cons_eq_ok_iff.mp offloaded with ⟨mask, eligible, _, rest⟩
      rcases List.forall_mem_cons.mp destination with ⟨destination_eq, destinations⟩
      rw [destination_eq] at rest
      rw [ih destinations rest, OffloadContext.mask?_set_self, masks_cons eligible,
        List.getLast?_cons]
      cases (masks expressions).getLast? with
      | none => rfl
      | some last => rfl

theorem exists_of_mem_masks {mask : Bytes} (mask_mem : mask ∈ masks expressions) :
    ∃ expression ∈ expressions, expression.offloadMask = .ok mask := by
  rcases List.mem_filterMap.mp mask_mem with ⟨expression, expression_mem, found⟩
  refine ⟨expression, expression_mem, ?_⟩
  cases eligible : expression.offloadMask with
  | error error =>
      rw [eligible] at found
      cases found
  | ok mask =>
      rw [eligible] at found
      cases found
      rfl

theorem MasksField.tail (rule : MasksField (expression :: expressions) register size) :
    MasksField expressions register size where
  accepted := (List.forall_mem_cons.mp rule.accepted).2
  destination := (List.forall_mem_cons.mp rule.destination).2
  eligible := (List.forall_mem_cons.mp rule.eligible).2
  length := (List.forall_mem_cons.mp rule.length).2

theorem MasksField.length_mask (rule : MasksField expressions register size) {mask : Bytes}
    (mask_mem : mask ∈ masks expressions) : mask.length = size := by
  rcases exists_of_mem_masks mask_mem with ⟨expression, expression_mem, eligible⟩
  rcases rule.accepted expression expression_mem with ⟨layout, table, accepted⟩
  rw [length_of_offloadMask eligible (wellPlaced_of_ofTable accepted)]
  exact rule.length expression expression_mem

/-- All expressions of a rule on one field need the same room. -/
theorem MasksField.fits (rule : MasksField expressions register size) {file : RegisterFile}
    (room : register.word + wordCount size ≤ file.capacity) :
    ∀ expression ∈ expressions, expression.fits file = true := by
  intro expression expression_mem
  rcases rule.eligible expression expression_mem with ⟨mask, eligible⟩
  apply fits_of_offloadMask eligible
  rwa [rule.destination expression expression_mem, rule.length expression expression_mem]

/-- Software puts the masks of all expressions on the value. -/
theorem MasksField.bytesAt_evalAll (rule : MasksField expressions register size)
    {file : RegisterFile} (fit : ∀ expression ∈ expressions, expression.fits file = true) :
    (evalAll expressions file).bytesAt register size =
      (file.bytesAt register size).maskedAll (masks expressions) := by
  induction expressions generalizing file with
  | nil => rfl
  | cons expression expressions ih =>
      rcases rule.accepted expression List.mem_cons_self with ⟨layout, table, accepted⟩
      rcases rule.eligible expression List.mem_cons_self with ⟨mask, eligible⟩
      rcases List.forall_mem_cons.mp fit with ⟨fits, fitsLater⟩
      have describes := ofTable_eq_ok_iff.mp accepted
      have first := bytesAt_eval_of_offloadMask eligible describes.wellPlaced describes.packed fits
      rw [rule.destination expression List.mem_cons_self, rule.length expression List.mem_cons_self]
        at first
      have stillFits : ∀ other ∈ expressions, other.fits (expression.eval file) = true := by
        intro other other_mem
        exact fits_congr (capacity_eval expression file) (fitsLater other other_mem)
      calc (evalAll (expression :: expressions) file).bytesAt register size
        _ = (evalAll expressions (expression.eval file)).bytesAt register size := rfl
        _ = ((expression.eval file).bytesAt register size).maskedAll (masks expressions) :=
            ih rule.tail stillFits
        _ = ((file.bytesAt register size).masked mask).maskedAll (masks expressions) := by
            rw [first]
        _ = (file.bytesAt register size).maskedAll (masks (expression :: expressions)) := by
            rw [masks_cons eligible]
            rfl

/-- Hardware that puts one mask of a rule on the field agrees with software if and only if no other
mask of the rule clears a bit that this one keeps.  A field of ones shows every bit that some mask
of the rule clears. -/
theorem MasksField.agreeWith_iff (rule : MasksField expressions register size)
    (last_mem : last ∈ masks expressions) :
    AgreeWith expressions register size last ↔
      ∀ mask ∈ masks expressions, last.masked mask = last := by
  constructor
  · intro agree mask mask_mem
    let field := RegisterFile.ones (register.word + wordCount size)
    have fit : ∀ expression ∈ expressions, expression.fits field = true :=
      rule.fits (by simp [field])
    have ones : field.bytesAt register size = List.replicate size 0xFF :=
      RegisterFile.bytesAt_ones (Nat.le_refl _)
    have shown := agree field fit
    rw [rule.bytesAt_evalAll fit, ones, ← rule.length_mask last_mem, Bytes.ones_masked] at shown
    rw [← shown]
    exact Bytes.maskedAll_masked_of_mem mask_mem
  · intro narrowest file fit
    rw [rule.bytesAt_evalAll fit]
    exact Bytes.maskedAll_eq_masked last_mem narrowest

/-- The mask that a context holds after a rule on one register is that of the last expression,
whatever the others have recorded before.  In software every mask of the rule counts.  So hardware
and software agree if and only if no mask of the rule clears a bit that the last one keeps. -/
theorem agreeWith_recorded_iff {loaded : Option Nat}
    (accepted : ∀ expression ∈ expressions, ∃ layout table, ofTable layout table = .ok expression)
    (destination : ∀ expression ∈ expressions, expression.destination = register)
    (offloaded : offloadAll expressions (.fresh register loaded) = .ok after)
    (recorded : after.mask? register = some last) :
    (masks expressions).getLast? = some last ∧
      ∃ size, after.length? register = some size ∧
        (∀ expression ∈ expressions, expression.length = size) ∧
        (∀ file, (∀ expression ∈ expressions, expression.fits file = true) →
          (evalAll expressions file).bytesAt register size =
            (file.bytesAt register size).maskedAll (masks expressions)) ∧
        (AgreeWith expressions register size last ↔
          ∀ mask ∈ masks expressions, last.masked mask = last) := by
  have isLast : (masks expressions).getLast? = some last := by
    rw [mask?_offloadAll destination offloaded, OffloadContext.mask?_fresh, Option.or_none]
      at recorded
    exact recorded
  have last_mem := List.mem_of_getLast? isLast
  refine ⟨isLast, ?_⟩
  cases expressions with
  | nil => cases last_mem
  | cons expression expressions =>
      have sizes := length?_offloadAll_cons destination offloaded
      have rule : MasksField (expression :: expressions) register expression.length :=
        ⟨accepted, destination, eligible_of_offloadAll offloaded, sizes.2⟩
      exact ⟨expression.length, sizes.1, sizes.2, fun file fit => rule.bytesAt_evalAll fit,
        rule.agreeWith_iff last_mem⟩

/-- Keeps the bits of a mask in the first word behind the verdict. -/
def keepWord (mask : UInt32) : Bitwise :=
  ⟨⟨4⟩, ⟨4⟩, 4, .boolean (.immediate (.ofWord mask)) (.immediate (.ofWord 0))⟩

theorem keepWord_eq_maskInPlace (mask : UInt32) :
    keepWord mask = maskInPlace ⟨4⟩ (.ofWord mask) (.ofWord 0) := rfl

theorem exists_accepts_keepWord (mask : UInt32) :
    ∃ layout table, ofTable layout table = .ok (keepWord mask) := by
  have holds : Layout.standard.Holds ⟨4⟩ 4 := ⟨by decide, by decide, by decide⟩
  have packs (word : UInt32) : Immediate.ofBytes? (Immediate.ofWord word).bytes =
      some (.ofWord word) := by
    rw [Immediate.bytes_of_ofBytes? (Immediate.ofBytes?_ofWord word)]
    exact Immediate.ofBytes?_ofWord word
  have placed : (keepWord mask).WellPlaced Layout.standard := by
    rw [keepWord_eq_maskInPlace]
    exact wellPlaced_maskInPlace holds rfl
  have packed : (keepWord mask).Packed := packed_maskInPlace ⟨4⟩ (packs mask) (packs 0)
  exact ⟨_, _, ofTable_eq_ok_iff.mpr (describes_table placed packed)⟩

theorem offloadMask_keepWord (mask : UInt32) :
    (keepWord mask).offloadMask = .ok (Bytes.ofWord mask) := by
  have noFlips : (Immediate.ofWord 0).isZero = true := by decide +kernel
  rw [keepWord_eq_maskInPlace, offloadMask_maskInPlace _ _ noFlips,
    Immediate.bytes_of_ofBytes? (Immediate.ofBytes?_ofWord mask)]

theorem offloadAll_keepWord {first second : UInt32}
    (sameField : ∀ length ∈ context.length? ⟨4⟩, length = 4) :
    offloadAll [keepWord first, keepWord second] context =
      .ok ((context.set ⟨4⟩ ⟨some 4, some (Bytes.ofWord first)⟩).set ⟨4⟩
        ⟨some 4, some (Bytes.ofWord second)⟩) := by
  apply offloadAll_cons_eq_ok_iff.mpr
  refine ⟨_, offloadMask_keepWord first, sameField, ?_⟩
  apply offloadAll_cons_eq_ok_iff.mpr
  exact ⟨_, offloadMask_keepWord second, by simp [keepWord], rfl⟩

/-- A mask that only narrows the one before does the work of both. -/
theorem agreeWith_recorded_iff_narrowed :
    let rule := [keepWord 0xFFFF0000, keepWord 0xFF000000]
    ∃ after, offloadAll rule (.fresh ⟨4⟩ (some 4)) = .ok after ∧
      after.mask? ⟨4⟩ = some [0xFF, 0, 0, 0] ∧ AgreeWith rule ⟨4⟩ 4 [0xFF, 0, 0, 0] := by
  intro rule
  have accepted : ∀ expression ∈ rule, ∃ layout table, ofTable layout table = .ok expression := by
    simp [rule, exists_accepts_keepWord]
  have destination : ∀ expression ∈ rule, expression.destination = ⟨4⟩ := by
    simp [rule, keepWord]
  have sameField : ∀ length ∈ (OffloadContext.fresh ⟨4⟩ (some 4)).length? ⟨4⟩, length = 4 := by
    decide
  have offloaded : offloadAll rule _ = .ok _ := offloadAll_keepWord sameField
  rcases agreeWith_recorded_iff accepted destination offloaded OffloadContext.mask?_set_self
    with ⟨_, size, known, _, _, agree_iff⟩
  cases known
  have masks_eq : masks rule = [[0xFF, 0xFF, 0, 0], [0xFF, 0, 0, 0]] := by
    rw [masks_cons (offloadMask_keepWord _), masks_cons (offloadMask_keepWord _)]
    rfl
  rw [masks_eq] at agree_iff
  exact ⟨_, offloaded, rfl, agree_iff.mpr (by decide)⟩

/-- A mask that is put on a word after another one displaces it in the context.  Hardware would then
keep a byte that software clears. -/
theorem overwritten_mask_disagrees :
    let rule := [keepWord 0xFFFF0000, keepWord 0x00FFFF00]
    let after := (OffloadContext.empty.set ⟨4⟩ ⟨some 4, some [0xFF, 0xFF, 0, 0]⟩).set ⟨4⟩
      ⟨some 4, some [0, 0xFF, 0xFF, 0]⟩
    let file := RegisterFile.ones 20
    (∀ expression ∈ rule, ∃ layout table, ofTable layout table = .ok expression) ∧
      (∀ expression ∈ rule, expression.source = ⟨4⟩ ∧ expression.destination = ⟨4⟩) ∧
      offloadAll rule .empty = .ok after ∧
      after.mask? ⟨4⟩ = some [0, 0xFF, 0xFF, 0] ∧
      (∀ expression ∈ rule, expression.fits file = true) ∧
      (evalAll rule file).bytesAt ⟨4⟩ 4 = [0, 0xFF, 0, 0] ∧
      (file.bytesAt ⟨4⟩ 4).masked [0, 0xFF, 0xFF, 0] = [0, 0xFF, 0xFF, 0] := by
  intro rule after file
  have accepted : ∀ expression ∈ rule, ∃ layout table, ofTable layout table = .ok expression := by
    simp [rule, exists_accepts_keepWord]
  have inPlace : ∀ expression ∈ rule, expression.source = ⟨4⟩ ∧ expression.destination = ⟨4⟩ := by
    simp [rule, keepWord]
  have offloaded : offloadAll rule .empty = .ok after := offloadAll_keepWord nofun
  exact ⟨accepted, inPlace, offloaded, OffloadContext.mask?_set_self, by decide, by decide +kernel,
    by decide +kernel⟩

end Bitwise

end PacketExpr
