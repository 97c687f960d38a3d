import PacketExpr.Proofs.Draft.Spelling
import PacketExpr.Proofs.Network
import PacketExpr.Proofs.Register.Access

/-!
# Masks for networks

The draft for a network is built into the expression that masks an address in place, in every layout
with room for the address at the register.  An address that is stored there and masked is loaded
with its leading bits only, so it is the base of the network if and only if it belongs to the
network.  Hardware can do the same: offloaded, the expression records the mask of the network.
-/

namespace PacketExpr

namespace Network

/-- The mask of a network as an immediate. -/
def maskValue (network : Network) : Immediate where
  words := Vector.ofFn fun position => Bytes.wordAt network.netmask position
  size := network.family.size
  size_pos := network.size_pos
  size_le := Nat.le_trans network.size_le (by decide)

/-- An immediate for an address that flips no bits. -/
def noFlips (network : Network) : Immediate where
  words := Vector.replicate 64 0
  size := network.family.size
  size_pos := network.size_pos
  size_le := Nat.le_trans network.size_le (by decide)

/-- Masks an address at a register in place. -/
def maskAt (network : Network) (place : Register) : Bitwise :=
  Bitwise.maskInPlace place network.maskValue network.noFlips

variable {network : Network} {place : Register} {layout : Layout}

theorem packs_maskValue (network : Network) :
    Immediate.ofBytes? network.netmask = some network.maskValue :=
  Immediate.ofBytes?_eq_some_iff.mpr ⟨network.length_netmask.symm, rfl⟩

@[simp]
theorem bytes_maskValue (network : Network) : network.maskValue.bytes = network.netmask :=
  Immediate.bytes_of_ofBytes? network.packs_maskValue

theorem isZero_noFlips (network : Network) : network.noFlips.isZero = true := by
  simp [Immediate.isZero, noFlips]

@[simp]
theorem bytes_noFlips (network : Network) :
    network.noFlips.bytes = List.replicate network.family.size 0 :=
  Immediate.bytes_of_isZero network.isZero_noFlips

theorem packs_noFlips (network : Network) :
    Immediate.ofBytes? (List.replicate network.family.size 0) = some network.noFlips := by
  rw [Immediate.ofBytes?_eq_some_iff]
  constructor
  · simp [noFlips]
  · have zeros (position : Nat) :
        Bytes.wordAt (List.replicate network.family.size 0) position = 0 := by
      simp only [Bytes.wordAt, Bytes.firstWord, List.drop_replicate, List.getD_eq_getElem?_getD,
        List.getElem?_getD_replicate_default_eq]
      rfl
    apply Vector.ext
    intro position position_lt
    simp [noFlips, zeros]

theorem packed_maskAt (network : Network) (place : Register) : (network.maskAt place).Packed := by
  apply Bitwise.packed_maskInPlace
  · rw [bytes_maskValue, packs_maskValue]
  · rw [bytes_noFlips, packs_noFlips]

theorem wellPlaced_maskAt (holds : layout.Holds place network.family.size) :
    (network.maskAt place).WellPlaced layout :=
  Bitwise.wellPlaced_maskInPlace holds rfl

theorem offloadMask_maskAt (network : Network) (place : Register) :
    (network.maskAt place).offloadMask = .ok network.netmask := by
  rw [maskAt, Bitwise.offloadMask_maskInPlace _ _ network.isZero_noFlips, bytes_maskValue]

/-- A stored address is loaded with its leading bits only, once it has been masked. -/
theorem load_eval_store (holds : layout.Holds place network.family.size) {file : RegisterFile}
    (fits : (network.maskAt place).fits file = true) {address : Bytes}
    (sameLength : address.length = network.family.size) :
    ∃ stored, Access.store place address file = .ok () stored ∧
      stored.capacity = file.capacity ∧
      (∀ position, position < place.word ∨
        place.word + wordCount network.family.size ≤ position →
        stored.word position = file.word position) ∧
      Access.load place network.family.size ((network.maskAt place).eval stored) =
        .ok (address.masked network.netmask) ((network.maskAt place).eval stored) := by
  have room : place.word + wordCount network.family.size ≤ file.capacity :=
    Bitwise.fits_maskInPlace_iff.mp fits
  rw [← sameLength] at room
  let stored := file.overwrite place.word (Bytes.toWords address)
  have capacity_stored : stored.capacity = file.capacity := RegisterFile.capacity_overwrite _ _ _
  have fitsStored : (network.maskAt place).fits stored = true :=
    Bitwise.fits_congr capacity_stored fits
  have held : stored.bytesAt place network.family.size = address := by
    rw [← sameLength, RegisterFile.bytesAt_overwrite_toWords room (le_paddedSize _),
      Bytes.take_padded le_rfl, List.take_length]
  have evaluated := Bitwise.bytesAt_eval_of_offloadMask (network.offloadMask_maskAt place)
    (wellPlaced_maskAt holds) (network.packed_maskAt place) fitsStored
  refine ⟨stored, ?_, capacity_stored, ?_, ?_⟩
  · rw [Access.store_eq, if_pos (Or.inr room)]
  · intro position outside
    rw [RegisterFile.word_overwrite_toWords, if_neg]
    rw [sameLength]
    omega
  · rw [sameLength, ← capacity_stored, ← Bitwise.capacity_eval (network.maskAt place)] at room
    change _ = Bytes.masked (stored.bytesAt place network.family.size) _ at evaluated
    rw [held] at evaluated
    rw [Access.load_eq, if_pos (Or.inr room), ← evaluated]
    rfl

end Network

namespace Draft

variable {network : Network} {register : UInt32} {layout : Layout} {expression : Bitwise}

/-- A draft of a network spells nothing but its mask in place: it names one register twice, and its
two values have the size of an address. -/
theorem eq_maskAt_of_spells (spells : Spells layout (ofNetwork register network) expression)
    (placed : expression.WellPlaced layout) (packed : expression.Packed) :
    expression = network.maskAt expression.source := by
  rcases expression with ⟨source, destination, length, transform⟩
  have inPlace : source = destination := by
    have sameRegister := spells.source.symm.trans spells.destination
    exact Except.ok.inj sameRegister
  have sameLength : length = network.family.size := by
    have length_eq := congrArg UInt32.toNat spells.length
    have length_le := placed.length_le
    have size_le := network.size_le
    simp only [ofNetwork, Network.length_netmask, UInt32.toNat_ofNat'] at length_eq length_le
    omega
  have isBoolean : transform.operation = .boolean := by
    rcases spells.operation with named | ⟨_, isBoolean⟩
    · cases named
    · exact isBoolean
  cases transform with
  | boolean mask xor =>
      rcases spells.transform with ⟨_, spellsMask, spellsXor⟩
      have packs {operand : Operand} (operand_mem : operand ∈ [mask, xor]) :
          ∀ immediate ∈ operand.immediate?,
            Immediate.ofBytes? immediate.bytes = some immediate :=
        fun immediate isImmediate => (packed.operand placed operand_mem immediate isImmediate).1
      have mask_eq := spellsMask.eq_immediate network.packs_maskValue (packs (by simp))
      rw [ofNetwork, network.length_netmask] at spellsXor
      have xor_eq := spellsXor.eq_immediate network.packs_noFlips (packs (by simp))
      rw [mask_eq, xor_eq, sameLength, ← inPlace]
      rfl
  | shiftLeft amount => cases isBoolean
  | shiftRight amount => cases isBoolean

theorem spells_maskAt {place : Register} (resolved : layout.resolve register = .ok place) :
    Spells layout (ofNetwork register network) (network.maskAt place) where
  source := resolved
  destination := resolved
  length := by
    rw [ofNetwork, network.length_netmask]
    rfl
  operation := Or.inr ⟨rfl, rfl⟩
  transform := by
    refine ⟨rfl, ⟨?_, rfl⟩, ?_, rfl⟩
    · rw [network.bytes_maskValue, ofNetwork]
    · rw [network.bytes_noFlips, ofNetwork, network.length_netmask]

/-- The draft of a network can be built if and only if its register has room for an address, and
then it is the mask in place. -/
theorem build_ofNetwork_eq_ok_iff :
    (ofNetwork register network).build layout = .ok expression ↔
      ∃ place, layout.resolve register = .ok place ∧ layout.Holds place network.family.size ∧
        expression = network.maskAt place := by
  rw [build_eq_ok_iff_spells]
  constructor
  · rintro ⟨spells, placed, packed⟩
    have expression_eq := eq_maskAt_of_spells spells placed packed
    have holds := placed.holds expression.source_mem_registers
    rw [show expression.length = network.family.size by rw [expression_eq]; rfl] at holds
    exact ⟨_, spells.source, holds, expression_eq⟩
  · rintro ⟨place, resolved, holds, rfl⟩
    exact ⟨spells_maskAt resolved, Network.wellPlaced_maskAt holds, network.packed_maskAt place⟩

/-- The draft for a network is built if and only if an address has room at the register, behind the
verdict.  What is built keeps of every address that is stored there the leading bits and clears all
others.  It changes no other word, its result is the base of the network exactly for the addresses
of the network, and hardware can run it with the mask of the network. -/
theorem build_ofNetwork (register : UInt32) (network : Network) (layout : Layout) :
    let size := network.family.size
    ((∃ expression, (ofNetwork register network).build layout = .ok expression) ↔
      ∃ place, layout.resolve register = .ok place ∧ 4 ≤ place.word ∧
        place.word + wordCount size ≤ layout.words) ∧
    ∀ expression, (ofNetwork register network).build layout = .ok expression →
      ∃ place, layout.resolve register = .ok place ∧
        (∀ file address, expression.fits file = true → address.length = size →
          ∃ stored loaded, Access.store place address file = .ok () stored ∧
            Access.load place size (expression.eval stored) =
              .ok loaded (expression.eval stored) ∧
            loaded.length = size ∧
            (∀ index, loaded.bit index =
              (decide (index < network.leadingBits) && address.bit index)) ∧
            (expression.eval stored).capacity = file.capacity ∧
            (∀ position, position < place.word ∨ place.word + wordCount size ≤ position →
              (expression.eval stored).word position = stored.word position ∧
                stored.word position = file.word position) ∧
            (loaded = network.base ↔ network.Contains address)) ∧
        (∀ index, network.netmask.bit index = decide (index < network.leadingBits) ∧
          network.base.bit index =
            (decide (index < network.leadingBits) && network.address.bit index)) ∧
        ∃ after, expression.offload .empty = .ok (⟨place, network.netmask, size⟩, after) ∧
          after.mask? place = some network.netmask := by
  intro size
  constructor
  · constructor
    · rintro ⟨expression, built⟩
      rcases build_ofNetwork_eq_ok_iff.mp built with ⟨place, resolved, holds, _⟩
      exact ⟨place, resolved, holds.behindVerdict, holds.inFile⟩
    · rintro ⟨place, resolved, behindVerdict, inFile⟩
      exact ⟨_, build_ofNetwork_eq_ok_iff.mpr
        ⟨place, resolved, ⟨behindVerdict, network.size_pos, inFile⟩, rfl⟩⟩
  · intro expression built
    rcases build_ofNetwork_eq_ok_iff.mp built with ⟨place, resolved, holds, rfl⟩
    refine ⟨place, resolved, ?_,
      fun index => ⟨network.bit_netmask index, network.bit_masked_netmask network.address index⟩,
      OffloadContext.empty.set place ⟨some size, some network.netmask⟩, ?_,
      OffloadContext.mask?_set_self⟩
    · intro file address fits sameLength
      rcases Network.load_eval_store holds fits sameLength with
        ⟨stored, isStored, sameCapacity, elsewhere, loaded⟩
      refine ⟨stored, _, isStored, loaded, ?_, network.bit_masked_netmask address, ?_, ?_,
        Network.masked_netmask_eq_base_iff sameLength⟩
      · rw [Bytes.length_masked, sameLength, network.length_netmask, Nat.min_self]
      · rw [Bitwise.capacity_eval, sameCapacity]
      · intro position outside
        exact ⟨Bitwise.word_eval_of_outside _ _ outside, elsewhere position outside⟩
    · rw [Bitwise.offload_eq_ok_iff]
      exact ⟨_, network.offloadMask_maskAt place, nofun, rfl, rfl⟩

/-- In the last four words of a file 29 leading bits of an address are kept, which are those of the
network. -/
theorem build_ofNetwork_last :
    let network : Network :=
      ⟨.v6, [0x20, 0x01, 0x0D, 0xB8, 0, 0, 0, 0, 0, 0, 0, 0, 0, 0, 0, 1], 29, rfl, by decide⟩
    let address : Bytes := [0x20, 0x01, 0x0D, 0xBF] ++ List.replicate 12 0xFF
    ∃ expression stored loaded, (ofNetwork 4 network).build Layout.standard = .ok expression ∧
      Access.store ⟨16⟩ address (.blank 20) = .ok () stored ∧
      Access.load ⟨16⟩ 16 (expression.eval stored) = .ok loaded (expression.eval stored) ∧
      loaded = network.base ∧ network.base = [0x20, 0x01, 0x0D, 0xB8] ++ List.replicate 12 0 := by
  intro network address
  have built : (ofNetwork 4 network).build Layout.standard = .ok (network.maskAt ⟨16⟩) :=
    build_ofNetwork_eq_ok_iff.mpr ⟨⟨16⟩, by decide, ⟨by decide, by decide, by decide⟩, rfl⟩
  have fits : (network.maskAt ⟨16⟩).fits (.blank 20) = true := by decide +kernel
  rcases (build_ofNetwork 4 network Layout.standard).2 _ built with ⟨place, resolved, masks, _⟩
  cases resolved
  rcases masks (.blank 20) address fits rfl with
    ⟨stored, loaded, isStored, isLoaded, _, _, _, _, loaded_iff⟩
  exact ⟨_, stored, loaded, built, isStored, isLoaded, loaded_iff.mpr (by decide +kernel),
    by decide +kernel⟩

end Draft

end PacketExpr
