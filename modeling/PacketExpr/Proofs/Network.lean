import PacketExpr.Network
import PacketExpr.Proofs.Bytes.Bits
import PacketExpr.Proofs.Offload.Eligible

/-!
# Networks and their addresses

The mask of a network has its leading bits set and no others, also where they end inside a byte.  So
an address that has been masked keeps these bits, and it comes out as the base of the network if and
only if it belongs to it.
-/

namespace PacketExpr

theorem testBit_leadingBitsByte (bits : Nat) {index : Nat} (index_lt : index < 8) :
    (leadingBitsByte bits).toNat.testBit (7 - index) = decide (index < bits) := by
  have partly : ∀ bits ≤ 8, ∀ index < 8,
      (leadingBitsByte bits).toNat.testBit (7 - index) = decide (index < bits) := by
    decide
  by_cases bits_le : bits ≤ 8
  · exact partly bits bits_le index index_lt
  · have full : leadingBitsByte bits = leadingBitsByte 8 := by
      rw [leadingBitsByte, if_neg (by omega), Nat.min_eq_right (by omega)]
      rfl
    rw [full, partly 8 (Nat.le_refl 8) index index_lt, decide_eq_true index_lt,
      decide_eq_true (by omega)]

namespace Network

variable {network : Network}

/-- The first address of a network: its bits behind the leading ones are clear. -/
def base (network : Network) : Bytes := network.address.masked network.netmask

/-- An address belongs to a network if its leading bits are those of the network. -/
def Contains (network : Network) (address : Bytes) : Prop :=
  ∀ index < network.leadingBits, address.bit index = network.address.bit index

instance (network : Network) (address : Bytes) : Decidable (network.Contains address) :=
  inferInstanceAs (Decidable (∀ index < network.leadingBits, _))

@[simp]
theorem length_netmask (network : Network) : network.netmask.length = network.family.size := by
  simp [netmask]

theorem size_pos (network : Network) : 0 < network.family.size := by
  cases network.family <;> decide

theorem size_le (network : Network) : network.family.size ≤ 16 := by
  cases network.family <;> decide

/-- Exactly the leading bits are set in the mask of a network. -/
theorem bit_netmask (network : Network) (index : Nat) :
    network.netmask.bit index = decide (index < network.leadingBits) := by
  by_cases inside : index < 8 * network.family.size
  · have position_lt : index / 8 < network.family.size := by omega
    have byte : network.netmask.getD (index / 8) 0 =
        leadingBitsByte (network.leadingBits - 8 * (index / 8)) := by
      simp [netmask, List.getD_eq_getElem?_getD, position_lt]
    rw [Bytes.bit, byte, testBit_leadingBitsByte _ (Nat.mod_lt index (by decide))]
    apply decide_eq_decide.mpr
    omega
  · have behind := network.leadingBits_le
    rw [Bytes.bit_of_length_le (by rw [length_netmask]; omega), eq_comm, decide_eq_false_iff_not]
    omega

theorem bit_masked_netmask (network : Network) (address : Bytes) (index : Nat) :
    (address.masked network.netmask).bit index =
      (decide (index < network.leadingBits) && address.bit index) := by
  rw [Bytes.masked, Bytes.bit_zipWith_and, bit_netmask, Bool.and_comm]

/-- Masking leads to the base of the network from its own addresses and from no others. -/
theorem masked_netmask_eq_base_iff {address : Bytes}
    (sameLength : address.length = network.family.size) :
    address.masked network.netmask = network.base ↔ network.Contains address := by
  constructor
  · intro same index isLeading
    have sameBit : (address.masked network.netmask).bit index = network.base.bit index := by
      rw [same]
    rwa [base, bit_masked_netmask, bit_masked_netmask, decide_eq_true isLeading, Bool.true_and,
      Bool.true_and] at sameBit
  · intro contains
    apply Bytes.eq_of_bit_eq
    · rw [base, Bytes.length_masked, Bytes.length_masked, sameLength, network.length_address]
    · intro index
      rw [base, bit_masked_netmask, bit_masked_netmask]
      by_cases isLeading : index < network.leadingBits
      · rw [contains index isLeading]
      · rw [decide_eq_false isLeading, Bool.false_and, Bool.false_and]

end Network

end PacketExpr
