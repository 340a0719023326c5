import Mathlib.Data.BitVec

/-!
# Machinery/Cidr — blocks of addresses

    address    p₁ p₂ … pₙ │ h₁ h₂ … hₘ
    network/n  p₁ p₂ … pₙ │ 0  0  …  0        the addresses with the same first n bits

An address is a bit vector; a block is a network and the number of leading bits it fixes.  Whether an
address lies in a block is a division of numbers, and **a comparison under the mask of the block
decides it**.-/

namespace Machinery

/-- A block of addresses: those that share the first `bits` bits of `network`. -/
structure Cidr (w : ℕ) where
  network : BitVec w
  bits : ℕ

namespace Cidr

variable {w : ℕ}

/-- The address lies in the block. -/
def Contains (block : Cidr w) (address : BitVec w) : Prop :=
  address.toNat / 2 ^ (w - block.bits) = block.network.toNat / 2 ^ (w - block.bits)

instance (block : Cidr w) (address : BitVec w) : Decidable (block.Contains address) :=
  inferInstanceAs (Decidable (_ = _))

/-- The mask of a block: ones where its bits are. -/
def mask (w bits : ℕ) : BitVec w := BitVec.allOnes w <<< (w - bits)

theorem toNat_and_shiftLeft (a : BitVec w) (k : ℕ) :
    (a &&& (BitVec.allOnes w <<< k)).toNat = a.toNat / 2 ^ k * 2 ^ k := by
  have hmasked : a &&& (BitVec.allOnes w <<< k) = (a >>> k) <<< k := by
    ext i hi
    simp only [BitVec.getElem_and, BitVec.getElem_shiftLeft, BitVec.getElem_allOnes]
    by_cases hik : i < k
    · simp [hik]
    · have hback : k + (i - k) = i := by omega
      simp [hik, hback, BitVec.getLsbD_eq_getElem hi]
  rw [hmasked, BitVec.toNat_shiftLeft, BitVec.toNat_ushiftRight, Nat.shiftRight_eq_div_pow,
    Nat.shiftLeft_eq]
  refine Nat.mod_eq_of_lt ((Nat.div_mul_le_self _ _).trans_lt a.isLt)

/-- **Equal under the mask is in the block.** -/
theorem and_mask_eq_iff {block : Cidr w} {a : BitVec w} :
    a &&& mask w block.bits = block.network &&& mask w block.bits ↔ block.Contains a := by
  have hpos : 0 < 2 ^ (w - block.bits) := Nat.two_pow_pos _
  rw [← BitVec.toNat_inj, mask, toNat_and_shiftLeft, toNat_and_shiftLeft, Contains]
  exact ⟨Nat.eq_of_mul_eq_mul_right hpos, fun h => by rw [h]⟩

end Cidr

end Machinery
