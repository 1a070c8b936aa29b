import Mathlib

/-!
# Prefixes of bit vectors

A block of `2^h` words is the words that share the bits above the lowest `h`:
`x` and `b` are in one block when `x / 2^h = b / 2^h`. `topMask w h` is the mask
of those bits, so that masking with it is rounding down to a multiple of `2^h`
(`toNat_and_topMask`) and comparing under it is asking for one block
(`and_topMask_eq_iff`).
-/

namespace Fleetboard

/-- The mask of the bits of a word above its lowest `h`. -/
def topMask (w h : Nat) : BitVec w := BitVec.allOnes w <<< h

theorem toNat_and_topMask {w : Nat} (x : BitVec w) (h : Nat) :
    (x &&& topMask w h).toNat = x.toNat / 2 ^ h * 2 ^ h := by
  have e : x &&& topMask w h = (x >>> h) <<< h := by
    ext i hi
    simp only [topMask, BitVec.getElem_and, BitVec.getElem_shiftLeft, BitVec.getElem_ushiftRight]
    by_cases hi' : i < h
    · simp [hi']
    · simp [hi', show h + (i - h) = i by omega, BitVec.getLsbD_eq_getElem hi]
  rw [e, BitVec.toNat_shiftLeft, BitVec.toNat_ushiftRight, Nat.shiftRight_eq_div_pow,
    Nat.shiftLeft_eq]
  exact Nat.mod_eq_of_lt (Nat.lt_of_le_of_lt (Nat.div_mul_le_self _ _) x.isLt)

theorem and_topMask_eq_iff {w : Nat} {x y : BitVec w} {h : Nat} :
    x &&& topMask w h = y &&& topMask w h ↔ x.toNat / 2 ^ h = y.toNat / 2 ^ h := by
  rw [← BitVec.toNat_inj, toNat_and_topMask, toNat_and_topMask]
  exact Nat.mul_left_inj (Nat.pos_iff_ne_zero.mp (Nat.two_pow_pos h))

/-- Words in one block are in one block of any larger size. -/
theorem div_pow_mono {x y h h' : Nat} (hh : h ≤ h') (e : x / 2 ^ h = y / 2 ^ h) :
    x / 2 ^ h' = y / 2 ^ h' := by
  obtain ⟨d, rfl⟩ := Nat.exists_eq_add_of_le hh
  rw [Nat.pow_add, ← Nat.div_div_eq_div_mul, ← Nat.div_div_eq_div_mul, e]

end Fleetboard
