import Mathlib.Data.Nat.ModEq
import Mathlib.Logic.Function.Basic

/-!
# Steps of a mixing function

Words of any width, xor-ed with themselves shifted right or multiplied by an
odd constant: neither step maps two words to one. A shifted difference is
smaller than the difference unless that is zero, and an odd factor has nothing
in common with the power of two that products are reduced by.
-/

namespace UempPlugin.Lib

variable {w : Nat}

theorem eq_zero_of_shift {d : BitVec w} {k : Nat} (hk : 0 < k) (h : d = d >>> k) :
    d = 0#w := by
  have hnat := congrArg BitVec.toNat h
  rw [BitVec.toNat_ushiftRight, Nat.shiftRight_eq_div_pow] at hnat
  rcases Nat.eq_zero_or_pos d.toNat with hzero | hpos
  · exact BitVec.eq_of_toNat_eq hzero
  · have hlt := Nat.div_lt_self hpos (Nat.one_lt_two_pow (Nat.pos_iff_ne_zero.1 hk))
    exact absurd hnat (Nat.ne_of_gt hlt)

theorem xorShift_injective {k : Nat} (hk : 0 < k) :
    Function.Injective fun z : BitVec w => z ^^^ z >>> k := by
  intro x y hxy
  have hword : x ^^^ x >>> k = y ^^^ y >>> k := hxy
  have hdiff : x ^^^ y = (x ^^^ y) >>> k := by
    rw [BitVec.ushiftRight_xor_distrib]
    calc x ^^^ y = (x ^^^ x >>> k) ^^^ (x >>> k ^^^ y) := by
          rw [BitVec.xor_assoc, ← BitVec.xor_assoc (x >>> k), BitVec.xor_self, BitVec.zero_xor]
      _ = (y ^^^ y >>> k) ^^^ (x >>> k ^^^ y) := by rw [hword]
      _ = x >>> k ^^^ y >>> k := by
          rw [BitVec.xor_comm (x >>> k) y, BitVec.xor_comm y, BitVec.xor_assoc,
            ← BitVec.xor_assoc y y, BitVec.xor_self, BitVec.zero_xor, BitVec.xor_comm]
  have hzero := eq_zero_of_shift hk hdiff
  exact BitVec.xor_eq_zero_iff.1 hzero

theorem mulOdd_injective {c : BitVec w} (hc : c.toNat % 2 = 1) :
    Function.Injective fun z : BitVec w => z * c := by
  intro x y hxy
  have hcoprime : Nat.gcd (2 ^ w) c.toNat = 1 := by
    refine Nat.Coprime.pow_left w ?_
    rw [Nat.Coprime, Nat.gcd_rec, hc, Nat.gcd_one_left]
  have hnat := congrArg BitVec.toNat hxy
  simp only [BitVec.toNat_mul] at hnat
  have hmod : x.toNat ≡ y.toNat [MOD 2 ^ w] := Nat.ModEq.cancel_right_of_coprime hcoprime hnat
  exact BitVec.eq_of_toNat_eq (hmod.eq_of_lt_of_lt x.isLt y.isLt)

end UempPlugin.Lib
