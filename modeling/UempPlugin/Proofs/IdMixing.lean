import Mathlib.Data.FinEnum
import UempPlugin.Lib.Mixing
import UempPlugin.Proofs.CallbackIds

/-!
# Two ids are the same only through the reduction

`mix64` loses nothing: it adds a constant, xors with shifts and multiplies by
odd constants, so it is a permutation of the 64-bit words. The eight digits
lose nothing of a number below 62^8 either. What is left between what is mixed
and the id is the remainder modulo 62^8.
-/

namespace UempPlugin.Ref.Id8Generator

open UempPlugin.Lib

/-- The id that `operator()` makes of the word it mixes. -/
def idOf (x : UInt64) : String := String.ofList (fill len (mix64 x % maxVal) [])

theorem generate_eq_idOf (pid : UInt32) (counter : UInt64) (now : Int64) :
    generate pid counter now = idOf (seed pid counter now) := rfl

/-! ## `mix64` -/

theorem xorShift_cancel {x y k : UInt64} (hk : 0 < k.toNat % 64)
    (h : x ^^^ x >>> k = y ^^^ y >>> k) : x = y := by
  have hbits := congrArg UInt64.toBitVec h
  simp only [UInt64.toBitVec_xor, UInt64.toBitVec_shiftRight] at hbits
  refine UInt64.toBitVec_inj.1 (xorShift_injective (k := k.toNat % 64) hk ?_)
  exact hbits

theorem mulOdd_cancel {x y c : UInt64} (hc : c.toNat % 2 = 1) (h : x * c = y * c) : x = y := by
  have hbits := congrArg UInt64.toBitVec h
  rw [UInt64.toBitVec_mul, UInt64.toBitVec_mul] at hbits
  exact UInt64.toBitVec_inj.1 (mulOdd_injective hc hbits)

theorem mix64_injective : Function.Injective mix64 := by
  intro x y h
  -- the steps are undone from the last to the first
  have h2 := mulOdd_cancel (by decide) (xorShift_cancel (by decide) h)
  have h1 := mulOdd_cancel (by decide) (xorShift_cancel (by decide) h2)
  exact (UInt64.add_left_inj _).1 (xorShift_cancel (by decide) h1)

theorem mix64_bijective : Function.Bijective mix64 :=
  Finite.injective_iff_bijective.1 mix64_injective

/-! ## The reduction and the digits -/

/-- No power that the constant is computed through wraps around. -/
theorem pow62_toNat {n : Nat} (hn : n ≤ len) : (pow62 n).toNat = 62 ^ n := by
  induction n with
  | zero => rfl
  | succ n ih =>
      have hfits : 62 ^ n * 62 < 2 ^ 64 :=
        calc 62 ^ n * 62 = 62 ^ (n + 1) := (Nat.pow_succ ..).symm
          _ ≤ 62 ^ len := Nat.pow_le_pow_right (by decide) hn
          _ < 2 ^ 64 := by decide
      rw [pow62, UInt64.toNat_mul, ih (Nat.le_of_succ_le hn), Nat.pow_succ]
      exact Nat.mod_eq_of_lt hfits

theorem length_fill (n : Nat) (val : UInt64) (s : List Char) :
    (fill n val s).length = n + s.length := by
  induction n generalizing val s with
  | zero => rw [fill, Nat.zero_add]
  | succ n ih => rw [fill, ih, List.length_cons, Nat.succ_add, Nat.add_succ]

theorem toNat_reduced (x : UInt64) : (mix64 x % maxVal).toNat = (mix64 x).toNat % 62 ^ len := by
  rw [UInt64.toNat_mod, maxVal_toNat]

theorem idOf_eq_iff {x y : UInt64} :
    idOf x = idOf y ↔ (mix64 x).toNat ≡ (mix64 y).toNat [MOD 62 ^ len] := by
  rw [idOf, idOf, fill_eq_iff (reduced_lt _) (reduced_lt _), ← UInt64.toNat_inj, toNat_reduced,
    toNat_reduced, Nat.ModEq]

/-- `mix64` permutes the 64-bit words, the modulus does not overflow on the way
to it, and the digits of a number below it read back as that number. So two
words have one id exactly when they are congruent mixed, and mixed equal they
are equal. -/
theorem idOf_collisions :
    Function.Bijective mix64 ∧
      ((∀ n ≤ len, (pow62 n).toNat = 62 ^ n) ∧ pow62 8 = maxVal ∧ 62 ^ 8 < 2 ^ 64) ∧
      (∀ val : UInt64, val.toNat < 62 ^ 8 →
        (fill len val []).length = 8 ∧ decode 0 (fill len val []) = val.toNat) ∧
      (∀ (pid : UInt32) (counter : UInt64) (now : Int64),
        generate pid counter now = idOf (seed pid counter now)) ∧
      (∀ x y : UInt64, idOf x = idOf y ↔ (mix64 x).toNat ≡ (mix64 y).toNat [MOD 62 ^ 8]) ∧
      ∀ x y : UInt64, mix64 x = mix64 y → x = y := by
  refine ⟨mix64_bijective, ⟨fun n => pow62_toNat, rfl, by decide⟩, fun val hval => ?_,
    generate_eq_idOf, fun x y => idOf_eq_iff, fun x y h => mix64_injective h⟩
  rw [length_fill, decode_fill len val [] hval]
  exact ⟨rfl, rfl⟩

end UempPlugin.Ref.Id8Generator
