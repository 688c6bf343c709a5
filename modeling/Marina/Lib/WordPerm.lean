import Mathlib

/-!
# Steps that lose no bits of a word

Hash functions mix a word by multiplying it with an odd number, by rotating it, and by
adding a shifted copy of it without carries. None of these steps maps two words to one, so
a chain of them is a permutation of the words.
-/

namespace Marina.Lib

open Function (Injective)

namespace WordPerm

variable {w : Nat}

theorem mul_injective {factor inverse : BitVec w} (unit : factor * inverse = 1#w) :
    Injective fun x : BitVec w => x * factor := by
  intro x y same
  have undone := congrArg (· * inverse) same
  dsimp only at undone
  rwa [BitVec.mul_assoc, BitVec.mul_assoc, unit, BitVec.mul_one, BitVec.mul_one] at undone

/-- Each bit of the word is at one place of the rotated word. -/
theorem rotate_injective {r : Nat} (small : r < w) :
    Injective fun x : BitVec w => x <<< r ||| x >>> (w - r) := by
  intro x y same
  refine BitVec.eq_of_getLsbD_eq fun i inside => ?_
  have bits := fun j => congrArg (fun z : BitVec w => z.getLsbD j) same
  simp only [BitVec.getLsbD_or, BitVec.getLsbD_shiftLeft, BitVec.getLsbD_ushiftRight] at bits
  rcases Nat.lt_or_ge (i + r) w with low | high
  · have moved := bits (i + r)
    have gone : w ≤ w - r + (i + r) := by omega
    have back : i + r - r = i := by omega
    simpa [low, gone, back, BitVec.getLsbD_of_ge] using moved
  · have moved := bits (i + r - w)
    have wrapped : i + r - w < r := by omega
    have back : w - r + (i + r - w) = i := by omega
    simpa [wrapped, back] using moved

/-- The highest bits are as they were, and each bit is recovered from the higher ones. -/
theorem xorShiftRight_injective {s : Nat} (positive : 0 < s) :
    Injective fun x : BitVec w => x ^^^ x >>> s := by
  intro x y same
  have bits := fun j => congrArg (fun z : BitVec w => z.getLsbD j) same
  simp only [BitVec.getLsbD_xor, BitVec.getLsbD_ushiftRight] at bits
  have recovered : ∀ k i, w ≤ i + k → x.getLsbD i = y.getLsbD i := by
    intro k
    induction k with
    | zero =>
        intro i beyond
        rw [Nat.add_zero] at beyond
        rw [BitVec.getLsbD_of_ge _ _ beyond, BitVec.getLsbD_of_ge _ _ beyond]
    | succ k ih =>
        intro i within
        have higher := ih (s + i) (by omega)
        have here := bits i
        rw [higher] at here
        exact Bool.xor_left_inj.mp here
  exact BitVec.eq_of_getLsbD_eq fun i _ => recovered w i (Nat.le_add_left w i)

end WordPerm

end Marina.Lib
