import Marina.Lib.LinearProbing
import Marina.Structs

/-!
# Index arithmetic of the hash tables

The macros `POSITIVE_MODULO`, `HASH2INDEX` and `CAN_MOVE_ITEM_TO_CURRENT_EMPTY` that
the three hash tables share. Every table size is a power of two, so `POSITIVE_MODULO`
is the mask of a 32-bit word; on the positions of a table it is the modulus, and the
move test compares forward distances.
-/

namespace Marina

open Lib.Cyclic (ahead)
open Lib.LinearProbing (Layout)

/-- `POSITIVE_MODULO(x)` of a table of `size` slots: the low bits of the 32-bit word
of `x`. -/
def positiveModulo (size : Nat) (x : Int) : Nat :=
  (BitVec.ofInt 32 x &&& BitVec.ofNat 32 (size - 1)).toNat

/-- `HASH2INDEX(hash)`. -/
def hash2Index (size : Nat) (hash : UInt32) : Nat := positiveModulo size hash.toNat

/-- `CAN_MOVE_ITEM_TO_CURRENT_EMPTY(item_desired_index, current_empty, item_index)`. -/
def canMoveItemToCurrentEmpty (size itemDesiredIndex currentEmpty itemIndex : Nat) : Bool :=
  positiveModulo size (itemIndex - itemDesiredIndex) >
    positiveModulo size (currentEmpty - itemDesiredIndex)

theorem positiveModulo_eq {bits : Nat} (narrow : bits ≤ 31) (x : Int) :
    positiveModulo (2 ^ bits) x = (x % (2 ^ bits : Nat)).toNat := by
  have mask : 2 ^ bits - 1 < 2 ^ 32 := by
    have bound := Nat.pow_le_pow_right (n := 2) (by omega) narrow
    have top : (2 : Nat) ^ 31 < 2 ^ 32 := by norm_num
    omega
  have divides : ((2 ^ bits : Nat) : Int) ∣ ((2 ^ 32 : Nat) : Int) := by
    exact_mod_cast pow_dvd_pow 2 (by omega : bits ≤ 32)
  have nonneg : 0 ≤ x % ((2 ^ 32 : Nat) : Int) := Int.emod_nonneg _ (by norm_num)
  unfold positiveModulo
  rw [BitVec.toNat_and, BitVec.toNat_ofInt, BitVec.toNat_ofNat, Nat.mod_eq_of_lt mask,
    Nat.and_two_pow_sub_one_eq_mod, ← Int.emod_emod_of_dvd x divides,
    Int.toNat_emod nonneg (Int.natCast_nonneg _), Int.toNat_natCast]

theorem positiveModulo_lt {bits : Nat} (narrow : bits ≤ 31) (x : Int) :
    positiveModulo (2 ^ bits) x < 2 ^ bits := by
  have positive : (0 : Int) < ((2 ^ bits : Nat) : Int) := by positivity
  have bound := Int.emod_lt_of_pos x positive
  have nonneg := Int.emod_nonneg x positive.ne'
  rw [positiveModulo_eq narrow]
  omega

/-- On table positions, the macro's difference is the forward distance. -/
theorem positiveModulo_sub {bits a b : Nat} (narrow : bits ≤ 31) (ha : a < 2 ^ bits) :
    positiveModulo (2 ^ bits) ((b : Int) - (a : Int)) = ahead (2 ^ bits) a b := by
  rw [positiveModulo_eq narrow]
  unfold ahead
  have shifted : ((b + 2 ^ bits - a : Nat) : Int) = (b : Int) - a + ((2 ^ bits : Nat) : Int) := by
    omega
  have wrapped : ((b : Int) - a) % ((2 ^ bits : Nat) : Int) =
      (((b + 2 ^ bits - a) % 2 ^ bits : Nat) : Int) := by
    rw [Int.natCast_emod, shifted, Int.add_emod_right]
  rw [wrapped, Int.toNat_natCast]

/-- The index bits of the flow and the session table. -/
theorem hashBits_narrow : 23 ≤ 31 := by norm_num

/-- The layout of a table of `size = 2 ^ bits` slots that compares `part` of its keys
and hashes it with `hash`. -/
def tableLayout {K κ : Type} (size bits : Nat) (narrow : bits ≤ 31) (power : size = 2 ^ bits)
    (part : K → κ) (hash : κ → UInt32) : Layout K κ UInt32 where
  size := size
  part := part
  hash := hash
  home := hash2Index size
  home_lt h := by
    subst power
    exact positiveModulo_lt narrow _
  canMove := canMoveItemToCurrentEmpty size
  canMove_iff := by
    intro desired empty item hdesired _ _
    subst power
    unfold canMoveItemToCurrentEmpty
    rw [decide_eq_true_iff, positiveModulo_sub narrow hdesired, positiveModulo_sub narrow hdesired]

end Marina
