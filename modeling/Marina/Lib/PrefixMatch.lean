import Mathlib

/-!
# Bit strings and prefix entries

A bit string is written with its most significant bit first, as a match pattern is. The
strings of one length count through the numbers below a power of two (`map_value_ofLength`).
A prefix entry fixes the upper bits of a key of some width; the entry that is made of a
bit string matches the numbers between the string filled up with zeros and the string
filled up with ones (`PrefixEntry.matches_ofBits_iff`).
-/

namespace Marina.Lib

namespace BitString

/-! ## The number a string stands for -/

def value (bits : List Bool) : Nat := bits.foldl (fun acc bit => 2 * acc + bit.toNat) 0

@[simp] theorem value_nil : value [] = 0 := rfl

theorem foldl_eq (bits : List Bool) :
    ∀ acc, bits.foldl (fun acc bit => 2 * acc + bit.toNat) acc
      = acc * 2 ^ bits.length + value bits := by
  induction bits with
  | nil =>
      intro acc
      simp
  | cons bit bits ih =>
      intro acc
      rw [value, List.foldl_cons, List.foldl_cons, ih, ih (2 * 0 + bit.toNat), List.length_cons]
      ring

theorem value_append (high low : List Bool) :
    value (high ++ low) = value high * 2 ^ low.length + value low := by
  rw [value, List.foldl_append, foldl_eq low]
  rfl

theorem value_cons (bit : Bool) (bits : List Bool) :
    value (bit :: bits) = bit.toNat * 2 ^ bits.length + value bits := by
  rw [value, List.foldl_cons, foldl_eq, Nat.mul_zero, Nat.zero_add]

theorem value_lt (bits : List Bool) : value bits < 2 ^ bits.length := by
  induction bits with
  | nil => exact Nat.one_pos
  | cons bit bits ih =>
      rw [value_cons, List.length_cons, Nat.pow_succ]
      cases bit
      · rw [Bool.toNat_false]
        omega
      · rw [Bool.toNat_true]
        omega

@[simp] theorem value_zeros (k : Nat) : value (List.replicate k false) = 0 := by
  induction k with
  | zero => rfl
  | succ k ih => rw [List.replicate_succ, value_cons, ih, Bool.toNat_false, Nat.zero_mul]

theorem value_ones (k : Nat) : value (List.replicate k true) + 1 = 2 ^ k := by
  induction k with
  | zero => rfl
  | succ k ih =>
      rw [List.replicate_succ, value_cons, List.length_replicate, Bool.toNat_true, Nat.pow_succ]
      omega

/-! ## The strings of one length -/

/-- The strings of length `k`, in the order of the numbers they stand for. -/
def ofLength : Nat → List (List Bool)
  | 0 => [[]]
  | k + 1 => (ofLength k).map (false :: ·) ++ (ofLength k).map (true :: ·)

theorem length_of_mem_ofLength {k : Nat} :
    ∀ {bits : List Bool}, bits ∈ ofLength k → bits.length = k := by
  induction k with
  | zero =>
      intro bits member
      rw [ofLength, List.mem_singleton] at member
      rw [member, List.length_nil]
  | succ k ih =>
      intro bits member
      rw [ofLength, List.mem_append, List.mem_map, List.mem_map] at member
      obtain ⟨tail, tailMember, rfl⟩ | ⟨tail, tailMember, rfl⟩ := member
      · rw [List.length_cons, ih tailMember]
      · rw [List.length_cons, ih tailMember]

/-- The strings of length `k` behind one bit: the second half of the numbers if it is set. -/
theorem map_value_cons_ofLength (bit : Bool) (k : Nat) :
    ((ofLength k).map (bit :: ·)).map value
      = ((ofLength k).map value).map (bit.toNat * 2 ^ k + ·) := by
  rw [List.map_map, List.map_map]
  apply List.map_congr_left
  intro bits member
  change value (bit :: bits) = bit.toNat * 2 ^ k + value bits
  rw [value_cons, length_of_mem_ofLength member]

/-- Every number below `2 ^ k` is the value of one string of length `k`. -/
theorem map_value_ofLength (k : Nat) : (ofLength k).map value = List.range (2 ^ k) := by
  induction k with
  | zero => rfl
  | succ k ih =>
      rw [ofLength, List.map_append, map_value_cons_ofLength, map_value_cons_ofLength, ih,
        Nat.pow_succ, Nat.mul_two, List.range_add]
      simp

/-- How often a number is the value of a string of length `k` behind a set bit. -/
theorem countP_value_ofLength (k y : Nat) :
    (ofLength k).countP (fun bits => y = 2 ^ k + value bits)
      = if 2 ^ k ≤ y ∧ y < 2 ^ (k + 1) then 1 else 0 := by
  have shifted : (ofLength k).map (fun bits => 2 ^ k + value bits)
      = List.range' (2 ^ k) (2 ^ k) := by
    rw [List.range'_eq_map_range, ← map_value_ofLength, List.map_map]
    rfl
  have counted := List.count_range_1' (a := y) (s := 2 ^ k) (n := 2 ^ k)
  rw [← shifted, List.count, List.countP_map, ← Nat.mul_two, ← Nat.pow_succ] at counted
  rw [← counted]
  apply List.countP_congr
  intro bits _
  rw [decide_eq_true_iff, Function.comp_apply, beq_iff_eq, eq_comm]

end BitString

/-! ## Prefix entries -/

/-- An entry of a longest-prefix table: the first `length` bits of `value` are compared. -/
structure PrefixEntry where
  value : Nat
  length : Nat
deriving DecidableEq, Repr

namespace PrefixEntry

/-- The entry matches a key of `width` bits: both agree once the bits below the compared
ones are shifted out. -/
def Matches (width : Nat) (entry : PrefixEntry) (key : Nat) : Prop :=
  key >>> (width - entry.length) = entry.value >>> (width - entry.length)

instance (width : Nat) (entry : PrefixEntry) (key : Nat) :
    Decidable (entry.Matches width key) :=
  inferInstanceAs (Decidable (_ = _))

/-- The entry that compares `bits`, with `free` bits below them. -/
def ofBits (bits : List Bool) (free : Nat) : PrefixEntry :=
  { value := BitString.value bits <<< free, length := bits.length }

variable (bits : List Bool) (free : Nat)

theorem ofBits_value_lt : (ofBits bits free).value < 2 ^ (bits.length + free) := by
  rw [ofBits, Nat.shiftLeft_eq, Nat.pow_add]
  exact Nat.mul_lt_mul_of_pos_right (BitString.value_lt bits) (Nat.two_pow_pos free)

theorem matches_ofBits (key : Nat) :
    (ofBits bits free).Matches (bits.length + free) key
      ↔ key / 2 ^ free = BitString.value bits := by
  rw [Matches, ofBits, Nat.add_sub_cancel_left, Nat.shiftLeft_shiftRight, Nat.shiftRight_eq_div_pow]

/-- The entry matches exactly what lies between its string filled up with zeros and its
string filled up with ones. -/
theorem matches_ofBits_iff (key : Nat) :
    (ofBits bits free).Matches (bits.length + free) key
      ↔ BitString.value (bits ++ List.replicate free false) ≤ key
        ∧ key ≤ BitString.value (bits ++ List.replicate free true) := by
  have ones := BitString.value_ones free
  have positive := Nat.two_pow_pos free
  rw [matches_ofBits, BitString.value_append, BitString.value_append, List.length_replicate,
    List.length_replicate, BitString.value_zeros, Nat.div_eq_iff positive]
  omega

end PrefixEntry

/-! ## Adjoining ranges -/

/-- A key lies in one of the ranges between the steps of a descending ladder when it lies
between the ladder's ends, and then in no two of them. -/
theorem sum_ladder {bound : Nat → Nat} (descending : Antitone bound) (key count : Nat) :
    ((List.range count).map fun i => if bound (i + 1) ≤ key ∧ key < bound i then 1 else 0).sum
      = if bound count ≤ key ∧ key < bound 0 then 1 else 0 := by
  induction count with
  | zero =>
      rw [List.range_zero, List.map_nil, List.sum_nil, if_neg]
      omega
  | succ count ih =>
      have next : bound (count + 1) ≤ bound count := descending (Nat.le_succ count)
      have first : bound count ≤ bound 0 := descending (Nat.zero_le count)
      rw [List.range_succ, List.map_append, List.sum_append, ih, List.map_singleton,
        List.sum_singleton]
      split <;> split <;> split <;> omega

end Marina.Lib
