import Marina.Lib.PrefixMatch

/-!
# The logarithm match table

`create_static_tables.py` computes the entries with which the switch looks up logarithms
of packet sizes and of gaps between packets, and `prepare_dataplane` installs them as
longest-prefix entries. The entries of one leading bit cover one octave
(`countP_computeSquareTableIteratio`), and the octaves lie side by side, so each number
but zero has its one entry, the one that averaged over it.

The accuracy starts at one: the source's `repeat` argument is negative otherwise and the
call fails.
-/

namespace Marina

open Lib

/-! ## The table -/

/-- `basetwo`. -/
def basetwo (bits : List Bool) : Nat := BitString.value bits

/-- `numpy.arange`. -/
def arange (start stop : Nat) : List Nat := List.range' start (stop - start)

/-- One tuple of `square_table_type`. -/
structure SquareRow where
  bitmatch : List Bool
  matchValue : Nat
  prefixLength : Nat
  value : Nat
  square : Nat
  cube : Nat
deriving DecidableEq, Repr

/-- What the loop of `_compute_square_table_iteratio` computes before it averages. -/
structure SquareRange where
  bitmatch : List Bool
  mask : Nat
  matchValue : Nat
  minLog : Nat
  maxLog : Nat
deriving DecidableEq, Repr

def squareRange (N n m : Nat) (permutation : List Bool) : SquareRange :=
  let bitmatch := List.replicate n false ++ [true] ++ permutation
  -- The subtraction stops at zero, as the source's `max` does.
  let mask := N - n - m
  { bitmatch := bitmatch
    mask := mask
    matchValue := basetwo bitmatch <<< mask
    minLog := basetwo (bitmatch ++ List.replicate mask false)
    maxLog := basetwo (bitmatch ++ List.replicate mask true) }

/-- The turns of the loop of `_compute_square_table_iteratio`. -/
def squareRanges (N n m : Nat) : List SquareRange :=
  (BitString.ofLength (min (m - 1) (N - n - 1))).map (squareRange N n m)

section Table

/- `roundedLogMean power values` is the mean of the powers of the logarithms to base two of
`values`, as `numpy` computes it, rounded. -/
variable (roundedLogMean : Nat → List Nat → Nat)

def squareRow (N : Nat) (range : SquareRange) : SquareRow :=
  let values := arange range.minLog (range.maxLog + 1)
  { bitmatch := range.bitmatch
    matchValue := range.matchValue
    prefixLength := N - range.mask
    value := roundedLogMean 1 values
    square := roundedLogMean 2 values
    cube := roundedLogMean 3 values }

/-- `_compute_square_table_iteratio`. -/
def computeSquareTableIteratio (N n m : Nat) : List SquareRow :=
  (squareRanges N n m).map (squareRow roundedLogMean N)

/-- `compute_square_table`. -/
def computeSquareTable (bitsIn accuracy : Nat) : List SquareRow :=
  (List.range bitsIn).flatMap fun n => computeSquareTableIteratio roundedLogMean bitsIn n accuracy

end Table

/-- The match specification that `prepare_dataplane` makes of a row. -/
def SquareRow.matchSpec (row : SquareRow) : PrefixEntry :=
  { value := row.matchValue, length := row.prefixLength }

/-! ## One row -/

section Row

variable (roundedLogMean : Nat → List Nat → Nat) {N n m : Nat}

/-- The compared and the free bits of a row are the bits of the key. On either side of
`N - n = m` one of the two clipped expressions makes up for the other. -/
theorem squareRange_width {permutation : List Bool} (leading : n < N) (accurate : 1 ≤ m)
    (member : permutation ∈ BitString.ofLength (min (m - 1) (N - n - 1))) :
    (squareRange N n m permutation).bitmatch.length + (N - n - m) = N := by
  have width := BitString.length_of_mem_ofLength member
  simp only [squareRange, List.length_append, List.length_replicate, List.length_singleton]
  omega

theorem basetwo_bitmatch (permutation : List Bool) :
    basetwo (squareRange N n m permutation).bitmatch
      = 2 ^ permutation.length + BitString.value permutation := by
  simp only [basetwo, squareRange, BitString.value_append, BitString.value_zeros,
    BitString.value_cons, BitString.value_nil, Bool.toNat_true, List.length_nil]
  ring

/-- A row is the prefix entry of its bits. -/
theorem matchSpec_squareRow {permutation : List Bool}
    (width : (squareRange N n m permutation).bitmatch.length + (N - n - m) = N) :
    (squareRow roundedLogMean N (squareRange N n m permutation)).matchSpec
      = PrefixEntry.ofBits (squareRange N n m permutation).bitmatch (N - n - m) := by
  have length : N - (N - n - m) = (squareRange N n m permutation).bitmatch.length := by omega
  rw [PrefixEntry.ofBits, ← length]
  rfl

/-- The turns of a loop are as wide as the key. -/
theorem of_mem_squareRanges {range : SquareRange} (leading : n < N) (accurate : 1 ≤ m)
    (member : range ∈ squareRanges N n m) :
    ∃ permutation, range = squareRange N n m permutation
      ∧ (squareRange N n m permutation).bitmatch.length + (N - n - m) = N := by
  obtain ⟨permutation, permutationMember, rfl⟩ := List.mem_map.mp member
  exact ⟨permutation, rfl, squareRange_width leading accurate permutationMember⟩

/-- A row matches exactly the numbers that it averages over. -/
theorem matches_squareRow_iff {range : SquareRange} (leading : n < N) (accurate : 1 ≤ m)
    (member : range ∈ squareRanges N n m) (x : Nat) :
    (squareRow roundedLogMean N range).matchSpec.Matches N x
      ↔ range.minLog ≤ x ∧ x ≤ range.maxLog := by
  obtain ⟨permutation, rfl, width⟩ := of_mem_squareRanges leading accurate member
  rw [matchSpec_squareRow roundedLogMean width]
  have between := PrefixEntry.matches_ofBits_iff (squareRange N n m permutation).bitmatch
    (N - n - m) x
  rw [width] at between
  exact between

/-- The match value of a row has the width of the key and no bits below its prefix. -/
theorem squareRow_wellFormed {range : SquareRange} (leading : n < N) (accurate : 1 ≤ m)
    (member : range ∈ squareRanges N n m) :
    (squareRow roundedLogMean N range).prefixLength ≤ N
      ∧ (squareRow roundedLogMean N range).matchValue < 2 ^ N
      ∧ 2 ^ (N - (squareRow roundedLogMean N range).prefixLength)
        ∣ (squareRow roundedLogMean N range).matchValue := by
  obtain ⟨permutation, rfl, width⟩ := of_mem_squareRanges leading accurate member
  have entry := matchSpec_squareRow roundedLogMean width
  have value := congrArg PrefixEntry.value entry
  have free : N - (N - (N - n - m)) = N - n - m := by omega
  refine ⟨Nat.sub_le _ _, ?_, ?_⟩
  · have bound := PrefixEntry.ofBits_value_lt (squareRange N n m permutation).bitmatch (N - n - m)
    rw [width, ← value] at bound
    exact bound
  · change 2 ^ (N - (N - (N - n - m))) ∣ basetwo _ <<< (N - n - m)
    rw [free, Nat.shiftLeft_eq]
    exact Nat.dvd_mul_left _ _

end Row

/-! ## The whole table -/

section Cover

variable (roundedLogMean : Nat → List Nat → Nat) {N m : Nat}

/-- The rows with `n` leading zeros match the numbers whose highest bit is the one behind
them, each number once. -/
theorem countP_computeSquareTableIteratio {n : Nat} (leading : n < N) (accurate : 1 ≤ m)
    (x : Nat) :
    (computeSquareTableIteratio roundedLogMean N n m).countP (fun row => row.matchSpec.Matches N x)
      = if 2 ^ (N - (n + 1)) ≤ x ∧ x < 2 ^ (N - n) then 1 else 0 := by
  let k := min (m - 1) (N - n - 1)
  let mask := N - n - m
  -- The permuted bits and the free ones are all that is left behind the leading one.
  have low : k + mask = N - (n + 1) := by omega
  have high : k + 1 + mask = N - n := by omega
  have rows : (computeSquareTableIteratio roundedLogMean N n m).countP
      (fun row => row.matchSpec.Matches N x)
      = (BitString.ofLength k).countP (fun bits => x / 2 ^ mask = 2 ^ k + BitString.value bits) := by
    rw [computeSquareTableIteratio, squareRanges, List.countP_map, List.countP_map]
    apply List.countP_congr
    intro bits member
    have width := squareRange_width leading accurate member
    have matched := PrefixEntry.matches_ofBits (squareRange N n m bits).bitmatch mask x
    rw [width, ← matchSpec_squareRow roundedLogMean width] at matched
    simp only [Function.comp_apply, decide_eq_true_iff]
    rw [matched, ← basetwo, basetwo_bitmatch, BitString.length_of_mem_ofLength member]
  have lower : 2 ^ k ≤ x / 2 ^ mask ↔ 2 ^ (N - (n + 1)) ≤ x := by
    rw [Nat.le_div_iff_mul_le (Nat.two_pow_pos mask), ← Nat.pow_add, low]
  have upper : x / 2 ^ mask < 2 ^ (k + 1) ↔ x < 2 ^ (N - n) := by
    rw [Nat.div_lt_iff_lt_mul (Nat.two_pow_pos mask), ← Nat.pow_add, high]
  rw [rows, BitString.countP_value_ofLength]
  simp only [lower, upper]

/-- The octaves lie side by side. -/
theorem countP_computeSquareTable (accurate : 1 ≤ m) (x : Nat) :
    (computeSquareTable roundedLogMean N m).countP (fun row => row.matchSpec.Matches N x)
      = if 1 ≤ x ∧ x < 2 ^ N then 1 else 0 := by
  have descending : Antitone fun n => 2 ^ (N - n) := by
    intro n later before
    exact Nat.pow_le_pow_right Nat.two_pos (Nat.sub_le_sub_left before N)
  have ladder := sum_ladder descending x N
  rw [Nat.sub_self, Nat.pow_zero, Nat.sub_zero] at ladder
  rw [computeSquareTable, List.countP_flatMap, ← ladder]
  congr 1
  apply List.map_congr_left
  intro n member
  exact countP_computeSquareTableIteratio roundedLogMean (List.mem_range.mp member) accurate x

/-- The table partitions the numbers but zero. -/
theorem computeSquareTable_partition (accurate : 1 ≤ m) :
    (∀ x, 1 ≤ x → x < 2 ^ N →
      (computeSquareTable roundedLogMean N m).countP (fun row => row.matchSpec.Matches N x) = 1)
    ∧ (computeSquareTable roundedLogMean N m).countP (fun row => row.matchSpec.Matches N 0) = 0
    ∧ (∀ row ∈ computeSquareTable roundedLogMean N m,
        row.prefixLength ≤ N ∧ row.matchValue < 2 ^ N
          ∧ 2 ^ (N - row.prefixLength) ∣ row.matchValue)
    ∧ ∀ n < N, ∀ range ∈ squareRanges N n m, ∀ x,
        (squareRow roundedLogMean N range).matchSpec.Matches N x
          ↔ range.minLog ≤ x ∧ x ≤ range.maxLog := by
  refine ⟨?_, ?_, ?_, ?_⟩
  · intro x positive below
    rw [countP_computeSquareTable roundedLogMean accurate, if_pos ⟨positive, below⟩]
  · rw [countP_computeSquareTable roundedLogMean accurate, if_neg (by omega)]
  · intro row member
    obtain ⟨n, leading, rowMember⟩ := List.mem_flatMap.mp member
    obtain ⟨range, rangeMember, rfl⟩ := List.mem_map.mp rowMember
    exact squareRow_wellFormed roundedLogMean (List.mem_range.mp leading) accurate rangeMember
  · intro n leading range member x
    exact matches_squareRow_iff roundedLogMean leading accurate member x

end Cover

/-- The rounded means over the ranges of the table for three bits. -/
def octalLogMean : Nat → List Nat → Nat
  | 1, [2] => 1
  | 1, [3] => 2
  | 1, [4, 5] => 2
  | 1, [6, 7] => 3
  | 2, [2] => 1
  | 2, [3] => 3
  | 2, [4, 5] => 5
  | 2, [6, 7] => 7
  | 3, [2] => 1
  | 3, [3] => 4
  | 3, [4, 5] => 10
  | 3, [6, 7] => 20
  | _, _ => 0

theorem octalTable_partition :
    (computeSquareTable octalLogMean 3 2).map (fun row => (row.matchValue, row.prefixLength,
        row.value, row.square, row.cube))
      = [(4, 2, 2, 5, 10), (6, 2, 3, 7, 20), (2, 3, 1, 1, 1), (3, 3, 2, 3, 4), (1, 3, 0, 0, 0)]
    ∧ ∀ x, 1 ≤ x → x < 8 → (computeSquareTable octalLogMean 3 2).countP
        (fun row => row.matchSpec.Matches 3 x) = 1 :=
  ⟨by decide, (computeSquareTable_partition octalLogMean (N := 3) (m := 2) (by decide)).1⟩

end Marina
