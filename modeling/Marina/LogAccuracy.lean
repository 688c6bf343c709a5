import Marina.Lib.Mean
import Marina.Traffic

/-!
# The accuracy of the looked-up logarithms

What `iat_compute_log_table` and `compute_size_log_table` find for a number against the
powers of its logarithm to base two. `create_static_tables.py` gives a range of numbers the
mean over the range, rounded; the range of a number has `accuracy` leading bits in common
with it, so the mean is close. `numpy` and `round` are a parameter, of which it is only used
that over the ranges of the tables they are off by at most a half and some error of the floating
point (`RoundsLogMean`). Zero has no row and brings zeros, and here zero is its logarithm.

`lookupLog_close` bounds the error for one number, `packet_logs_accuracy` for what a packet
brings to `egress`, whose fields are narrower than the numbers in the tables, and `sums_close`
for what the registers add up.
-/

namespace Marina

open Lib

/-! ## One lookup -/

/-- The mean of the powers of the logarithms. -/
noncomputable def logMean (power : Nat) (values : List Nat) : ℝ :=
  mean (values.map fun value : Nat => Real.logb 2 value ^ power)

/-- The mean of the logarithms of a range, of their squares or of their cubes, is rounded to one
of the nearest integers, after the error of the floating point. -/
def RoundsLogMean (roundedLogMean : Nat → List Nat → Nat) (error : ℝ) : Prop :=
  ∀ power, 1 ≤ power → power ≤ 3 → ∀ low high, 1 ≤ low → low ≤ high → high < 2 ^ 32 →
    |(roundedLogMean power (arange low (high + 1)) : ℝ) - logMean power (arange low (high + 1))| ≤
      1 / 2 + error

/-- The bound for numbers of `bitsIn` bits. -/
noncomputable def logError (bitsIn accuracy power : Nat) (error : ℝ) : ℝ :=
  1 / 2 + error + power * bitsIn ^ (power - 1) * Real.logb 2 (1 + 1 / 2 ^ (accuracy - 1))

section Lookup

variable {roundedLogMean : Nat → List Nat → Nat} {error : ℝ} {N n m x : Nat} {range : SquareRange}

/-- A number but zero has its row. -/
theorem lookupLog_computeSquareTable (roundedLogMean : Nat → List Nat → Nat) (accurate : 1 ≤ m)
    (positive : 1 ≤ x) (below : x < 2 ^ N) :
    ∃ n < N, ∃ range ∈ squareRanges N n m,
      lookupLog (computeSquareTable roundedLogMean N m) N x =
        some (squareRow roundedLogMean N range) ∧ range.minLog ≤ x ∧ x ≤ range.maxLog := by
  have once := countP_computeSquareTable roundedLogMean (N := N) accurate x
  rw [if_pos ⟨positive, below⟩, List.countP_eq_length_filter] at once
  obtain ⟨row, found⟩ := List.length_eq_one_iff.mp once
  have member : row ∈ computeSquareTable roundedLogMean N m ∧ row.matchSpec.Matches N x := by
    have inside : row ∈ (computeSquareTable roundedLogMean N m).filter
        fun row => row.matchSpec.Matches N x := by
      rw [found]
      exact List.mem_singleton_self row
    simpa using inside
  obtain ⟨n, leading, rowMember⟩ := List.mem_flatMap.mp member.1
  obtain ⟨range, rangeMember, rfl⟩ := List.mem_map.mp rowMember
  rw [List.mem_range] at leading
  have bounds := (matches_squareRow_iff roundedLogMean leading accurate rangeMember x).mp member.2
  refine ⟨n, leading, range, rangeMember, ?_, bounds⟩
  unfold lookupLog
  rw [found]
  rfl

/-- Zero has none. -/
theorem lookupLog_zero (accurate : 1 ≤ m) :
    lookupLog (computeSquareTable roundedLogMean N m) N 0 = none := by
  have none_matches := countP_computeSquareTable roundedLogMean (N := N) accurate 0
  rw [if_neg (by omega), List.countP_eq_length_filter, List.length_eq_zero_iff] at none_matches
  unfold lookupLog
  rw [none_matches]
  rfl

/-- The ends of a range, from its bits. -/
theorem squareRange_bounds (member : range ∈ squareRanges N n m) :
    ∃ bits : List Bool, bits.length = min (m - 1) (N - n - 1) ∧
      range.minLog = (2 ^ bits.length + BitString.value bits) * 2 ^ (N - n - m) ∧
      range.maxLog + 1 = range.minLog + 2 ^ (N - n - m) := by
  obtain ⟨bits, bitsMember, rfl⟩ := List.mem_map.mp member
  have ones := BitString.value_ones (N - n - m)
  have bitmatch := basetwo_bitmatch (N := N) (n := n) (m := m) bits
  unfold basetwo at bitmatch
  refine ⟨bits, BitString.length_of_mem_ofLength bitsMember, ?_, ?_⟩
  · change BitString.value ((squareRange N n m bits).bitmatch ++ _) = _
    rw [BitString.value_append, bitmatch]
    simp
  · change BitString.value ((squareRange N n m bits).bitmatch ++ _) + 1 =
      BitString.value ((squareRange N n m bits).bitmatch ++ _) + _
    rw [BitString.value_append, BitString.value_append, List.length_replicate,
      List.length_replicate, BitString.value_zeros]
    omega

/-- The ends of a range are at least one, and have the leading bits in common. -/
theorem squareRange_narrow (accurate : 1 ≤ m) (leading : n < N)
    (member : range ∈ squareRanges N n m) :
    1 ≤ range.minLog ∧ range.minLog ≤ range.maxLog ∧ range.maxLog < 2 ^ N ∧
      2 ^ (m - 1) * range.maxLog ≤ (2 ^ (m - 1) + 1) * range.minLog := by
  obtain ⟨bits, width, low, high⟩ := squareRange_bounds member
  have value := BitString.value_lt bits
  have free := Nat.two_pow_pos (N - n - m)
  have octave : (2 ^ bits.length + BitString.value bits + 1) * 2 ^ (N - n - m) ≤ 2 ^ N := by
    calc (2 ^ bits.length + BitString.value bits + 1) * 2 ^ (N - n - m)
        ≤ 2 ^ (bits.length + 1) * 2 ^ (N - n - m) := by
          refine Nat.mul_le_mul_right _ ?_
          rw [pow_succ]
          omega
      _ = 2 ^ (bits.length + 1 + (N - n - m)) := (pow_add ..).symm
      _ ≤ 2 ^ N := Nat.pow_le_pow_right Nat.two_pos (by omega)
  have least : 2 ^ bits.length * 2 ^ (N - n - m) ≤ range.minLog := by
    rw [low]
    exact Nat.mul_le_mul_right _ (Nat.le_add_right _ _)
  refine ⟨?_, by omega, ?_, ?_⟩
  · exact (Nat.mul_pos (Nat.two_pow_pos _) free).trans_le least
  · rw [Nat.add_mul, ← low, Nat.one_mul] at octave
    omega
  · rcases Nat.eq_zero_or_pos (N - n - m) with single | wide
    · -- All bits are compared, and the range is one number.
      rw [single, pow_zero] at high
      have same : range.maxLog = range.minLog := by omega
      rw [same]
      exact Nat.mul_le_mul_right _ (Nat.le_succ _)
    · have leadingBits : bits.length = m - 1 := by omega
      rw [leadingBits] at least
      have top : range.maxLog ≤ range.minLog + 2 ^ (N - n - m) := by omega
      calc 2 ^ (m - 1) * range.maxLog
          ≤ 2 ^ (m - 1) * (range.minLog + 2 ^ (N - n - m)) := Nat.mul_le_mul_left _ top
        _ = 2 ^ (m - 1) * range.minLog + 2 ^ (m - 1) * 2 ^ (N - n - m) := Nat.mul_add ..
        _ ≤ 2 ^ (m - 1) * range.minLog + range.minLog := Nat.add_le_add_left least _
        _ = (2 ^ (m - 1) + 1) * range.minLog := by ring

/-- The rounded mean over a range is close to each number of the range. -/
theorem roundedLogMean_close (rounds : RoundsLogMean roundedLogMean error) (accurate : 1 ≤ m)
    (width : N ≤ 32) (leading : n < N) (member : range ∈ squareRanges N n m)
    (inside : range.minLog ≤ x ∧ x ≤ range.maxLog) {power : Nat} (least : 1 ≤ power)
    (most : power ≤ 3) :
    |(roundedLogMean power (arange range.minLog (range.maxLog + 1)) : ℝ) - Real.logb 2 x ^ power|
      ≤ logError N m power error := by
  obtain ⟨low_ge, ordered, below, narrow⟩ := squareRange_narrow accurate leading member
  have low_real : (1 : ℝ) ≤ range.minLog := Nat.one_le_cast.mpr low_ge
  have members : ∀ value ∈ arange range.minLog (range.maxLog + 1),
      range.minLog ≤ value ∧ value ≤ range.maxLog := by
    intro value valueMember
    have bounds := List.mem_range'_1.mp valueMember
    omega
  have nonempty : arange range.minLog (range.maxLog + 1) ≠ [] := by
    refine List.ne_nil_of_mem (a := range.minLog) ?_
    exact List.mem_range'_1.mpr (by omega)
  have between : ∀ value : Nat, range.minLog ≤ value ∧ value ≤ range.maxLog →
      Real.logb 2 range.minLog ^ power ≤ Real.logb 2 value ^ power ∧
        Real.logb 2 value ^ power ≤ Real.logb 2 range.maxLog ^ power := by
    intro value bounds
    exact logb_pow_between one_lt_two low_real power
      ⟨Nat.cast_le.mpr bounds.1, Nat.cast_le.mpr bounds.2⟩
  have close : |logMean power (arange range.minLog (range.maxLog + 1)) - Real.logb 2 x ^ power| ≤
      Real.logb 2 range.maxLog ^ power - Real.logb 2 range.minLog ^ power := by
    refine abs_mean_sub_le (by simpa using nonempty) ?_ (between x inside)
    intro value valueMember
    obtain ⟨number, numberMember, rfl⟩ := List.mem_map.mp valueMember
    exact between number (members number numberMember)
  have ratio : (range.maxLog : ℝ) ≤ range.minLog * (1 + 1 / 2 ^ (m - 1)) := by
    have scaled : (2 : ℝ) ^ (m - 1) * range.maxLog ≤ (2 ^ (m - 1) + 1) * range.minLog := by
      exact_mod_cast narrow
    have positive : (0 : ℝ) < 2 ^ (m - 1) := by positivity
    field_simp
    linarith
  have wide : (range.maxLog : ℝ) ≤ 2 ^ (N : ℝ) := by
    rw [Real.rpow_natCast]
    exact_mod_cast below.le
  have spread := logb_pow_sub_logb_pow_le one_lt_two low_real (Nat.cast_le.mpr ordered) ratio
    wide power
  have fits : range.maxLog < 2 ^ 32 :=
    below.trans_le (Nat.pow_le_pow_right Nat.two_pos width)
  unfold logError
  calc _ ≤ |(roundedLogMean power (arange range.minLog (range.maxLog + 1)) : ℝ) -
          logMean power (arange range.minLog (range.maxLog + 1))| +
        |logMean power (arange range.minLog (range.maxLog + 1)) - Real.logb 2 x ^ power| :=
        abs_sub_le ..
    _ ≤ _ := add_le_add (rounds power least most _ _ low_ge ordered fits) (close.trans spread)

end Lookup

/-! ## One packet -/

/-- Every number but zero is found, with its logarithm, its square and its cube, and none of
them is further off than the error. -/
theorem lookupLog_close {roundedLogMean : Nat → List Nat → Nat} {error : ℝ}
    (rounds : RoundsLogMean roundedLogMean error) {N m x : Nat} (accurate : 1 ≤ m)
    (width : N ≤ 32) (below : x < 2 ^ N) :
    (lookupLog (computeSquareTable roundedLogMean N m) N x = none ↔ x = 0) ∧
      ∀ row, lookupLog (computeSquareTable roundedLogMean N m) N x = some row →
        |(row.value : ℝ) - Real.logb 2 x| ≤ logError N m 1 error ∧
          |(row.square : ℝ) - Real.logb 2 x ^ 2| ≤ logError N m 2 error ∧
          |(row.cube : ℝ) - Real.logb 2 x ^ 3| ≤ logError N m 3 error := by
  rcases Nat.eq_zero_or_pos x with rfl | positive
  · rw [lookupLog_zero accurate]
    simp
  · obtain ⟨n, leading, range, member, found, inside⟩ :=
      lookupLog_computeSquareTable roundedLogMean accurate positive below
    have close := fun power (low : 1 ≤ power) (high : power ≤ 3) =>
      roundedLogMean_close rounds accurate width leading member inside low high
    have value := close 1 (by decide) (by decide)
    have square := close 2 (by decide) (by decide)
    have cube := close 3 (by decide) (by decide)
    rw [pow_one] at value
    rw [found]
    refine ⟨by simp [positive.ne'], ?_⟩
    intro row same
    cases same
    exact ⟨value, square, cube⟩

/-- Exact means, rounded to the nearest integer. -/
noncomputable def nearestLogMean (power : Nat) (values : List Nat) : Nat :=
  (round (logMean power values)).toNat

theorem nearestLogMean_rounds : RoundsLogMean nearestLogMean 0 := by
  intro power _ _ low high _ _ _
  generalize arange low (high + 1) = values
  have nonneg : 0 ≤ logMean power values := by
    refine div_nonneg (List.sum_nonneg ?_) (Nat.cast_nonneg _)
    intro x member
    obtain ⟨value, _, rfl⟩ := List.mem_map.mp member
    rcases Nat.eq_zero_or_pos value with rfl | positive
    · simp
    · exact pow_nonneg (Real.logb_nonneg one_lt_two (Nat.one_le_cast.mpr positive)) _
  have rounded := abs_sub_round (logMean power values)
  have positive : 0 ≤ round (logMean power values) := by
    rw [round_eq]
    exact Int.floor_nonneg.mpr (by linarith)
  have cast : ((nearestLogMean power values : Nat) : ℝ) = (round (logMean power values) : ℝ) := by
    exact_mod_cast Int.toNat_of_nonneg positive
  rw [cast, abs_sub_comm, add_zero]
  exact rounded

section Packet

variable {roundedLogMean : Nat → List Nat → Nat} {error : ℝ}

/-- The logarithm of the ratio that 8 bits of accuracy leave. -/
theorem logb_ratio_bounds :
    0 ≤ Real.logb 2 (1 + 1 / 2 ^ (8 - 1)) ∧ Real.logb 2 (1 + 1 / 2 ^ (8 - 1)) ≤ 1 / 64 := by
  have two := Real.log_two_gt_d9
  have small := Real.log_le_sub_one_of_pos (x := 1 + 1 / 2 ^ (8 - 1)) (by norm_num)
  constructor
  · exact Real.logb_nonneg one_lt_two (by norm_num)
  · rw [Real.logb, div_le_iff₀ (by linarith)]
    norm_num at small ⊢
    linarith

theorem RoundsLogMean.error_nonneg (rounds : RoundsLogMean roundedLogMean error) :
    0 ≤ 1 / 2 + error :=
  (abs_nonneg _).trans (rounds 1 le_rfl (by decide) 1 1 le_rfl le_rfl (by decide))

theorem logError_nonneg (rounds : RoundsLogMean roundedLogMean error) (N power : Nat) :
    0 ≤ logError N 8 power error := by
  have floor := rounds.error_nonneg
  have ratio := logb_ratio_bounds.1
  unfold logError
  positivity

theorem logError_le (small : error ≤ 1 / 2) (N power : Nat) :
    logError N 8 power error ≤ 1 + power * N ^ (power - 1) / 64 := by
  have ratio := logb_ratio_bounds.2
  have scaled : (power * N ^ (power - 1) : ℝ) * Real.logb 2 (1 + 1 / 2 ^ (8 - 1)) ≤
      power * N ^ (power - 1) * (1 / 64) := by gcongr
  unfold logError
  linarith

/-- A value close to the power of a logarithm fits its field. -/
theorem field_lt (small : error ≤ 1 / 2) {N power value x limit : Nat} {bound : ℝ}
    (close : |(value : ℝ) - Real.logb 2 x ^ power| ≤ logError N 8 power error)
    (positive : x ≠ 0) (log_le : Real.logb 2 x ≤ bound)
    (room : (bound ^ power + (1 + power * N ^ (power - 1) / 64) : ℝ) < limit) :
    value < limit := by
  have x_real : (1 : ℝ) ≤ x := Nat.one_le_cast.mpr (Nat.one_le_iff_ne_zero.mpr positive)
  have log_nonneg : 0 ≤ Real.logb 2 x := Real.logb_nonneg one_lt_two x_real
  have power_le : Real.logb 2 x ^ power ≤ bound ^ power := by gcongr
  have above := (abs_le.mp close).2
  have limited := logError_le small N power
  have result : (value : ℝ) < limit := by linarith
  exact_mod_cast result

/-- The logarithm of a power is a multiple of the logarithm. -/
theorem logb_le_of_pow_le {x width times : Nat} (positive : x ≠ 0) (some : 0 < times)
    (below : x ^ times ≤ 2 ^ width) : Real.logb 2 x ≤ width / times := by
  have x_pos : (0 : ℝ) < x := Nat.cast_pos.mpr (Nat.pos_of_ne_zero positive)
  have times_pos : (0 : ℝ) < times := Nat.cast_pos.mpr some
  rw [le_div_iff₀ times_pos, mul_comm, ← Real.logb_pow,
    Real.logb_le_iff_le_rpow one_lt_two (pow_pos x_pos _), Real.rpow_natCast]
  exact_mod_cast below

theorem logb_le_width {x width : Nat} (positive : x ≠ 0) (below : x < 2 ^ width) :
    Real.logb 2 x ≤ width := by
  have log_le : Real.logb 2 x ≤ width / (1 : Nat) :=
    logb_le_of_pow_le positive one_pos (by rw [pow_one]; exact below.le)
  rwa [Nat.cast_one, div_one] at log_le

/-- The field of the square has eight bits, and room for the squares of the sizes below this.
From about 64800 on the rounded square is 256. -/
def sizeSquareLimit : Nat := 62000

/-- The logarithm of a size and its powers. -/
theorem computeSizeLog_close (rounds : RoundsLogMean roundedLogMean error)
    (small : error ≤ 1 / 2) (size : UInt16) :
    let logs := (logTables roundedLogMean).computeSizeLog size
    |(logs.sizeLog.toNat : ℝ) - Real.logb 2 size.toNat ^ 1| ≤ logError 16 8 1 error ∧
      (size.toNat < sizeSquareLimit →
        |(logs.sizeLogSquare.toNat : ℝ) - Real.logb 2 size.toNat ^ 2| ≤ logError 16 8 2 error) ∧
      |(logs.sizeLogCube.toNat : ℝ) - Real.logb 2 size.toNat ^ 3| ≤ logError 16 8 3 error := by
  have below : size.toNat < 2 ^ 16 := size.toNat_lt
  have found := lookupLog_close rounds (m := 8) (by decide) (by decide) below
  unfold LogTables.computeSizeLog logTables
  dsimp only
  cases hit : lookupLog (computeSquareTable roundedLogMean 16 8) 16 size.toNat with
  | none => simp [found.1.mp hit, logError_nonneg rounds]
  | some row =>
    have positive : size.toNat ≠ 0 := fun zero => by simp [found.1.mpr zero] at hit
    have log_le := logb_le_width positive below
    obtain ⟨value, square, cube⟩ := found.2 row hit
    dsimp only
    rw [← pow_one (Real.logb 2 size.toNat)] at value
    have value_lt : row.value < 2 ^ 8 := field_lt small value positive log_le (by norm_num)
    have cube_lt : row.cube < 2 ^ 16 := field_lt small cube positive log_le (by norm_num)
    refine ⟨?_, ?_, ?_⟩
    · rw [UInt8.toNat_ofNat', Nat.mod_eq_of_lt value_lt]
      exact value
    · intro jumbo
      have sixteenth : size.toNat ^ 16 ≤ 2 ^ 255 :=
        (Nat.pow_le_pow_left jumbo.le 16).trans (by norm_num [sizeSquareLimit])
      have narrow := logb_le_of_pow_le positive (by decide) sixteenth
      have square_lt : row.square < 2 ^ 8 := field_lt small square positive narrow (by norm_num)
      rw [UInt8.toNat_ofNat', Nat.mod_eq_of_lt square_lt]
      exact square
    · rw [UInt16.toNat_ofNat', Nat.mod_eq_of_lt cube_lt]
      exact cube

/-- The logarithm of a gap and its powers. Their fields have room for all of them. -/
theorem computeIatLog_close (rounds : RoundsLogMean roundedLogMean error)
    (small : error ≤ 1 / 2) (iat : UInt32) :
    let logs := (logTables roundedLogMean).computeIatLog iat
    |(logs.iatLog.toNat : ℝ) - Real.logb 2 iat.toNat ^ 1| ≤ logError 32 8 1 error ∧
      |(logs.iatLogSquare.toNat : ℝ) - Real.logb 2 iat.toNat ^ 2| ≤ logError 32 8 2 error ∧
      |(logs.iatLogCube.toNat : ℝ) - Real.logb 2 iat.toNat ^ 3| ≤ logError 32 8 3 error := by
  have below : iat.toNat < 2 ^ 32 := iat.toNat_lt
  have found := lookupLog_close rounds (m := 8) (by decide) (by decide) below
  unfold LogTables.computeIatLog logTables
  dsimp only
  cases hit : lookupLog (computeSquareTable roundedLogMean 32 8) 32 iat.toNat with
  | none => simp [found.1.mp hit, logError_nonneg rounds]
  | some row =>
    have positive : iat.toNat ≠ 0 := fun zero => by simp [found.1.mpr zero] at hit
    have log_le := logb_le_width positive below
    obtain ⟨value, square, cube⟩ := found.2 row hit
    dsimp only
    rw [← pow_one (Real.logb 2 iat.toNat)] at value
    have value_lt : row.value < 2 ^ 8 := field_lt small value positive log_le (by norm_num)
    have square_lt : row.square < 2 ^ 16 := field_lt small square positive log_le (by norm_num)
    have cube_lt : row.cube < 2 ^ 16 := field_lt small cube positive log_le (by norm_num)
    refine ⟨?_, ?_, ?_⟩
    · rw [UInt8.toNat_ofNat', Nat.mod_eq_of_lt value_lt]
      exact value
    · rw [UInt16.toNat_ofNat', Nat.mod_eq_of_lt square_lt]
      exact square
    · rw [UInt16.toNat_ofNat', Nat.mod_eq_of_lt cube_lt]
      exact cube

end Packet

/-- Whatever the size of a packet and the gap before it, the fields that it brings to `egress`
hold the logarithms and their powers up to the error, except for the square for sizes from
`sizeSquareLimit` on. -/
theorem packet_logs_accuracy {roundedLogMean : Nat → List Nat → Nat} {error : ℝ}
    (rounds : RoundsLogMean roundedLogMean error) (small : error ≤ 1 / 2) (size : UInt16)
    (iat : UInt32) :
    let sizeLogs := (logTables roundedLogMean).computeSizeLog size
    let iatLogs := (logTables roundedLogMean).computeIatLog iat
    |(sizeLogs.sizeLog.toNat : ℝ) - Real.logb 2 size.toNat| ≤ logError 16 8 1 error ∧
      (size.toNat < sizeSquareLimit →
        |(sizeLogs.sizeLogSquare.toNat : ℝ) - Real.logb 2 size.toNat ^ 2| ≤
          logError 16 8 2 error) ∧
      |(sizeLogs.sizeLogCube.toNat : ℝ) - Real.logb 2 size.toNat ^ 3| ≤ logError 16 8 3 error ∧
      |(iatLogs.iatLog.toNat : ℝ) - Real.logb 2 iat.toNat| ≤ logError 32 8 1 error ∧
      |(iatLogs.iatLogSquare.toNat : ℝ) - Real.logb 2 iat.toNat ^ 2| ≤ logError 32 8 2 error ∧
      |(iatLogs.iatLogCube.toNat : ℝ) - Real.logb 2 iat.toNat ^ 3| ≤ logError 32 8 3 error := by
  obtain ⟨size, square, cube⟩ := computeSizeLog_close rounds small size
  obtain ⟨iat, iatSquare, iatCube⟩ := computeIatLog_close rounds small iat
  rw [pow_one] at size iat
  exact ⟨size, square, cube, iat, iatSquare, iatCube⟩

/-- A packet of 1500 bytes, a millisecond after the one before it. -/
theorem packet_logs_accuracy_mtu :
    let sizeLogs := (logTables nearestLogMean).computeSizeLog 1500
    let iatLogs := (logTables nearestLogMean).computeIatLog 1000000
    |(sizeLogs.sizeLog.toNat : ℝ) - Real.logb 2 (1500 : UInt16).toNat| ≤ logError 16 8 1 0 ∧
      ((1500 : UInt16).toNat < sizeSquareLimit →
        |(sizeLogs.sizeLogSquare.toNat : ℝ) - Real.logb 2 (1500 : UInt16).toNat ^ 2| ≤
          logError 16 8 2 0) ∧
      |(sizeLogs.sizeLogCube.toNat : ℝ) - Real.logb 2 (1500 : UInt16).toNat ^ 3| ≤
        logError 16 8 3 0 ∧
      |(iatLogs.iatLog.toNat : ℝ) - Real.logb 2 (1000000 : UInt32).toNat| ≤ logError 32 8 1 0 ∧
      |(iatLogs.iatLogSquare.toNat : ℝ) - Real.logb 2 (1000000 : UInt32).toNat ^ 2| ≤
        logError 32 8 2 0 ∧
      |(iatLogs.iatLogCube.toNat : ℝ) - Real.logb 2 (1000000 : UInt32).toNat ^ 3| ≤
        logError 32 8 3 0 :=
  packet_logs_accuracy nearestLogMean_rounds (by norm_num) 1500 1000000

/-! ## The sums -/

/-- The power of the logarithms that a feature adds up, none of them for the count. -/
def Feature.power : Feature → Nat
  | .count => 0
  | .sizeLog | .iatLog => 1
  | .sizeLogSquare | .iatLogSquare => 2
  | .sizeLogCube | .iatLogCube => 3

/-- The numbers whose logarithms a feature adds up. -/
def Feature.observed (last : Option Nat) (traffic : List TrafficEvent) : Feature → List Nat
  | .count | .sizeLog | .sizeLogSquare | .sizeLogCube => (packetSizes traffic).map UInt16.toNat
  | .iatLog | .iatLogSquare | .iatLogCube => gaps last traffic

/-- The exact sum. -/
noncomputable def logSum (power : Nat) (values : List Nat) : ℝ :=
  (values.map fun value : Nat => Real.logb 2 value ^ power).sum

/-- The bound for one summand. -/
noncomputable def Feature.error (error : ℝ) : Feature → ℝ
  | .count => 0
  | .sizeLog => logError 16 8 1 error
  | .sizeLogSquare => logError 16 8 2 error
  | .sizeLogCube => logError 16 8 3 error
  | .iatLog => logError 32 8 1 error
  | .iatLogSquare => logError 32 8 2 error
  | .iatLogCube => logError 32 8 3 error

/-- The square of a size fits its field. -/
def Feature.SizesFit (traffic : List TrafficEvent) (feature : Feature) : Prop :=
  feature = .sizeLogSquare → ∀ size ∈ packetSizes traffic, size.toNat < sizeSquareLimit

section Sums

variable {roundedLogMean : Nat → List Nat → Nat} {error : ℝ}

/-- A sum of what the tables give for some numbers. -/
theorem cast_sum_sub_logSum_le {α : Type} (number field : α → Nat) (power : Nat) {bound : ℝ}
    {xs : List α}
    (close : ∀ x ∈ xs, |(field x : ℝ) - Real.logb 2 (number x) ^ power| ≤ bound) :
    |(((xs.map field).sum : Nat) : ℝ) - logSum power (xs.map number)| ≤
      (xs.map number).length * bound := by
  have summed := abs_sum_sub_sum_le (fun x => (field x : ℝ))
    (fun x => Real.logb 2 (number x) ^ power) close
  unfold logSum
  rw [Nat.cast_list_sum, List.map_map, List.map_map, List.length_map]
  exact summed

/-- What the pipeline adds up is close to the sum of the powers of the logarithms of the sizes
or of the gaps. -/
theorem sums_close (rounds : RoundsLogMean roundedLogMean error) (small : error ≤ 1 / 2)
    {last : Option Nat} {traffic : List TrafficEvent} (order : InOrder last traffic)
    (measurable : Measurable last traffic) {feature : Feature} (fit : feature.SizesFit traffic) :
    |((logTables roundedLogMean).sums (lastRegister last) traffic feature : ℝ) -
        logSum feature.power (feature.observed last traffic)| ≤
      (feature.observed last traffic).length * feature.error error := by
  have sizes := computeSizeLog_close rounds small
  have iats := computeIatLog_close rounds small
  have measured := (measuredGaps_eq_gaps_iff order).mpr measurable
  unfold Feature.observed
  rw [← measured]
  cases feature with
  | count => simp [LogTables.sums, Feature.power, Feature.error, logSum, Function.comp_def]
  | sizeLog => exact cast_sum_sub_logSum_le _ _ 1 fun size _ => (sizes size).1
  | sizeLogSquare =>
      exact cast_sum_sub_logSum_le _ _ 2 fun size member => (sizes size).2.1 (fit rfl size member)
  | sizeLogCube => exact cast_sum_sub_logSum_le _ _ 3 fun size _ => (sizes size).2.2
  | iatLog => exact cast_sum_sub_logSum_le _ _ 1 fun iat _ => (iats iat).1
  | iatLogSquare => exact cast_sum_sub_logSum_le _ _ 2 fun iat _ => (iats iat).2.1
  | iatLogCube => exact cast_sum_sub_logSum_le _ _ 3 fun iat _ => (iats iat).2.2

end Sums

end Marina
