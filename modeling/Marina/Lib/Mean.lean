import Mathlib.Algebra.Order.BigOperators.Group.List
import Mathlib.Analysis.SpecialFunctions.Log.Base

/-!
# Means and sums of approximations

The mean of a list of reals lies where its members lie, so it is no further from a number
among them than the members are from each other. A sum of approximations is off by at most
the sum of the errors. The last section is about the powers of logarithms, the logarithms
of a narrow range.
-/

namespace Marina.Lib

section Lists

variable {α : Type*}

noncomputable def mean (xs : List ℝ) : ℝ := xs.sum / xs.length

theorem mean_between {low high : ℝ} {xs : List ℝ} (nonempty : xs ≠ [])
    (between : ∀ x ∈ xs, low ≤ x ∧ x ≤ high) : low ≤ mean xs ∧ mean xs ≤ high := by
  have positive : (0 : ℝ) < xs.length := Nat.cast_pos.mpr (List.length_pos_of_ne_nil nonempty)
  have lower := List.card_nsmul_le_sum xs low fun x member => (between x member).1
  have upper := List.sum_le_card_nsmul xs high fun x member => (between x member).2
  rw [nsmul_eq_mul, mul_comm] at lower upper
  exact ⟨(le_div_iff₀ positive).mpr lower, (div_le_iff₀ positive).mpr upper⟩

/-- The mean is as close to `y` as the range is wide. -/
theorem abs_mean_sub_le {low high y : ℝ} {xs : List ℝ} (nonempty : xs ≠ [])
    (between : ∀ x ∈ xs, low ≤ x ∧ x ≤ high) (y_between : low ≤ y ∧ y ≤ high) :
    |mean xs - y| ≤ high - low := by
  have bounds := mean_between nonempty between
  rw [abs_le]
  constructor <;> linarith

/-- The errors add up. -/
theorem abs_sum_sub_sum_le (f g : α → ℝ) {error : ℝ} {xs : List α}
    (close : ∀ x ∈ xs, |f x - g x| ≤ error) :
    |(xs.map f).sum - (xs.map g).sum| ≤ xs.length * error := by
  induction xs with
  | nil => simp
  | cons x xs ih =>
      have head := close x (List.mem_cons_self ..)
      have tail := ih fun y member => close y (List.mem_cons_of_mem _ member)
      simp only [List.map_cons, List.sum_cons, List.length_cons, Nat.cast_add, Nat.cast_one]
      calc |f x + (xs.map f).sum - (g x + (xs.map g).sum)|
          = |(f x - g x) + ((xs.map f).sum - (xs.map g).sum)| := by congr 1; ring
        _ ≤ |f x - g x| + |(xs.map f).sum - (xs.map g).sum| := abs_add_le _ _
        _ ≤ error + xs.length * error := add_le_add head tail
        _ = (xs.length + 1) * error := by ring

end Lists

section Logarithms

variable {low high x base width : ℝ}

/-- The powers of the logarithms of a range whose ends have a small ratio. -/
theorem logb_pow_sub_logb_pow_le (base_gt : 1 < base) (low_ge : 1 ≤ low) (ordered : low ≤ high)
    {ratio : ℝ} (narrow : high ≤ low * ratio) (bound : high ≤ base ^ width) (power : Nat) :
    Real.logb base high ^ power - Real.logb base low ^ power ≤
      power * width ^ (power - 1) * Real.logb base ratio := by
  have low_pos : 0 < low := by linarith
  have ratio_pos : 0 < ratio := by
    by_contra negative
    nlinarith
  have low_log : 0 ≤ Real.logb base low := Real.logb_nonneg base_gt low_ge
  have order : Real.logb base low ≤ Real.logb base high :=
    Real.logb_le_logb_of_le base_gt low_pos ordered
  have high_log : Real.logb base high ≤ width := by
    rw [Real.logb_le_iff_le_rpow base_gt (by linarith)]
    exact bound
  have difference : Real.logb base high - Real.logb base low ≤ Real.logb base ratio := by
    rw [sub_le_iff_le_add', ← Real.logb_mul low_pos.ne' ratio_pos.ne']
    exact Real.logb_le_logb_of_le base_gt (by linarith) narrow
  have ratio_log : 0 ≤ Real.logb base ratio * power :=
    mul_nonneg ((sub_nonneg.mpr order).trans difference) (Nat.cast_nonneg power)
  have largest : max |Real.logb base high| |Real.logb base low| ≤ width := by
    rw [abs_of_nonneg (low_log.trans order), abs_of_nonneg low_log]
    exact max_le high_log (order.trans high_log)
  calc Real.logb base high ^ power - Real.logb base low ^ power
      ≤ |Real.logb base high ^ power - Real.logb base low ^ power| := le_abs_self _
    _ ≤ |Real.logb base high - Real.logb base low| * power *
          max |Real.logb base high| |Real.logb base low| ^ (power - 1) :=
        abs_pow_sub_pow_le ..
    _ ≤ Real.logb base ratio * power * width ^ (power - 1) := by
        rw [abs_of_nonneg (sub_nonneg.mpr order)]
        gcongr
    _ = power * width ^ (power - 1) * Real.logb base ratio := by ring

/-- Where the power of a logarithm lies. -/
theorem logb_pow_between (base_gt : 1 < base) (low_ge : 1 ≤ low) (power : Nat)
    (between : low ≤ x ∧ x ≤ high) :
    Real.logb base low ^ power ≤ Real.logb base x ^ power ∧
      Real.logb base x ^ power ≤ Real.logb base high ^ power := by
  rcases between with ⟨lower, upper⟩
  have low_log : 0 ≤ Real.logb base low := Real.logb_nonneg base_gt low_ge
  have first := Real.logb_le_logb_of_le base_gt (by linarith) lower
  have second := Real.logb_le_logb_of_le base_gt (by linarith) upper
  exact ⟨pow_le_pow_left₀ low_log first _, pow_le_pow_left₀ (low_log.trans first) second _⟩

end Logarithms

end Marina.Lib
