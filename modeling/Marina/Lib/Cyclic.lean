import Marina.Lib.Exec

/-!
# Positions on a ring

The positions `0 .. n - 1` of a ring, the step to the next position, and the forward
distance `ahead n a b` from `a` to `b`. A position `x` lies on the forward walk that
starts at `a` and stops before `b` exactly when `ahead n a x < ahead n a b`.
-/

namespace Marina.Lib.Cyclic

/-- The number of forward steps from `a` to `b` on a ring of `n` positions. -/
def ahead (n a b : Nat) : Nat := (b + n - a) % n

section Ring

variable {n a b c x y : Nat}

/-- Inside the ring the modulus is one conditional wrap. -/
theorem ahead_eq_ite (ha : a < n) (hb : b < n) :
    ahead n a b = if a ≤ b then b - a else b + n - a := by
  unfold ahead
  split
  · rw [show b + n - a = b - a + n by omega, Nat.add_mod_right, Nat.mod_eq_of_lt (by omega)]
  · rw [Nat.mod_eq_of_lt (by omega)]

theorem next_eq_ite (ha : a < n) : (a + 1) % n = if a + 1 = n then 0 else a + 1 := by
  split
  · rename_i wrap
    rw [wrap, Nat.mod_self]
  · rw [Nat.mod_eq_of_lt (by omega)]

theorem next_lt (ha : a < n) : (a + 1) % n < n := Nat.mod_lt _ (by omega)

theorem ahead_lt (hb : b < n) : ahead n a b < n := Nat.mod_lt _ (by omega)

@[simp] theorem ahead_self (ha : a < n) : ahead n a a = 0 := by
  rw [ahead_eq_ite ha ha, if_pos le_rfl, Nat.sub_self]

theorem ahead_eq_zero (ha : a < n) (hb : b < n) : ahead n a b = 0 ↔ a = b := by
  rw [ahead_eq_ite ha hb]
  split <;> omega

/-- Equal distances from one start end at one position. -/
theorem ahead_inj (ha : a < n) (hb : b < n) (hc : c < n) :
    ahead n a b = ahead n a c ↔ b = c := by
  rw [ahead_eq_ite ha hb, ahead_eq_ite ha hc]
  split <;> split <;> omega

/-- One step further, unless the step comes back to the start. -/
theorem ahead_next (ha : a < n) (hb : b < n) (open_ : (b + 1) % n ≠ a) :
    ahead n a ((b + 1) % n) = ahead n a b + 1 := by
  rw [next_eq_ite hb] at open_ ⊢
  rw [ahead_eq_ite ha hb]
  split at open_
  · rw [if_pos (by omega), ahead_eq_ite ha (by omega)]
    split <;> split <;> omega
  · rw [if_neg (by omega), ahead_eq_ite ha (by omega)]
    split <;> split <;> omega

/-- The step that comes back to the start leaves from the furthest position. -/
theorem ahead_of_next_eq (ha : a < n) (hb : b < n) (closed : (b + 1) % n = a) :
    ahead n a b = n - 1 := by
  rw [next_eq_ite hb] at closed
  rw [ahead_eq_ite ha hb]
  split at closed <;> split <;> omega

/-- Walking on from `b` towards `c` stays on the walk from `a` to `c` that passes
`b`. -/
theorem ahead_lt_of_between (ha : a < n) (hb : b < n) (hc : c < n) (hx : x < n)
    (passes : ahead n a b < ahead n a c) (between : ahead n b x < ahead n b c) :
    ahead n a x < ahead n a c := by
  rw [ahead_eq_ite ha hb, ahead_eq_ite ha hc] at passes
  rw [ahead_eq_ite hb hx, ahead_eq_ite hb hc] at between
  rw [ahead_eq_ite ha hx, ahead_eq_ite ha hc]
  split at passes <;> split at passes <;> split at between <;> split at between <;>
    split <;> omega

end Ring

end Marina.Lib.Cyclic
