import Mathlib

/-!
# A queue in a ring of cells

`Holds size data tail head items` says that a ring of `size` cells holds the queue
`items`: the first item is at `tail`, the others follow it round the ring, and the cell
behind the last is `head`. Cells outside the queue may hold anything. When `head` meets
`tail` the queue is empty or takes up all cells, and nothing else in the ring tells the
two apart.
-/

namespace Marina.Lib

variable {α : Type} {size tail head : Nat} {data : Nat → α} {items : List α} {x : α}

structure Holds (size : Nat) (data : Nat → α) (tail head : Nat) (items : List α) : Prop where
  tail_lt : tail < size
  fits : items.length ≤ size
  head_eq : head = (tail + items.length) % size
  cells : items = (List.range items.length).map fun k => data ((tail + k) % size)

namespace Holds

/-- Two places less than a round apart are one cell only when they are one place. -/
theorem place_eq_iff {first m n : Nat} (ordered : m ≤ n) (near : n < m + size) :
    (first + m) % size = (first + n) % size ↔ m = n := by
  constructor
  · intro same
    have congruent : m ≡ n [MOD size] := Nat.ModEq.add_left_cancel' first same
    have gap := (Nat.modEq_iff_dvd' ordered).mp congruent
    have none : n - m = 0 := Nat.eq_zero_of_dvd_of_lt gap (by omega)
    omega
  · intro same
    rcases same with rfl
    rfl

theorem nil (inside : tail < size) : Holds size data tail tail [] where
  tail_lt := inside
  fits := Nat.zero_le _
  head_eq := by rw [List.length_nil, Nat.add_zero, Nat.mod_eq_of_lt inside]
  cells := rfl

theorem head_lt (holds : Holds size data tail head items) : head < size := by
  rw [holds.head_eq]
  exact Nat.mod_lt _ (Nat.zero_lt_of_lt holds.tail_lt)

/-- The end of the queue wraps once at most. -/
theorem head_eq_ite (holds : Holds size data tail head items) :
    head = if tail + items.length < size then tail + items.length
      else tail + items.length - size := by
  have inside := holds.tail_lt
  have fits := holds.fits
  rw [holds.head_eq]
  split
  · rename_i short
    exact Nat.mod_eq_of_lt short
  · rename_i wraps
    rw [Nat.mod_eq_sub_mod (not_lt.mp wraps)]
    exact Nat.mod_eq_of_lt (by omega)

/-- The two ends meet when the queue is empty or full. -/
theorem head_eq_tail_iff (holds : Holds size data tail head items) :
    head = tail ↔ items.length = 0 ∨ items.length = size := by
  have inside := holds.tail_lt
  have fits := holds.fits
  have head := holds.head_eq_ite
  split at head <;> omega

/-- The distance between the ends is the length of a queue that is not full. -/
theorem distance (holds : Holds size data tail head items) (free : items.length < size) :
    (head + size - tail) % size = items.length := by
  have inside := holds.tail_lt
  have head := holds.head_eq_ite
  split at head
  · rw [head, show tail + items.length + size - tail = items.length + size by omega,
      Nat.add_mod_right, Nat.mod_eq_of_lt free]
  · rw [head, show tail + items.length - size + size - tail = items.length by omega,
      Nat.mod_eq_of_lt free]

/-- Writing an item behind the last one. -/
theorem push (holds : Holds size data tail head items) (free : items.length < size) :
    Holds size (Function.update data head x) tail ((head + 1) % size) (items ++ [x]) where
  tail_lt := holds.tail_lt
  fits := by
    rw [List.length_append, List.length_singleton]
    exact free
  head_eq := by
    rw [holds.head_eq, Nat.mod_add_mod, List.length_append, List.length_singleton, Nat.add_assoc]
  cells := by
    rw [List.length_append, List.length_singleton, List.range_succ, List.map_append,
      List.map_singleton, ← holds.head_eq, Function.update_self]
    congr 1
    refine holds.cells.trans ?_
    apply List.map_congr_left
    intro k before
    rw [List.mem_range] at before
    rw [Function.update_of_ne]
    intro same
    rw [holds.head_eq, place_eq_iff before.le (by omega)] at same
    omega

/-- Reading the first item and passing its cell. -/
theorem pop (holds : Holds size data tail head (x :: items)) :
    data tail = x ∧ Holds size data ((tail + 1) % size) head items := by
  have cells := holds.cells
  rw [List.length_cons, List.range_succ_eq_map, List.map_cons, List.map_map, Nat.add_zero,
    Nat.mod_eq_of_lt holds.tail_lt] at cells
  obtain ⟨first, rest⟩ := List.cons.inj cells
  have fits := holds.fits
  rw [List.length_cons] at fits
  refine ⟨first.symm, Nat.mod_lt _ (Nat.zero_lt_of_lt holds.tail_lt), by omega, ?_, ?_⟩
  · rw [holds.head_eq, List.length_cons, Nat.mod_add_mod]
    congr 1
    omega
  · refine rest.trans ?_
    apply List.map_congr_left
    intro k _
    simp only [Function.comp, Nat.mod_add_mod]
    congr 2
    omega

end Holds

end Marina.Lib
