import Mathlib

/-!
# Functions that commute with exclusive or

An `XorLinear` function of a bit vector is known from its values on the vectors with a
single bit (`XorLinear.eq_of_basis`). So a function is injective as soon as a linear
one undoes it on those vectors, which is a finite check (`XorLinear.eq_zero_of_decode`).
-/

namespace Marina.Lib

variable {m n k : Nat}

def XorLinear (f : BitVec m → BitVec n) : Prop := ∀ x y, f (x ^^^ y) = f x ^^^ f y

namespace XorLinear

variable {f g : BitVec m → BitVec n}

theorem zero (linear : XorLinear f) : f 0 = 0 := by
  have twice := linear 0 0
  rw [BitVec.xor_self, BitVec.xor_self] at twice
  exact twice

theorem comp {h : BitVec n → BitVec k} (outer : XorLinear h) (inner : XorLinear f) :
    XorLinear (h ∘ f) := by
  intro x y
  change h (f (x ^^^ y)) = h (f x) ^^^ h (f y)
  rw [inner, outer]

theorem id : XorLinear (fun x : BitVec m => x) := fun _ _ => rfl

theorem iterate {h : BitVec m → BitVec m} (linear : XorLinear h) (count : Nat) :
    XorLinear h^[count] := by
  induction count with
  | zero => exact id
  | succ count ih =>
      rw [Function.iterate_succ]
      exact ih.comp linear

theorem xor (left : XorLinear f) (right : XorLinear g) : XorLinear fun x => f x ^^^ g x := by
  intro x y
  dsimp only
  rw [left, right]
  ac_rfl

theorem append {h : BitVec m → BitVec k} (high : XorLinear f) (low : XorLinear h) :
    XorLinear fun x => f x ++ h x := by
  intro x y
  dsimp only
  rw [high, low, BitVec.xor_append]

theorem setWidth (linear : XorLinear f) : XorLinear fun x => (f x).setWidth k := by
  intro x y
  dsimp only
  rw [linear, BitVec.setWidth_xor]

/-- A constant that one bit switches on. -/
theorem select (i : Nat) (constant : BitVec n) :
    XorLinear fun x : BitVec m => if x.getLsbD i then constant else 0 := by
  intro x y
  dsimp only
  rw [BitVec.getLsbD_xor]
  cases x.getLsbD i <;> cases y.getLsbD i <;> simp

/-- XorLinear functions that agree on single bits agree. -/
theorem eq_of_basis (left : XorLinear f) (right : XorLinear g)
    (basis : ∀ i < m, f (BitVec.twoPow m i) = g (BitVec.twoPow m i)) (x : BitVec m) :
    f x = g x := by
  -- Induction on the number of bits that may be set.
  have low : ∀ count ≤ m, ∀ x : BitVec m, (∀ i, count ≤ i → x.getLsbD i = false) → f x = g x := by
    intro count
    induction count with
    | zero =>
        intro _ x clear
        have none : x = 0 := by
          apply BitVec.eq_of_getLsbD_eq
          intro i _
          rw [clear i (Nat.zero_le i)]
          simp
        rw [none, left.zero, right.zero]
    | succ count ih =>
        intro bound x clear
        by_cases bit : x.getLsbD count = true
        · have rest := ih (by omega) (x ^^^ BitVec.twoPow m count) (by
            intro i above
            rw [BitVec.getLsbD_xor, BitVec.getLsbD_twoPow]
            by_cases here : i = count
            · subst here
              simp [bit]
              omega
            · rw [clear i (by omega)]
              simp
              omega)
          have whole : x = (x ^^^ BitVec.twoPow m count) ^^^ BitVec.twoPow m count := by
            rw [BitVec.xor_assoc, BitVec.xor_self, BitVec.xor_zero]
          rw [whole, left, right, rest, basis count (by omega)]
        · apply ih (by omega)
          intro i above
          by_cases here : i = count
          · rw [here]
            simpa using bit
          · exact clear i (by omega)
  exact low m le_rfl x fun i beyond => BitVec.getLsbD_of_ge x i beyond

end XorLinear

/-- The exclusive or of the rows whose bit is set. -/
def selectRows (rows : List (BitVec n)) (x : BitVec m) : BitVec n :=
  (rows.zipIdx.map fun row => if x.getLsbD row.2 then row.1 else 0).foldr (· ^^^ ·) 0

theorem XorLinear.selectRows (rows : List (BitVec n)) : XorLinear (selectRows rows : BitVec m → _) := by
  unfold Lib.selectRows
  generalize rows.zipIdx = indexed
  induction indexed with
  | nil =>
      intro x y
      simp
  | cons row indexed ih =>
      have sum := (XorLinear.select (m := m) row.2 row.1).xor ih
      intro x y
      simpa only [List.map_cons, List.foldr_cons] using sum x y

/-- What some rows decode on single bits, they decode: only zero goes to zero. -/
theorem XorLinear.eq_zero_of_decode {f : BitVec m → BitVec n} (linear : XorLinear f)
    (rows : List (BitVec m))
    (decodes : ∀ i < m, Lib.selectRows rows (f (BitVec.twoPow m i)) = BitVec.twoPow m i)
    {x : BitVec m} (vanishes : f x = 0) : x = 0 := by
  have identity : Lib.selectRows rows (f x) = x :=
    XorLinear.eq_of_basis ((XorLinear.selectRows rows).comp linear) XorLinear.id decodes x
  rw [← identity, vanishes, (XorLinear.selectRows rows).zero]

end Marina.Lib
