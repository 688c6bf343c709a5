import Mathlib

/-!
# Loops over the slices of a state

A loop over an array often touches, in its pass for `i`, only the slice `i` of the state.
`foldl_slice` says what such a loop does: every slice is changed once, as its own pass
changes it, whatever the order.
-/

namespace Marina.Lib

variable {ι σ β : Type}

section Slices

variable {pass : σ → ι → σ} (slice : σ → ι → β) (change : ι → β → β)

/-- A slice that the loop does not get to stays. -/
theorem foldl_slice_of_notMem (other : ∀ s i k, k ≠ i → slice (pass s i) k = slice s k) {k : ι} :
    ∀ {l : List ι} (s : σ), k ∉ l → slice (l.foldl pass s) k = slice s k := by
  intro l
  induction l with
  | nil =>
      intro s _
      rfl
  | cons i l ih =>
      intro s absent
      rw [List.mem_cons, not_or] at absent
      rw [List.foldl_cons, ih (pass s i) absent.2, other s i k absent.1]

/-- Every slice is changed by its own pass. -/
theorem foldl_slice (own : ∀ s i, slice (pass s i) i = change i (slice s i))
    (other : ∀ s i k, k ≠ i → slice (pass s i) k = slice s k) {k : ι} :
    ∀ {l : List ι} (s : σ), l.Nodup → k ∈ l → slice (l.foldl pass s) k = change k (slice s k) := by
  intro l
  induction l with
  | nil =>
      intro s _ member
      cases member
  | cons i l ih =>
      intro s distinct member
      rw [List.nodup_cons] at distinct
      rw [List.foldl_cons]
      by_cases here : k = i
      · subst here
        rw [foldl_slice_of_notMem slice other _ distinct.1, own]
      · rw [ih (pass s i) distinct.2 ((List.mem_cons.mp member).resolve_left here),
          other s i k here]

end Slices

/-- A loop over all of a finite range. -/
theorem foldl_finRange_slice {n : Nat} {pass : σ → Fin n → σ} (slice : σ → Fin n → β)
    (change : Fin n → β → β) (own : ∀ s i, slice (pass s i) i = change i (slice s i))
    (other : ∀ s i k, k ≠ i → slice (pass s i) k = slice s k) (s : σ) (k : Fin n) :
    slice ((List.finRange n).foldl pass s) k = change k (slice s k) :=
  foldl_slice slice change own other s (List.nodup_finRange n) (List.mem_finRange k)

end Marina.Lib
