import Mathlib

/-!
# Match tables with exact and ternary fields

The key of a packet is a list of fields, and a row has one column for an exact field, and a
value and a mask for a ternary one. `matches_append` splits a match between two groups of
fields, and `filter_product` says which rows of a product of two tables match: those whose
halves do.
-/

namespace Marina.Lib

/-- A field of a key, by the way the table compares it. -/
inductive KeyField
  | exact (value : Nat)
  | ternary (value : Nat)
deriving DecidableEq, Repr

namespace KeyField

/-- The columns that the field takes up in a row. -/
def width : KeyField → Nat
  | exact _ => 1
  | ternary _ => 2

/-- The columns of a row match the fields of a key. -/
def Matches : List KeyField → List Nat → Bool
  | [], [] => true
  | exact key :: fields, value :: columns => key == value && Matches fields columns
  | ternary key :: fields, value :: mask :: columns =>
      key &&& mask == value &&& mask && Matches fields columns
  | _, _ => false

/-- The columns that a list of fields takes up. -/
def widths (fields : List KeyField) : Nat := (fields.map width).sum

theorem matches_append {fields others : List KeyField} :
    ∀ {columns more : List Nat}, columns.length = widths fields →
      Matches (fields ++ others) (columns ++ more) =
        (Matches fields columns && Matches others more) := by
  induction fields with
  | nil =>
      intro columns more fits
      rw [List.length_eq_zero_iff.mp fits]
      simp [Matches]
  | cons field fields ih =>
      intro columns more fits
      cases field with
      | exact key =>
          rcases columns with _ | ⟨value, columns⟩
          · simp [widths, width] at fits
            omega
          · have rest : columns.length = widths fields := by
              simp [widths, width] at fits ⊢
              omega
            simp only [List.cons_append, Matches, ih rest, Bool.and_assoc]
      | ternary key =>
          rcases columns with _ | ⟨value, _ | ⟨mask, columns⟩⟩
          · simp [widths, width] at fits
            omega
          · simp [widths, width] at fits
            omega
          · have rest : columns.length = widths fields := by
              simp [widths, width] at fits ⊢
              omega
            simp only [List.cons_append, Matches, ih rest, Bool.and_assoc]

end KeyField

/-! ## Products -/

variable {α β γ : Type} {good : γ → Bool} {left : α → Bool} {right : β → Bool}

/-- The rows of a product that match are the products of those that do. -/
theorem filter_product (first : List α) (second : List β) (row : α → β → γ)
    (splits : ∀ a ∈ first, ∀ b ∈ second, good (row a b) = (left a && right b)) :
    (first.flatMap fun a => second.map (row a)).filter good =
      (first.filter left).flatMap fun a => (second.filter right).map (row a) := by
  induction first with
  | nil => rfl
  | cons a first ih =>
      have rest := ih fun a' member => splits a' (List.mem_cons_of_mem a member)
      have here : (second.map (row a)).filter good =
          if left a then (second.filter right).map (row a) else [] := by
        rw [List.filter_map]
        have own : second.filter (good ∘ row a) = second.filter fun b => left a && right b :=
          List.filter_congr fun b member => splits a List.mem_cons_self b member
        rw [own]
        cases left a with
        | true => simp
        | false => simp
      rw [List.flatMap_cons, List.filter_append, rest, here, List.filter_cons]
      split <;> simp

end Marina.Lib
