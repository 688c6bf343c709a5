import Mathlib

/-!
# Delimited fields

A sequence of fields in which every field is followed by a delimiter, as in lines of text
or in rows of a table. Splitting at the delimiter gives the fields back, and an empty
field for what is behind the last delimiter (`splitOn_terminate`).
-/

namespace Marina.Lib

variable {α : Type}

/-- The fields, each followed by the delimiter. -/
def terminate (delimiter : α) (fields : List (List α)) : List α :=
  fields.flatMap (· ++ [delimiter])

section Terminate

variable {delimiter : α} {fields : List (List α)}

theorem terminate_cons (field : List α) :
    terminate delimiter (field :: fields) = field ++ delimiter :: terminate delimiter fields := by
  unfold terminate
  rw [List.flatMap_cons, List.append_assoc, List.singleton_append]

theorem terminate_append (more : List (List α)) :
    terminate delimiter (fields ++ more) = terminate delimiter fields ++ terminate delimiter more :=
  List.flatMap_append

theorem terminate_map {β : Type} (text : β → List α) (rows : List β) :
    terminate delimiter (rows.map text) = rows.flatMap fun row => text row ++ [delimiter] :=
  List.flatMap_map ..

theorem terminate_ne_nil (some : fields ≠ []) : terminate delimiter fields ≠ [] := by
  obtain ⟨field, rest, rfl⟩ := List.exists_cons_of_ne_nil some
  rw [terminate_cons]
  exact List.append_ne_nil_of_right_ne_nil _ (List.cons_ne_nil _ _)

theorem notMem_terminate {other : α} (ne : other ≠ delimiter)
    (absent : ∀ field ∈ fields, other ∉ field) : other ∉ terminate delimiter fields := by
  intro member
  obtain ⟨field, inside, found⟩ := List.mem_flatMap.mp member
  rcases List.mem_append.mp found with found | found
  · exact absent field inside found
  · exact ne (List.mem_singleton.mp found)

/-- The fields come back. -/
theorem splitOn_terminate [BEq α] [LawfulBEq α]
    (absent : ∀ field ∈ fields, delimiter ∉ field) :
    (terminate delimiter fields).splitOn delimiter = fields ++ [[]] := by
  induction fields with
  | nil => exact List.splitOn_nil delimiter
  | cons field fields ih =>
      rw [terminate_cons,
        List.splitOn_append_cons_self_of_not_mem (absent field List.mem_cons_self),
        ih fun other member => absent other (List.mem_cons_of_mem field member)]
      rfl

end Terminate

end Marina.Lib
