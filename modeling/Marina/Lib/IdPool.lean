import Mathlib

/-!
# Identifiers handed out from pools

Identifiers lie in one of several pools while free and in a multiset of used ones
otherwise. `total` is the disjoint union of all of them; taking an identifier from a
pool and giving one back, to any pool, leave it as it is. From a `total` without
duplicates follow the facts callers need: a free identifier is not in use, and a pool
that holds only its own residents has room for a resident that is not in it.
-/

namespace Marina.Lib.IdPool

variable {P I : Type}

/-- All identifiers, free and used. -/
def total (pools : Finset P) (pool : P → Multiset I) (used : Multiset I) : Multiset I :=
  ∑ p ∈ pools, pool p + used

variable {pools : Finset P} {pool : P → Multiset I} {used : Multiset I} {p : P} {id : I}

theorem used_nodup (nodup : (total pools pool used).Nodup) : used.Nodup :=
  Multiset.nodup_of_le (Multiset.le_add_left _ _) nodup

theorem card_used_le : used.card ≤ (total pools pool used).card := by
  unfold total
  rw [Multiset.card_add]
  omega

/-- A pool of residents has room for a resident that is not in it. -/
theorem card_lt_of_resident {free : Multiset I} {residents : Finset I} (nodup : free.Nodup)
    (resident : ∀ x ∈ free, x ∈ residents) (home : id ∈ residents) (absent : id ∉ free) :
    free.card < residents.card := by
  have subset : id ::ₘ free ≤ residents.val := by
    rw [Multiset.le_iff_subset (Multiset.nodup_cons.mpr ⟨absent, nodup⟩)]
    intro x member
    rcases Multiset.mem_cons.mp member with rfl | member
    · exact home
    · exact resident x member
  have card := Multiset.card_le_card subset
  rw [Multiset.card_cons] at card
  exact card

variable [DecidableEq P]

theorem total_give (inside : p ∈ pools) :
    total pools (Function.update pool p (id ::ₘ pool p)) used =
      total pools pool (id ::ₘ used) := by
  unfold total
  rw [← Finset.add_sum_erase _ _ inside, ← Finset.add_sum_erase _ pool inside,
    Function.update_self]
  have others : ∑ x ∈ pools.erase p, Function.update pool p (id ::ₘ pool p) x =
      ∑ x ∈ pools.erase p, pool x := by
    apply Finset.sum_congr rfl
    intro x member
    exact Function.update_of_ne (Finset.ne_of_mem_erase member) _ _
  rw [others, Multiset.add_cons, Multiset.cons_add, Multiset.cons_add]

theorem total_take {rest : Multiset I} (inside : p ∈ pools) (taken : pool p = id ::ₘ rest) :
    total pools (Function.update pool p rest) (id ::ₘ used) = total pools pool used := by
  rw [← total_give inside, Function.update_self, Function.update_idem, ← taken,
    Function.update_eq_self]

theorem pool_le_sum (inside : p ∈ pools) : pool p ≤ ∑ p ∈ pools, pool p := by
  rw [← Finset.add_sum_erase _ _ inside]
  exact Multiset.le_add_right _ _

theorem pool_nodup (nodup : (total pools pool used).Nodup) (inside : p ∈ pools) :
    (pool p).Nodup :=
  Multiset.nodup_of_le ((pool_le_sum inside).trans (Multiset.le_add_right _ _)) nodup

/-- No identifier is both free and in use. -/
theorem notMem_used (nodup : (total pools pool used).Nodup) (inside : p ∈ pools)
    (free : id ∈ pool p) : id ∉ used := by
  intro inUse
  exact Multiset.disjoint_left.mp (Multiset.nodup_add.mp nodup).2.2
    (Multiset.mem_of_le (pool_le_sum inside) free) inUse

end Marina.Lib.IdPool
