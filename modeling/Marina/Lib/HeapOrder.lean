import Marina.Lib.Exec

/-!
# Binary heaps laid out in an array

The first `size` cells of an array `data` form a binary tree: the children of cell `i`
are the cells `2 * i + 1` and `2 * i + 2`. The heap is ordered when no cell is smaller
than its parent. `SiftDown` and `SiftUp` are the two states in which the order holds
everywhere but around one cell; exchanging that cell with a child or with its parent
moves the defect along the tree, and `items`, the multiset of the cells, stays the same
under every exchange.
-/

namespace Marina.Lib.HeapOrder

variable {α : Type}

/-- The parent of cell `i`. The root is nobody's child, although `parent 0 = 0`. -/
def parent (i : Nat) : Nat := (i - 1) / 2

/-- The array with the cells `x` and `y` exchanged. -/
def swap (data : Nat → α) (x y : Nat) : Nat → α :=
  Function.update (Function.update data x (data y)) y (data x)

theorem parent_lt {i : Nat} (positive : 0 < i) : parent i < i := by
  unfold parent
  omega

/-- A cell with parent `i` is one of the two children of `i`. -/
theorem eq_child_of_parent_eq {i j : Nat} (positive : 0 < j) (isParent : parent j = i) :
    j = 2 * i + 1 ∨ j = 2 * i + 2 := by
  unfold parent at isParent
  omega

@[simp] theorem parent_left (i : Nat) : parent (2 * i + 1) = i := by
  unfold parent
  omega

@[simp] theorem parent_right (i : Nat) : parent (2 * i + 2) = i := by
  unfold parent
  omega

/-! ## The cells as a multiset -/

section Items

variable {data : Nat → α} {size x y : Nat}

/-- The multiset of the first `size` cells. -/
def items (size : Nat) (data : Nat → α) : Multiset α :=
  (Multiset.range size).map data

theorem items_succ : items (size + 1) data = data size ::ₘ items size data := by
  unfold items
  rw [Multiset.range_succ, Multiset.map_cons]

theorem items_congr {data' : Nat → α} (same : ∀ i < size, data' i = data i) :
    items size data' = items size data :=
  Multiset.map_congr rfl fun i member => same i (Multiset.mem_range.mp member)

@[simp] theorem items_zero : items 0 data = 0 := rfl

theorem mem_items {a : α} : a ∈ items size data ↔ ∃ i < size, data i = a := by
  simp only [items, Multiset.mem_map, Multiset.mem_range]

@[simp] theorem card_items : (items size data).card = size := by
  rw [items, Multiset.card_map, Multiset.card_range]

theorem swap_eq_comp : swap data x y = data ∘ Equiv.swap x y := by
  funext i
  unfold swap
  rw [Function.comp_apply, Equiv.swap_apply_def]
  by_cases isY : i = y
  · subst isY
    rw [Function.update_self]
    by_cases isX : i = x
    · rw [if_pos isX, isX]
    · rw [if_neg isX, if_pos rfl]
  · rw [Function.update_of_ne isY, if_neg isY]
    by_cases isX : i = x
    · subst isX
      rw [Function.update_self, if_pos rfl]
    · rw [Function.update_of_ne isX, if_neg isX]

@[simp] theorem swap_right : swap data x y y = data x := Function.update_self _ _ _

@[simp] theorem swap_left : swap data x y x = data y := by
  rw [swap_eq_comp, Function.comp_apply, Equiv.swap_apply_left]

theorem swap_of_ne {i : Nat} (notX : i ≠ x) (notY : i ≠ y) : swap data x y i = data i := by
  rw [swap_eq_comp, Function.comp_apply, Equiv.swap_apply_of_ne_of_ne notX notY]

/-- Exchanging two cells keeps the multiset. -/
theorem items_swap (hx : x < size) (hy : y < size) :
    items size (swap data x y) = items size data := by
  have permuted : (Multiset.range size).map (Equiv.swap x y) = Multiset.range size := by
    apply (Multiset.Nodup.ext ((Multiset.nodup_range size).map (Equiv.swap x y).injective)
      (Multiset.nodup_range size)).mpr
    intro i
    rw [Multiset.mem_map, Multiset.mem_range]
    constructor
    · intro given
      rcases given with ⟨j, member, rfl⟩
      rw [Multiset.mem_range] at member
      rw [Equiv.swap_apply_def]
      split
      · exact hy
      · split
        · exact hx
        · exact member
    · intro inside
      refine ⟨Equiv.swap x y i, ?_, Equiv.swap_apply_self x y i⟩
      rw [Multiset.mem_range, Equiv.swap_apply_def]
      split
      · exact hy
      · split
        · exact hx
        · exact inside
  unfold items
  rw [swap_eq_comp, ← Multiset.map_map, permuted]

end Items

/-! ## Heap order -/

section Order

variable [LinearOrder α] {data : Nat → α} {size start i m : Nat}

/-- No cell whose parent is at or after `start` is smaller than its parent. -/
def OrderedFrom (start size : Nat) (data : Nat → α) : Prop :=
  ∀ j, 0 < j → j < size → start ≤ parent j → data (parent j) ≤ data j

/-- No cell is smaller than its parent. -/
def Ordered (size : Nat) (data : Nat → α) : Prop := OrderedFrom 0 size data

/-- The root of an ordered heap is its least cell. -/
theorem Ordered.root_le (ordered : Ordered size data) {j : Nat} (inside : j < size) :
    data 0 ≤ data j := by
  induction j using Nat.strongRecOn with
  | ind j ih =>
      rcases Nat.eq_zero_or_pos j with rfl | positive
      · exact le_rfl
      · have lower := parent_lt positive
        exact (ih (parent j) lower (by omega)).trans (ordered j positive inside (Nat.zero_le _))

/-- Ordered but for the children of cell `i`, which are still no smaller than the
parent of `i`. -/
structure SiftDown (start size : Nat) (data : Nat → α) (i : Nat) : Prop where
  away : ∀ j, 0 < j → j < size → start ≤ parent j → parent j ≠ i → data (parent j) ≤ data j
  across : 0 < i → start ≤ parent i → ∀ j, 0 < j → j < size → parent j = i →
    data (parent i) ≤ data j

theorem SiftDown.of_orderedFrom (ordered : OrderedFrom (i + 1) size data) :
    SiftDown i size data i where
  away j positive inside bound other := ordered j positive inside (by omega)
  across positive bound := by
    have lower := parent_lt positive
    omega

theorem SiftDown.finish (state : SiftDown start size data i)
    (least : ∀ j, 0 < j → j < size → parent j = i → data i ≤ data j) :
    OrderedFrom start size data := by
  intro j positive inside bound
  by_cases child : parent j = i
  · rw [child]
    exact least j positive inside child
  · exact state.away j positive inside bound child

/-- Exchange cell `i` with its least child `m`. -/
theorem SiftDown.exchange (state : SiftDown start size data i) (bound : start ≤ i)
    (positive : 0 < m) (inside : m < size) (child : parent m = i) (smaller : data m ≤ data i)
    (least : ∀ j, 0 < j → j < size → parent j = i → data m ≤ data j) :
    SiftDown start size (swap data i m) m where
  away j positiveJ insideJ boundJ notChild := by
    have lower := parent_lt positive
    by_cases isM : j = m
    · subst isM
      rw [child, swap_left, swap_right]
      exact smaller
    · by_cases underI : parent j = i
      · have notI : j ≠ i := by
          have lowerJ := parent_lt positiveJ
          omega
        rw [underI, swap_left, swap_of_ne notI isM]
        exact least j positiveJ insideJ underI
      · rw [swap_of_ne underI notChild]
        by_cases isI : j = i
        · subst isI
          rw [swap_left]
          exact state.across positiveJ boundJ m positive inside child
        · rw [swap_of_ne isI isM]
          exact state.away j positiveJ insideJ boundJ underI
  across _ _ j positiveJ insideJ under := by
    have lower := parent_lt positive
    have lowerJ := parent_lt positiveJ
    rw [child, swap_left, swap_of_ne (by omega) (by omega), ← under]
    exact state.away j positiveJ insideJ (by omega) (by omega)

/-- Ordered but for cell `i` itself, whose children are no smaller than its parent. -/
structure SiftUp (size : Nat) (data : Nat → α) (i : Nat) : Prop where
  away : ∀ j, 0 < j → j < size → j ≠ i → data (parent j) ≤ data j
  across : 0 < i → ∀ j, 0 < j → j < size → parent j = i → data (parent i) ≤ data j

theorem SiftUp.finish (state : SiftUp size data i)
    (settled : 0 < i → data (parent i) ≤ data i) : Ordered size data := by
  intro j positive inside _
  by_cases isI : j = i
  · subst isI
    exact settled positive
  · exact state.away j positive inside isI

/-- Exchange cell `i` with its larger parent. -/
theorem SiftUp.exchange (state : SiftUp size data i) (positive : 0 < i) (inside : i < size)
    (smaller : data i ≤ data (parent i)) : SiftUp size (swap data i (parent i)) (parent i) where
  away j positiveJ insideJ notParent := by
    have lower := parent_lt positive
    by_cases isI : j = i
    · subst isI
      rw [swap_left, swap_right]
      exact smaller
    · rw [swap_of_ne isI notParent]
      by_cases underI : parent j = i
      · rw [underI, swap_left]
        exact state.across positive j positiveJ insideJ underI
      · by_cases sibling : parent j = parent i
        · rw [sibling, swap_right]
          have aboveJ := state.away j positiveJ insideJ isI
          rw [sibling] at aboveJ
          exact smaller.trans aboveJ
        · rw [swap_of_ne underI sibling]
          exact state.away j positiveJ insideJ isI
  across positiveP j positiveJ insideJ sibling := by
    have lower := parent_lt positive
    have lowerP := parent_lt positiveP
    have abovePar : data (parent (parent i)) ≤ data (parent i) :=
      state.away (parent i) positiveP (by omega) (by omega)
    rw [swap_of_ne (i := parent (parent i)) (by omega) (by omega)]
    by_cases isI : j = i
    · subst isI
      rw [swap_left]
      exact abovePar
    · have lowerJ := parent_lt positiveJ
      rw [swap_of_ne isI (by omega)]
      have aboveJ := state.away j positiveJ insideJ isI
      rw [sibling] at aboveJ
      exact abovePar.trans aboveJ

end Order

end Marina.Lib.HeapOrder
