import Marina.Lib.HeapOrder
import Marina.Lib.Run
import Marina.Structs

/-!
# The id heap

The binary min-heap of `controller/datastructures/heap.c`, which keeps the free ids
of a pipe. Every access checks its index against `HEAPSIZE`, and every loop is a
fixpoint that may run forever, so the specifications below say that no access leaves
the array and that every call returns. `heap_is_priority_queue` says it of all calls
after `heap_build`.
-/

namespace Marina

open Lib (Exec)
open Lib.HeapOrder (parent swap items)

/-- `heapqueue_t`: the first `curSize` cells of `data` are the heap. -/
structure HeapQueue where
  curSize : Nat
  data : Nat → Int

/-- `HEAP_KEY(i)` as a value. -/
def heapKey (heap : HeapQueue) (i : Nat) : Outcome Int :=
  if i < heapSize then pure (heap.data i) else throw .outOfBounds

/-- `HEAP_SWAP(x, y)`. -/
def heapSwap (heap : HeapQueue) (x y : Nat) : Outcome HeapQueue :=
  if x < heapSize ∧ y < heapSize then
    pure { heap with data := swap heap.data x y }
  else
    throw .outOfBounds

/-- One of the two tests of `heapify`: `child` replaces `min` when it is a cell of the
heap with a smaller key. -/
def heapifySmaller (heap : HeapQueue) (min child : Nat) : Outcome Nat :=
  if child < heap.curSize then do
    let childKey ← heapKey heap child
    let minKey ← heapKey heap min
    if childKey < minKey then pure child else pure min
  else
    pure min

/-- The index of the least of cell `i` and its children. -/
def heapifyMin (heap : HeapQueue) (i : Nat) : Outcome Nat := do
  let min ← heapifySmaller heap i (2 * i + 1)
  heapifySmaller heap min (2 * i + 2)

def heapify (heap : HeapQueue) (i : Nat) : Outcome HeapQueue := do
  let min ← heapifyMin heap i
  if min = i then
    pure heap
  else
    heapSwap heap i min >>= heapify (i := min)
partial_fixpoint

/-- The loop of `heap_build`. The counter is a `size_t`: it is never negative, and the
decrement at `0` wraps around. -/
def heapBuildLoop (heap : HeapQueue) (i : Nat) : Outcome HeapQueue := do
  if i < heap.curSize then
    heapify heap i >>= heapBuildLoop (i := (i + (2 ^ 64 - 1)) % 2 ^ 64)
  else
    pure heap
partial_fixpoint

def heapBuild (heap : HeapQueue) (size : Nat) : Outcome HeapQueue :=
  if size < 2 then
    pure { heap with curSize := size }
  else
    heapBuildLoop { heap with curSize := size } (size / 2 - 1)

/-- The loop of `heap_decrease`. -/
def heapDecreaseLoop (heap : HeapQueue) (i : Nat) : Outcome HeapQueue := do
  if 0 < i then do
    let key ← heapKey heap i
    let above ← heapKey heap (parent i)
    if key < above then
      heapSwap heap i (parent i) >>= heapDecreaseLoop (i := parent i)
    else
      pure heap
  else
    pure heap
partial_fixpoint

def heapDecrease (heap : HeapQueue) (index : Nat) (key : Int) : Outcome HeapQueue := do
  let old ← heapKey heap index
  if old < key then
    pure heap
  else
    heapDecreaseLoop { heap with data := Function.update heap.data index key } index

def heapPush (heap : HeapQueue) (item : Int) : Outcome HeapQueue :=
  if heap.curSize < heapSize then
    heapDecrease
      { curSize := heap.curSize + 1, data := Function.update heap.data heap.curSize item }
      heap.curSize item
  else
    throw .heapOverflow

def heapPop (heap : HeapQueue) : Outcome (Int × HeapQueue) :=
  if heap.curSize = 0 then
    pure (0, heap)
  else do
    let result ← heapKey heap 0
    if heap.curSize - 1 = 0 then
      pure (result, { heap with curSize := heap.curSize - 1 })
    else do
      let heap ← heapSwap { heap with curSize := heap.curSize - 1 } 0 (heap.curSize - 1)
      let heap ← heapify heap 0
      pure (result, heap)

/-! ## Valid heaps -/

/-- The ids a heap holds. -/
def HeapQueue.ids (heap : HeapQueue) : Multiset Int := items heap.curSize heap.data

/-- The heap fits its array and is ordered. -/
structure HeapQueue.Valid (heap : HeapQueue) : Prop where
  fits : heap.curSize ≤ heapSize
  ordered : Lib.HeapOrder.Ordered heap.curSize heap.data

theorem HeapQueue.card_ids (heap : HeapQueue) : heap.ids.card = heap.curSize :=
  Lib.HeapOrder.card_items

theorem heapKey_of_lt {heap : HeapQueue} {i : Nat} (inside : i < heapSize) :
    heapKey heap i = pure (heap.data i) := if_pos inside

theorem heapSwap_of_lt {heap : HeapQueue} {x y : Nat} (hx : x < heapSize) (hy : y < heapSize) :
    heapSwap heap x y = pure { heap with data := swap heap.data x y } := if_pos ⟨hx, hy⟩

/-! ## Sifting down -/

section Heapify

variable {heap : HeapQueue} {i : Nat}

theorem heapifySmaller_returns {min child : Nat} (fits : heap.curSize ≤ heapSize)
    (inside : min < heap.curSize) :
    Exec.Returns (heapifySmaller heap min child) fun least =>
      (least = min ∨ least = child) ∧ least < heap.curSize ∧
      heap.data least ≤ heap.data min ∧
      (child < heap.curSize → heap.data least ≤ heap.data child) := by
  unfold heapifySmaller
  split
  · rename_i exists_
    rw [heapKey_of_lt (by omega), heapKey_of_lt (by omega), pure_bind, pure_bind]
    split
    · rename_i smaller
      exact .pure ⟨Or.inr rfl, exists_, smaller.le, fun _ => le_rfl⟩
    · rename_i larger
      exact .pure ⟨Or.inl rfl, inside, le_rfl, fun _ => not_lt.mp larger⟩
  · rename_i absent
    exact .pure ⟨Or.inl rfl, inside, le_rfl, fun exists_ => absurd exists_ absent⟩

/-- One pass of `heapify` finds a cell that is no greater than cell `i` and its
children. -/
theorem heapifyMin_returns (fits : heap.curSize ≤ heapSize) (inside : i < heap.curSize) :
    Exec.Returns (heapifyMin heap i) fun min =>
      (min = i ∨ (0 < min ∧ min < heap.curSize ∧ parent min = i)) ∧
      heap.data min ≤ heap.data i ∧
      ∀ j, 0 < j → j < heap.curSize → parent j = i → heap.data min ≤ heap.data j := by
  unfold heapifyMin
  apply (heapifySmaller_returns fits inside).bind
  intro first post
  rcases post with ⟨firstPlace, firstInside, firstLower, firstLeft⟩
  apply (heapifySmaller_returns fits firstInside).mono
  intro min post
  rcases post with ⟨place, minInside, lower, right⟩
  refine ⟨?_, lower.trans firstLower, ?_⟩
  · rcases place with rfl | rfl
    · rcases firstPlace with rfl | rfl
      · exact Or.inl rfl
      · exact Or.inr ⟨by omega, minInside, Lib.HeapOrder.parent_left i⟩
    · exact Or.inr ⟨by omega, minInside, Lib.HeapOrder.parent_right i⟩
  · intro j positive insideJ under
    rcases Lib.HeapOrder.eq_child_of_parent_eq positive under with rfl | rfl
    · exact lower.trans (firstLeft insideJ)
    · exact right insideJ

/-- `heapify` repairs the order below cell `i` and keeps the ids. -/
theorem heapify_returns {start : Nat} (budget : Nat) :
    ∀ (heap : HeapQueue) (i : Nat), heap.curSize ≤ heapSize → i < heap.curSize → start ≤ i →
      heap.curSize - i ≤ budget → Lib.HeapOrder.SiftDown start heap.curSize heap.data i →
      Exec.Returns (heapify heap i) fun heap' =>
        heap'.curSize = heap.curSize ∧
        Lib.HeapOrder.OrderedFrom start heap.curSize heap'.data ∧ heap'.ids = heap.ids := by
  induction budget with
  | zero =>
      intro heap i _ inside _ bound _
      omega
  | succ budget ih =>
      intro heap i fits inside after bound state
      rw [heapify]
      apply (heapifyMin_returns fits inside).bind
      intro min post
      rcases post with ⟨place, lower, least⟩
      split
      · rename_i settled
        subst settled
        exact .pure ⟨rfl, state.finish least, rfl⟩
      · rename_i moved
        obtain ⟨positive, minInside, child⟩ := place.resolve_left moved
        have down := Lib.HeapOrder.parent_lt positive
        rw [heapSwap_of_lt (by omega) (by omega), pure_bind]
        have next := state.exchange after positive minInside child lower least
        apply (ih { heap with data := swap heap.data i min } min fits minInside (by omega)
          (by dsimp only; omega) next).mono
        intro heap' post
        rcases post with ⟨size, ordered, same⟩
        refine ⟨size, ordered, ?_⟩
        rw [same]
        exact Lib.HeapOrder.items_swap inside minInside

end Heapify

/-! ## The three operations -/

section Operations

variable {heap : HeapQueue}

/-- The loop of `heap_build` orders the heap from the middle to the root; its counter
wraps past the root and ends the loop. -/
theorem heapBuildLoop_returns (i : Nat) :
    ∀ heap : HeapQueue, heap.curSize ≤ heapSize → i < heap.curSize →
      Lib.HeapOrder.OrderedFrom (i + 1) heap.curSize heap.data →
      Exec.Returns (heapBuildLoop heap i) fun heap' =>
        heap'.curSize = heap.curSize ∧
        Lib.HeapOrder.Ordered heap.curSize heap'.data ∧ heap'.ids = heap.ids := by
  induction i with
  | zero =>
      intro heap fits inside ordered
      rw [heapBuildLoop, if_pos inside]
      apply (heapify_returns _ heap 0 fits inside le_rfl le_rfl (.of_orderedFrom ordered)).bind
      intro heap' post
      rcases post with ⟨size, ordered', same⟩
      have wrapped : ¬ (0 + (2 ^ 64 - 1)) % 2 ^ 64 < heap'.curSize := by
        rw [size]
        unfold heapSize maxFlows at fits
        omega
      rw [heapBuildLoop, if_neg wrapped]
      exact .pure ⟨size, ordered', same⟩
  | succ i ih =>
      intro heap fits inside ordered
      rw [heapBuildLoop, if_pos inside]
      apply (heapify_returns _ heap (i + 1) fits inside le_rfl le_rfl
        (.of_orderedFrom ordered)).bind
      intro heap' post
      rcases post with ⟨size, ordered', same⟩
      have counter : (i + 1 + (2 ^ 64 - 1)) % 2 ^ 64 = i := by
        unfold heapSize maxFlows at fits
        omega
      rw [counter]
      apply (ih heap' (by omega) (by omega) (by rw [size]; exact ordered')).mono
      intro heap'' post
      rcases post with ⟨size', ordered'', same'⟩
      exact ⟨size'.trans size, by rw [← size]; exact ordered'', same'.trans same⟩

/-- `heap_build` makes a valid heap of the first `size` cells. -/
theorem heapBuild_returns {size : Nat} (fits : size ≤ heapSize) :
    Exec.Returns (heapBuild heap size) fun heap' =>
      heap'.Valid ∧ heap'.ids = items size heap.data := by
  unfold heapBuild
  split
  · rename_i small
    refine .pure ⟨⟨fits, ?_⟩, rfl⟩
    intro j positive inside _
    dsimp only at inside
    omega
  · rename_i large
    have leaves : Lib.HeapOrder.OrderedFrom (size / 2 - 1 + 1) size heap.data := by
      intro j positive inside bound
      unfold parent at bound
      omega
    apply (heapBuildLoop_returns (size / 2 - 1) { heap with curSize := size } fits
      (by dsimp only; omega) leaves).mono
    intro heap' post
    rcases post with ⟨same, ordered, ids⟩
    refine ⟨⟨?_, ?_⟩, ids⟩
    · rw [same]
      exact fits
    · rw [same]
      exact ordered

theorem heapDecreaseLoop_returns (budget : Nat) :
    ∀ (heap : HeapQueue) (index : Nat), heap.curSize ≤ heapSize → index < heap.curSize →
      index ≤ budget → Lib.HeapOrder.SiftUp heap.curSize heap.data index →
      Exec.Returns (heapDecreaseLoop heap index) fun heap' =>
        heap'.curSize = heap.curSize ∧
        Lib.HeapOrder.Ordered heap.curSize heap'.data ∧ heap'.ids = heap.ids := by
  induction budget with
  | zero =>
      intro heap index _ _ bound state
      rw [heapDecreaseLoop, if_neg (by omega)]
      exact .pure ⟨rfl, state.finish (fun positive => by omega), rfl⟩
  | succ budget ih =>
      intro heap index fits inside bound state
      rw [heapDecreaseLoop]
      split
      · rename_i positive
        have up := Lib.HeapOrder.parent_lt positive
        rw [heapKey_of_lt (by omega), heapKey_of_lt (by omega), pure_bind, pure_bind]
        split
        · rename_i smaller
          rw [heapSwap_of_lt (by omega) (by omega), pure_bind]
          have next := state.exchange positive inside smaller.le
          apply (ih { heap with data := swap heap.data index (parent index) } (parent index) fits
            (up.trans inside) (by omega) next).mono
          intro heap' post
          rcases post with ⟨size, ordered, same⟩
          refine ⟨size, ordered, ?_⟩
          rw [same]
          exact Lib.HeapOrder.items_swap inside (up.trans inside)
        · rename_i settled
          exact .pure ⟨rfl, state.finish (fun _ => not_lt.mp settled), rfl⟩
      · rename_i root
        exact .pure ⟨rfl, state.finish (fun positive => absurd positive root), rfl⟩

/-- `heap_push` adds the item, unless the heap is full. -/
theorem heapPush_returns (valid : heap.Valid) (room : heap.curSize < heapSize) (item : Int) :
    Exec.Returns (heapPush heap item) fun heap' =>
      heap'.Valid ∧ heap'.ids = item ::ₘ heap.ids := by
  have below : ∀ i < heap.curSize,
      Function.update heap.data heap.curSize item i = heap.data i :=
    fun i inside => Function.update_of_ne (by omega) _ _
  have written : heapPush heap item = heapDecreaseLoop
      ⟨heap.curSize + 1, Function.update heap.data heap.curSize item⟩ heap.curSize := by
    unfold heapPush heapDecrease
    rw [if_pos room, heapKey_of_lt room, pure_bind,
      if_neg (by simp), Function.update_idem]
  rw [written]
  have state : Lib.HeapOrder.SiftUp (heap.curSize + 1)
      (Function.update heap.data heap.curSize item) heap.curSize := by
    constructor
    · intro j positive inside other
      have up := Lib.HeapOrder.parent_lt positive
      rw [below j (by omega), below (parent j) (by omega)]
      exact valid.ordered j positive (by omega) (Nat.zero_le _)
    · intro _ j positive inside under
      have up := Lib.HeapOrder.parent_lt positive
      omega
  apply (heapDecreaseLoop_returns heap.curSize
    ⟨heap.curSize + 1, Function.update heap.data heap.curSize item⟩ heap.curSize
    (by dsimp only; omega) (by dsimp only; omega) le_rfl state).mono
  intro heap' post
  rcases post with ⟨size, ordered, same⟩
  refine ⟨⟨?_, ?_⟩, ?_⟩
  · rw [size]
    exact room
  · rw [size]
    exact ordered
  · rw [same]
    unfold HeapQueue.ids
    dsimp only
    rw [Lib.HeapOrder.items_succ, Function.update_self, Lib.HeapOrder.items_congr below]

theorem heapPush_of_full (full : heap.curSize = heapSize) (item : Int) :
    heapPush heap item = throw .heapOverflow := by
  unfold heapPush
  rw [if_neg (by omega)]

/-- `heap_pop` on an empty heap returns `0` and changes nothing. -/
theorem heapPop_of_empty (empty : heap.ids = 0) : heapPop heap = pure (0, heap) := by
  have size : heap.curSize = 0 := by rw [← heap.card_ids, empty, Multiset.card_zero]
  unfold heapPop
  rw [if_pos size]

/-- `heap_pop` on a non-empty heap returns its least id and removes one occurrence of
it. -/
theorem heapPop_returns (valid : heap.Valid) (filled : heap.ids ≠ 0) :
    Exec.Returns (heapPop heap) fun result =>
      result.2.Valid ∧ heap.ids = result.1 ::ₘ result.2.ids ∧ ∀ id ∈ heap.ids, result.1 ≤ id := by
  have positive : heap.curSize ≠ 0 := by
    intro zero
    apply filled
    rw [← Multiset.card_eq_zero, heap.card_ids, zero]
  have fits := valid.fits
  obtain ⟨last, size⟩ := Nat.exists_eq_succ_of_ne_zero positive
  have least : ∀ id ∈ heap.ids, heap.data 0 ≤ id := by
    intro id member
    obtain ⟨i, inside, rfl⟩ := Lib.HeapOrder.mem_items.mp member
    exact valid.ordered.root_le inside
  have taken : heap.ids = heap.data 0 ::ₘ items last (swap heap.data 0 last) := by
    unfold HeapQueue.ids
    rw [← Lib.HeapOrder.items_swap (x := 0) (y := last) (by omega) (by omega), size,
      Nat.succ_eq_add_one, Lib.HeapOrder.items_succ, Lib.HeapOrder.swap_right]
  unfold heapPop
  rw [if_neg positive, heapKey_of_lt (by omega), pure_bind]
  simp only [size, Nat.succ_eq_add_one, Nat.add_sub_cancel]
  split
  · rename_i single
    subst single
    refine .pure ⟨⟨Nat.zero_le _, ?_⟩, taken, least⟩
    intro j _ inside
    dsimp only at inside
    omega
  · rename_i more
    rw [heapSwap_of_lt (by omega) (by omega), pure_bind]
    have state : Lib.HeapOrder.SiftDown 0 last (swap heap.data 0 last) 0 := by
      apply Lib.HeapOrder.SiftDown.of_orderedFrom
      intro j positiveJ inside bound
      have up := Lib.HeapOrder.parent_lt positiveJ
      rw [Lib.HeapOrder.swap_of_ne (by omega) (by omega),
        Lib.HeapOrder.swap_of_ne (by omega) (by omega)]
      exact valid.ordered j positiveJ (by omega) (Nat.zero_le _)
    apply (heapify_returns _ ⟨last, swap heap.data 0 last⟩ 0 (by dsimp only; omega)
      (by dsimp only; omega) le_rfl le_rfl state).bind
    intro heap' post
    rcases post with ⟨size', ordered, same⟩
    refine .pure ⟨⟨?_, ?_⟩, ?_, least⟩
    · rw [size']
      dsimp only
      omega
    · rw [size']
      exact ordered
    · rw [same]
      exact taken

end Operations

/-! ## The heap as a priority queue -/

/-- A call after `heap_build`. -/
inductive HeapCall
  | push (item : Int)
  | pop
  deriving DecidableEq, Repr

/-- A call, with the item that `heap_pop` returns. -/
def HeapCall.run (heap : HeapQueue) : HeapCall → Outcome (Option Int × HeapQueue)
  | .push item => do
      let heap ← heapPush heap item
      pure (none, heap)
  | .pop => do
      let (result, heap) ← heapPop heap
      pure (some result, heap)

def heapStep (heap : HeapQueue) (call : HeapCall) : Outcome HeapQueue :=
  Prod.snd <$> call.run heap

/-- A push finds fewer than `HEAPSIZE` items. -/
def HeapCall.Admissible (heap : HeapQueue) : HeapCall → Prop
  | .push _ => heap.ids.card < heapSize
  | .pop => True

/-- What a call does to the multiset of items. -/
inductive HeapCall.Effect (heap : HeapQueue) : HeapCall → Option Int × HeapQueue → Prop
  | push {item : Int} {heap' : HeapQueue} (ids : heap'.ids = item ::ₘ heap.ids) :
      Effect heap (.push item) (none, heap')
  | popEmpty (empty : heap.ids = 0) : Effect heap .pop (some 0, heap)
  | pop {least : Int} {heap' : HeapQueue} (member : least ∈ heap.ids)
      (minimal : ∀ item ∈ heap.ids, least ≤ item) (ids : heap'.ids = heap.ids.erase least) :
      Effect heap .pop (some least, heap')

/-- A call on a valid heap returns a valid heap. -/
theorem HeapCall.run_returns {heap : HeapQueue} (valid : heap.Valid) {call : HeapCall}
    (admissible : call.Admissible heap) :
    Exec.Returns (call.run heap) fun result => result.2.Valid ∧ call.Effect heap result := by
  cases call with
  | push item =>
      have room : heap.curSize < heapSize := heap.card_ids ▸ admissible
      apply (heapPush_returns valid room item).bind
      intro heap' facts
      exact .pure ⟨facts.1, .push facts.2⟩
  | pop =>
      by_cases empty : heap.ids = 0
      · unfold HeapCall.run
        rw [heapPop_of_empty empty, pure_bind]
        exact .pure ⟨valid, .popEmpty empty⟩
      · apply (heapPop_returns valid empty).bind
        intro result facts
        obtain ⟨valid', taken, least⟩ := facts
        refine .pure ⟨valid', .pop ?_ least ?_⟩
        · rw [taken]
          exact Multiset.mem_cons_self _ _
        · rw [taken, Multiset.erase_cons_head]

/-- `heap_build` orders any array contents, and every later sequence of calls is one of a
priority queue. -/
theorem heap_is_priority_queue (heap : HeapQueue) (size : Nat) (fits : size ≤ heapSize)
    (calls : List HeapCall) :
    Exec.Returns (heapBuild heap size) fun built =>
      built.ids = items size heap.data ∧
      Lib.HeapOrder.Ordered built.curSize built.data ∧
      (Lib.AllSteps heapStep HeapCall.Admissible built calls →
        Lib.AllSteps heapStep
          (fun heap call => Exec.Returns (call.run heap) fun result =>
            Lib.HeapOrder.Ordered result.2.curSize result.2.data ∧ call.Effect heap result)
          built calls) := by
  apply (heapBuild_returns fits).mono
  intro built facts
  obtain ⟨valid, ids⟩ := facts
  refine ⟨ids, valid.ordered, fun admissible => ?_⟩
  refine Lib.AllSteps.of_invariant (I := HeapQueue.Valid) ?_ ?_ valid admissible
  · intro heap call heap' valid met stepped
    have returned := HeapCall.run_returns valid met
    exact (returned.mono fun _ facts => facts.1).map.of_pure stepped
  · intro heap call valid met
    exact (HeapCall.run_returns valid met).mono fun _ facts => ⟨facts.1.ordered, facts.2⟩

theorem heap_is_priority_queue_push_pop :
    Exec.Returns (heapBuild ⟨0, fun i => 7 - i⟩ 3) fun built =>
      Lib.AllSteps heapStep
        (fun heap call => Exec.Returns (call.run heap) fun result =>
          Lib.HeapOrder.Ordered result.2.curSize result.2.data ∧ call.Effect heap result)
        built [.push 6, .pop] := by
  apply (heap_is_priority_queue ⟨0, fun i => 7 - i⟩ 3 (by decide) [.push 6, .pop]).mono
  intro built facts
  obtain ⟨ids, _, steps⟩ := facts
  have room : built.ids.card < heapSize := by
    rw [ids, Lib.HeapOrder.card_items]
    decide
  exact steps ⟨room, fun _ _ => ⟨True.intro, fun _ _ => True.intro⟩⟩

end Marina
