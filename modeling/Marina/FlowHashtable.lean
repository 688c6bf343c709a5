import Marina.HashIndex

/-!
# The flow hash table

The table of `controller/datastructures/flow_hashtable.c`: live flows keyed by the `h`
part of their five-tuple, each with its flow id, and the reverse map from a flow id to
the entry that holds it.

`FlowHashtable.Valid` is the table's invariant and `FlowHashtable.bindings` the flows
it holds. Each operation has one specification per outcome, in terms of the bindings
alone; nothing later unfolds an operation.
-/

namespace Marina

open Lib (Exec)
open Lib.LinearProbing

@[irreducible] def flowHashtableSize : Nat := maxFlows * numPipes * flowHashtableMultiplier

structure FlowHashtable where
  numEntries : Nat
  entries : Nat → Slot FiveTuple Int UInt32
  featureIndexToEntryMap : Int → Int

/-- The table compares and hashes the `h` part of a key. -/
def flowLayout (env : Env) : Layout FiveTuple FiveTupleForHash UInt32 :=
  tableLayout flowHashtableSize 23 hashBits_narrow
    (by norm_num [flowHashtableSize, maxFlows, numPipes, flowHashtableMultiplier])
    FiveTuple.h env.murmurFlow

def flowHashtableInit : FlowHashtable where
  numEntries := 0
  entries _ := ⟨.zero, 0, 0, false⟩
  featureIndexToEntryMap _ := -1

def flowHashtableHashKey (env : Env) (key : FiveTuple) : UInt32 := env.murmurFlow key.h

/-- `get_hashtable_index`: whether the key was found, and the index it left off at. The
loop of `flow_hashtable_add` visits the same slots and stops at the same one. -/
def flowGetHashtableIndex (env : Env) (table : FlowHashtable) (key : FiveTuple)
    (hash : UInt32) : Outcome (Bool × Nat) :=
  probe (flowLayout env) table.entries key.h hash (hash2Index flowHashtableSize hash)

/-- `flow_hashtable_add`, with its return code. -/
def flowHashtableAdd (env : Env) (table : FlowHashtable) (key : FiveTuple) (value : Int) :
    Outcome (Int × FlowHashtable) :=
  if table.numEntries = flowHashtableSize then
    pure (1, table)
  else do
    let hash := flowHashtableHashKey env key
    let (found, index) ← flowGetHashtableIndex env table key hash
    if found then
      pure (1, table)
    else
      pure (0,
        { numEntries := table.numEntries + 1
          entries := Function.update table.entries index ⟨key, value, hash, true⟩
          featureIndexToEntryMap :=
            Function.update table.featureIndexToEntryMap value index })

/-- `flow_hashtable_get`: the value of a known key, and `none` for return code `1`. -/
def flowHashtableGet (env : Env) (table : FlowHashtable) (key : FiveTuple) :
    Outcome (Option Int) := do
  let (found, index) ← flowGetHashtableIndex env table key (flowHashtableHashKey env key)
  if found then pure (some (table.entries index).value) else pure none

/-- One move of the loop of `remove_by_index`. -/
def FlowHashtable.move (table : FlowHashtable) (index emptyIndex : Nat) : FlowHashtable :=
  { table with
    entries := moveSlot table.entries index emptyIndex
    featureIndexToEntryMap :=
      Function.update table.featureIndexToEntryMap (table.entries index).value emptyIndex }

def flowMover : Mover FlowHashtable FiveTuple Int UInt32 where
  slots := FlowHashtable.entries
  move := FlowHashtable.move
  slots_move _ _ _ := rfl

/-- `remove_by_index` before its loop. -/
def FlowHashtable.clear (table : FlowHashtable) (index : Nat) : FlowHashtable where
  numEntries := table.numEntries - 1
  entries := Function.update table.entries index
    { table.entries index with hash := 0, occupied := false }
  featureIndexToEntryMap :=
    Function.update table.featureIndexToEntryMap (table.entries index).value (-1)

def flowRemoveByIndex (env : Env) (table : FlowHashtable) (index : Nat) :
    Outcome FlowHashtable :=
  backShift (flowLayout env) flowMover (table.clear index) index index

/-- `flow_hashtable_remove`: the value of the removed key, and `none` for return
code `1`. -/
def flowHashtableRemove (env : Env) (table : FlowHashtable) (key : FiveTuple) :
    Outcome (Option Int × FlowHashtable) := do
  let (found, index) ← flowGetHashtableIndex env table key (flowHashtableHashKey env key)
  if found then do
    let value := (table.entries index).value
    let table ← flowRemoveByIndex env table index
    pure (some value, table)
  else
    pure (none, table)

/-- `flow_hashtable_remove_by_value`: the key of the removed value, and `none` for
return code `1`. -/
def flowHashtableRemoveByValue (env : Env) (table : FlowHashtable) (value : Int) :
    Outcome (Option FiveTuple × FlowHashtable) :=
  if table.featureIndexToEntryMap value = -1 then
    pure (none, table)
  else do
    let index := (table.featureIndexToEntryMap value).toNat
    let key := (table.entries index).key
    let table ← flowRemoveByIndex env table index
    pure (some key, table)

/-! ## The invariant -/

/-- The flows the table holds, with their ids. -/
def FlowHashtable.bindings (table : FlowHashtable) : Multiset (FiveTuple × Int) :=
  live flowHashtableSize table.entries

structure FlowHashtable.Valid (env : Env) (table : FlowHashtable) : Prop where
  wf : Wf (flowLayout env) table.entries
  indexed : Indexed flowHashtableSize table.entries table.featureIndexToEntryMap
  count : table.numEntries = table.bindings.card

theorem flowHashtableInit_bindings : flowHashtableInit.bindings = 0 :=
  live_eq_zero fun _ _ => rfl

theorem flowHashtableInit_valid (env : Env) : flowHashtableInit.Valid env where
  wf := .of_empty fun _ _ => rfl
  indexed := .of_empty (fun _ _ => rfl) fun _ => rfl
  count := by rw [flowHashtableInit_bindings, Multiset.card_zero]; rfl

/-! ## Specifications of the operations -/

section Operations

variable {env : Env} {table : FlowHashtable} {key : FiveTuple} {value : Int}
  {binding : FiveTuple × Int}

namespace FlowHashtable

/-- A flow has one binding. -/
theorem Valid.key_unique (valid : table.Valid env) {a b : FiveTuple × Int}
    (ha : a ∈ table.bindings) (hb : b ∈ table.bindings) (same : a.1.h = b.1.h) : a = b :=
  valid.wf.binding_unique ha hb same

theorem Valid.nodup (valid : table.Valid env) : table.bindings.Nodup := valid.wf.live_nodup

/-- A flow id has one binding. -/
theorem Valid.value_unique (valid : table.Valid env) {a b : FiveTuple × Int}
    (ha : a ∈ table.bindings) (hb : b ∈ table.bindings) (same : a.2 = b.2) : a = b :=
  valid.indexed.binding_unique ha hb same

end FlowHashtable

/-- A known key is found at the slot of its binding. -/
theorem flowGetHashtableIndex_of_mem (valid : table.Valid env) (member : binding ∈ table.bindings)
    (known : binding.1.h = key.h) :
    ∃ i < flowHashtableSize, (table.entries i).occupied = true ∧
      (table.entries i).key = binding.1 ∧ (table.entries i).value = binding.2 ∧
      flowGetHashtableIndex env table key (flowHashtableHashKey env key) = pure (true, i) := by
  obtain ⟨i, inside, occupied, keyAt, valueAt⟩ := mem_live.mp member
  refine ⟨i, inside, occupied, keyAt, valueAt, ?_⟩
  refine probe_of_occupied valid.wf inside occupied ?_
  change (table.entries i).key.h = key.h
  rw [keyAt, known]

/-- An unknown key leads to the unoccupied slot it belongs in. -/
theorem flowGetHashtableIndex_of_absent (env : Env) (room : table.bindings.card < flowHashtableSize)
    (absent : ∀ b ∈ table.bindings, b.1.h ≠ key.h) :
    ∃ i < flowHashtableSize,
      flowGetHashtableIndex env table key (flowHashtableHashKey env key) = pure (false, i) ∧
      (table.entries i).occupied = false ∧
      ∀ x < flowHashtableSize,
        Lib.Cyclic.ahead flowHashtableSize ((flowLayout env).home (env.murmurFlow key.h)) x <
          Lib.Cyclic.ahead flowHashtableSize ((flowLayout env).home (env.murmurFlow key.h)) i →
        (table.entries x).occupied = true :=
  probe_of_absent (L := flowLayout env) room fun _ inside occupied part =>
    absent _ (entry_mem_live inside occupied) part

/-- A new flow is bound. -/
theorem flowHashtableAdd_of_absent (valid : table.Valid env)
    (room : table.bindings.card < flowHashtableSize)
    (absent : ∀ b ∈ table.bindings, b.1.h ≠ key.h)
    (fresh : ∀ b ∈ table.bindings, b.2 ≠ value) :
    Exec.Returns (flowHashtableAdd env table key value) fun result =>
      result.1 = 0 ∧ result.2.Valid env ∧
      result.2.bindings = (key, value) ::ₘ table.bindings := by
  obtain ⟨i, inside, index, free, walk⟩ := flowGetHashtableIndex_of_absent env room absent
  unfold flowHashtableAdd
  rw [if_neg (by rw [valid.count]; omega)]
  simp only [index, pure_bind, Bool.false_eq_true, if_false]
  have bound := live_insert inside free ⟨key, value, flowHashtableHashKey env key, true⟩ rfl
  refine .pure ⟨rfl, ⟨?_, ?_, ?_⟩, bound⟩
  · refine valid.wf.insert inside rfl rfl walk ?_
    intro j hj occupied
    exact absent _ (entry_mem_live hj occupied)
  · exact valid.indexed.insert inside free rfl ((valid.indexed.eq_neg_one_iff value).mpr fresh)
  · unfold FlowHashtable.bindings
    dsimp only
    rw [bound, Multiset.card_cons, valid.count]
    rfl

/-- A known flow is left alone. -/
theorem flowHashtableAdd_of_mem (valid : table.Valid env) (member : binding ∈ table.bindings)
    (known : binding.1.h = key.h) : flowHashtableAdd env table key value = pure (1, table) := by
  obtain ⟨i, _, _, _, _, index⟩ := flowGetHashtableIndex_of_mem valid member known
  unfold flowHashtableAdd
  split
  · rfl
  · simp only [index, pure_bind, if_true]

theorem flowHashtableGet_of_mem (valid : table.Valid env) (member : binding ∈ table.bindings)
    (known : binding.1.h = key.h) : flowHashtableGet env table key = pure (some binding.2) := by
  obtain ⟨i, _, _, _, valueAt, index⟩ := flowGetHashtableIndex_of_mem valid member known
  unfold flowHashtableGet
  simp only [index, pure_bind, if_true, valueAt]

theorem flowHashtableGet_of_absent (room : table.bindings.card < flowHashtableSize)
    (absent : ∀ b ∈ table.bindings, b.1.h ≠ key.h) :
    flowHashtableGet env table key = pure none := by
  obtain ⟨i, _, index, _⟩ := flowGetHashtableIndex_of_absent env room absent
  unfold flowHashtableGet
  simp only [index, pure_bind, Bool.false_eq_true, if_false]

/-- Removing by index takes away the binding at that index. -/
theorem flowRemoveByIndex_returns (valid : table.Valid env) {i : Nat}
    (inside : i < flowHashtableSize) (occupied : (table.entries i).occupied = true) :
    Exec.Returns (flowRemoveByIndex env table i) fun table' =>
      table'.Valid env ∧
      table.bindings = ((table.entries i).key, (table.entries i).value) ::ₘ table'.bindings := by
  have removed := backShift_of_clear (L := flowLayout env) (M := flowMover) (ε := Fault)
    (P := fun t => Indexed flowHashtableSize t.entries t.featureIndexToEntryMap ∧
      t.numEntries = table.numEntries - 1)
    (fun t src dst hsrc hdst held free keeps =>
      ⟨keeps.1.move hsrc hdst held free, keeps.2⟩)
    valid.wf inside occupied
    { table.entries i with hash := 0, occupied := false } rfl
    (t := table.clear i) rfl ⟨valid.indexed.clear inside occupied rfl, rfl⟩
  apply removed.mono
  intro table' post
  rcases post with ⟨wf, bindings, indexed, count⟩
  refine ⟨⟨wf, indexed, ?_⟩, bindings⟩
  have card := congrArg Multiset.card bindings
  rw [Multiset.card_cons] at card
  rw [count, valid.count]
  change (live flowHashtableSize table.entries).card - 1 = _
  change (live flowHashtableSize table.entries).card = _ at card
  rw [card, Nat.add_sub_cancel]
  rfl

theorem flowHashtableRemove_of_mem (valid : table.Valid env) (member : binding ∈ table.bindings)
    (known : binding.1.h = key.h) :
    Exec.Returns (flowHashtableRemove env table key) fun result =>
      result.1 = some binding.2 ∧ result.2.Valid env ∧
      table.bindings = binding ::ₘ result.2.bindings := by
  obtain ⟨i, inside, occupied, keyAt, valueAt, index⟩ :=
    flowGetHashtableIndex_of_mem valid member known
  unfold flowHashtableRemove
  simp only [index, pure_bind, if_true]
  apply (flowRemoveByIndex_returns valid inside occupied).bind
  intro table' post
  rcases post with ⟨valid', bindings⟩
  rw [keyAt, valueAt] at bindings
  exact .pure ⟨congrArg some valueAt, valid', bindings⟩

theorem flowHashtableRemove_of_absent (room : table.bindings.card < flowHashtableSize)
    (absent : ∀ b ∈ table.bindings, b.1.h ≠ key.h) :
    flowHashtableRemove env table key = pure (none, table) := by
  obtain ⟨i, _, index, _⟩ := flowGetHashtableIndex_of_absent env room absent
  unfold flowHashtableRemove
  simp only [index, pure_bind, Bool.false_eq_true, if_false]

theorem flowHashtableRemoveByValue_of_mem (valid : table.Valid env)
    (member : binding ∈ table.bindings) :
    Exec.Returns (flowHashtableRemoveByValue env table binding.2) fun result =>
      result.1 = some binding.1 ∧ result.2.Valid env ∧
      table.bindings = binding ::ₘ result.2.bindings := by
  obtain ⟨i, inside, occupied, keyAt, valueAt⟩ := mem_live.mp member
  have place : table.featureIndexToEntryMap binding.2 = i := by
    rw [← valueAt]
    exact valid.indexed.of_slot i inside occupied
  unfold flowHashtableRemoveByValue
  rw [place, if_neg (by omega), Int.toNat_natCast]
  apply (flowRemoveByIndex_returns valid inside occupied).bind
  intro table' post
  rcases post with ⟨valid', bindings⟩
  rw [keyAt, valueAt] at bindings
  exact .pure ⟨congrArg some keyAt, valid', bindings⟩

theorem flowHashtableRemoveByValue_of_absent (valid : table.Valid env)
    (absent : ∀ b ∈ table.bindings, b.2 ≠ value) :
    flowHashtableRemoveByValue env table value = pure (none, table) := by
  unfold flowHashtableRemoveByValue
  rw [if_pos ((valid.indexed.eq_neg_one_iff value).mpr absent)]

/-- A flow that is added and removed again leaves the reverse map as it was: it took the
first unoccupied slot on its walk, so no other flow has to move back into it. -/
theorem flowHashtableAdd_undone (valid : table.Valid env)
    (room : table.bindings.card < flowHashtableSize)
    (absent : ∀ b ∈ table.bindings, b.1.h ≠ key.h)
    (fresh : ∀ b ∈ table.bindings, b.2 ≠ value) :
    Exec.Returns (flowHashtableAdd env table key value) fun added =>
      Exec.Returns (flowHashtableRemoveByValue env added.2 value) fun removed =>
        removed.2.featureIndexToEntryMap = table.featureIndexToEntryMap := by
  obtain ⟨i, inside, index, free, _⟩ := flowGetHashtableIndex_of_absent env room absent
  unfold flowHashtableAdd
  rw [if_neg (by rw [valid.count]; omega)]
  simp only [index, pure_bind, Bool.false_eq_true, if_false]
  refine .pure ?_
  unfold flowHashtableRemoveByValue
  dsimp only
  rw [if_neg (by rw [Function.update_self]; omega), Function.update_self, Int.toNat_natCast]
  unfold flowRemoveByIndex
  have same : ∀ j, ∀ slot : Slot FiveTuple Int UInt32, slot.occupied = false →
      (Function.update table.entries i slot j).occupied = (table.entries j).occupied ∧
      ((table.entries j).occupied = true →
        Function.update table.entries i slot j = table.entries j) := by
    intro j slot empty
    by_cases here : j = i
    · subst here
      rw [Function.update_self, empty, free]
      exact ⟨rfl, fun occupied => by cases occupied⟩
    · rw [Function.update_of_ne here]
      exact ⟨rfl, fun _ => rfl⟩
  have paths : ∀ slot : Slot FiveTuple Int UInt32, slot.occupied = false →
      PathsOccupied (flowLayout env) (Function.update table.entries i slot) none := by
    intro slot empty j hj occupied x hx between notHole
    rw [(same j slot empty).1] at occupied
    rw [(same j slot empty).2 occupied] at between
    rw [(same x slot empty).1]
    exact valid.wf.paths j hj occupied x hx between notHole
  have settled : ∀ t : FlowHashtable, ∀ slot : Slot FiveTuple Int UInt32,
      slot.occupied = false → t.entries = Function.update table.entries i slot →
      (backShift (flowLayout env) flowMover t i i : Outcome FlowHashtable) = pure t := by
    intro t slot empty entries
    refine backShift_of_settled (M := flowMover) (t := t) inside ?_ ?_ _ i inside rfl
    · change (t.entries i).occupied = false
      rw [entries, Function.update_self]
      exact empty
    · change PathsOccupied _ t.entries none
      rw [entries]
      exact paths slot empty
  rw [settled _ ⟨key, value, 0, false⟩ rfl (by
    unfold FlowHashtable.clear
    dsimp only
    rw [Function.update_self, Function.update_idem]), pure_bind]
  refine .pure ?_
  unfold FlowHashtable.clear
  dsimp only
  rw [Function.update_self, Function.update_idem,
    ← (valid.indexed.eq_neg_one_iff value).mpr fresh, Function.update_eq_self]

end Operations

end Marina
