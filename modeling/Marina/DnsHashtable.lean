import Marina.HashIndex

/-!
# The DNS hash table

The table of `controller/datastructures/dns_hashtable.c`: addresses learned from DNS
answers, each with the time its entry expires. Keys are compared and hashed as raw
structures, so the address family is part of a key. The hash is a parameter of every
operation.

`DnsHashtable.Valid` is the table's invariant and `DnsHashtable.bindings` the entries it
holds. Every operation has one specification per outcome in terms of the bindings,
among them the outcomes of a table without a free slot: there a lookup of an absent key
never returns, and `dns_hashtable_add_or_change` changes nothing.
-/

namespace Marina

open Lib (Exec)
open Lib.LinearProbing

@[irreducible] def dnsHashtableSize : Nat := 1 <<< 16

/-- `dns_hashtable_key_t`, whose bytes are compared and hashed as a whole. -/
structure DnsHashtableKey where
  type : UInt32
  address : Address
  deriving DecidableEq, Repr

/-- `dns_hashtable_key_t key = {0}`. -/
def DnsHashtableKey.zero : DnsHashtableKey := ⟨0, .zero⟩

structure DnsHashtable where
  numEntries : Nat
  entries : Nat → Slot DnsHashtableKey Int UInt32

def dnsLayout (murmur : DnsHashtableKey → UInt32) :
    Layout DnsHashtableKey DnsHashtableKey UInt32 :=
  tableLayout dnsHashtableSize 16 (by norm_num) (by unfold dnsHashtableSize; decide) id murmur

def dnsHashtableInit : DnsHashtable where
  numEntries := 0
  entries _ := ⟨.zero, 0, 0, false⟩

/-- `get_hashtable_index`: whether the key was found, and the index it left off at. -/
def dnsGetHashtableIndex (murmur : DnsHashtableKey → UInt32) (table : DnsHashtable)
    (key : DnsHashtableKey) (hash : UInt32) : Outcome (Bool × Nat) :=
  probe (dnsLayout murmur) table.entries key hash (hash2Index dnsHashtableSize hash)

/-- `dns_hashtable_add_or_change`, with its return code. -/
def dnsHashtableAddOrChange (murmur : DnsHashtableKey → UInt32) (table : DnsHashtable)
    (key : DnsHashtableKey) (value : Int) : Outcome (Int × DnsHashtable) :=
  if table.numEntries = dnsHashtableSize then
    pure (1, table)
  else do
    let hash := murmur key
    let (found, index) ← dnsGetHashtableIndex murmur table key hash
    if found then
      pure (0,
        { table with
          entries := Function.update table.entries index
            { table.entries index with value := value } })
    else
      pure (0,
        { numEntries := table.numEntries + 1
          entries := Function.update table.entries index ⟨key, value, hash, true⟩ })

/-- `dns_hashtable_get`: the value of a known key, and `none` for return code `1`. -/
def dnsHashtableGet (murmur : DnsHashtableKey → UInt32) (table : DnsHashtable)
    (key : DnsHashtableKey) : Outcome (Option Int) := do
  let (found, index) ← dnsGetHashtableIndex murmur table key (murmur key)
  if found then pure (some (table.entries index).value) else pure none

def dnsMover : Mover DnsHashtable DnsHashtableKey Int UInt32 where
  slots := DnsHashtable.entries
  move table index emptyIndex :=
    { table with entries := moveSlot table.entries index emptyIndex }
  slots_move _ _ _ := rfl

/-- `dns_hashtable_remove` before its loop. Other than the flow hash table it leaves the
hash of the removed entry in place. -/
def DnsHashtable.clear (table : DnsHashtable) (index : Nat) : DnsHashtable where
  numEntries := table.numEntries - 1
  entries := Function.update table.entries index
    { table.entries index with occupied := false }

/-- `dns_hashtable_remove`, with its return code. -/
def dnsHashtableRemove (murmur : DnsHashtableKey → UInt32) (table : DnsHashtable)
    (key : DnsHashtableKey) : Outcome (Int × DnsHashtable) := do
  let (found, index) ← dnsGetHashtableIndex murmur table key (murmur key)
  if found then do
    let table ← backShift (dnsLayout murmur) dnsMover (table.clear index) index index
    pure (0, table)
  else
    pure (1, table)

/-! ## The invariant -/

/-- The entries the table holds. -/
def DnsHashtable.bindings (table : DnsHashtable) : Multiset (DnsHashtableKey × Int) :=
  live dnsHashtableSize table.entries

structure DnsHashtable.Valid (murmur : DnsHashtableKey → UInt32) (table : DnsHashtable) :
    Prop where
  wf : Wf (dnsLayout murmur) table.entries
  count : table.numEntries = table.bindings.card

theorem dnsHashtableInit_bindings : dnsHashtableInit.bindings = 0 :=
  live_eq_zero fun _ _ => rfl

theorem dnsHashtableInit_valid (murmur : DnsHashtableKey → UInt32) :
    dnsHashtableInit.Valid murmur where
  wf := .of_empty fun _ _ => rfl
  count := by rw [dnsHashtableInit_bindings, Multiset.card_zero]; rfl

/-! ## Specifications of the operations -/

section Operations

variable {murmur : DnsHashtableKey → UInt32} {table : DnsHashtable} {key : DnsHashtableKey}
  {value old : Int}

namespace DnsHashtable

/-- A key has one binding. -/
theorem Valid.key_unique (valid : table.Valid murmur) {a b : DnsHashtableKey × Int}
    (ha : a ∈ table.bindings) (hb : b ∈ table.bindings) (same : a.1 = b.1) : a = b :=
  valid.wf.binding_unique ha hb same

theorem Valid.nodup (valid : table.Valid murmur) : table.bindings.Nodup := valid.wf.live_nodup

end DnsHashtable

/-- A known key is found at the slot of its binding. -/
theorem dnsGetHashtableIndex_of_mem (valid : table.Valid murmur)
    (member : (key, old) ∈ table.bindings) :
    ∃ i < dnsHashtableSize, (table.entries i).occupied = true ∧
      (table.entries i).key = key ∧ (table.entries i).value = old ∧
      dnsGetHashtableIndex murmur table key (murmur key) = pure (true, i) := by
  obtain ⟨i, inside, occupied, keyAt, valueAt⟩ := mem_live.mp member
  exact ⟨i, inside, occupied, keyAt, valueAt, probe_of_occupied valid.wf inside occupied keyAt⟩

/-- An unknown key leads to the unoccupied slot it belongs in. -/
theorem dnsGetHashtableIndex_of_absent (murmur : DnsHashtableKey → UInt32)
    (room : table.bindings.card < dnsHashtableSize) (absent : ∀ b ∈ table.bindings, b.1 ≠ key) :
    ∃ i < dnsHashtableSize,
      dnsGetHashtableIndex murmur table key (murmur key) = pure (false, i) ∧
      (table.entries i).occupied = false ∧
      ∀ x < dnsHashtableSize,
        Lib.Cyclic.ahead dnsHashtableSize ((dnsLayout murmur).home (murmur key)) x <
          Lib.Cyclic.ahead dnsHashtableSize ((dnsLayout murmur).home (murmur key)) i →
        (table.entries x).occupied = true :=
  probe_of_absent (L := dnsLayout murmur) room fun _ inside occupied part =>
    absent _ (entry_mem_live inside occupied) part

/-- In a full table the search for an unknown key never ends. -/
theorem dnsGetHashtableIndex_of_full (murmur : DnsHashtableKey → UInt32)
    (full : table.bindings.card = dnsHashtableSize) (absent : ∀ b ∈ table.bindings, b.1 ≠ key) :
    dnsGetHashtableIndex murmur table key (murmur key) = (none : Option _) := by
  have occupied := occupied_of_full full
  exact probe_diverges (L := dnsLayout murmur) occupied
    (fun i inside part => absent _ (entry_mem_live inside (occupied i inside)) part)
    _ ((dnsLayout murmur).home_lt _)

/-- A known key gets a new value, while the table has a free slot. -/
theorem dnsHashtableAddOrChange_of_mem (valid : table.Valid murmur)
    (room : table.bindings.card < dnsHashtableSize) (member : (key, old) ∈ table.bindings) :
    Exec.Returns (dnsHashtableAddOrChange murmur table key value) fun result =>
      result.1 = 0 ∧ result.2.Valid murmur ∧
      ∃ others, table.bindings = (key, old) ::ₘ others ∧
        result.2.bindings = (key, value) ::ₘ others := by
  obtain ⟨i, inside, occupied, keyAt, valueAt, index⟩ := dnsGetHashtableIndex_of_mem valid member
  obtain ⟨others, before, after⟩ := live_setValue inside occupied value
  rw [keyAt, valueAt] at before
  rw [keyAt] at after
  unfold dnsHashtableAddOrChange
  rw [if_neg (by rw [valid.count]; omega)]
  simp only [index, pure_bind, if_true]
  refine .pure ⟨rfl, ⟨valid.wf.setValue value, ?_⟩, others, before, after⟩
  unfold DnsHashtable.bindings
  dsimp only
  rw [after, Multiset.card_cons, valid.count, DnsHashtable.bindings, before, Multiset.card_cons]

/-- A new key is bound, while the table has a free slot. -/
theorem dnsHashtableAddOrChange_of_absent (valid : table.Valid murmur)
    (room : table.bindings.card < dnsHashtableSize) (absent : ∀ b ∈ table.bindings, b.1 ≠ key) :
    Exec.Returns (dnsHashtableAddOrChange murmur table key value) fun result =>
      result.1 = 0 ∧ result.2.Valid murmur ∧
      result.2.bindings = (key, value) ::ₘ table.bindings := by
  obtain ⟨i, inside, index, free, walk⟩ := dnsGetHashtableIndex_of_absent murmur room absent
  unfold dnsHashtableAddOrChange
  rw [if_neg (by rw [valid.count]; omega)]
  simp only [index, pure_bind, Bool.false_eq_true, if_false]
  have bound := live_insert inside free ⟨key, value, murmur key, true⟩ rfl
  refine .pure ⟨rfl, ⟨?_, ?_⟩, bound⟩
  · refine valid.wf.insert inside rfl rfl walk ?_
    intro j hj occupied
    exact absent _ (entry_mem_live hj occupied)
  · unfold DnsHashtable.bindings
    dsimp only
    rw [bound, Multiset.card_cons, valid.count]
    rfl

/-- A full table is left alone, whatever the key. -/
theorem dnsHashtableAddOrChange_of_full (valid : table.Valid murmur)
    (full : table.bindings.card = dnsHashtableSize) :
    dnsHashtableAddOrChange murmur table key value = pure (1, table) := by
  unfold dnsHashtableAddOrChange
  rw [if_pos (valid.count.trans full)]

theorem dnsHashtableGet_of_mem (valid : table.Valid murmur)
    (member : (key, old) ∈ table.bindings) :
    dnsHashtableGet murmur table key = pure (some old) := by
  obtain ⟨i, _, _, _, valueAt, index⟩ := dnsGetHashtableIndex_of_mem valid member
  unfold dnsHashtableGet
  simp only [index, pure_bind, if_true, valueAt]

theorem dnsHashtableGet_of_absent (room : table.bindings.card < dnsHashtableSize)
    (absent : ∀ b ∈ table.bindings, b.1 ≠ key) :
    dnsHashtableGet murmur table key = pure none := by
  obtain ⟨i, _, index, _⟩ := dnsGetHashtableIndex_of_absent murmur room absent
  unfold dnsHashtableGet
  simp only [index, pure_bind, Bool.false_eq_true, if_false]

/-- In a full table looking up an unknown key never returns. -/
theorem dnsHashtableGet_of_full (full : table.bindings.card = dnsHashtableSize)
    (absent : ∀ b ∈ table.bindings, b.1 ≠ key) :
    dnsHashtableGet murmur table key = (none : Option _) := by
  unfold dnsHashtableGet
  rw [dnsGetHashtableIndex_of_full murmur full absent]
  rfl

theorem dnsHashtableRemove_of_mem (valid : table.Valid murmur)
    (member : (key, old) ∈ table.bindings) :
    Exec.Returns (dnsHashtableRemove murmur table key) fun result =>
      result.1 = 0 ∧ result.2.Valid murmur ∧
      table.bindings = (key, old) ::ₘ result.2.bindings := by
  obtain ⟨i, inside, occupied, keyAt, valueAt, index⟩ := dnsGetHashtableIndex_of_mem valid member
  unfold dnsHashtableRemove
  simp only [index, pure_bind, if_true]
  have removed := backShift_of_clear (L := dnsLayout murmur) (M := dnsMover) (ε := Fault)
    (P := fun t => t.numEntries = table.numEntries - 1)
    (fun t src dst _ _ _ _ keeps => keeps)
    valid.wf inside occupied { table.entries i with occupied := false } rfl
    (t := table.clear i) rfl rfl
  apply removed.bind
  intro table' post
  rcases post with ⟨wf, bindings, count⟩
  rw [keyAt, valueAt] at bindings
  refine .pure ⟨rfl, ⟨wf, ?_⟩, bindings⟩
  have card := congrArg Multiset.card bindings
  rw [Multiset.card_cons] at card
  rw [count, valid.count]
  change (live dnsHashtableSize table.entries).card - 1 = _
  change (live dnsHashtableSize table.entries).card = _ at card
  rw [card, Nat.add_sub_cancel]
  rfl

theorem dnsHashtableRemove_of_absent (room : table.bindings.card < dnsHashtableSize)
    (absent : ∀ b ∈ table.bindings, b.1 ≠ key) :
    dnsHashtableRemove murmur table key = pure (1, table) := by
  obtain ⟨i, _, index, _⟩ := dnsGetHashtableIndex_of_absent murmur room absent
  unfold dnsHashtableRemove
  simp only [index, pure_bind, Bool.false_eq_true, if_false]

/-- In a full table removing an unknown key never returns. -/
theorem dnsHashtableRemove_of_full (full : table.bindings.card = dnsHashtableSize)
    (absent : ∀ b ∈ table.bindings, b.1 ≠ key) :
    dnsHashtableRemove murmur table key = (none : Option _) := by
  unfold dnsHashtableRemove
  rw [dnsGetHashtableIndex_of_full murmur full absent]
  rfl

/-! ## What a call that returned has done -/

/-- A key has an entry or none. -/
theorem DnsHashtable.known_or_absent (table : DnsHashtable) (key : DnsHashtableKey) :
    (∃ old, (key, old) ∈ table.bindings) ∨ ∀ b ∈ table.bindings, b.1 ≠ key := by
  by_cases known : ∃ old, (key, old) ∈ table.bindings
  · exact Or.inl known
  · refine Or.inr fun b member same => known ⟨b.2, ?_⟩
    rw [← same]
    exact member

/-- There is a free slot or none. -/
theorem DnsHashtable.room_or_full (table : DnsHashtable) :
    table.bindings.card < dnsHashtableSize ∨ table.bindings.card = dnsHashtableSize :=
  Nat.lt_or_eq_of_le card_live_le

/-- A store that returned leaves the other entries alone. -/
theorem dnsHashtableAddOrChange_sound (valid : table.Valid murmur)
    {result : Int × DnsHashtable}
    (returned : dnsHashtableAddOrChange murmur table key value = pure result) :
    result.2.Valid murmur ∧
      ∀ b ∈ result.2.bindings, b ∈ table.bindings ∨ b = (key, value) := by
  rcases table.room_or_full with room | full
  · rcases table.known_or_absent key with ⟨old, member⟩ | absent
    · obtain ⟨_, valid', others, before, after⟩ :=
        (dnsHashtableAddOrChange_of_mem valid room member).of_pure returned
      refine ⟨valid', fun b bound => ?_⟩
      rw [after, Multiset.mem_cons] at bound
      rw [before]
      rcases bound with new | old
      · exact Or.inr new
      · exact Or.inl (Multiset.mem_cons_of_mem old)
    · obtain ⟨_, valid', after⟩ :=
        (dnsHashtableAddOrChange_of_absent valid room absent).of_pure returned
      refine ⟨valid', fun b bound => ?_⟩
      rw [after, Multiset.mem_cons] at bound
      exact bound.symm
  · rw [dnsHashtableAddOrChange_of_full valid full, Exec.pure_inj] at returned
    subst returned
    exact ⟨valid, fun b bound => Or.inl bound⟩

/-- While there is a free slot, a store returns, and binds its key to the new value alone. -/
theorem dnsHashtableAddOrChange_returns (valid : table.Valid murmur)
    (room : table.bindings.card < dnsHashtableSize) (key : DnsHashtableKey) (value : Int) :
    Exec.Returns (dnsHashtableAddOrChange murmur table key value) fun result =>
      ∀ b, b ∈ result.2.bindings ↔ b = (key, value) ∨ b ∈ table.bindings ∧ b.1 ≠ key := by
  rcases table.known_or_absent key with ⟨old, member⟩ | absent
  · refine (dnsHashtableAddOrChange_of_mem valid room member).mono ?_
    intro result post b
    rcases post with ⟨-, -, others, before, after⟩
    rw [after, Multiset.mem_cons]
    refine or_congr_right ⟨fun other => ?_, fun kept => ?_⟩
    · have bound : b ∈ table.bindings := before ▸ Multiset.mem_cons_of_mem other
      refine ⟨bound, fun same => ?_⟩
      have nodup := valid.nodup
      rw [valid.key_unique bound member same] at other
      rw [before, Multiset.nodup_cons] at nodup
      exact nodup.1 other
    · have bound := kept.1
      rw [before, Multiset.mem_cons] at bound
      rcases bound with rfl | other
      · exact absurd rfl kept.2
      · exact other
  · refine (dnsHashtableAddOrChange_of_absent valid room absent).mono ?_
    intro result post b
    rcases post with ⟨-, -, after⟩
    rw [after, Multiset.mem_cons]
    exact or_congr_right ⟨fun bound => ⟨bound, absent b bound⟩, fun kept => kept.1⟩

/-- A lookup that returned a value has found the key's entry, and one that returned none
knows of no entry. -/
theorem dnsHashtableGet_sound (valid : table.Valid murmur) {found : Option Int}
    (returned : dnsHashtableGet murmur table key = pure found) :
    ∀ v, (key, v) ∈ table.bindings ↔ found = some v := by
  intro v
  rcases table.known_or_absent key with ⟨old, member⟩ | absent
  · rw [dnsHashtableGet_of_mem valid member, Exec.pure_inj] at returned
    subst returned
    constructor
    · intro bound
      exact congrArg some (congrArg Prod.snd (valid.key_unique member bound rfl))
    · intro same
      rw [← Option.some.inj same]
      exact member
  · rcases table.room_or_full with room | full
    · rw [dnsHashtableGet_of_absent room absent, Exec.pure_inj] at returned
      subst returned
      simp only [reduceCtorEq, iff_false]
      exact fun bound => absent _ bound rfl
    · rw [dnsHashtableGet_of_full full absent] at returned
      cases returned

/-- A removal that returned leaves exactly the entries of other keys. -/
theorem dnsHashtableRemove_sound (valid : table.Valid murmur) {result : Int × DnsHashtable}
    (returned : dnsHashtableRemove murmur table key = pure result) :
    result.2.Valid murmur ∧
      ∀ b, b ∈ result.2.bindings ↔ b ∈ table.bindings ∧ b.1 ≠ key := by
  rcases table.known_or_absent key with ⟨old, member⟩ | absent
  · obtain ⟨_, valid', bindings⟩ := (dnsHashtableRemove_of_mem valid member).of_pure returned
    have nodup := valid.nodup
    rw [bindings, Multiset.nodup_cons] at nodup
    refine ⟨valid', fun b => ⟨fun bound => ?_, fun ⟨bound, other⟩ => ?_⟩⟩
    · have before : b ∈ table.bindings := by
        rw [bindings]
        exact Multiset.mem_cons_of_mem bound
      refine ⟨before, fun same => nodup.1 ?_⟩
      rw [← valid.key_unique before member same]
      exact bound
    · rw [bindings, Multiset.mem_cons] at bound
      rcases bound with rfl | bound
      · exact absurd rfl other
      · exact bound
  · rcases table.room_or_full with room | full
    · rw [dnsHashtableRemove_of_absent room absent, Exec.pure_inj] at returned
      subst returned
      exact ⟨valid, fun b => ⟨fun bound => ⟨bound, absent b bound⟩, And.left⟩⟩
    · rw [dnsHashtableRemove_of_full full absent] at returned
      cases returned

end Operations

end Marina
