import Marina.HashIndex

/-!
# The session hash table

The table of `controller/datastructures/session_hashtable.c`: live sessions with their
ids. With sessions in use it compares the client and direction of a five-tuple, else
the same `h` part as the flow table. Besides the reverse map from a session id to its
entry it keeps the map from an egress slot to the session exported there, and the
number of flows that joined each session.

As for the flow table, `SessionHashtable.Valid` is the invariant,
`SessionHashtable.bindings` the sessions held, and each operation has one
specification per outcome.
-/

namespace Marina

open Lib (Exec)
open Lib.LinearProbing

@[irreducible] def sessionHashtableSize : Nat := maxFlows * numPipes * flowHashtableMultiplier

structure SessionHashtable where
  numEntries : Nat
  entries : Nat → Slot FiveTuple Int UInt32
  featureIndexToEntryMap : Int → Int
  egressFeatureToSessionId : Int → Int
  flowCount : Int → Int32

/-- The part of a five-tuple that `compare_five_tuples` compares. -/
def sessionKey (env : Env) (key : FiveTuple) : FiveTupleForSessionHash ⊕ FiveTupleForHash :=
  if env.useSessions then .inl key.sh else .inr key.h

theorem sessionHashtableSize_eq : sessionHashtableSize = 2 ^ 23 := by
  norm_num [sessionHashtableSize, maxFlows, numPipes, flowHashtableMultiplier]

def sessionLayout (env : Env) :
    Layout FiveTuple (FiveTupleForSessionHash ⊕ FiveTupleForHash) UInt32 :=
  tableLayout sessionHashtableSize 23 hashBits_narrow sessionHashtableSize_eq
    (sessionKey env) (Sum.elim env.murmurSession env.murmurFlow)

def sessionHashtableInit : SessionHashtable where
  numEntries := 0
  entries _ := ⟨.zero, 0, 0, false⟩
  featureIndexToEntryMap _ := -1
  egressFeatureToSessionId _ := -1
  flowCount _ := 0

def sessionHashtableHashKey (env : Env) (key : FiveTuple) : UInt32 :=
  if env.useSessions then env.murmurSession key.sh else env.murmurFlow key.h

/-- The egress slot of a session: its id, shifted to the pipe its packets leave on. -/
def egressSlot (key : FiveTuple) (value : Int) : Int := value + key.sessionIdEgressOffset.toInt

/-- A store into `egress_feature_to_session_id`. The next member of the structure is
`flow_count`, and a store past the end of the array lands there. -/
def SessionHashtable.writeEgress (table : SessionHashtable) (index value : Int) :
    SessionHashtable :=
  if index < featureSize then
    { table with
      egressFeatureToSessionId := Function.update table.egressFeatureToSessionId index value }
  else
    { table with
      flowCount := Function.update table.flowCount (index - featureSize) (Int32.ofInt value) }

def sessionGetHashtableIndex (env : Env) (table : SessionHashtable) (key : FiveTuple)
    (hash : UInt32) : Outcome (Bool × Nat) :=
  probe (sessionLayout env) table.entries (sessionKey env key) hash
    (hash2Index sessionHashtableSize hash)

/-- The branch of `session_hashtable_add_or_increase_flow_count` for a new session. -/
def SessionHashtable.insert (table : SessionHashtable) (key : FiveTuple) (value : Int)
    (hash : UInt32) (index : Nat) : SessionHashtable :=
  { table with
    numEntries := table.numEntries + 1
    entries := Function.update table.entries index ⟨key, value, hash, true⟩
    featureIndexToEntryMap :=
      Function.update table.featureIndexToEntryMap value index }.writeEgress
    (egressSlot key value) value

/-- The branch of `session_hashtable_add_or_increase_flow_count` for a known session. -/
def SessionHashtable.increase (env : Env) (table : SessionHashtable) (value : Int) :
    SessionHashtable :=
  if env.useSessions then
    { table with flowCount := Function.update table.flowCount value (table.flowCount value + 1) }
  else
    table

def sessionHashtableAddOrIncreaseFlowCount (env : Env) (table : SessionHashtable)
    (key : FiveTuple) (value : Int) : Outcome (Int × SessionHashtable) :=
  if table.numEntries = sessionHashtableSize then
    pure (1, table)
  else do
    let hash := sessionHashtableHashKey env key
    let (found, index) ← sessionGetHashtableIndex env table key hash
    if found then
      pure (1, table.increase env value)
    else
      pure (0, table.insert key value hash index)

/-- `session_hashtable_get`: the id of a known session, and `none` for return
code `1`. -/
def sessionHashtableGet (env : Env) (table : SessionHashtable) (key : FiveTuple) :
    Outcome (Option Int) := do
  let (found, index) ← sessionGetHashtableIndex env table key (sessionHashtableHashKey env key)
  if found then pure (some (table.entries index).value) else pure none

/-- One move of the loop of `session_hashtable_remove_by_index`. -/
def SessionHashtable.move (table : SessionHashtable) (index emptyIndex : Nat) :
    SessionHashtable :=
  { table with
    entries := moveSlot table.entries index emptyIndex
    featureIndexToEntryMap :=
      Function.update table.featureIndexToEntryMap (table.entries index).value
        emptyIndex }.writeEgress
    (egressSlot (table.entries index).key (table.entries index).value)
    (table.entries index).value

theorem SessionHashtable.writeEgress_entries (table : SessionHashtable) (index value : Int) :
    (table.writeEgress index value).entries = table.entries := by
  unfold SessionHashtable.writeEgress
  split <;> rfl

theorem SessionHashtable.writeEgress_numEntries (table : SessionHashtable) (index value : Int) :
    (table.writeEgress index value).numEntries = table.numEntries := by
  unfold SessionHashtable.writeEgress
  split <;> rfl

theorem SessionHashtable.writeEgress_featureIndexToEntryMap (table : SessionHashtable)
    (index value : Int) :
    (table.writeEgress index value).featureIndexToEntryMap = table.featureIndexToEntryMap := by
  unfold SessionHashtable.writeEgress
  split <;> rfl

def sessionMover : Mover SessionHashtable FiveTuple Int UInt32 where
  slots := SessionHashtable.entries
  move := SessionHashtable.move
  slots_move _ _ _ := SessionHashtable.writeEgress_entries _ _ _

/-- `session_hashtable_remove_by_index` before its loop. -/
def SessionHashtable.clear (table : SessionHashtable) (index : Nat) : SessionHashtable :=
  { table with
    numEntries := table.numEntries - 1
    entries := Function.update table.entries index
      { table.entries index with hash := 0, occupied := false }
    featureIndexToEntryMap :=
      Function.update table.featureIndexToEntryMap (table.entries index).value
        (-1) }.writeEgress
    (egressSlot (table.entries index).key (table.entries index).value) (-1)

def sessionHashtableRemoveByIndex (env : Env) (table : SessionHashtable) (index : Nat) :
    Outcome SessionHashtable :=
  backShift (sessionLayout env) sessionMover (table.clear index) index index

/-- The table after the decrement of `flow_count[value]`, made with sessions in use. -/
def SessionHashtable.decrease (env : Env) (table : SessionHashtable) (value : Int) :
    SessionHashtable :=
  if env.useSessions then
    { table with flowCount := Function.update table.flowCount value (table.flowCount value - 1) }
  else
    table

/-- A removal goes on to the table when sessions are not in use, or when the decrement
of `flow_count[value]` gives `0`. -/
def SessionHashtable.Emptied (env : Env) (table : SessionHashtable) (value : Int) : Prop :=
  env.useSessions = false ∨ table.flowCount value - 1 = 0

instance (env : Env) (table : SessionHashtable) (value : Int) :
    Decidable (table.Emptied env value) :=
  inferInstanceAs (Decidable (_ ∨ _))

/-- `session_hashtable_remove_or_decrease_flow_count`, where `value` is what the
caller's variable holds on entry: the id of the removed session, and `none` for return
code `1`. -/
def sessionHashtableRemoveOrDecreaseFlowCount (env : Env) (table : SessionHashtable)
    (key : FiveTuple) (value : Int) : Outcome (Option Int × SessionHashtable) :=
  if table.Emptied env value then do
    let table := table.decrease env value
    let (found, index) ← sessionGetHashtableIndex env table key (sessionHashtableHashKey env key)
    if found then do
      let value := (table.entries index).value
      let table ← sessionHashtableRemoveByIndex env table index
      pure (some value, table)
    else
      pure (none, table)
  else
    pure (none, table.decrease env value)

/-- `session_hashtable_remove_or_decrease_flow_count_by_value`: the key of the removed
session, and `none` for return code `1`. -/
def sessionHashtableRemoveOrDecreaseFlowCountByValue (env : Env) (table : SessionHashtable)
    (value : Int) : Outcome (Option FiveTuple × SessionHashtable) :=
  if table.Emptied env value then
    let table := table.decrease env value
    if table.featureIndexToEntryMap value = -1 then
      pure (none, table)
    else do
      let index := (table.featureIndexToEntryMap value).toNat
      let key := (table.entries index).key
      let table ← sessionHashtableRemoveByIndex env table index
      pure (some key, table)
  else
    pure (none, table.decrease env value)

/-! ## The invariant -/

/-- The sessions the table holds, with their ids. -/
def SessionHashtable.bindings (table : SessionHashtable) : Multiset (FiveTuple × Int) :=
  live sessionHashtableSize table.entries

/-- A slot of the egress map holds `-1` or the id of a live session that is exported
there. -/
def SessionHashtable.EgressSound (table : SessionHashtable) : Prop :=
  ∀ slot, table.egressFeatureToSessionId slot ≠ -1 → slot < featureSize ∧
    ∃ b ∈ table.bindings, b.2 = table.egressFeatureToSessionId slot ∧ egressSlot b.1 b.2 = slot

/-- The egress slot of every live session is mapped to that session. -/
def SessionHashtable.EgressComplete (table : SessionHashtable) : Prop :=
  ∀ b ∈ table.bindings, table.egressFeatureToSessionId (egressSlot b.1 b.2) = b.2

/-- The sessions have different egress slots, all inside the array. -/
structure EgressInjective (sessions : Multiset (FiveTuple × Int)) : Prop where
  inj : ∀ a ∈ sessions, ∀ b ∈ sessions, egressSlot a.1 a.2 = egressSlot b.1 b.2 → a = b
  inside : ∀ a ∈ sessions, egressSlot a.1 a.2 < featureSize

structure SessionHashtable.Valid (env : Env) (table : SessionHashtable) : Prop where
  wf : Wf (sessionLayout env) table.entries
  indexed : Indexed sessionHashtableSize table.entries table.featureIndexToEntryMap
  count : table.numEntries = table.bindings.card
  egress : table.EgressSound

theorem sessionHashtableInit_bindings : sessionHashtableInit.bindings = 0 :=
  live_eq_zero fun _ _ => rfl

theorem sessionHashtableInit_valid (env : Env) : sessionHashtableInit.Valid env where
  wf := .of_empty fun _ _ => rfl
  indexed := .of_empty (fun _ _ => rfl) fun _ => rfl
  count := by rw [sessionHashtableInit_bindings, Multiset.card_zero]; rfl
  egress _ mapped := absurd rfl mapped

/-! ## Frame facts -/

section Frame

variable {env : Env} {table : SessionHashtable} {value : Int}

@[simp] theorem SessionHashtable.decrease_entries :
    (table.decrease env value).entries = table.entries := by
  unfold SessionHashtable.decrease
  split <;> rfl

@[simp] theorem SessionHashtable.decrease_bindings (env : Env) (table : SessionHashtable)
    (value : Int) : (table.decrease env value).bindings = table.bindings := by
  unfold SessionHashtable.bindings
  rw [decrease_entries]

theorem SessionHashtable.decrease_egress :
    (table.decrease env value).egressFeatureToSessionId = table.egressFeatureToSessionId := by
  unfold SessionHashtable.decrease
  split <;> rfl

@[simp] theorem SessionHashtable.increase_bindings :
    (table.increase env value).bindings = table.bindings := by
  unfold SessionHashtable.increase
  split <;> rfl

theorem SessionHashtable.increase_egress :
    (table.increase env value).egressFeatureToSessionId = table.egressFeatureToSessionId := by
  unfold SessionHashtable.increase
  split <;> rfl

theorem SessionHashtable.Valid.decrease (valid : table.Valid env) (value : Int) :
    (table.decrease env value).Valid env := by
  unfold SessionHashtable.decrease
  split
  · exact ⟨valid.wf, valid.indexed, valid.count, valid.egress⟩
  · exact valid

theorem SessionHashtable.Valid.increase (valid : table.Valid env) (value : Int) :
    (table.increase env value).Valid env := by
  unfold SessionHashtable.increase
  split
  · exact ⟨valid.wf, valid.indexed, valid.count, valid.egress⟩
  · exact valid

end Frame

/-! ## The egress map under the three updates of the table -/

section Egress

variable {env : Env} {table : SessionHashtable}

/-- A store of a binding's value at its own egress slot. -/
theorem writeEgress_sound {index value : Int} (sound : table.EgressSound)
    (held : ∃ b ∈ table.bindings, b.2 = value ∧ egressSlot b.1 b.2 = index) :
    (table.writeEgress index value).EgressSound := by
  unfold SessionHashtable.writeEgress
  split
  · rename_i small
    intro slot mapped
    by_cases same : slot = index
    · subst same
      dsimp only at mapped ⊢
      rw [Function.update_self]
      exact ⟨small, held⟩
    · dsimp only at mapped ⊢
      rw [Function.update_of_ne same] at mapped ⊢
      exact sound slot mapped
  · exact sound

theorem move_bindings {src dst : Nat} (hsrc : src < sessionHashtableSize)
    (hdst : dst < sessionHashtableSize) (occupied : (table.entries src).occupied = true)
    (free : (table.entries dst).occupied = false) :
    (table.move src dst).bindings = table.bindings := by
  unfold SessionHashtable.bindings SessionHashtable.move
  rw [SessionHashtable.writeEgress_entries]
  exact live_moveSlot hsrc hdst occupied free

theorem move_sound {src dst : Nat} (hsrc : src < sessionHashtableSize)
    (hdst : dst < sessionHashtableSize) (occupied : (table.entries src).occupied = true)
    (free : (table.entries dst).occupied = false) (sound : table.EgressSound) :
    (table.move src dst).EgressSound := by
  have kept : live sessionHashtableSize (moveSlot table.entries src dst) =
      live sessionHashtableSize table.entries := live_moveSlot hsrc hdst occupied free
  apply writeEgress_sound
  · intro slot mapped
    unfold SessionHashtable.bindings
    rw [kept]
    exact sound slot mapped
  · refine ⟨((table.entries src).key, (table.entries src).value), ?_, rfl, rfl⟩
    unfold SessionHashtable.bindings
    rw [kept]
    exact entry_mem_live hsrc occupied

/-- A move stores the moved session's id at its own egress slot, which changes nothing
when the map was complete. -/
theorem move_complete {src dst : Nat} (hsrc : src < sessionHashtableSize)
    (hdst : dst < sessionHashtableSize) (occupied : (table.entries src).occupied = true)
    (free : (table.entries dst).occupied = false) (complete : table.EgressComplete)
    (inside : ∀ b ∈ table.bindings, egressSlot b.1 b.2 < featureSize) :
    (table.move src dst).EgressComplete := by
  have entry := entry_mem_live hsrc occupied
  intro b member
  rw [move_bindings hsrc hdst occupied free] at member
  unfold SessionHashtable.move SessionHashtable.writeEgress
  rw [if_pos (inside _ entry)]
  dsimp only
  by_cases same : egressSlot b.1 b.2 =
      egressSlot (table.entries src).key (table.entries src).value
  · rw [same, Function.update_self, ← complete b member, same, complete _ entry]
  · rw [Function.update_of_ne same]
    exact complete b member

theorem clear_entries (i : Nat) :
    (table.clear i).entries =
      Function.update table.entries i { table.entries i with hash := 0, occupied := false } := by
  unfold SessionHashtable.clear
  rw [SessionHashtable.writeEgress_entries]

theorem clear_bindings {i : Nat} (inside : i < sessionHashtableSize)
    (occupied : (table.entries i).occupied = true) :
    table.bindings =
      ((table.entries i).key, (table.entries i).value) ::ₘ (table.clear i).bindings := by
  unfold SessionHashtable.bindings
  rw [clear_entries]
  exact live_clear inside occupied _ rfl

/-- Clearing an entry unmaps its egress slot. -/
theorem clear_egress (i slot : Int) (index : Nat)
    (isSlot : slot = egressSlot (table.entries index).key (table.entries index).value) :
    (table.clear index).egressFeatureToSessionId i =
      if i = slot ∧ slot < featureSize then -1 else table.egressFeatureToSessionId i := by
  subst isSlot
  unfold SessionHashtable.clear SessionHashtable.writeEgress
  split
  · rename_i small
    by_cases same : i = egressSlot (table.entries index).key (table.entries index).value
    · rw [if_pos ⟨same, small⟩, same]
      exact Function.update_self _ _ _
    · rw [if_neg (fun both => same both.1)]
      exact Function.update_of_ne same _ _
  · rename_i large
    rw [if_neg (fun both => large both.2)]

theorem clear_sound (sound : table.EgressSound) {i : Nat} (inside : i < sessionHashtableSize)
    (occupied : (table.entries i).occupied = true) : (table.clear i).EgressSound := by
  have bindings := clear_bindings inside occupied
  intro slot mapped
  rw [clear_egress slot _ i rfl] at mapped ⊢
  split at mapped
  · exact absurd rfl mapped
  · rename_i elsewhere
    rw [if_neg elsewhere]
    obtain ⟨small, b, member, value, place⟩ := sound slot mapped
    refine ⟨small, b, ?_, value, place⟩
    rw [bindings, Multiset.mem_cons] at member
    rcases member with rfl | member
    · exact absurd ⟨place.symm, by rw [place]; exact small⟩ elsewhere
    · exact member

/-- Clearing an entry keeps the map complete when no other session shares its slot. -/
theorem clear_complete (complete : table.EgressComplete) (injective : EgressInjective table.bindings)
    (nodup : table.bindings.Nodup) {i : Nat} (inside : i < sessionHashtableSize)
    (occupied : (table.entries i).occupied = true) : (table.clear i).EgressComplete := by
  have bindings := clear_bindings inside occupied
  intro b member
  have before : b ∈ table.bindings := by
    rw [bindings]
    exact Multiset.mem_cons_of_mem member
  rw [clear_egress _ _ i rfl, if_neg]
  · exact complete b before
  · intro given
    rcases given with ⟨same, _⟩
    have equal := injective.inj b before _ (entry_mem_live inside occupied) same
    rw [bindings, Multiset.nodup_cons] at nodup
    rw [equal] at member
    exact nodup.1 member

end Egress

/-! ## Specifications of the operations -/

section Operations

variable {env : Env} {table : SessionHashtable} {key : FiveTuple} {value : Int}
  {binding : FiveTuple × Int}

namespace SessionHashtable

/-- A session key has one binding. -/
theorem Valid.key_unique (valid : table.Valid env) {a b : FiveTuple × Int}
    (ha : a ∈ table.bindings) (hb : b ∈ table.bindings)
    (same : sessionKey env a.1 = sessionKey env b.1) : a = b :=
  valid.wf.binding_unique ha hb same

theorem Valid.nodup (valid : table.Valid env) : table.bindings.Nodup := valid.wf.live_nodup

/-- A session id has one binding. -/
theorem Valid.value_unique (valid : table.Valid env) {a b : FiveTuple × Int}
    (ha : a ∈ table.bindings) (hb : b ∈ table.bindings) (same : a.2 = b.2) : a = b :=
  valid.indexed.binding_unique ha hb same

end SessionHashtable

theorem sessionHashtableHashKey_eq (env : Env) (key : FiveTuple) :
    sessionHashtableHashKey env key = (sessionLayout env).hash (sessionKey env key) := by
  change _ = Sum.elim env.murmurSession env.murmurFlow (sessionKey env key)
  unfold sessionHashtableHashKey sessionKey
  split <;> rfl

/-- A known session is found at the slot of its binding. -/
theorem sessionGetHashtableIndex_of_mem (valid : table.Valid env)
    (member : binding ∈ table.bindings) (known : sessionKey env binding.1 = sessionKey env key) :
    ∃ i < sessionHashtableSize, (table.entries i).occupied = true ∧
      (table.entries i).key = binding.1 ∧ (table.entries i).value = binding.2 ∧
      sessionGetHashtableIndex env table key (sessionHashtableHashKey env key) =
        pure (true, i) := by
  obtain ⟨i, inside, occupied, keyAt, valueAt⟩ := mem_live.mp member
  refine ⟨i, inside, occupied, keyAt, valueAt, ?_⟩
  rw [sessionHashtableHashKey_eq]
  refine probe_of_occupied valid.wf inside occupied ?_
  change sessionKey env (table.entries i).key = sessionKey env key
  rw [keyAt, known]

/-- An unknown session leads to the unoccupied slot it belongs in. -/
theorem sessionGetHashtableIndex_of_absent (room : table.bindings.card < sessionHashtableSize)
    (absent : ∀ b ∈ table.bindings, sessionKey env b.1 ≠ sessionKey env key) :
    ∃ i < sessionHashtableSize,
      sessionGetHashtableIndex env table key (sessionHashtableHashKey env key) =
        pure (false, i) ∧
      (table.entries i).occupied = false ∧
      ∀ x < sessionHashtableSize,
        Lib.Cyclic.ahead sessionHashtableSize
            ((sessionLayout env).home (sessionHashtableHashKey env key)) x <
          Lib.Cyclic.ahead sessionHashtableSize
            ((sessionLayout env).home (sessionHashtableHashKey env key)) i →
        (table.entries x).occupied = true := by
  rw [sessionHashtableHashKey_eq]
  exact probe_of_absent (L := sessionLayout env) room fun _ inside occupied part =>
    absent _ (entry_mem_live inside occupied) part

theorem sessionHashtableGet_of_mem (valid : table.Valid env) (member : binding ∈ table.bindings)
    (known : sessionKey env binding.1 = sessionKey env key) :
    sessionHashtableGet env table key = pure (some binding.2) := by
  obtain ⟨i, _, _, _, valueAt, index⟩ := sessionGetHashtableIndex_of_mem valid member known
  unfold sessionHashtableGet
  simp only [index, pure_bind, if_true, valueAt]

theorem sessionHashtableGet_of_absent (room : table.bindings.card < sessionHashtableSize)
    (absent : ∀ b ∈ table.bindings, sessionKey env b.1 ≠ sessionKey env key) :
    sessionHashtableGet env table key = pure none := by
  obtain ⟨i, _, index, _⟩ := sessionGetHashtableIndex_of_absent room absent
  unfold sessionHashtableGet
  simp only [index, pure_bind, Bool.false_eq_true, if_false]

/-- A known session is joined: only its flow count changes, and that only with sessions
in use. -/
theorem sessionHashtableAdd_of_mem (valid : table.Valid env) (member : binding ∈ table.bindings)
    (known : sessionKey env binding.1 = sessionKey env key)
    (room : table.bindings.card < sessionHashtableSize) :
    sessionHashtableAddOrIncreaseFlowCount env table key value =
      pure (1, table.increase env value) := by
  obtain ⟨i, _, _, _, _, index⟩ := sessionGetHashtableIndex_of_mem valid member known
  unfold sessionHashtableAddOrIncreaseFlowCount
  rw [if_neg (by rw [valid.count]; omega)]
  simp only [index, pure_bind, if_true]

theorem insert_bindings {i : Nat} (inside : i < sessionHashtableSize)
    (free : (table.entries i).occupied = false) (hash : UInt32) :
    (table.insert key value hash i).bindings = (key, value) ::ₘ table.bindings := by
  unfold SessionHashtable.bindings SessionHashtable.insert
  rw [SessionHashtable.writeEgress_entries]
  exact live_insert inside free ⟨key, value, hash, true⟩ rfl

/-- The new session's slot maps to it, and no other session's slot changes. -/
theorem insert_complete {i : Nat} (inside : i < sessionHashtableSize)
    (free : (table.entries i).occupied = false) (hash : UInt32) (complete : table.EgressComplete)
    (small : egressSlot key value < featureSize)
    (apart : ∀ b ∈ table.bindings, egressSlot b.1 b.2 ≠ egressSlot key value) :
    (table.insert key value hash i).EgressComplete := by
  intro b member
  rw [insert_bindings inside free, Multiset.mem_cons] at member
  unfold SessionHashtable.insert SessionHashtable.writeEgress
  rw [if_pos small]
  dsimp only
  rcases member with rfl | member
  · rw [Function.update_self]
  · rw [Function.update_of_ne (apart b member)]
    exact complete b member

/-- A new session is bound. -/
theorem sessionHashtableAdd_of_absent (valid : table.Valid env)
    (room : table.bindings.card < sessionHashtableSize)
    (absent : ∀ b ∈ table.bindings, sessionKey env b.1 ≠ sessionKey env key)
    (fresh : ∀ b ∈ table.bindings, b.2 ≠ value) :
    Exec.Returns (sessionHashtableAddOrIncreaseFlowCount env table key value) fun result =>
      result.1 = 0 ∧ result.2.Valid env ∧
      result.2.bindings = (key, value) ::ₘ table.bindings ∧
      (egressSlot key value < featureSize → result.2.flowCount = table.flowCount) ∧
      (table.EgressComplete → EgressInjective ((key, value) ::ₘ table.bindings) →
        result.2.EgressComplete) := by
  obtain ⟨i, inside, index, free, walk⟩ := sessionGetHashtableIndex_of_absent room absent
  have bound : (table.insert key value (sessionHashtableHashKey env key) i).bindings =
      (key, value) ::ₘ table.bindings := insert_bindings inside free _
  unfold sessionHashtableAddOrIncreaseFlowCount
  rw [if_neg (by rw [valid.count]; omega)]
  simp only [index, pure_bind, Bool.false_eq_true, if_false]
  refine .pure ⟨rfl, ⟨?_, ?_, ?_, ?_⟩, bound, ?_, ?_⟩
  · unfold SessionHashtable.insert
    rw [SessionHashtable.writeEgress_entries]
    refine valid.wf.insert inside rfl (sessionHashtableHashKey_eq env key) walk ?_
    intro j hj occupied
    exact absent _ (entry_mem_live hj occupied)
  · unfold SessionHashtable.insert
    rw [SessionHashtable.writeEgress_entries, SessionHashtable.writeEgress_featureIndexToEntryMap]
    exact valid.indexed.insert inside free rfl ((valid.indexed.eq_neg_one_iff value).mpr fresh)
  · rw [bound, Multiset.card_cons, ← valid.count]
    unfold SessionHashtable.insert
    rw [SessionHashtable.writeEgress_numEntries]
  · apply writeEgress_sound
    · intro slot mapped
      obtain ⟨small, b, member, place⟩ := valid.egress slot mapped
      refine ⟨small, b, ?_, place⟩
      change b ∈ live sessionHashtableSize (Function.update table.entries i _)
      rw [live_insert inside free _ rfl]
      exact Multiset.mem_cons_of_mem member
    · refine ⟨(key, value), ?_, rfl, rfl⟩
      change _ ∈ live sessionHashtableSize (Function.update table.entries i _)
      rw [live_insert inside free _ rfl]
      exact Multiset.mem_cons_self _ _
  · intro small
    unfold SessionHashtable.insert SessionHashtable.writeEgress
    rw [if_pos small]
  · intro complete injective
    have new : (key, value) ∈ (key, value) ::ₘ table.bindings := Multiset.mem_cons_self _ _
    refine insert_complete inside free _ complete (injective.inside _ new) ?_
    intro b member same
    have equal := injective.inj b (Multiset.mem_cons_of_mem member) _ new same
    exact fresh b member (by rw [equal])

/-- Removing by index takes away the binding at that index. -/
theorem sessionHashtableRemoveByIndex_returns (valid : table.Valid env) {i : Nat}
    (inside : i < sessionHashtableSize) (occupied : (table.entries i).occupied = true) :
    Exec.Returns (sessionHashtableRemoveByIndex env table i) fun table' =>
      table'.Valid env ∧
      table.bindings = ((table.entries i).key, (table.entries i).value) ::ₘ table'.bindings ∧
      (table.EgressComplete → EgressInjective table.bindings → table'.EgressComplete) := by
  have cleared := clear_bindings inside occupied
  have removed := backShift_of_clear (L := sessionLayout env) (M := sessionMover) (ε := Fault)
    (P := fun t => Indexed sessionHashtableSize t.entries t.featureIndexToEntryMap ∧
      t.numEntries = table.numEntries - 1 ∧ t.EgressSound ∧
      t.bindings = (table.clear i).bindings ∧
      (table.EgressComplete → EgressInjective table.bindings → t.EgressComplete))
    (fun t src dst hsrc hdst held free keeps => by
      obtain ⟨indexed, count, sound, bindings, complete⟩ := keeps
      refine ⟨?_, ?_, move_sound hsrc hdst held free sound,
        (move_bindings hsrc hdst held free).trans bindings, ?_⟩
      · change Indexed _ (t.move src dst).entries (t.move src dst).featureIndexToEntryMap
        unfold SessionHashtable.move
        rw [SessionHashtable.writeEgress_entries,
          SessionHashtable.writeEgress_featureIndexToEntryMap]
        exact indexed.move hsrc hdst held free
      · change (t.move src dst).numEntries = _
        unfold SessionHashtable.move
        rw [SessionHashtable.writeEgress_numEntries]
        exact count
      · intro before injective
        refine move_complete hsrc hdst held free (complete before injective) ?_
        intro b member
        apply injective.inside
        rw [cleared, ← bindings]
        exact Multiset.mem_cons_of_mem member)
    valid.wf inside occupied
    { table.entries i with hash := 0, occupied := false } rfl
    (t := table.clear i) (clear_entries i) (by
      refine ⟨?_, ?_, clear_sound valid.egress inside occupied, rfl, ?_⟩
      · unfold SessionHashtable.clear
        rw [SessionHashtable.writeEgress_entries,
          SessionHashtable.writeEgress_featureIndexToEntryMap]
        exact valid.indexed.clear inside occupied rfl
      · unfold SessionHashtable.clear
        rw [SessionHashtable.writeEgress_numEntries]
      · intro complete injective
        exact clear_complete complete injective valid.nodup inside occupied)
  apply removed.mono
  intro table' post
  rcases post with ⟨wf, bindings, indexed, count, sound, _, complete⟩
  refine ⟨⟨wf, indexed, ?_, sound⟩, bindings, complete⟩
  have card : table.bindings.card = table'.bindings.card + 1 := by
    rw [← Multiset.card_cons]
    exact congrArg Multiset.card bindings
  rw [count, valid.count, card, Nat.add_sub_cancel]

/-- A removal whose decrement leaves flows in the session only decrements. -/
theorem sessionHashtableRemove_of_not_emptied (kept : ¬ table.Emptied env value) :
    sessionHashtableRemoveOrDecreaseFlowCount env table key value =
      pure (none, table.decrease env value) := by
  unfold sessionHashtableRemoveOrDecreaseFlowCount
  rw [if_neg kept]

/-- A removal of an unknown session only decrements. -/
theorem sessionHashtableRemove_of_absent (room : table.bindings.card < sessionHashtableSize)
    (absent : ∀ b ∈ table.bindings, sessionKey env b.1 ≠ sessionKey env key) :
    sessionHashtableRemoveOrDecreaseFlowCount env table key value =
      pure (none, table.decrease env value) := by
  unfold sessionHashtableRemoveOrDecreaseFlowCount
  split
  · rw [← SessionHashtable.decrease_bindings env table value] at room absent
    obtain ⟨i, _, index, _⟩ := sessionGetHashtableIndex_of_absent room absent
    simp only [index, pure_bind, Bool.false_eq_true, if_false]
  · rfl

/-- The removal of a known session. -/
theorem sessionHashtableRemove_of_mem (valid : table.Valid env) (emptied : table.Emptied env value)
    (member : binding ∈ table.bindings) (known : sessionKey env binding.1 = sessionKey env key) :
    Exec.Returns (sessionHashtableRemoveOrDecreaseFlowCount env table key value) fun result =>
      result.1 = some binding.2 ∧ result.2.Valid env ∧
      table.bindings = binding ::ₘ result.2.bindings ∧
      (table.EgressComplete → EgressInjective table.bindings → result.2.EgressComplete) := by
  have decreased := valid.decrease value
  rw [← SessionHashtable.decrease_bindings env table value] at member
  obtain ⟨i, inside, occupied, keyAt, valueAt, index⟩ :=
    sessionGetHashtableIndex_of_mem decreased member known
  unfold sessionHashtableRemoveOrDecreaseFlowCount
  rw [if_pos emptied]
  simp only [index, pure_bind, if_true]
  apply (sessionHashtableRemoveByIndex_returns decreased inside occupied).bind
  intro table' post
  rcases post with ⟨valid', bindings, complete⟩
  rw [keyAt, valueAt, SessionHashtable.decrease_bindings] at bindings
  refine .pure ⟨congrArg some valueAt, valid', bindings, ?_⟩
  intro before injective
  apply complete
  · intro b memberB
    rw [SessionHashtable.decrease_egress]
    rw [SessionHashtable.decrease_bindings] at memberB
    exact before b memberB
  · rw [SessionHashtable.decrease_bindings]
    exact injective

end Operations

end Marina
