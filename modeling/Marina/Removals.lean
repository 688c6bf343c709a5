import Marina.FlowRuns
import Marina.PacketHandler

/-!
# The two ways to remove a flow

A flow is removed by the five-tuple of a FIN packet (`remove_flow_by_five_tuple`) or by its
id (`remove_flow_by_flow_id`). The first goes on with the five-tuple of the packet, of which
only the key is known to be that of the flow; the second with the one that was stored when
the flow was added.

The rest of the five-tuple decides which pools get the ids back (its device port), which
session loses a flow (its session part), and which egress slot is cleared (its egress offset,
which `packet_handler` never writes). Each call also decrements the flow count at an index of
its own, the uninitialised `session_id` of `session_cleanup_after_flow_remove`.
`removals_agree_iff` says exactly when all that makes no difference.
-/

namespace Marina

open Lib (Exec bytesAt)
open Lib.LinearProbing

/-- What the dataplane thread reads of a command. -/
inductive CommandRead
  | removeFlow (l3Proto : L3Proto) (flowId : Int)
  | clearRegisters (sessionId : Int) (sessionIdEgressOffset : Int8)
  | other (command : DataplaneCommand)
  deriving DecidableEq, Repr

def DataplaneCommand.read : DataplaneCommand → CommandRead
  | .removeFlow fiveTuple flowId => .removeFlow fiveTuple.h.l3Proto flowId
  | .clearRegisters fiveTuple sessionId => .clearRegisters sessionId fiveTuple.sessionIdEgressOffset
  | command => .other command

/-- Both calls return, with the same tables and pools, and with the same commands as far as
they are read. -/
def SameEffect (first second : Outcome (FlowDb × List DataplaneCommand)) : Prop :=
  Exec.Returns first fun result => Exec.Returns second fun result' =>
    result.1.flowHashtable = result'.1.flowHashtable ∧
    result.1.sessionHashtable = result'.1.sessionHashtable ∧
    (∀ pipe, (result.1.flowIdHeap pipe).ids = (result'.1.flowIdHeap pipe).ids) ∧
    (∀ pipe, (result.1.sessionIdHeap pipe).ids = (result'.1.sessionIdHeap pipe).ids) ∧
    result.2.map DataplaneCommand.read = result'.2.map DataplaneCommand.read

theorem sameEffect_pure {result result' : FlowDb × List DataplaneCommand} :
    SameEffect (pure result) (pure result') ↔
      result.1.flowHashtable = result'.1.flowHashtable ∧
      result.1.sessionHashtable = result'.1.sessionHashtable ∧
      (∀ pipe, (result.1.flowIdHeap pipe).ids = (result'.1.flowIdHeap pipe).ids) ∧
      (∀ pipe, (result.1.sessionIdHeap pipe).ids = (result'.1.sessionIdHeap pipe).ids) ∧
      result.2.map DataplaneCommand.read = result'.2.map DataplaneCommand.read := by
  unfold SameEffect
  rw [Exec.returns_pure, Exec.returns_pure]

/-! ## Stores behind the egress map -/

/-- What has been stored to `flow_count`, after one more store into
`egress_feature_to_session_id`. -/
def recordEgress (stored : Int → Option Int32) (index value : Int) : Int → Option Int32 :=
  if index < featureSize then stored
  else Function.update stored (index - featureSize) (some (Int32.ofInt value))

/-- A session table, and what a removal has stored to its `flow_count` so far. -/
structure RecordedTable where
  table : SessionHashtable
  stored : Int → Option Int32

def RecordedTable.move (recorded : RecordedTable) (index emptyIndex : Nat) : RecordedTable where
  table := recorded.table.move index emptyIndex
  stored :=
    recordEgress recorded.stored
      (egressSlot (recorded.table.entries index).key (recorded.table.entries index).value)
      (recorded.table.entries index).value

def recordingMover : Mover RecordedTable FiveTuple Int UInt32 where
  slots recorded := recorded.table.entries
  move := RecordedTable.move
  slots_move _ _ _ := SessionHashtable.writeEgress_entries _ _ _

/-- `session_hashtable_remove_by_index`, with what it stores to `flow_count`. -/
def SessionHashtable.recordRemoval (env : Env) (table : SessionHashtable) (index : Nat) :
    Outcome RecordedTable :=
  backShift (sessionLayout env) recordingMover
    ⟨table.clear index,
      recordEgress (fun _ => none)
        (egressSlot (table.entries index).key (table.entries index).value) (-1)⟩ index index

/-- The removal of the session stores to `flow_count[i]`: the egress slot of a session that it
takes out or moves lies `i` behind the end of `egress_feature_to_session_id`. -/
def SessionHashtable.Overwrites (env : Env) (table : SessionHashtable) (sessionId i : Int) : Prop :=
  Exec.Returns (table.recordRemoval env (table.featureIndexToEntryMap sessionId).toNat)
    fun recorded => recorded.stored i ≠ none

/-- The table, when the flow counts were `count` before the removal. -/
def RecordedTable.withCounts (recorded : RecordedTable) (count : Int → Int32) : SessionHashtable :=
  { recorded.table with flowCount := fun i => (recorded.stored i).getD (count i) }

/-- The packet leads to the same pools, the same session and the same egress slot as the live
flow `b`, the pools have room, and the two calls decrement the same flow count: `value` is what
the first finds in its uninitialised variable, `value'` what the second does. With two
different values, the removal of the session has to overwrite both counts. -/
structure FlowDb.RemovalsAgree (env : Env) (packet : FiveTuple) (b : FiveTuple × Int)
    (value value' : Int) (db : FlowDb) : Prop where
  pipe : packet.pipe = b.1.pipe
  room : (db.ledger.flowPool b.1.pipe).card ≠ heapSize
  drops_iff : ∀ session,
    db.ledger.Drops env packet value session ↔ db.ledger.Drops env b.1 value' session
  offset : ∀ session, db.ledger.Drops env b.1 value' session →
    packet.sessionIdEgressOffset = b.1.sessionIdEgressOffset
  sessionRoom : ∀ session, db.ledger.Drops env b.1 value' session →
    (db.ledger.sessionPool b.1.pipe).card ≠ heapSize
  counts : env.useSessions = true → value ≠ value' →
    ∃ session, db.ledger.Drops env b.1 value' session ∧
      db.sessionHashtable.Overwrites env session.2 value ∧
      db.sessionHashtable.Overwrites env session.2 value'

section Recorded

variable {env : Env} {table : SessionHashtable} {value value' : Int} {index : Nat}

theorem writeEgress_withCounts (table : SessionHashtable) (stored : Int → Option Int32)
    (count : Int → Int32) (index value : Int) :
    { table with flowCount := fun i => (stored i).getD (count i) }.writeEgress index value =
      RecordedTable.withCounts
        ⟨table.writeEgress index value, recordEgress stored index value⟩ count := by
  unfold SessionHashtable.writeEgress RecordedTable.withCounts recordEgress
  split
  · rfl
  · simp only [SessionHashtable.mk.injEq, true_and]
    funext i
    by_cases here : i = index - featureSize
    · rw [here, Function.update_self, Function.update_self, Option.getD_some]
    · rw [Function.update_of_ne here, Function.update_of_ne here]

theorem move_withCounts (recorded : RecordedTable) (count : Int → Int32) (src dst : Nat) :
    (recorded.withCounts count).move src dst = (recorded.move src dst).withCounts count :=
  writeEgress_withCounts
    { recorded.table with
      entries := moveSlot recorded.table.entries src dst
      featureIndexToEntryMap :=
        Function.update recorded.table.featureIndexToEntryMap (recorded.table.entries src).value
          dst }
    recorded.stored count _ _

theorem clear_withCounts (table : SessionHashtable) (count : Int → Int32) (index : Nat) :
    { table with flowCount := count }.clear index =
      RecordedTable.withCounts
        ⟨table.clear index,
          recordEgress (fun _ => none)
            (egressSlot (table.entries index).key (table.entries index).value) (-1)⟩ count :=
  writeEgress_withCounts
    { table with
      numEntries := table.numEntries - 1
      entries := Function.update table.entries index
        { table.entries index with hash := 0, occupied := false }
      featureIndexToEntryMap :=
        Function.update table.featureIndexToEntryMap (table.entries index).value (-1) }
    (fun _ => none) count _ _

/-- The removal of a session does to every flow count what it records. -/
theorem recordRemoval_returns (valid : table.Valid env) (inside : index < sessionHashtableSize)
    (occupied : (table.entries index).occupied = true) :
    Exec.Returns (table.recordRemoval env index) fun recorded => ∀ count,
      sessionHashtableRemoveByIndex env { table with flowCount := count } index =
        pure (recorded.withCounts count) := by
  let slot : Slot FiveTuple Int UInt32 := { table.entries index with hash := 0, occupied := false }
  let start : RecordedTable :=
    ⟨table.clear index,
      recordEgress (fun _ => none)
        (egressSlot (table.entries index).key (table.entries index).value) (-1)⟩
  have free : slot.occupied = false := rfl
  have cleared : recordingMover.slots start = Function.update table.entries index slot :=
    SessionHashtable.writeEgress_entries _ _ _
  rcases backShift_of_clear (L := sessionLayout env) (M := recordingMover) (ε := Fault)
    (P := fun _ => True) (fun _ _ _ _ _ _ _ holds => holds) valid.wf inside occupied slot free
    cleared True.intro with ⟨recorded, returned, _⟩
  refine ⟨recorded, returned, fun count => ?_⟩
  have mapped := backShift_map (M := recordingMover) (N := sessionMover)
    (RecordedTable.withCounts · count) (fun _ => rfl)
    (fun recorded src dst => move_withCounts recorded count src dst)
    (L := sessionLayout env) valid.wf inside free cleared returned
  rw [← mapped]
  unfold sessionHashtableRemoveByIndex
  rw [clear_withCounts]

theorem decrease_flowCount :
    table.decrease env value = { table with flowCount := (table.decrease env value).flowCount } := by
  unfold SessionHashtable.decrease
  split <;> rfl

/-- The two tables are the same exactly when the same count was decremented, or both counts
are overwritten. -/
theorem withCounts_decrease_iff (table : SessionHashtable) (recorded : RecordedTable) :
    recorded.withCounts (table.decrease env value).flowCount =
        recorded.withCounts (table.decrease env value').flowCount ↔
      (env.useSessions = true → value ≠ value' →
        recorded.stored value ≠ none ∧ recorded.stored value' ≠ none) := by
  have smaller : ∀ count : Int32, count - 1 ≠ count := by
    intro count same
    have bits := congrArg Int32.toBitVec same
    simp at bits
  unfold RecordedTable.withCounts SessionHashtable.decrease
  simp only [SessionHashtable.mk.injEq, true_and]
  constructor
  · intro same sessions apart
    rw [if_pos sessions, if_pos sessions] at same
    constructor
    · intro unstored
      have here := congrFun same value
      simp only [unstored, Option.getD_none, Function.update_self,
        Function.update_of_ne apart] at here
      exact smaller _ here
    · intro unstored
      have here := congrFun same value'
      simp only [unstored, Option.getD_none, Function.update_self,
        Function.update_of_ne apart.symm] at here
      exact smaller _ here.symm
  · intro overwritten
    funext i
    cases stored : recorded.stored i with
    | some _ => rfl
    | none =>
        rw [Option.getD_none, Option.getD_none]
        split
        · rename_i sessions
          dsimp only
          rcases eq_or_ne value value' with rfl | apart
          · rfl
          · have both := overwritten sessions apart
            have here : i ≠ value := by
              rintro rfl
              exact both.1 stored
            have there : i ≠ value' := by
              rintro rfl
              exact both.2 stored
            rw [Function.update_of_ne here, Function.update_of_ne there]
        · rfl

end Recorded

section Removal

variable {env : Env} {db : FlowDb} {packet flow : FiveTuple} {b : FiveTuple × Int}
  {value value' : Int}

/-! ## The same removal -/

/-- Both removals take the flow out of the same slot, and give its id to the same pool. -/
theorem releaseFlow_same (valid : db.Valid env) (member : b ∈ db.ledger.flows)
    (same : packet.h = b.1.h) (pipe : packet.pipe = b.1.pipe)
    (room : (db.ledger.flowPool b.1.pipe).card ≠ heapSize) :
    ∃ released, releaseFlowByFiveTuple env db packet = pure (released, some (packet, b.2)) ∧
      releaseFlowByFlowId env db b.2 = pure (released, some b) ∧
      FlowReleased env b.1.pipe b db released := by
  obtain ⟨i, inside, occupied, keyAt, valueAt⟩ := mem_live.mp member
  have index : flowGetHashtableIndex env db.flowHashtable packet
      (flowHashtableHashKey env packet) = pure (true, i) := by
    refine probe_of_occupied valid.flowTable.wf inside occupied ?_
    change (db.flowHashtable.entries i).key.h = packet.h
    rw [keyAt, same]
  have place : db.flowHashtable.featureIndexToEntryMap b.2 = i := by
    rw [← valueAt]
    exact valid.flowTable.indexed.of_slot i inside occupied
  obtain ⟨table, removed, tableValid, bindings⟩ :=
    flowRemoveByIndex_returns valid.flowTable inside occupied
  rw [keyAt, valueAt] at bindings
  have inPipes := Ledger.pipe_mem (valid.sound.ports b member)
  obtain ⟨released, pushed, half⟩ :=
    (pushFlowId_released valid inPipes tableValid bindings).returns room
  refine ⟨released, ?_, ?_, half⟩
  · unfold releaseFlowByFiveTuple flowHashtableRemove
    simp only [index, pure_bind, if_true, removed, valueAt, pipe, pushed]
  · unfold releaseFlowByFlowId flowHashtableRemoveByValue
    rw [place, if_neg (by omega), Int.toNat_natCast]
    simp only [pure_bind, removed, keyAt, pushed]

/-- All five-tuples that lead to the same session and the same pipe clean up the same way, but
for the flow count that they decrement. -/
theorem sessionCleanup_same (valid : db.Valid env) {session : FiveTuple × Int}
    (drops : db.ledger.Drops env flow value session)
    (room : (db.ledger.sessionPool flow.pipe).card ≠ heapSize) :
    ∃ recorded heap,
      db.sessionHashtable.recordRemoval env
        (db.sessionHashtable.featureIndexToEntryMap session.2).toNat = pure recorded ∧
      ∀ key value, db.ledger.Drops env key value session → key.pipe = flow.pipe →
        sessionCleanupAfterFlowRemove env db key value =
          pure ({ db with
            sessionHashtable :=
              recorded.withCounts (db.sessionHashtable.decrease env value).flowCount
            sessionIdHeap := Function.update db.sessionIdHeap flow.pipe heap },
            some (.clearRegisters key session.2)) := by
  obtain ⟨i, inside, occupied, keyAt, valueAt⟩ := mem_live.mp drops.member
  have place : db.sessionHashtable.featureIndexToEntryMap session.2 = i := by
    rw [← valueAt]
    exact valid.sessionTable.indexed.of_slot i inside occupied
  obtain ⟨recorded, removal, removed⟩ := recordRemoval_returns valid.sessionTable inside occupied
  have fits : (db.sessionIdHeap flow.pipe).curSize < heapSize :=
    lt_of_le_of_ne (valid.sessionHeap flow.pipe).fits
      fun full => room ((HeapQueue.card_ids _).trans full)
  obtain ⟨heap, pushed, _⟩ := heapPush_returns (valid.sessionHeap flow.pipe) fits session.2
  refine ⟨recorded, heap, ?_, fun key value drops pipe => ?_⟩
  · rw [place, Int.toNat_natCast]
    exact removal
  · have index : sessionGetHashtableIndex env (db.sessionHashtable.decrease env value) key
        (sessionHashtableHashKey env key) = pure (true, i) := by
      rw [sessionHashtableHashKey_eq]
      have occupied' : ((db.sessionHashtable.decrease env value).entries i).occupied = true := by
        rw [SessionHashtable.decrease_entries]
        exact occupied
      refine probe_of_occupied (valid.sessionTable.decrease value).wf inside occupied' ?_
      rw [SessionHashtable.decrease_entries]
      change sessionKey env (db.sessionHashtable.entries i).key = sessionKey env key
      rw [keyAt]
      exact drops.known
    have emptied : db.sessionHashtable.Emptied env value := drops.emptied
    unfold sessionCleanupAfterFlowRemove sessionHashtableRemoveOrDecreaseFlowCount
      FlowDb.pushSessionId
    rw [if_pos emptied]
    simp only [index, pure_bind, if_true]
    rw [SessionHashtable.decrease_entries, valueAt, decrease_flowCount, removed, pure_bind]
    simp only [pipe, pushed, pure_bind]

/-- When the packet leads to the same pool, both calls come to the same cleanup. -/
theorem removals_eq (valid : db.Valid env) (member : b ∈ db.ledger.flows)
    (same : packet.h = b.1.h) (pipe : packet.pipe = b.1.pipe)
    (room : (db.ledger.flowPool b.1.pipe).card ≠ heapSize) :
    ∃ released, FlowReleased env b.1.pipe b db released ∧
      (∀ value, removeFlowByFiveTuple env db packet value =
        finishRemoval env value (released, some (packet, b.2))) ∧
      ∀ value, removeFlowByFlowId env db b.2 value =
        finishRemoval env value (released, some b) := by
  obtain ⟨released, byFiveTuple, byFlowId, half⟩ := releaseFlow_same valid member same pipe room
  refine ⟨released, half, fun value => ?_, fun value => ?_⟩
  · unfold removeFlowByFiveTuple
    rw [byFiveTuple, pure_bind]
  · unfold removeFlowByFlowId
    rw [byFlowId, pure_bind]

/-- What both calls come to, when they lead to the same pools and to the same session: they
have the same effect exactly when the same flow count is decremented, or both are
overwritten. -/
theorem sameEffect_iff_counts (valid : db.Valid env) (member : b ∈ db.ledger.flows)
    (same : packet.h = b.1.h) (pipe : packet.pipe = b.1.pipe)
    (room : (db.ledger.flowPool b.1.pipe).card ≠ heapSize)
    (drops_iff : ∀ session,
      db.ledger.Drops env packet value session ↔ db.ledger.Drops env b.1 value' session)
    (offset : ∀ session, db.ledger.Drops env b.1 value' session →
      packet.sessionIdEgressOffset = b.1.sessionIdEgressOffset)
    (sessionRoom : ∀ session, db.ledger.Drops env b.1 value' session →
      (db.ledger.sessionPool b.1.pipe).card ≠ heapSize) :
    SameEffect (removeFlowByFiveTuple env db packet value)
        (removeFlowByFlowId env db b.2 value') ↔
      (env.useSessions = true → value ≠ value' →
        ∃ session, db.ledger.Drops env b.1 value' session ∧
          db.sessionHashtable.Overwrites env session.2 value ∧
          db.sessionHashtable.Overwrites env session.2 value') := by
  obtain ⟨released, half, byFiveTuple, byFlowId⟩ := removals_eq valid member same pipe room
  obtain ⟨releasedValid, release, table⟩ := half
  obtain ⟨_, pool, _⟩ := release.frame
  rw [byFiveTuple, byFlowId]
  simp only [finishRemoval]
  by_cases dropped : ∃ session, db.ledger.Drops env b.1 value' session
  · obtain ⟨session, drops⟩ := dropped
    obtain ⟨recorded, heap, removal, cleaned⟩ := sessionCleanup_same releasedValid
      (release.drops_iff.mpr drops) (by rw [pool]; exact sessionRoom session drops)
    have cleaned₁ := cleaned packet value
      (release.drops_iff.mpr ((drops_iff session).mpr drops)) pipe
    have cleaned₂ := cleaned b.1 value' (release.drops_iff.mpr drops) rfl
    rw [cleaned₁, cleaned₂, pure_bind, pure_bind]
    rw [table] at removal ⊢
    have overwrites : ∀ i, db.sessionHashtable.Overwrites env session.2 i ↔
        recorded.stored i ≠ none := by
      intro i
      unfold SessionHashtable.Overwrites
      rw [removal]
      exact Exec.returns_pure
    have only : (∃ session, db.ledger.Drops env b.1 value' session ∧
        db.sessionHashtable.Overwrites env session.2 value ∧
        db.sessionHashtable.Overwrites env session.2 value') ↔
        recorded.stored value ≠ none ∧ recorded.stored value' ≠ none := by
      rw [← overwrites, ← overwrites]
      constructor
      · rintro ⟨other, drops', both⟩
        rw [drops.unique valid.keyed drops']
        exact both
      · exact fun both => ⟨session, drops, both⟩
    rw [only, ← withCounts_decrease_iff db.sessionHashtable recorded, sameEffect_pure]
    simp [DataplaneCommand.read, same, offset session drops]
  · have stays : ∀ session, ¬ released.ledger.Drops env b.1 value' session :=
      fun session drops => dropped ⟨session, release.drops_iff.mp drops⟩
    have stays' : ∀ session, ¬ released.ledger.Drops env packet value session := by
      intro session drops
      rw [release.drops_iff, drops_iff, ← release.drops_iff] at drops
      exact stays session drops
    have none : ¬ ∃ session, db.ledger.Drops env b.1 value' session ∧
        db.sessionHashtable.Overwrites env session.2 value ∧
        db.sessionHashtable.Overwrites env session.2 value' := by
      rintro ⟨session, drops, _⟩
      exact dropped ⟨session, drops⟩
    -- Nothing is removed, so nothing is overwritten.
    have counts : db.sessionHashtable.decrease env value = db.sessionHashtable.decrease env value' ↔
        (env.useSessions = true → value ≠ value' → False) := by
      rw [decrease_flowCount, @decrease_flowCount env db.sessionHashtable value']
      refine (withCounts_decrease_iff db.sessionHashtable
        ⟨db.sessionHashtable, fun _ => Option.none⟩).trans ?_
      simp
    rw [sessionCleanup_of_kept releasedValid stays, sessionCleanup_of_kept releasedValid stays',
      pure_bind, pure_bind, table, iff_false_intro none, ← counts, sameEffect_pure]
    simp [DataplaneCommand.read, same]

theorem removals_same (valid : db.Valid env) (member : b ∈ db.ledger.flows)
    (same : packet.h = b.1.h) (agree : db.RemovalsAgree env packet b value value') :
    SameEffect (removeFlowByFiveTuple env db packet value)
      (removeFlowByFlowId env db b.2 value') :=
  (sameEffect_iff_counts valid member same agree.pipe agree.room agree.drops_iff agree.offset
    agree.sessionRoom).mpr agree.counts

/-! ## The same effect -/

/-- A cleanup puts a command exactly for the session that it takes away. -/
theorem Ledger.Cleanup.put_iff {ledger ledger' : Ledger} {put : Option DataplaneCommand}
    (keyed : ledger.Keyed env) (cleanup : Cleanup env flow value ledger ledger' put)
    (command : DataplaneCommand) :
    put = some command ↔
      ∃ session, ledger.Drops env flow value session ∧
        command = .clearRegisters flow session.2 := by
  cases cleanup with
  | kept stays =>
      constructor
      · intro same
        cases same
      · intro found
        obtain ⟨session, drops, _⟩ := found
        exact absurd drops (stays session)
  | dropped drops held =>
      constructor
      · intro same
        exact ⟨_, drops, (Option.some.inj same).symm⟩
      · intro found
        obtain ⟨session, drops', rfl⟩ := found
        rw [drops.unique keyed drops']

/-- A session that one removal takes away is taken away by another one that puts the same
commands. -/
theorem Ledger.Drops.of_same_commands {first first' second second' : Ledger}
    {put put' : Option DataplaneCommand} {session : FiveTuple × Int}
    (keyed : first.Keyed env) (keyed' : second.Keyed env) (sound : second.Sound)
    (sessions : first.sessions = second.sessions)
    (cleanup : Cleanup env packet value first first' put)
    (cleanup' : Cleanup env flow value' second second' put')
    (commands : put.map DataplaneCommand.read = put'.map DataplaneCommand.read)
    (drops : first.Drops env packet value session) :
    second.Drops env flow value' session ∧
      packet.sessionIdEgressOffset = flow.sessionIdEgressOffset := by
  have cleared := (cleanup.put_iff keyed _).mpr ⟨session, drops, rfl⟩
  rw [cleared] at commands
  obtain ⟨command, cleared', reads⟩ := Option.map_eq_some_iff.mp commands.symm
  obtain ⟨session', drops', rfl⟩ := (cleanup'.put_iff keyed' command).mp cleared'
  obtain ⟨ids, offset⟩ := CommandRead.clearRegisters.inj reads
  have member : session ∈ second.sessions := sessions ▸ drops.member
  rw [sound.session_unique member drops'.member ids.symm]
  exact ⟨drops', offset.symm⟩

/-- Two removals that give the same id to pools with the same result give it to the same
pool. -/
theorem pipe_eq_of_give {pool : Int → Multiset Int} {pipe pipe' id : Int}
    (same : Function.update pool pipe (id ::ₘ pool pipe) =
      Function.update pool pipe' (id ::ₘ pool pipe')) : pipe = pipe' := by
  by_contra apart
  have here := congrArg Multiset.card (congrFun same pipe)
  rw [Function.update_self, Function.update_of_ne apart, Multiset.card_cons] at here
  omega

theorem agree_of_sameEffect (valid : db.Valid env) (member : b ∈ db.ledger.flows)
    (same : packet.h = b.1.h) (port : packet.devPort.toNat < maxDevPortId)
    (inside : 0 ≤ value ∧ value < featureSize) (inside' : 0 ≤ value' ∧ value' < featureSize)
    (effect : SameEffect (removeFlowByFiveTuple env db packet value)
      (removeFlowByFlowId env db b.2 value')) :
    db.RemovalsAgree env packet b value value' := by
  have effect' := effect
  obtain ⟨⟨db₁, puts₁⟩, call₁, ⟨db₂, puts₂⟩, call₂, _, _, flowIds, _, commands⟩ := effect
  have id := valid.sound.flow_id member
  unfold Ledger.ids minSessionId at id
  rw [Finset.mem_Ico] at id
  have idValid : (FlowCommand.timeoutFlow b.2).Valid := ⟨by omega, id.2⟩
  -- The two calls as commands of the loop.
  obtain ⟨_, _, step₁⟩ := (flowdbCommand_returns valid
    ⟨.removeFlow packet, true, "", value, port, inside⟩).of_pure call₁
  obtain ⟨valid₂, _, step₂⟩ := (flowdbCommand_returns valid
    ⟨.timeoutFlow b.2, true, "", value', idValid, inside'⟩).of_pure call₂
  have removes₁ : db.ledger.Removes (.removeFlow packet) packet b := .byFiveTuple member same.symm
  have removes₂ : db.ledger.Removes (.timeoutFlow b.2) b.1 b := .byFlowId member
  have free := step₂.not_overflows valid.keyed valid.sound valid₂.fits
  obtain ⟨middle₁, put₁, release₁, cleanup₁, rfl⟩ :=
    step₁.of_removes valid.keyed valid.sound removes₁
  obtain ⟨middle₂, put₂, release₂, cleanup₂, rfl⟩ :=
    step₂.of_removes valid.keyed valid.sound removes₂
  have pipe : packet.pipe = b.1.pipe := by
    have pools : db₁.ledger.flowPool = db₂.ledger.flowPool := funext flowIds
    rw [cleanup₁.flows_eq.2, cleanup₂.flows_eq.2, release₁.flows_eq.2, release₂.flows_eq.2] at pools
    exact pipe_eq_of_give pools
  have reads : put₁.map DataplaneCommand.read = put₂.map DataplaneCommand.read := by
    dsimp only at commands
    rw [List.map_cons, List.map_cons, ← Option.toList_map, ← Option.toList_map] at commands
    have heads := congrArg List.head? (List.cons.inj commands).2
    rw [Option.head?_toList, Option.head?_toList] at heads
    exact heads
  have sessions : middle₁.sessions = middle₂.sessions :=
    release₁.frame.1.trans release₂.frame.1.symm
  have keyed₁ := release₁.keyed valid.keyed
  have keyed₂ := release₂.keyed valid.keyed
  have sound₁ := release₁.sound (Ledger.pipe_mem port) valid.sound
  have sound₂ := release₂.sound (Ledger.pipe_mem (valid.sound.ports b member)) valid.sound
  have room : (db.ledger.flowPool b.1.pipe).card ≠ heapSize :=
    fun full => free (.flow removes₂ full)
  have drops_iff : ∀ session,
      db.ledger.Drops env packet value session ↔ db.ledger.Drops env b.1 value' session := by
    intro session
    constructor
    · intro drops
      exact release₂.drops_iff.mp (Ledger.Drops.of_same_commands keyed₁ keyed₂ sound₂ sessions
        cleanup₁ cleanup₂ reads (release₁.drops_iff.mpr drops)).1
    · intro drops
      exact release₁.drops_iff.mp (Ledger.Drops.of_same_commands keyed₂ keyed₁ sound₁
        sessions.symm cleanup₂ cleanup₁ reads.symm (release₂.drops_iff.mpr drops)).1
  have offset : ∀ session, db.ledger.Drops env b.1 value' session →
      packet.sessionIdEgressOffset = b.1.sessionIdEgressOffset := by
    intro session drops
    exact (Ledger.Drops.of_same_commands keyed₂ keyed₁ sound₁ sessions.symm cleanup₂ cleanup₁
      reads.symm (release₂.drops_iff.mpr drops)).2.symm
  have sessionRoom : ∀ session, db.ledger.Drops env b.1 value' session →
      (db.ledger.sessionPool b.1.pipe).card ≠ heapSize := by
    intro session drops full
    exact free (.session removes₂ drops full)
  exact ⟨pipe, room, drops_iff, offset, sessionRoom,
    (sameEffect_iff_counts valid member same pipe room drops_iff offset sessionRoom).mp effect'⟩

end Removal

/-- In every state that a run of commands reaches, and for every live flow, the removal by a
five-tuple with its key has the effect of the removal by its id, exactly when the rest of the
five-tuple leads to the same pools, the same session and the same egress slot, and both calls
decrement the same flow count. -/
theorem removals_agree_iff (env : Env) (inputs : List FlowInput) (packet : FiveTuple)
    (port : packet.devPort.toNat < maxDevPortId) (value value' : Int)
    (inside : 0 ≤ value ∧ value < featureSize) (inside' : 0 ≤ value' ∧ value' < featureSize) :
    Exec.Returns flowdbInit fun start =>
      ∀ db, inputs.foldlM (flowdbStep env) start = pure db →
        ∀ b ∈ db.flowHashtable.bindings, packet.h = b.1.h →
          (SameEffect (removeFlowByFiveTuple env db packet value)
              (removeFlowByFlowId env db b.2 value') ↔
            db.RemovalsAgree env packet b value value') := by
  apply (flowdbInit_returns env).mono
  intro start facts db run b member same
  have valid := flowdbRun_valid inputs facts.1 run
  exact ⟨agree_of_sameEffect valid member same port inside inside',
    removals_same valid member same⟩

/-! ## A flow on its way to another pipe -/

/-- The five-tuple of a TCP packet from port 0, which is forwarded to port 128. -/
def tcpPacket : FiveTuple :=
  { FiveTuple.zero with h := { FiveTuple.zero.h with l4Proto := .tcp } }

/-- A FIN packet with that five-tuple, as the data plane hands it over. -/
def finFrame : List UInt8 :=
  List.replicate 12 0 ++ [8, 0] ++ List.replicate 9 0 ++ [6] ++ List.replicate 10 0 ++
    List.replicate 13 0 ++ [1] ++ List.replicate 6 0

/-- `packet_handler` asks for the removal of the flow, here with a zero on the stack in place
of the egress offset. -/
theorem finFrame_removes (env : Env) (flows : FlowHashtable) (murmur : DnsHashtableKey → UInt32)
    (now : Int) :
    packetHandler env flows murmur dnsHashtableInit now 0 finFrame =
      pure ([.removeFlow tcpPacket], []) := by
  have tuple : ((etherFiveTuple 0 finFrame).withAddresses .ipv4 (bytesAt finFrame 26 4)
      (bytesAt finFrame 30 4)).withPorts finFrame 34 .tcp = tcpPacket := by decide
  have read : readPacket 0 finFrame = pure (.flow tcpPacket (some 1)) := by
    rw [← tuple]
    rfl
  have unknown : ∀ address proto, isInDnsHashtable murmur dnsHashtableInit address proto =
      pure false := by
    intro address proto
    unfold isInDnsHashtable
    rw [dnsHashtableGet_of_absent]
    · rfl
    · rw [dnsHashtableInit_bindings, Multiset.card_zero]
      unfold dnsHashtableSize
      decide
    · intro b member
      rw [dnsHashtableInit_bindings] at member
      exact absurd member (Multiset.notMem_zero b)
  unfold packetHandler setupSessionHash processPacket
  rw [read, pure_bind]
  dsimp only
  simp only [unknown, pure_bind]
  rfl

/-- The flow of a first such packet. -/
theorem first_flow (useSessions : Bool) :
    Exec.Returns flowdbInit fun start =>
      Exec.Returns (flowdbStep (.twoPorts useSessions) start (.add tcpPacket (by decide))) fun db =>
        db.Valid (.twoPorts useSessions) ∧
        db.ledger.flows = {((Env.twoPorts useSessions).record tcpPacket, 4)} ∧
        db.ledger.sessions = {((Env.twoPorts useSessions).record tcpPacket, 4)} ∧
        db.ledger.flowPool 0 = (Ledger.residentsFrom 0 1).val ∧
        db.ledger.sessionPool 0 = (Ledger.residentsFrom 0 1).val := by
  apply (flowdbInit_returns (.twoPorts useSessions)).mono
  intro start facts
  obtain ⟨valid, initial, _⟩ := facts
  have port : tcpPacket.devPort.toNat < maxDevPortId := by decide
  have pipe : tcpPacket.pipe = 0 := rfl
  have mapped : (Env.twoPorts useSessions).Mapped tcpPacket := by
    cases useSessions <;> decide
  have added := (flowdbStep_returns valid (.add tcpPacket port)).returns
    (Ledger.not_overflows_of_add rfl)
  apply added.mono
  intro db after
  obtain ⟨dbValid, _, puts, step⟩ := after
  obtain ⟨put, _, adds⟩ := step.adds rfl
  rw [initial] at adds
  obtain ⟨flows, sessions, flowPool, sessionPool⟩ := adds.placed_of_initial mapped port
  rw [pipe] at flowPool sessionPool
  exact ⟨dbValid, flows, sessions, flowPool, sessionPool⟩

/-- A packet with the stored egress offset agrees, whatever the two calls find in their
variables: without sessions they do not decrement. -/
theorem removals_agree_first_flow :
    Exec.Returns flowdbInit fun start =>
      Exec.Returns (flowdbStep (.twoPorts false) start (.add tcpPacket (by decide))) fun db =>
        SameEffect
          (removeFlowByFiveTuple (.twoPorts false) db ((Env.twoPorts false).record tcpPacket) 0)
          (removeFlowByFlowId (.twoPorts false) db 4 1) := by
  obtain ⟨start, init, db, added, valid, flows, sessions, flowPool, sessionPool⟩ := first_flow false
  have port : ((Env.twoPorts false).record tcpPacket).devPort.toNat < maxDevPortId := by decide
  have iff := (removals_agree_iff (.twoPorts false) [.add tcpPacket (by decide)]
    ((Env.twoPorts false).record tcpPacket) port 0 1 (by decide) (by decide)).of_pure init
  have run : [FlowInput.add tcpPacket (by decide)].foldlM (flowdbStep (.twoPorts false)) start =
      pure db := by
    rw [List.foldlM_cons, added, pure_bind]
    rfl
  have member : ((Env.twoPorts false).record tcpPacket, 4) ∈ db.flowHashtable.bindings := by
    change _ ∈ db.ledger.flows
    rw [flows]
    exact Multiset.mem_singleton_self _
  have room : (Ledger.residentsFrom 0 1).card ≠ heapSize :=
    (Ledger.card_residentsFrom_lt (Ledger.pipe_mem port)).ne
  refine ⟨start, init, db, added, (iff db run _ member rfl).mpr
    ⟨rfl, ?_, fun session => ?_, fun _ _ => rfl, fun _ _ => ?_, fun sessions => ?_⟩⟩
  · change (db.ledger.flowPool 0).card ≠ heapSize
    rw [flowPool]
    exact room
  · exact ⟨fun drops => ⟨Or.inl rfl, drops.member, drops.known⟩,
      fun drops => ⟨Or.inl rfl, drops.member, drops.known⟩⟩
  · change (db.ledger.sessionPool 0).card ≠ heapSize
    rw [sessionPool]
    exact room
  · cases sessions

/-- The FIN packet of the flow has another egress offset than the flow. -/
theorem removals_disagree_on_offset :
    (∀ flows murmur now, packetHandler (.twoPorts false) flows murmur dnsHashtableInit now 0
      finFrame = pure ([.removeFlow tcpPacket], [])) ∧
    ¬ Exec.Returns flowdbInit fun start =>
      Exec.Returns (flowdbStep (.twoPorts false) start (.add tcpPacket (by decide))) fun db =>
        SameEffect (removeFlowByFiveTuple (.twoPorts false) db tcpPacket 0)
          (removeFlowByFlowId (.twoPorts false) db 4 0) := by
  refine ⟨finFrame_removes _, fun claimed => ?_⟩
  obtain ⟨start, init, db, added, effect⟩ := claimed
  obtain ⟨valid, flows, sessions, _⟩ := ((first_flow false).of_pure init).of_pure added
  have member : ((Env.twoPorts false).record tcpPacket, 4) ∈ db.ledger.flows := by
    rw [flows]
    exact Multiset.mem_singleton_self _
  have held : ((Env.twoPorts false).record tcpPacket, 4) ∈ db.ledger.sessions := by
    rw [sessions]
    exact Multiset.mem_singleton_self _
  have key : tcpPacket.h = ((Env.twoPorts false).record tcpPacket).h := rfl
  have inside : (0 : Int) ≤ 0 ∧ (0 : Int) < featureSize := by decide
  have agree := agree_of_sameEffect valid member key (by decide) inside inside effect
  exact absurd (agree.offset _ ⟨Or.inl rfl, held, rfl⟩) (by decide)

end Marina
