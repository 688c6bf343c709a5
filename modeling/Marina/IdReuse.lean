import Marina.Threads

/-!
# Reuse of flow ids

A removal gives its flow id back before the data plane has heard of it. The id may be
used again at once, because `DP_REMOVE_FLOW` goes into the ring before the next
`DP_ADD_FLOW` can. `remove_flow_by_flow_id` waits for room in the ring to make sure of
this; `remove_flow_by_five_tuple` does not, and when the ring refuses its command, the
entry of the removed flow stays installed under an id that is free.
-/

namespace Marina

open Lib (Exec)

/-- When the data plane thread is about to execute `DP_ADD_FLOW`, no entry is installed
under its flow id. -/
def System.ReuseSafe (system : System) : Prop :=
  ∀ fiveTuple flowId sessionId rest, system.ring = .addFlow fiveTuple flowId sessionId :: rest →
    ∀ entry ∈ system.switch.entries, entry.flowId ≠ flowId

/-- The put of a removal by five-tuple finds room in the ring. -/
def System.RemovesWithRoom (system : System) (event : SystemEvent) : Prop :=
  event = .flowdb → ∀ flow flowId sessionId,
    system.pc = .removing false flow flowId sessionId → system.HasRoom

/-- The flow id belongs to a live flow with the key, or to one that is being removed and
whose command is still to be put. -/
def System.Owns (system : System) (flowId : Int) (h : FiveTupleForHash) : Prop :=
  (∃ b ∈ system.db.ledger.flows, b.2 = flowId ∧ b.1.h = h) ∨
    ∃ ensure flow sessionId, system.pc = .removing ensure flow flowId sessionId ∧ flow.h = h

/-- Every installed entry is accounted for, and what will be installed once the ring is
drained belongs to a flow. -/
structure System.Accounts (system : System) (installed final : Installed) : Prop where
  follows : system.switch.Follows installed
  drains : Lib.Drains Installed.apply Installed.Enabled installed system.ring final
  owned : ∀ flowId owner, final flowId = some owner → system.Owns flowId owner.1.h
  released : ∀ ensure flow flowId sessionId,
    system.pc = .removing ensure flow flowId sessionId → ∀ b ∈ system.db.ledger.flows, b.2 ≠ flowId

namespace System

variable {env : Env} {system system' : System} {event : SystemEvent} {installed final : Installed}
  {flowId : Int} {h : FiveTupleForHash}

theorem Accounts.reuseSafe (accounts : system.Accounts installed final) : system.ReuseSafe := by
  intro fiveTuple flowId sessionId rest head entry member
  have drains := accounts.drains
  rw [head] at drains
  exact accounts.follows.ne_of_none drains.get.1 member

theorem start_accounts (db : FlowDb) : (start db).Accounts (fun _ => none) fun _ => none where
  follows := Switch.empty_follows
  drains := .nil _
  owned _ _ held := by cases held
  released _ _ _ _ place := by cases place

theorem Owns.live (owns : system.Owns flowId h) (place : system.pc = .waiting) :
    ∃ b ∈ system.db.ledger.flows, b.2 = flowId ∧ b.1.h = h := by
  rcases owns with live | ⟨_, _, _, other, _⟩
  · exact live
  · rw [place] at other
    cases other

/-- The flows have grown, and the flow database waits for its next command. -/
theorem Owns.of_subset (place : system.pc = .waiting)
    (flows : ∀ b ∈ system.db.ledger.flows, b ∈ system'.db.ledger.flows)
    (owns : system.Owns flowId h) : system'.Owns flowId h := by
  obtain ⟨b, member, facts⟩ := owns.live place
  exact Or.inl ⟨b, flows b member, facts⟩

/-! ## What a move keeps -/

/-- The flows have grown, the flow database waits for its next command, and the ring and
the switch are as before. -/
theorem Accounts.of_subset (accounts : system.Accounts installed final)
    (place : system.pc = .waiting) (place' : system'.pc = .waiting)
    (flows : ∀ b ∈ system.db.ledger.flows, b ∈ system'.db.ledger.flows)
    (ring : system'.ring = system.ring) (switch : system'.switch = system.switch) :
    system'.Accounts installed final where
  follows := switch ▸ accounts.follows
  drains := ring ▸ accounts.drains
  owned flowId owner held := (accounts.owned flowId owner held).of_subset place flows
  released _ _ _ _ other := by rw [place'] at other; cases other

theorem Accounts.put_neutral {command : DataplaneCommand} (neutral : command.Neutral)
    (accounts : system.Accounts installed final) : (system.put command).Accounts installed final := by
  obtain ⟨⟨ready, _⟩, same⟩ := neutral.enabledFound final
  refine ⟨?_, put_drains ready same accounts.drains, ?_, ?_⟩
  · rw [put_switch]
    exact accounts.follows
  · unfold Owns
    rw [put_db, put_pc]
    exact accounts.owned
  · rw [put_db, put_pc]
    exact accounts.released

/-- A new flow takes an id under which nothing will be installed. -/
theorem Accounts.unused {packet : FiveTuple} {flowId : Int} {rest : Multiset Int}
    (accounts : system.Accounts installed final) (valid : system.Valid env)
    (place : system.pc = .waiting) (port : packet.devPort.toNat < maxDevPortId)
    (new : Ledger.NewFlow env packet flowId rest system.db.ledger) : final flowId = none := by
  cases held : final flowId with
  | none => rfl
  | some owner =>
      obtain ⟨b, member, same, _⟩ := (accounts.owned flowId owner held).live place
      exact absurd same
        (valid.db.sound.flow_fresh (Ledger.pipe_mem port) new.takes.mem b member)

theorem Accounts.add {input : FlowInput} {packet : FiveTuple} {db : FlowDb}
    {put : Option DataplaneCommand} (accounts : system.Accounts installed final)
    (valid : system.Valid env) (place : system.pc = .waiting)
    (command : input.command = .addFlow packet)
    (adds : Ledger.AddFlow env packet (decide system.HasRoom) system.db.ledger db.ledger put) :
    ∃ final', ({ system with db := db }.putAny put).Accounts installed final' := by
  have port := input.command_valid
  rw [command] at port
  generalize after : db.ledger = ledger at adds
  cases adds with
  | unmapped _ =>
      exact ⟨final, accounts.of_subset place place (fun b member => after ▸ member) rfl rfl⟩
  | noFlowId _ _ =>
      exact ⟨final, accounts.of_subset place place (fun b member => after ▸ member) rfl rfl⟩
  | known _ _ _ _ =>
      exact ⟨final, accounts.of_subset place place (fun b member => after ▸ member) rfl rfl⟩
  | noSessionId new _ _ =>
      refine ⟨final, accounts.of_subset place place ?_ rfl rfl⟩
      intro b member
      show b ∈ db.ledger.flows
      rw [after]
      exact Multiset.mem_cons_of_mem member
  | @placed flowId sessionId _ middle new enqueued session =>
      have room : System.HasRoom { system with db := db } := of_decide_eq_true enqueued
      have flows : db.ledger.flows = (env.record packet, flowId) ::ₘ system.db.ledger.flows := by
        rw [after, ← session.flows_eq]
        rfl
      refine ⟨final.apply (.addFlow (env.record packet) flowId sessionId), ?_, ?_, ?_, ?_⟩
      · rw [putAny_switch]
        exact accounts.follows
      · rw [putAny, put_ring room]
        exact accounts.drains.put (accounts.unused valid place port new)
      · intro id owner held
        refine Or.inl ?_
        rw [putAny_db]
        dsimp only
        rw [flows]
        by_cases same : id = flowId
        · subst same
          have owner_eq := (Function.update_self _ _ _).symm.trans held
          cases owner_eq
          exact ⟨_, Multiset.mem_cons_self _ _, rfl, rfl⟩
        · have held' := (Function.update_of_ne same _ _).symm.trans held
          obtain ⟨b, member, facts⟩ := (accounts.owned id owner held').live place
          exact ⟨b, Multiset.mem_cons_of_mem member, facts⟩
      · intro _ _ _ _ other
        rw [putAny_pc] at other
        cases place.symm.trans other
  | refused new full session =>
      have noRoom : ¬ System.HasRoom { system with db := db } := of_decide_eq_false full
      refine ⟨final, accounts.of_subset place ?_ ?_ ?_ ?_⟩
      · rw [putAny_pc]
        exact place
      · intro b member
        rw [putAny_db]
        dsimp only
        rw [after, session.flows_eq]
        exact member
      · rw [putAny, put_ring_of_full noRoom]
      · rw [putAny_switch]

/-- The flow leaves its table and its removal is still to be put. -/
theorem Accounts.release {input : FlowInput} {flow : FiveTuple} {b : FiveTuple × Int}
    {db : FlowDb} (accounts : system.Accounts installed final) (valid : system.Valid env)
    (place : system.pc = .waiting) (removes : system.db.ledger.Removes input.command flow b)
    (release : Ledger.ReleaseFlow flow.pipe b system.db.ledger db.ledger) :
    System.Accounts
      { system with
        db := db
        pc := .removing input.command.ensures flow b.2 input.sessionId } installed final := by
  have held := release.flows_eq.1
  have used := Lib.IdPool.used_nodup valid.db.sound.flow_nodup
  rw [held, Multiset.map_cons, Multiset.nodup_cons] at used
  refine ⟨accounts.follows, accounts.drains, ?_, ?_⟩
  · intro flowId owner owned
    obtain ⟨c, member, same, key⟩ := (accounts.owned flowId owner owned).live place
    rw [held] at member
    rcases Multiset.mem_cons.mp member with rfl | member
    · exact Or.inr ⟨_, flow, _, by rw [same], removes.key.trans key⟩
    · exact Or.inl ⟨c, member, same, key⟩
  · intro _ _ flowId _ other c member same
    cases other
    exact used.1 (Multiset.mem_map.mpr ⟨c, member, same⟩)

theorem Accounts.removeFlow {ensure : Bool} {flow : FiveTuple} {flowId sessionId : Int}
    (accounts : system.Accounts installed final)
    (place : system.pc = .removing ensure flow flowId sessionId) (room : system.HasRoom) :
    System.Accounts
      { system.put (.removeFlow flow flowId) with pc := .cleaning flow sessionId } installed
      (final.apply (.removeFlow flow flowId)) := by
  have absent := accounts.released _ _ _ _ place
  refine ⟨?_, ?_, ?_, ?_⟩
  · dsimp only
    rw [put_switch]
    exact accounts.follows
  · dsimp only
    rw [put_ring room]
    refine accounts.drains.put ?_
    intro owner held
    rcases accounts.owned flowId owner held with ⟨b, member, same, _⟩ | ⟨_, _, _, other, key⟩
    · exact absurd same (absent b member)
    · cases place.symm.trans other
      exact key.symm
  · intro id owner held
    have apart : id ≠ flowId := by
      intro same
      rcases same with rfl
      cases (Function.update_self _ _ _).symm.trans held
    have held' := (Function.update_of_ne apart _ _).symm.trans held
    rcases accounts.owned id owner held' with live | ⟨_, _, _, other, _⟩
    · refine Or.inl ?_
      dsimp only
      rw [put_db]
      exact live
    · cases place.symm.trans other
      exact absurd rfl apart
  · intro _ _ _ _ other
    cases other

theorem Accounts.clean {flow : FiveTuple} {sessionId : Int} {db : FlowDb}
    {put : Option DataplaneCommand} (accounts : system.Accounts installed final)
    (place : system.pc = .cleaning flow sessionId)
    (cleanup : Ledger.Cleanup env flow sessionId system.db.ledger db.ledger put) :
    System.Accounts { { system with db := db }.putAny put with pc := .waiting }
      installed final := by
  have flows := cleanup.flows_eq.1
  have stays : System.Accounts { system with db := db, pc := .waiting } installed final := by
    refine ⟨accounts.follows, accounts.drains, ?_, ?_⟩
    · intro flowId owner held
      rcases accounts.owned flowId owner held with live | ⟨_, _, _, other, _⟩
      · refine Or.inl ?_
        dsimp only
        rw [flows]
        exact live
      · cases place.symm.trans other
    · intro _ _ _ _ other
      cases other
  rw [putAny_with_pc]
  cases put with
  | none => exact stays
  | some command => exact stays.put_neutral cleanup.neutral

theorem Accounts.execute {command : DataplaneCommand} {rest : List DataplaneCommand}
    (accounts : system.Accounts installed final) (taken : system.ring = command :: rest)
    (entryHdl : UInt32) :
    System.Accounts
      { system with ring := rest, switch := system.switch.execute entryHdl command }
      (installed.apply command) final := by
  have drains := accounts.drains
  rw [taken] at drains
  obtain ⟨ready, later⟩ := drains.get
  exact ⟨accounts.follows.execute ready, later, accounts.owned, accounts.released⟩

/-- Every move keeps entries and ids accounted for, when removals find room. -/
theorem Accounts.move (accounts : system.Accounts installed final) (valid : system.Valid env)
    (room : system.RemovesWithRoom event) (move : ThreadMove env system event system') :
    ∃ installed' final', system'.Accounts installed' final' := by
  cases move with
  | stays _ => exact ⟨installed, final, accounts⟩
  | add place command adds => exact ⟨installed, accounts.add valid place command adds⟩
  | release place removes release =>
      exact ⟨installed, final, accounts.release valid place removes release⟩
  | @put ensure flow flowId sessionId place ready =>
      have found : system.HasRoom := by
        cases ensure with
        | true => exact ready rfl
        | false => exact room rfl _ _ _ place
      exact ⟨installed, _, accounts.removeFlow place found⟩
  | clean place cleanup => exact ⟨installed, final, accounts.clean place cleanup⟩
  | bloomFilter add indices pipeId =>
      have neutral := bloomFilterCommand_neutral add indices pipeId
      exact ⟨installed, final, accounts.put_neutral neutral⟩
  | dataplane entryHdl taken => exact ⟨_, final, accounts.execute taken entryHdl⟩

end System

/-! ## Runs -/

/-- In every run in which removals by five-tuple find room in the ring, up to the first
push onto a full pool, no flow id is installed again before its old entry is gone. -/
theorem flow_ids_reused_safely (env : Env) (events : List SystemEvent) :
    Exec.Returns flowdbInit fun db =>
      Lib.AllSteps (systemStep env) System.RemovesWithRoom (.start db) events →
        Lib.StatesUntil .heapOverflow (systemStep env) System.ReuseSafe (.start db) events := by
  apply (flowdbInit_returns env).mono
  intro db start steps
  refine Lib.StatesUntil.of_invariant
    (I := fun system => system.Valid env ∧ ∃ installed final, system.Accounts installed final)
    ?_ ?_ ⟨System.start_valid start.1, _, _, System.start_accounts db⟩ steps
  · intro system event holds room
    obtain ⟨valid, installed, final, accounts⟩ := holds
    apply (systemStep_moves valid event).orFault.mono
    intro system' facts
    exact ⟨facts.1, accounts.move valid room facts.2⟩
  · intro system holds
    obtain ⟨_, installed, final, accounts⟩ := holds
    exact accounts.reuseSafe

/-- A run that is shorter than the ring never finds it full. -/
theorem removesWithRoom_of_short {env : Env} {events : List SystemEvent} :
    ∀ {system : System}, system.Valid env →
      system.ring.length + events.length ≤ dataplaneRingbufferSize →
      Lib.AllSteps (systemStep env) System.RemovesWithRoom system events := by
  induction events with
  | nil =>
      intro system _ _
      exact True.intro
  | cons event rest ih =>
      intro system valid short
      rw [List.length_cons] at short
      refine ⟨?_, ?_⟩
      · intro _ _ _ _ _
        unfold System.HasRoom
        omega
      · intro system' next
        obtain ⟨valid', move⟩ := (systemStep_moves valid event).of_pure next
        have bound := move.ring_length_le
        exact ih valid' (by omega)

/-- A flow is removed by five-tuple and its id is used again while both commands are
queued. -/
theorem flow_ids_reused_safely_short :
    Exec.Returns flowdbInit fun db =>
      Lib.StatesUntil .heapOverflow (systemStep (.twoPorts false)) System.ReuseSafe (.start db)
        [.packet (.add .zero (by decide)), .dataplane 1,
          .packet ⟨.removeFlow .zero, true, "", 0, by decide, by decide⟩, .flowdb, .flowdb,
          .packet (.add (.onPort 0 1) (by decide)), .dataplane 2, .dataplane 2, .dataplane 2] := by
  obtain ⟨db, init, safe⟩ := flow_ids_reused_safely (.twoPorts false)
    [.packet (.add .zero (by decide)), .dataplane 1,
      .packet ⟨.removeFlow .zero, true, "", 0, by decide, by decide⟩, .flowdb, .flowdb,
      .packet (.add (.onPort 0 1) (by decide)), .dataplane 2, .dataplane 2, .dataplane 2]
  obtain ⟨valid, _, _⟩ := (flowdbInit_returns (.twoPorts false)).of_pure init
  exact ⟨db, init, safe (removesWithRoom_of_short (System.start_valid valid)
    (show 0 + 9 ≤ dataplaneRingbufferSize by decide))⟩

/-! ## A removal under back-pressure -/

section BackPressure

variable {env : Env} {system : System} {n : Nat}

/-- A command that is repeated until the ring is full. -/
def bloomPut : SystemEvent := .bloomFilter true (Vector.replicate numBloomfilters 0) 0

theorem run_bloomPuts (room : system.ring.length + n ≤ dataplaneRingbufferSize) :
    (List.replicate n bloomPut).foldlM (systemStep env) system = pure
      { system with
        ring := system.ring ++
          List.replicate n (.addBloomFilter (Vector.replicate numBloomfilters 0) 0) } := by
  induction n generalizing system with
  | zero =>
      simp only [List.replicate_zero, List.foldlM_nil, List.append_nil]
  | succ n ih =>
      have found : system.HasRoom := by
        unfold System.HasRoom
        omega
      rw [List.replicate_succ, List.foldlM_cons]
      have first : systemStep env system bloomPut = pure
          { system with
            ring := system.ring ++ [.addBloomFilter (Vector.replicate numBloomfilters 0) 0] } := by
        simp only [bloomPut, systemStep, System.put, if_pos found, bloomFilterCommand, if_true]
      rw [first, pure_bind,
        ih (by simp only [List.length_append, List.length_singleton]; omega)]
      simp only [List.append_assoc, List.singleton_append, List.replicate_succ]

theorem run_dataplane (ring : system.ring =
      List.replicate n (.addBloomFilter (Vector.replicate numBloomfilters 0) 0)) :
    (List.replicate n (.dataplane 0)).foldlM (systemStep env) system =
      pure { system with ring := [] } := by
  induction n generalizing system with
  | zero =>
      rw [List.replicate_zero] at ring
      rw [List.replicate_zero, List.foldlM_nil, ← ring]
  | succ n ih =>
      rw [List.replicate_succ] at ring
      rw [List.replicate_succ, List.foldlM_cons]
      simp only [systemStep, ring, pure_bind, Switch.execute]
      rw [ih rfl]

/-- The first flow of a port is installed under the lowest flow id of its pipe. -/
theorem first_flow_installed {db : FlowDb} {packet : FiveTuple} (valid : db.Valid env)
    (initial : db.ledger = Ledger.initial) (mapped : env.Mapped packet)
    (port : packet.devPort.toNat < maxDevPortId) :
    ∃ db', [.packet (.add packet port), .dataplane 0].foldlM (systemStep env) (.start db) = pure
        ⟨db', .waiting, [], 0,
          Switch.empty.addClassificationEntry (env.record packet) (4 + packet.pipe)
            (4 + packet.pipe) 0⟩ ∧
      db'.Valid env ∧
      db'.ledger.flows = {(env.record packet, 4 + packet.pipe)} ∧
      db'.ledger.flowPool packet.pipe = (Ledger.residentsFrom packet.pipe 1).val ∧
      db'.ledger.sessionPool packet.pipe = (Ledger.residentsFrom packet.pipe 1).val := by
  obtain ⟨_, added, valid', move⟩ := (systemStep_moves (System.start_valid valid)
    (.packet (.add packet port))).returns (System.not_overflows_of_add rfl)
  obtain ⟨db', put, rfl, adds⟩ := move.adds rfl rfl
  have room : (System.start db).HasRoom := by
    show 0 < dataplaneRingbufferSize
    decide
  rw [decide_eq_true room] at adds
  have start : (System.start db).db.ledger = Ledger.initial := initial
  rw [start] at adds
  obtain ⟨flows, _, flowPool, sessionPool⟩ := adds.placed_of_initial mapped port
  obtain ⟨rfl, _⟩ := adds.of_initial mapped port
  refine ⟨db', ?_, ?_, flows, flowPool, sessionPool⟩
  · rw [List.foldlM_cons, added, pure_bind, List.foldlM_cons]
    have queued : System.putAny { System.start db with db := db' }
        (some (.addFlow (env.record packet) (4 + packet.pipe) (4 + packet.pipe))) =
        ⟨db', .waiting, [.addFlow (env.record packet) (4 + packet.pipe) (4 + packet.pipe)], 0,
          .empty⟩ := by
      exact System.put_of_room (show System.HasRoom { System.start db with db := db' } from room) _
    rw [queued]
    rfl
  · have after := valid'.db
    rw [System.putAny_db] at after
    exact after

theorem removeFlow_refused {flow : FiveTuple} {flowId sessionId : Int}
    (place : system.pc = .removing false flow flowId sessionId) (full : ¬ system.HasRoom) :
    systemStep env system .flowdb = pure
      { system with pc := .cleaning flow sessionId, refused := system.refused + 1 } := by
  simp only [systemStep, flowdbResume, place, Bool.false_eq_true, false_and, if_false,
    System.put_of_full full]

theorem putAny_of_full (full : ¬ system.HasRoom) (command : Option DataplaneCommand) :
    ∃ refused, system.putAny command = { system with refused := refused } := by
  cases command with
  | none => exact ⟨system.refused, rfl⟩
  | some command => exact ⟨_, System.put_of_full full command⟩

/-- The first step of the removal of the only flow gives its id back. -/
theorem removal_released {flow : FiveTuple} {b : FiveTuple × Int} {sessionId : Int}
    (inside : 0 ≤ sessionId ∧ sessionId < featureSize)
    (port : flow.devPort.toNat < maxDevPortId) (valid : system.Valid env)
    (place : system.pc = .waiting) (flows : system.db.ledger.flows = {b}) (key : b.1.h = flow.h)
    (flowPool : (system.db.ledger.flowPool flow.pipe).card ≠ heapSize) :
    ∃ db, systemStep env system
        (.packet ⟨.removeFlow flow, true, "", sessionId, port, inside⟩) = pure
          { system with db := db, pc := .removing false flow b.2 sessionId } ∧
      System.Valid env { system with db := db, pc := .removing false flow b.2 sessionId } ∧
      Ledger.ReleaseFlow flow.pipe b system.db.ledger db.ledger := by
  have removes : system.db.ledger.Removes (.removeFlow flow) flow b := by
    refine .byFiveTuple ?_ key
    rw [flows]
    exact Multiset.mem_singleton_self b
  have noOverflow : ¬ system.Overflows env
      (.packet ⟨.removeFlow flow, true, "", sessionId, port, inside⟩) := by
    intro overflows
    cases overflows with
    | flow _ removes' card =>
        obtain ⟨rfl, rfl⟩ := removes.unique valid.db.keyed valid.db.sound removes'
        exact flowPool card
  obtain ⟨_, released, valid', move⟩ := (systemStep_moves valid _).returns noOverflow
  obtain ⟨db, release, rfl⟩ := move.releases valid place removes
  exact ⟨db, released, valid', release⟩

/-- The last step of a removal, with the ring full: what it puts is lost. -/
theorem cleanup_refused {flow : FiveTuple} {sessionId : Int} (valid : system.Valid env)
    (place : system.pc = .cleaning flow sessionId) (full : ¬ system.HasRoom)
    (sessionPool : (system.db.ledger.sessionPool flow.pipe).card ≠ heapSize) :
    ∃ db put refused, systemStep env system .flowdb = pure
        { system with db := db, pc := .waiting, refused := refused } ∧
      db.Valid env ∧ Ledger.Cleanup env flow sessionId system.db.ledger db.ledger put := by
  have noOverflow : ¬ system.Overflows env .flowdb := by
    intro overflows
    cases overflows with
    | session place' _ card =>
        cases place.symm.trans place'
        exact sessionPool card
  obtain ⟨_, cleaned, valid', move⟩ := (systemStep_moves valid .flowdb).returns noOverflow
  obtain ⟨db, put, cleanup, rfl⟩ := move.cleans place
  have stillFull : ¬ System.HasRoom { system with db := db } := full
  obtain ⟨refused, dropped⟩ := putAny_of_full stillFull put
  rw [dropped] at cleaned valid'
  exact ⟨db, put, refused, cleaned, valid'.db, cleanup⟩

/-- A removal whose commands the ring refuses: the flow and its id are gone, and the
switch has not heard of it. -/
theorem removal_refused {flow : FiveTuple} {b : FiveTuple × Int} {sessionId : Int}
    (inside : 0 ≤ sessionId ∧ sessionId < featureSize)
    (port : flow.devPort.toNat < maxDevPortId) (valid : system.Valid env)
    (place : system.pc = .waiting) (full : ¬ system.HasRoom)
    (flows : system.db.ledger.flows = {b}) (key : b.1.h = flow.h)
    (flowPool : (system.db.ledger.flowPool flow.pipe).card ≠ heapSize)
    (sessionPool : (system.db.ledger.sessionPool flow.pipe).card ≠ heapSize) :
    ∃ db refused, [.packet ⟨.removeFlow flow, true, "", sessionId, port, inside⟩, .flowdb,
        .flowdb].foldlM (systemStep env) system = pure
          { system with db := db, refused := refused } ∧
      db.Valid env ∧ db.ledger.flows = 0 ∧
      db.ledger.flowPool flow.pipe = b.2 ::ₘ system.db.ledger.flowPool flow.pipe ∧
      system.db.ledger.sessionPool flow.pipe ≤ db.ledger.sessionPool flow.pipe := by
  obtain ⟨db₁, first, valid₁, release⟩ :=
    removal_released inside port valid place flows key flowPool
  obtain ⟨_, pool₁, _⟩ := release.frame
  have second := @removeFlow_refused env
    { system with db := db₁, pc := .removing false flow b.2 sessionId } _ _ _ rfl full
  obtain ⟨valid₂, _⟩ := (systemStep_moves valid₁ .flowdb).of_pure second
  have sessionPool₁ : (db₁.ledger.sessionPool flow.pipe).card ≠ heapSize := by
    rw [pool₁]
    exact sessionPool
  obtain ⟨db₃, put, refused, third, valid₃, cleanup⟩ :=
    cleanup_refused valid₂ rfl full sessionPool₁
  refine ⟨db₃, refused, ?_, valid₃, ?_, ?_, ?_⟩
  · rw [List.foldlM_cons, first, pure_bind, List.foldlM_cons, second, pure_bind,
      List.foldlM_cons, third, pure_bind, List.foldlM_nil]
    dsimp only
    rw [place]
  · have held := release.flows_eq.1
    rw [flows] at held
    rw [cleanup.flows_eq.1]
    exact ((Multiset.singleton_eq_cons_iff _).mp held).2
  · rw [cleanup.flows_eq.2]
    dsimp only
    rw [release.flows_eq.2, Function.update_self]
  · have grows := cleanup.sessionPool_le
    dsimp only at grows
    rw [pool₁] at grows
    exact grows

/-- A flow that comes in when there is none takes the lowest id of its pipe. -/
theorem lowest_id_taken {db : FlowDb} {packet : FiveTuple} {refused : Nat} {switch : Switch}
    (valid : db.Valid env) (mapped : env.Mapped packet)
    (port : packet.devPort.toNat < maxDevPortId) (flows : db.ledger.flows = 0)
    (flowPool : db.ledger.flowPool packet.pipe =
      (4 + packet.pipe) ::ₘ (Ledger.residentsFrom packet.pipe 1).val)
    (served : db.ledger.sessionPool packet.pipe ≠ 0) :
    ∃ db' sessionId, systemStep env ⟨db, .waiting, [], refused, switch⟩
      (.packet (.add packet port)) = pure ⟨db', .waiting,
        [.addFlow (env.record packet) (4 + packet.pipe) sessionId], refused, switch⟩ := by
  have before : System.Valid env ⟨db, .waiting, [], refused, switch⟩ := .of_waiting valid rfl
  obtain ⟨last, added, _, move⟩ := (systemStep_moves before
    (.packet (.add packet port))).returns (System.not_overflows_of_add rfl)
  obtain ⟨db', put, rfl, adds⟩ := move.adds rfl rfl
  have room : System.HasRoom ⟨db, .waiting, [], refused, switch⟩ := by
    show 0 < dataplaneRingbufferSize
    decide
  rw [decide_eq_true room] at adds
  have filled : db.ledger.flowPool packet.pipe ≠ 0 := by
    rw [flowPool]
    exact Multiset.cons_ne_zero
  have absent : ∀ b ∈ db.ledger.flows, b.1.h ≠ packet.h := by
    rw [flows]
    intro b member
    exact absurd member (Multiset.notMem_zero b)
  obtain ⟨flowId, sessionId, _, _, new, _, _, rfl⟩ :=
    adds.placed_of_new mapped filled absent served
  have lowest : Ledger.Takes (db.ledger.flowPool packet.pipe) (4 + packet.pipe)
      (Ledger.residentsFrom packet.pipe 1).val := by
    refine ⟨flowPool, ?_⟩
    intro other member
    have later := (Ledger.mem_residentsFrom.mp (Finset.mem_val.mp member)).1
    push_cast at later
    omega
  obtain rfl := new.takes.unique lowest
  have queued := System.put_of_room
    (show System.HasRoom ⟨db', .waiting, [], refused, switch⟩ from room)
    (.addFlow (env.record packet) (4 + packet.pipe) sessionId)
  refine ⟨db', sessionId, ?_⟩
  rw [added]
  exact congrArg pure queued

end BackPressure

/-- The first flow of a port, and its removal. -/
def flowInstalled : List SystemEvent := [.packet (.add .zero (by decide)), .dataplane 0]

def flowRemoved : List SystemEvent :=
  [.packet ⟨.removeFlow .zero, true, "", 0, by decide, zero_sessionId_valid⟩, .flowdb, .flowdb]

/-- A flow is installed, the ring is given `size` commands, the flow is removed, the ring
is drained, and another flow comes in. -/
def backPressure (size : Nat) : List SystemEvent :=
  flowInstalled ++ (List.replicate size bloomPut ++ (flowRemoved ++
    (List.replicate size (.dataplane 0) ++ [.packet (.add (.onPort 0 1) (by decide))])))

/-- The entry of the removed flow is still installed when its id is used again. -/
theorem flow_ids_not_reused_safely :
    ¬ Exec.Returns flowdbInit fun db =>
      Lib.StatesUntil .heapOverflow (systemStep (.twoPorts false)) System.ReuseSafe (.start db)
        (backPressure dataplaneRingbufferSize) := by
  intro claimed
  obtain ⟨db, init, states⟩ := claimed
  obtain ⟨valid, initial, _⟩ := (flowdbInit_returns (.twoPorts false)).of_pure init
  have port : FiveTuple.zero.devPort.toNat < maxDevPortId := by decide
  have inside := Ledger.pipe_mem port
  obtain ⟨db₁, installed, valid₁, flows₁, flowPool₁, sessionPool₁⟩ :=
    first_flow_installed valid initial (show (Env.twoPorts false).Mapped .zero by decide) port
  obtain ⟨switch, hswitch⟩ : ∃ switch, switch = Switch.empty.addClassificationEntry
    ((Env.twoPorts false).record .zero) (4 + FiveTuple.zero.pipe) (4 + FiveTuple.zero.pipe) 0 :=
      ⟨_, rfl⟩
  rw [← hswitch] at installed
  unfold backPressure at states
  have states := states.after installed
  have states := states.after (run_bloomPuts (show 0 + dataplaneRingbufferSize ≤ _ by omega))
  have full : ¬ System.HasRoom ⟨db₁, .waiting,
      [] ++ List.replicate dataplaneRingbufferSize
        (.addBloomFilter (Vector.replicate numBloomfilters 0) 0), 0, switch⟩ := by
    unfold System.HasRoom
    rw [List.nil_append, List.length_replicate]
    omega
  have card : (Ledger.residentsFrom FiveTuple.zero.pipe 1).card ≠ heapSize :=
    (Ledger.card_residentsFrom_lt inside).ne
  obtain ⟨db₂, refused, removed, valid₂, flows₂, flowPool₂, sessionPool₂⟩ :=
    removal_refused (show (0 : Int) ≤ 0 ∧ (0 : Int) < featureSize by decide) port
      (.of_waiting valid₁ rfl) rfl full flows₁ rfl
      (by rw [flowPool₁]; exact card) (by rw [sessionPool₁]; exact card)
  have states := states.after removed
  have states := states.after (run_dataplane (List.nil_append _))
  dsimp only at states flowPool₂ sessionPool₂
  rw [flowPool₁] at flowPool₂
  have served : db₂.ledger.sessionPool FiveTuple.zero.pipe ≠ 0 := by
    intro empty
    rw [empty, sessionPool₁, nonpos_iff_eq_zero] at sessionPool₂
    exact Ledger.residentsFrom_ne_zero inside (by decide) sessionPool₂
  obtain ⟨db₃, sessionId, added⟩ := lowest_id_taken valid₂
    (show (Env.twoPorts false).Mapped (.onPort 0 1) by decide) (by decide) flows₂ flowPool₂ served
  have safe := (states.2.of_pure added).head
  refine safe _ _ _ [] rfl
    (classificationEntry ((Env.twoPorts false).record .zero) (4 + FiveTuple.zero.pipe)
      (4 + FiveTuple.zero.pipe) 0) ?_ rfl
  rw [hswitch]
  exact List.mem_singleton_self _

end Marina
