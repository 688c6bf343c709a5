import Marina.Dataplane
import Marina.FlowRuns

/-!
# The two threads and the ring between them

`flowdb_thread` and `dataplane_thread`, with the bounded ring of data plane commands.
The flow database thread stops at every operation on the ring, so that steps of the data
plane thread may come between the two commands of a removal, and a removal by flow id
waits in `dataplane_ringbuffer_ensure_put` while the ring is full. Other producers of
the ring only put bloom filter commands. `ThreadMove` lists what a step can do, in terms
of the ledger, and `systemStep_moves` connects it to the code.
-/

namespace Marina

open Lib (Exec)

/-- Where `flowdb_thread` stands: before its next command, before the put of
`DP_REMOVE_FLOW`, where `ensure` tells the two kinds of put apart, or before the cleanup
of the session. -/
inductive FlowdbPc
  | waiting
  | removing (ensure : Bool) (fiveTuple : FiveTuple) (flowId sessionId : Int)
  | cleaning (fiveTuple : FiveTuple) (sessionId : Int)
  deriving DecidableEq, Repr

/-- The state of both threads. The ring is a queue of at most
`DATAPLANE_RINGBUFFER_SIZE` commands, and `refused` counts the puts it did not take. -/
structure System where
  db : FlowDb
  pc : FlowdbPc
  ring : List DataplaneCommand
  refused : Nat
  switch : Switch

namespace System

def HasRoom (system : System) : Prop := system.ring.length < dataplaneRingbufferSize

instance (system : System) : Decidable system.HasRoom :=
  inferInstanceAs (Decidable (_ < _))

/-- `dataplane_ringbuffer_put`. -/
def put (system : System) (command : DataplaneCommand) : System :=
  if system.HasRoom then { system with ring := system.ring ++ [command] }
  else { system with refused := system.refused + 1 }

/-- The put of a command, if there is one. -/
def putAny (system : System) : Option DataplaneCommand → System
  | none => system
  | some command => system.put command

/-- Nothing is queued or installed. -/
def start (db : FlowDb) : System := ⟨db, .waiting, [], 0, .empty⟩

end System

/-- A step of one of the threads: the flow database takes its next command, or goes on
with the one it is in; a bloom filter command is put by whoever does so; the data plane
thread takes a command from the ring, and the driver returns a handle if it is asked. -/
inductive SystemEvent
  | packet (input : FlowInput)
  | flowdb
  | bloomFilter (add : Bool) (indices : Vector Int numBloomfilters) (pipeId : Int)
  | dataplane (entryHdl : UInt32)

def bloomFilterCommand (add : Bool) (indices : Vector Int numBloomfilters) (pipeId : Int) :
    DataplaneCommand :=
  if add then .addBloomFilter indices pipeId else .removeBloomFilter indices pipeId

/-- The place in the code after the flow has left its table. -/
def FlowdbPc.ofReleased (ensure : Bool) (sessionId : Int) : Option (FiveTuple × Int) → FlowdbPc
  | none => .waiting
  | some (fiveTuple, flowId) => .removing ensure fiveTuple flowId sessionId

/-- The next command of `flowdb_thread`, up to its first put of a removal. What the ring
answers takes the place of `accepted`. -/
def flowdbTake (env : Env) (system : System) (input : FlowInput) : Outcome System :=
  match input.command with
  | .addFlow fiveTuple => do
      let (db, put) ← addFlow env system.db fiveTuple input.uuid (decide system.HasRoom)
      pure ({ system with db := db }.putAny put)
  | .removeFlow fiveTuple => do
      let (db, released) ← releaseFlowByFiveTuple env system.db fiveTuple
      pure { system with db := db, pc := .ofReleased false input.sessionId released }
  | .timeoutFlow flowId => do
      let (db, released) ← releaseFlowByFlowId env system.db flowId
      pure { system with db := db, pc := .ofReleased true input.sessionId released }

/-- `flowdb_thread` going on with a removal. -/
def flowdbResume (env : Env) (system : System) : Outcome System :=
  match system.pc with
  | .waiting => pure system
  | .removing ensure fiveTuple flowId sessionId =>
      if ensure = true ∧ ¬ system.HasRoom then pure system
      else pure { system.put (.removeFlow fiveTuple flowId) with pc := .cleaning fiveTuple sessionId }
  | .cleaning fiveTuple sessionId => do
      let (db, put) ← sessionCleanupAfterFlowRemove env system.db fiveTuple sessionId
      pure { { system with db := db }.putAny put with pc := .waiting }

/-- One step; a thread that cannot take the step stays where it is. -/
def systemStep (env : Env) (system : System) : SystemEvent → Outcome System
  | .packet input => if system.pc = .waiting then flowdbTake env system input else pure system
  | .flowdb => flowdbResume env system
  | .bloomFilter add indices pipeId => pure (system.put (bloomFilterCommand add indices pipeId))
  | .dataplane entryHdl =>
      match system.ring with
      | [] => pure system
      | command :: rest =>
          pure { system with ring := rest, switch := system.switch.execute entryHdl command }

/-! ## What a step can do -/

/-- Which removals wait for room in the ring. -/
def FlowCommand.ensures : FlowCommand → Bool
  | .timeoutFlow _ => true
  | _ => false

/-- The steps that a thread cannot take, and commands for unknown flows. -/
inductive System.Stays (system : System) : SystemEvent → Prop
  | busy (input : FlowInput) (place : system.pc ≠ .waiting) : Stays system (.packet input)
  | missed (input : FlowInput) (others : ∀ packet, input.command ≠ .addFlow packet)
      (unknown : ∀ flow b, ¬ system.db.ledger.Removes input.command flow b) :
      Stays system (.packet input)
  | idle (place : system.pc = .waiting) : Stays system .flowdb
  | blocked {flow : FiveTuple} {flowId sessionId : Int}
      (place : system.pc = .removing true flow flowId sessionId) (full : ¬ system.HasRoom) :
      Stays system .flowdb
  | empty (entryHdl : UInt32) (nothing : system.ring = []) : Stays system (.dataplane entryHdl)

/-- The moves of the system, by their effect on the ledger. -/
inductive ThreadMove (env : Env) (system : System) : SystemEvent → System → Prop
  | stays {event : SystemEvent} (stays : system.Stays event) :
      ThreadMove env system event system
  | add {input : FlowInput} {packet : FiveTuple} {db : FlowDb} {put : Option DataplaneCommand}
      (place : system.pc = .waiting) (command : input.command = .addFlow packet)
      (adds : Ledger.AddFlow env packet (decide system.HasRoom) system.db.ledger db.ledger put) :
      ThreadMove env system (.packet input) ({ system with db := db }.putAny put)
  | release {input : FlowInput} {flow : FiveTuple} {b : FiveTuple × Int} {db : FlowDb}
      (place : system.pc = .waiting) (removes : system.db.ledger.Removes input.command flow b)
      (release : Ledger.ReleaseFlow flow.pipe b system.db.ledger db.ledger) :
      ThreadMove env system (.packet input)
        { system with
          db := db
          pc := .removing input.command.ensures flow b.2 input.sessionId }
  | put {ensure : Bool} {flow : FiveTuple} {flowId sessionId : Int}
      (place : system.pc = .removing ensure flow flowId sessionId)
      (ready : ensure = true → system.HasRoom) :
      ThreadMove env system .flowdb
        { system.put (.removeFlow flow flowId) with pc := .cleaning flow sessionId }
  | clean {flow : FiveTuple} {sessionId : Int} {db : FlowDb} {put : Option DataplaneCommand}
      (place : system.pc = .cleaning flow sessionId)
      (cleanup : Ledger.Cleanup env flow sessionId system.db.ledger db.ledger put) :
      ThreadMove env system .flowdb { { system with db := db }.putAny put with pc := .waiting }
  | bloomFilter (add : Bool) (indices : Vector Int numBloomfilters) (pipeId : Int) :
      ThreadMove env system (.bloomFilter add indices pipeId)
        (system.put (bloomFilterCommand add indices pipeId))
  | dataplane {command : DataplaneCommand} {rest : List DataplaneCommand} (entryHdl : UInt32)
      (taken : system.ring = command :: rest) :
      ThreadMove env system (.dataplane entryHdl)
        { system with ring := rest, switch := system.switch.execute entryHdl command }

theorem bloomFilterCommand_neutral (add : Bool) (indices : Vector Int numBloomfilters)
    (pipeId : Int) : (bloomFilterCommand add indices pipeId).Neutral := by
  cases add with
  | true => exact True.intro
  | false => exact True.intro

/-- A cleanup puts no command that touches the tables. -/
theorem Ledger.Cleanup.neutral {env : Env} {flow : FiveTuple} {value : Int}
    {ledger ledger' : Ledger} {command : DataplaneCommand}
    (cleanup : Cleanup env flow value ledger ledger' (some command)) : command.Neutral := by
  cases cleanup with
  | dropped _ _ => exact True.intro

/-- The database is valid, and a removal under way is for a port that exists. -/
structure System.Valid (env : Env) (system : System) : Prop where
  db : system.db.Valid env
  removing : ∀ ensure flow flowId sessionId,
    system.pc = .removing ensure flow flowId sessionId → flow.devPort.toNat < maxDevPortId
  cleaning : ∀ flow sessionId, system.pc = .cleaning flow sessionId →
    flow.devPort.toNat < maxDevPortId

/-- The step pushes onto a full pool. -/
inductive System.Overflows (env : Env) (system : System) : SystemEvent → Prop
  | flow {input : FlowInput} {flow : FiveTuple} {b : FiveTuple × Int}
      (place : system.pc = .waiting) (removes : system.db.ledger.Removes input.command flow b)
      (full : (system.db.ledger.flowPool flow.pipe).card = heapSize) :
      Overflows env system (.packet input)
  | session {flow : FiveTuple} {sessionId : Int} {session : FiveTuple × Int}
      (place : system.pc = .cleaning flow sessionId)
      (drops : system.db.ledger.Drops env flow sessionId session)
      (full : (system.db.ledger.sessionPool flow.pipe).card = heapSize) :
      Overflows env system .flowdb

namespace System

variable {env : Env} {system : System} {input : FlowInput}

@[simp] theorem put_db (command : DataplaneCommand) : (system.put command).db = system.db := by
  unfold put
  split <;> rfl

@[simp] theorem put_pc (command : DataplaneCommand) : (system.put command).pc = system.pc := by
  unfold put
  split <;> rfl

@[simp] theorem put_switch (command : DataplaneCommand) :
    (system.put command).switch = system.switch := by
  unfold put
  split <;> rfl

@[simp] theorem putAny_db (command : Option DataplaneCommand) :
    (system.putAny command).db = system.db := by
  cases command with
  | none => rfl
  | some command => exact put_db command

@[simp] theorem putAny_pc (command : Option DataplaneCommand) :
    (system.putAny command).pc = system.pc := by
  cases command with
  | none => rfl
  | some command => exact put_pc command

@[simp] theorem putAny_switch (command : Option DataplaneCommand) :
    (system.putAny command).switch = system.switch := by
  cases command with
  | none => rfl
  | some command => exact put_switch command

theorem put_of_room (room : system.HasRoom) (command : DataplaneCommand) :
    system.put command = { system with ring := system.ring ++ [command] } := by
  unfold put
  rw [if_pos room]

theorem put_of_full (full : ¬ system.HasRoom) (command : DataplaneCommand) :
    system.put command = { system with refused := system.refused + 1 } := by
  unfold put
  rw [if_neg full]

theorem put_ring (room : system.HasRoom) (command : DataplaneCommand) :
    (system.put command).ring = system.ring ++ [command] := by
  rw [put_of_room room]

theorem put_ring_of_full (full : ¬ system.HasRoom) (command : DataplaneCommand) :
    (system.put command).ring = system.ring := by
  rw [put_of_full full]

theorem put_with_pc (command : DataplaneCommand) (pc : FlowdbPc) :
    { system.put command with pc := pc } = { system with pc := pc }.put command := by
  have same : HasRoom { system with pc := pc } ↔ system.HasRoom := Iff.rfl
  by_cases room : system.HasRoom
  · rw [put_of_room room, put_of_room (same.mpr room)]
  · rw [put_of_full room, put_of_full (fun other => room (same.mp other))]

theorem putAny_with_pc (command : Option DataplaneCommand) (pc : FlowdbPc) :
    { system.putAny command with pc := pc } = { system with pc := pc }.putAny command := by
  cases command with
  | none => rfl
  | some command => exact put_with_pc command pc

/-- A command that leaves the tables alone changes nothing about what is pending. -/
theorem put_drains {enabled : Installed → DataplaneCommand → Prop} {installed final : Installed}
    {command : DataplaneCommand} (ready : enabled final command)
    (same : final.apply command = final)
    (drains : Lib.Drains Installed.apply enabled installed system.ring final) :
    Lib.Drains Installed.apply enabled installed (system.put command).ring final := by
  by_cases room : system.HasRoom
  · have later := drains.put ready
    rw [same] at later
    rw [put_ring room]
    exact later
  · rw [put_ring_of_full room]
    exact drains

theorem Valid.of_waiting (db : system.db.Valid env) (place : system.pc = .waiting) :
    system.Valid env where
  db := db
  removing _ _ _ _ other := by rw [place] at other; cases other
  cleaning _ _ other := by rw [place] at other; cases other

theorem Valid.putAny (valid : system.Valid env) (command : Option DataplaneCommand) :
    (system.putAny command).Valid env := by
  refine ⟨?_, ?_, ?_⟩
  · rw [putAny_db]
    exact valid.db
  · rw [putAny_pc]
    exact valid.removing
  · rw [putAny_pc]
    exact valid.cleaning

/-- What the two removals have in common once the flow is found. -/
theorem released_moves {flow : FiveTuple} {b : FiveTuple × Int} {db : FlowDb}
    (valid : system.Valid env) (place : system.pc = .waiting)
    (removes : system.db.ledger.Removes input.command flow b)
    (released : FlowReleased env flow.pipe b system.db db) {ensure : Bool}
    (ensures : input.command.ensures = ensure) :
    System.Valid env
        { system with db := db, pc := .ofReleased ensure input.sessionId (some (flow, b.2)) } ∧
      ThreadMove env system (.packet input)
        { system with db := db, pc := .ofReleased ensure input.sessionId (some (flow, b.2)) } := by
  subst ensures
  refine ⟨⟨released.valid, ?_, ?_⟩, .release place removes released.release⟩
  · intro _ _ _ _ same
    cases same
    exact removes.port valid.db.sound input.command_valid
  · intro _ _ same
    cases same

theorem flowdbTake_moves (valid : system.Valid env) (place : system.pc = .waiting) :
    Exec.ReturnsUnless .heapOverflow (system.Overflows env (.packet input))
      (flowdbTake env system input) fun system' =>
        system'.Valid env ∧ ThreadMove env system (.packet input) system' := by
  have inside := input.command_valid
  have same : { system with pc := .waiting } = system := by
    rw [← place]
  unfold flowdbTake
  split
  · rename_i packet command
    rw [command] at inside
    apply (addFlow_returns valid.db inside input.uuid (decide system.HasRoom)).unless.bind id
    intro result facts
    obtain ⟨db, put⟩ := result
    obtain ⟨after, _, adds⟩ := facts
    have stays : System.Valid env { system with db := db } := .of_waiting after place
    exact Exec.Returns.unless (.pure ⟨stays.putAny put, .add place command adds⟩)
  · rename_i packet command
    rw [command] at inside
    by_cases live : ∃ b ∈ system.db.ledger.flows, b.1.h = packet.h
    · obtain ⟨b, member, key⟩ := live
      have removes : system.db.ledger.Removes input.command packet b := by
        rw [command]
        exact .byFiveTuple member key
      apply (releaseFlowByFiveTuple_of_mem valid.db inside member key).bind
        (fun full => .flow place removes full)
      intro result facts
      obtain ⟨db, found⟩ := result
      obtain ⟨rfl, released⟩ := facts
      exact Exec.Returns.unless
        (.pure (released_moves valid place removes released (by rw [command]; rfl)))
    · push Not at live
      rw [releaseFlowByFiveTuple_of_absent valid.db live, pure_bind]
      refine Exec.Returns.unless (.pure ?_)
      dsimp only [FlowdbPc.ofReleased]
      rw [same]
      refine ⟨valid, .stays (.missed input (fun _ other => ?_) ?_)⟩
      · cases command.symm.trans other
      · intro flow b removes
        rw [command] at removes
        cases removes with
        | byFiveTuple member key => exact live b member key
  · rename_i flowId command
    by_cases live : ∃ b ∈ system.db.ledger.flows, b.2 = flowId
    · obtain ⟨b, member, rfl⟩ := live
      have removes : system.db.ledger.Removes input.command b.1 b := by
        rw [command]
        exact .byFlowId member
      apply (releaseFlowByFlowId_of_mem valid.db member).bind
        (fun full => .flow place removes full)
      intro result facts
      obtain ⟨db, found⟩ := result
      obtain ⟨rfl, released⟩ := facts
      exact Exec.Returns.unless
        (.pure (released_moves valid place removes released (by rw [command]; rfl)))
    · push Not at live
      rw [releaseFlowByFlowId_of_absent valid.db live, pure_bind]
      refine Exec.Returns.unless (.pure ?_)
      dsimp only [FlowdbPc.ofReleased]
      rw [same]
      refine ⟨valid, .stays (.missed input (fun _ other => ?_) ?_)⟩
      · cases command.symm.trans other
      · intro flow b removes
        rw [command] at removes
        cases removes with
        | byFlowId member => exact live b member rfl

theorem flowdbResume_moves (valid : system.Valid env) :
    Exec.ReturnsUnless .heapOverflow (system.Overflows env .flowdb) (flowdbResume env system)
      fun system' => system'.Valid env ∧ ThreadMove env system .flowdb system' := by
  unfold flowdbResume
  split
  · rename_i place
    exact Exec.Returns.unless (.pure ⟨valid, .stays (.idle place)⟩)
  · rename_i ensure flow flowId sessionId place
    split
    · rename_i blocked
      rw [blocked.1] at place
      exact Exec.Returns.unless (.pure ⟨valid, .stays (.blocked place blocked.2)⟩)
    · rename_i ready
      push Not at ready
      refine Exec.Returns.unless (.pure ⟨⟨?_, ?_, ?_⟩, .put place ready⟩)
      · rw [put_db]
        exact valid.db
      · intro _ _ _ _ same
        cases same
      · intro _ _ same
        cases same
        exact valid.removing _ _ _ _ place
  · rename_i flow sessionId place
    apply (sessionCleanup_returns valid.db (valid.cleaning _ _ place) sessionId).bind
    · intro overflow
      obtain ⟨session, drops, full⟩ := overflow
      exact .session place drops full
    · intro result facts
      obtain ⟨db, put⟩ := result
      obtain ⟨after, _, cleanup⟩ := facts
      refine Exec.Returns.unless (.pure ⟨.of_waiting ?_ rfl, .clean place cleanup⟩)
      dsimp only
      rw [putAny_db]
      exact after

end System

/-- A step returns with one of the moves, unless it pushes onto a full pool. -/
theorem systemStep_moves {env : Env} {system : System} (valid : system.Valid env)
    (event : SystemEvent) :
    Exec.ReturnsUnless .heapOverflow (system.Overflows env event) (systemStep env system event)
      fun system' => system'.Valid env ∧ ThreadMove env system event system' := by
  cases event with
  | packet input =>
      simp only [systemStep]
      split
      · rename_i place
        exact system.flowdbTake_moves valid place
      · rename_i place
        exact Exec.Returns.unless (.pure ⟨valid, .stays (.busy input place)⟩)
  | flowdb => exact system.flowdbResume_moves valid
  | bloomFilter add indices pipeId =>
      exact Exec.Returns.unless
        (.pure ⟨valid.putAny (some _), .bloomFilter add indices pipeId⟩)
  | dataplane entryHdl =>
      simp only [systemStep]
      split
      · rename_i nothing
        exact Exec.Returns.unless (.pure ⟨valid, .stays (.empty entryHdl nothing)⟩)
      · rename_i command rest taken
        exact Exec.Returns.unless
          (.pure ⟨⟨valid.db, valid.removing, valid.cleaning⟩, .dataplane entryHdl taken⟩)

theorem System.start_valid {env : Env} {db : FlowDb} (valid : db.Valid env) :
    (System.start db).Valid env :=
  .of_waiting valid rfl

/-! ## Inversion -/

section Inversion

variable {env : Env} {system system' : System} {input : FlowInput} {flow packet : FiveTuple}
  {sessionId : Int}

theorem ThreadMove.adds (move : ThreadMove env system (.packet input) system')
    (place : system.pc = .waiting) (command : input.command = .addFlow packet) :
    ∃ db put, system' = { system with db := db }.putAny put ∧
      Ledger.AddFlow env packet (decide system.HasRoom) system.db.ledger db.ledger put := by
  cases move with
  | stays stays =>
      cases stays with
      | busy _ other => exact absurd place other
      | missed _ others _ => exact absurd command (others packet)
  | add _ command' adds =>
      cases command.symm.trans command'
      exact ⟨_, _, rfl, adds⟩
  | release _ removes _ =>
      rw [command] at removes
      cases removes

theorem ThreadMove.releases {b : FiveTuple × Int} (valid : system.Valid env)
    (move : ThreadMove env system (.packet input) system') (place : system.pc = .waiting)
    (removes : system.db.ledger.Removes input.command flow b) :
    ∃ db, Ledger.ReleaseFlow flow.pipe b system.db.ledger db.ledger ∧
      system' =
        { system with
          db := db
          pc := .removing input.command.ensures flow b.2 input.sessionId } := by
  cases move with
  | stays stays =>
      cases stays with
      | busy _ other => exact absurd place other
      | missed _ _ unknown => exact absurd removes (unknown _ _)
  | add _ command _ =>
      rw [command] at removes
      cases removes
  | release _ removes' release =>
      obtain ⟨rfl, rfl⟩ := removes.unique valid.db.keyed valid.db.sound removes'
      exact ⟨_, release, rfl⟩

theorem ThreadMove.cleans (move : ThreadMove env system .flowdb system')
    (place : system.pc = .cleaning flow sessionId) :
    ∃ db put, Ledger.Cleanup env flow sessionId system.db.ledger db.ledger put ∧
      system' = { { system with db := db }.putAny put with pc := .waiting } := by
  cases move with
  | stays stays =>
      cases stays with
      | idle other => cases place.symm.trans other
      | blocked other _ => cases place.symm.trans other
  | put other _ => cases place.symm.trans other
  | clean other cleanup =>
      cases place.symm.trans other
      exact ⟨_, _, cleanup, rfl⟩

theorem System.not_overflows_of_add (command : input.command = .addFlow packet) :
    ¬ system.Overflows env (.packet input) := by
  intro overflows
  cases overflows with
  | flow _ removes _ =>
      rw [command] at removes
      cases removes

end Inversion

/-- A step puts at most one command. -/
theorem ThreadMove.ring_length_le {env : Env} {system system' : System} {event : SystemEvent}
    (move : ThreadMove env system event system') :
    system'.ring.length ≤ system.ring.length + 1 := by
  have bound : ∀ (other : System) command, (other.put command).ring.length ≤ other.ring.length + 1 := by
    intro other command
    by_cases room : other.HasRoom
    · rw [System.put_ring room, List.length_append, List.length_singleton]
    · rw [System.put_ring_of_full room]
      omega
  have boundAny : ∀ (other : System) command,
      (other.putAny command).ring.length ≤ other.ring.length + 1 := by
    intro other command
    cases command with
    | none => exact Nat.le_succ _
    | some command => exact bound other command
  cases move with
  | stays _ => exact Nat.le_succ _
  | add _ _ _ => exact boundAny _ _
  | release _ _ _ => exact Nat.le_succ _
  | put _ _ => exact bound _ _
  | clean _ _ => exact boundAny _ _
  | bloomFilter _ _ _ => exact bound _ _
  | dataplane _ taken =>
      rw [taken, List.length_cons]
      dsimp only
      omega

end Marina
