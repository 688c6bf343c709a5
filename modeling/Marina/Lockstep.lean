import Marina.SamePipe
import Marina.Threads

/-!
# Lockstep of flows, sessions and switch

Without sessions, a flow and its session come and go together, with the same id, as long
as the ring refuses no command and a flow keeps to one pipe. Between the two halves of a
removal the session table lags behind by one entry (`Ledger.Leaving`), and the switch
lags behind by what is queued in the ring. With the ring drained, the classification
entries are exactly those of the live flows.
-/

namespace Marina

open Lib (Exec)

/-- Both tables hold the same keys under the same ids, and both pools of a pipe the same
free ids. -/
structure FlowDb.Lockstep (db : FlowDb) : Prop where
  keys : ∀ h, (∃ b ∈ db.flowHashtable.bindings, b.1.h = h) ↔
    ∃ c ∈ db.sessionHashtable.bindings, c.1.h = h
  ids : ∀ b ∈ db.flowHashtable.bindings, ∀ c ∈ db.sessionHashtable.bindings,
    b.1.h = c.1.h → b.2 = c.2
  pools : ∀ pipe, (db.flowIdHeap pipe).ids = (db.sessionIdHeap pipe).ids

/-- A timeout for the id of a live session removes exactly the flow with its key. -/
def FlowDb.TimeoutsExact (env : Env) (db : FlowDb) : Prop :=
  ∀ c ∈ db.sessionHashtable.bindings, ∀ input, input.command = .timeoutFlow c.2 →
    Exec.Returns (flowdbStep env db input) fun db' =>
      ∃ flow, flow.h = c.1.h ∧
        db.flowHashtable.bindings = (flow, c.2) ::ₘ db'.flowHashtable.bindings

/-- The installed entries are one for each live flow, with the register of its session
and the handle kept under its flow id. -/
def System.SwitchAgrees (system : System) : Prop :=
  ∃ sessionOf : FiveTuple × Int → Int,
    (∀ b ∈ system.db.flowHashtable.bindings, ∃ c ∈ system.db.sessionHashtable.bindings,
      c.1.h = b.1.h ∧ c.2 = sessionOf b) ∧
    (system.switch.entries : Multiset ClassificationEntry) =
      system.db.flowHashtable.bindings.map fun b =>
        classificationEntry b.1 b.2 (sessionOf b) (system.switch.entryHdls b.2)

/-- What holds whenever the flow database waits for its next command. -/
structure System.Agrees (env : Env) (system : System) : Prop where
  lockstep : system.db.Lockstep
  timeouts : system.db.TimeoutsExact env
  switch : system.ring = [] → system.SwitchAgrees

/-- The ring refuses nothing, and the driver returns a fresh handle. -/
structure System.Undisturbed (env : Env) (system : System) (event : SystemEvent) : Prop where
  accepted : ∀ system', systemStep env system event = pure system' →
    system'.refused = system.refused
  fresh : ∀ entryHdl command rest, event = .dataplane entryHdl → system.ring = command :: rest →
    system.switch.FreshHdl entryHdl command

def SystemEvent.command? : SystemEvent → Option FlowCommand
  | .packet input => some input.command
  | _ => none

/-! ## Flows and sessions -/

/-- Flows and sessions are the same, and so are their free ids. -/
structure Ledger.Twin (ledger : Ledger) : Prop where
  sessions : ledger.sessions = ledger.flows
  pools : ledger.sessionPool = ledger.flowPool

/-- The same but for one flow that has left, under the five-tuple `flow`. -/
structure Ledger.Leaving (flow : FiveTuple) (b : FiveTuple × Int) (ledger : Ledger) : Prop where
  key : b.1.h = flow.h
  pipe : b.1.pipe = flow.pipe
  sessions : ledger.sessions = b ::ₘ ledger.flows
  pools : ledger.flowPool =
    Function.update ledger.sessionPool flow.pipe (b.2 ::ₘ ledger.sessionPool flow.pipe)

namespace Ledger

variable {env : Env} {pipeOf : FiveTupleForHash → Int} {input : FlowInput}
  {packet flow : FiveTuple} {accepted : Bool} {value : Int} {ledger ledger' : Ledger}
  {b : FiveTuple × Int} {put : Option DataplaneCommand}

theorem initial_twin : initial.Twin := ⟨rfl, rfl⟩

/-- An add in lockstep changes nothing, or takes one id for the flow and its session, or is
refused. -/
theorem Twin.adds (noSessions : env.useSessions = false) (twin : ledger.Twin)
    (adds : AddFlow env packet accepted ledger ledger' put) :
    (ledger' = ledger ∧ put = none) ∨ (accepted = false ∧ put ≠ none) ∨
      ∃ flowId rest, NewFlow env packet flowId rest ledger ∧ accepted = true ∧
        put = some (.addFlow (env.record packet) flowId flowId) ∧ ledger'.Twin ∧
        ledger'.flows = (env.record packet, flowId) ::ₘ ledger.flows := by
  cases adds with
  | unmapped _ => exact Or.inl ⟨rfl, rfl⟩
  | noFlowId _ _ => exact Or.inl ⟨rfl, rfl⟩
  | known _ _ _ _ => exact Or.inl ⟨rfl, rfl⟩
  | noSessionId new _ empty =>
      have taken := new.takes.mem
      rw [← twin.pools, empty] at taken
      exact absurd taken (Multiset.notMem_zero _)
  | refused _ full _ => exact Or.inr (Or.inl ⟨full, nofun⟩)
  | placed new enqueued session =>
      refine Or.inr (Or.inr ?_)
      cases session with
      | join member known =>
          rw [twin.sessions] at member
          simp only [sessionKey, noSessions, Bool.false_eq_true, if_false] at known
          exact absurd (Sum.inr.inj known) (new.absent _ member)
      | create absent takes count =>
          have takes' := takes
          rw [twin.pools] at takes'
          obtain rfl := takes'.unique new.takes
          have rests := takes'.eq.symm.trans new.takes.eq
          rw [Multiset.cons_inj_right] at rests
          subst rests
          refine ⟨_, _, new, enqueued, rfl, ⟨?_, ?_⟩, rfl⟩
          · dsimp only [placeFlow]
            rw [twin.sessions]
          · dsimp only [placeFlow]
            rw [twin.pools]

theorem Twin.release (twin : ledger.Twin) (key : b.1.h = flow.h) (pipe : b.1.pipe = flow.pipe)
    (release : ReleaseFlow flow.pipe b ledger ledger') : ledger'.Leaving flow b := by
  obtain ⟨held, flowPool⟩ := release.flows_eq
  obtain ⟨sessions, sessionPool, _⟩ := release.frame
  refine ⟨key, pipe, ?_, ?_⟩
  · rw [sessions, twin.sessions, held]
  · rw [flowPool, sessionPool, twin.pools]

/-- The cleanup takes away the session of the flow that has left. -/
theorem Leaving.clean (noSessions : env.useSessions = false) (keyed : ledger.Keyed env)
    (leaving : ledger.Leaving flow b) (cleanup : Cleanup env flow value ledger ledger' put) :
    ledger'.Twin ∧ ledger'.flows = ledger.flows := by
  have drops : ledger.Drops env flow value b := by
    refine ⟨Or.inl noSessions, ?_, ?_⟩
    · rw [leaving.sessions]
      exact Multiset.mem_cons_self _ _
    · simp only [sessionKey, noSessions, Bool.false_eq_true, if_false]
      exact congrArg Sum.inr leaving.key
  cases cleanup with
  | kept stays => exact absurd drops (stays b)
  | dropped drops' held =>
      obtain rfl := drops.unique keyed drops'
      have rests := held.symm.trans leaving.sessions
      rw [Multiset.cons_inj_right] at rests
      exact ⟨⟨rests, leaving.pools.symm⟩, rfl⟩

end Ledger

/-! ## The switch -/

/-- What will be installed: the given flows, with their own ids as sessions. -/
def Installed.Holds (installed : Installed) (flows : Multiset (FiveTuple × Int)) : Prop :=
  ∀ flowId owner, installed flowId = some owner ↔ owner.2 = flowId ∧ (owner.1, flowId) ∈ flows

theorem Installed.Holds.add {installed : Installed} {flows : Multiset (FiveTuple × Int)}
    {flow : FiveTuple} {flowId : Int} (holds : installed.Holds flows)
    (fresh : ∀ b ∈ flows, b.2 ≠ flowId) :
    (installed.apply (.addFlow flow flowId flowId)).Holds ((flow, flowId) ::ₘ flows) := by
  intro id owner
  by_cases same : id = flowId
  · subst same
    simp only [Installed.apply, Function.update_self, Multiset.mem_cons, Prod.mk.injEq, and_true]
    constructor
    · intro held
      cases held
      exact ⟨rfl, Or.inl rfl⟩
    · intro facts
      obtain ⟨id', rfl | old⟩ := facts
      · rw [← id']
      · exact absurd rfl (fresh _ old)
  · simp only [Installed.apply, Function.update_of_ne same, Multiset.mem_cons, Prod.mk.injEq,
      same, and_false, false_or]
    exact holds id owner

theorem Installed.Holds.remove {installed : Installed} {flows : Multiset (FiveTuple × Int)}
    {flow : FiveTuple} {b : FiveTuple × Int} (holds : installed.Holds (b ::ₘ flows))
    (fresh : ∀ c ∈ flows, c.2 ≠ b.2) : (installed.apply (.removeFlow flow b.2)).Holds flows := by
  intro id owner
  by_cases same : id = b.2
  · subst same
    simp only [Installed.apply, Function.update_self]
    constructor
    · intro held
      cases held
    · intro facts
      exact absurd rfl (fresh (owner.1, b.2) facts.2)
  · simp only [Installed.apply, Function.update_of_ne same]
    rw [holds id owner, Multiset.mem_cons]
    constructor
    · intro facts
      obtain ⟨id', rfl | old⟩ := facts
      · exact absurd rfl same
      · exact ⟨id', old⟩
    · intro facts
      exact ⟨facts.1, Or.inr facts.2⟩

/-- How far tables and switch are apart, by the place of the flow database. -/
def System.InStep (system : System) (final : Installed) : Prop :=
  match system.pc with
  | .waiting => system.db.ledger.Twin ∧ final.Holds system.db.ledger.flows
  | .removing _ flow flowId _ => ∃ b, b.2 = flowId ∧ system.db.ledger.Leaving flow b ∧
      final.Holds system.db.ledger.sessions
  | .cleaning flow _ => ∃ b, system.db.ledger.Leaving flow b ∧
      final.Holds system.db.ledger.flows

/-- The invariant of undisturbed runs. -/
structure System.Follows (env : Env) (pipeOf : FiveTupleForHash → Int) (system : System)
    (installed final : Installed) : Prop where
  valid : system.Valid env
  homed : system.db.ledger.Homed env pipeOf
  matched : system.switch.Matches installed
  drains : Lib.Drains Installed.apply Installed.EnabledFound installed system.ring final
  inStep : system.InStep final

namespace System

variable {env : Env} {pipeOf : FiveTupleForHash → Int} {system system' : System}
  {event : SystemEvent} {input : FlowInput} {installed final : Installed}

theorem InStep.waiting (inStep : system.InStep final) (place : system.pc = .waiting) :
    system.db.ledger.Twin ∧ final.Holds system.db.ledger.flows := by
  unfold InStep at inStep
  rw [place] at inStep
  exact inStep

theorem InStep.removing {ensure : Bool} {flow : FiveTuple} {flowId sessionId : Int}
    (inStep : system.InStep final) (place : system.pc = .removing ensure flow flowId sessionId) :
    ∃ b, b.2 = flowId ∧ system.db.ledger.Leaving flow b ∧
      final.Holds system.db.ledger.sessions := by
  unfold InStep at inStep
  rw [place] at inStep
  exact inStep

theorem InStep.cleaning {flow : FiveTuple} {sessionId : Int} (inStep : system.InStep final)
    (place : system.pc = .cleaning flow sessionId) :
    ∃ b, system.db.ledger.Leaving flow b ∧ final.Holds system.db.ledger.flows := by
  unfold InStep at inStep
  rw [place] at inStep
  exact inStep

theorem room_of_not_refused {command : DataplaneCommand}
    (accepted : (system.put command).refused = system.refused) : system.HasRoom := by
  by_contra full
  rw [put_of_full full] at accepted
  dsimp only at accepted
  omega

/-- In step, no pool overflows. -/
theorem Follows.not_overflows (noSessions : env.useSessions = false)
    (keeps : ∀ command, event.command? = some command → command.KeepsTo pipeOf)
    (follows : system.Follows env pipeOf installed final) : ¬ system.Overflows env event := by
  intro overflows
  cases overflows with
  | flow place removes full =>
      have home := follows.homed.releasesHome noSessions (keeps _ rfl)
      exact follows.homed.resident.not_overflows follows.valid.db.sound home (.flow removes full)
  | @session flow sessionId session place drops full =>
      obtain ⟨b, leaving, _⟩ := follows.inStep.cleaning place
      have fits := (follows.valid.db.fits flow.pipe).1
      rw [leaving.pools, Function.update_self, Multiset.card_cons, full] at fits
      omega

/-! ## What a move keeps -/

theorem Follows.add {packet : FiveTuple} {db : FlowDb} {put : Option DataplaneCommand}
    (noSessions : env.useSessions = false)
    (keeps : ∀ command, SystemEvent.command? (.packet input) = some command →
      command.KeepsTo pipeOf)
    (follows : system.Follows env pipeOf installed final)
    (valid' : ({ system with db := db }.putAny put).Valid env)
    (place : system.pc = .waiting) (command : input.command = .addFlow packet)
    (adds : Ledger.AddFlow env packet (decide system.HasRoom) system.db.ledger db.ledger put)
    (accepted : ({ system with db := db }.putAny put).refused = system.refused) :
    ∃ final', ({ system with db := db }.putAny put).Follows env pipeOf installed final' := by
  obtain ⟨twin, holds⟩ := follows.inStep.waiting place
  have port := input.command_valid
  rw [command] at port
  have key : packet.pipe = pipeOf packet.h := keeps _ rfl packet (by rw [command]; rfl)
  have homed := adds.homed port key follows.homed
  rcases twin.adds noSessions adds with ⟨same, rfl⟩ | ⟨full, some⟩ | placed
  · refine ⟨final, valid', ?_, follows.matched, follows.drains, ?_⟩
    · show db.ledger.Homed env pipeOf
      exact homed
    · unfold InStep
      rw [putAny_pc, place]
      show db.ledger.Twin ∧ final.Holds db.ledger.flows
      rw [same]
      exact ⟨twin, holds⟩
  · obtain ⟨command, rfl⟩ := Option.ne_none_iff_exists'.mp some
    exact absurd (room_of_not_refused accepted) (of_decide_eq_false full)
  · obtain ⟨flowId, rest, new, enqueued, rfl, twin', flows⟩ := placed
    have room : System.HasRoom { system with db := db } := of_decide_eq_true enqueued
    have unused : ∀ b ∈ system.db.ledger.flows, b.2 ≠ flowId :=
      follows.valid.db.sound.flow_fresh (Ledger.pipe_mem port) new.takes.mem
    refine ⟨final.apply (.addFlow (env.record packet) flowId flowId), valid', ?_, ?_, ?_, ?_⟩
    · rw [putAny_db]
      exact homed
    · rw [putAny_switch]
      exact follows.matched
    · rw [putAny, put_ring room]
      refine follows.drains.put ⟨?_, fun _ _ same => by cases same⟩
      cases held : final flowId with
      | none => exact held
      | some owner => exact absurd rfl (unused _ ((holds flowId owner).mp held).2)
    · unfold InStep
      rw [putAny_pc, putAny_db, place]
      show db.ledger.Twin ∧ _
      rw [flows]
      exact ⟨twin', holds.add unused⟩

theorem Follows.release {flow : FiveTuple} {b : FiveTuple × Int} {db : FlowDb}
    (noSessions : env.useSessions = false)
    (keeps : ∀ command, SystemEvent.command? (.packet input) = some command →
      command.KeepsTo pipeOf)
    (follows : system.Follows env pipeOf installed final)
    (valid' : System.Valid env
      { system with
        db := db
        pc := .removing input.command.ensures flow b.2 input.sessionId })
    (place : system.pc = .waiting) (removes : system.db.ledger.Removes input.command flow b)
    (release : Ledger.ReleaseFlow flow.pipe b system.db.ledger db.ledger) :
    System.Follows env pipeOf
      { system with
        db := db
        pc := .removing input.command.ensures flow b.2 input.sessionId } installed final := by
  obtain ⟨twin, holds⟩ := follows.inStep.waiting place
  obtain ⟨key, pipe⟩ := removes.keepsTo (keeps _ rfl) follows.homed
  have home := (follows.homed.releasesHome noSessions (keeps _ rfl) _ _ removes).1
  have pipes : b.1.pipe = flow.pipe := by
    rw [follows.homed.flows b removes.member, pipe, key]
  refine ⟨valid', release.homed follows.homed home, follows.matched, follows.drains, ?_⟩
  refine ⟨b, rfl, twin.release key.symm pipes release, ?_⟩
  show final.Holds db.ledger.sessions
  rw [release.frame.1, twin.sessions]
  exact holds

/-- The flow that has left is the only one with its id. -/
theorem leaving_fresh {flow : FiveTuple} {b : FiveTuple × Int} (valid : system.Valid env)
    (leaving : system.db.ledger.Leaving flow b) : ∀ c ∈ system.db.ledger.flows, c.2 ≠ b.2 := by
  have used := Lib.IdPool.used_nodup valid.db.sound.session_nodup
  rw [leaving.sessions, Multiset.map_cons, Multiset.nodup_cons] at used
  intro c member same
  exact used.1 (Multiset.mem_map.mpr ⟨c, member, same⟩)

theorem Follows.removeFlow {ensure : Bool} {flow : FiveTuple} {flowId sessionId : Int}
    (follows : system.Follows env pipeOf installed final)
    (valid' : System.Valid env
      { system.put (.removeFlow flow flowId) with pc := .cleaning flow sessionId })
    (place : system.pc = .removing ensure flow flowId sessionId) (room : system.HasRoom) :
    System.Follows env pipeOf
      { system.put (.removeFlow flow flowId) with pc := .cleaning flow sessionId } installed
      (final.apply (.removeFlow flow flowId)) := by
  obtain ⟨b, rfl, leaving, holds⟩ := follows.inStep.removing place
  have member : b ∈ system.db.ledger.sessions := by
    rw [leaving.sessions]
    exact Multiset.mem_cons_self _ _
  refine ⟨valid', ?_, ?_, ?_, b, ?_, ?_⟩
  · dsimp only
    rw [put_db]
    exact follows.homed
  · dsimp only
    rw [put_switch]
    exact follows.matched
  · dsimp only
    rw [put_ring room]
    refine follows.drains.put ⟨?_, ?_⟩
    · intro owner held
      have found := ((holds _ _).mp held).2
      have same := follows.valid.db.sound.session_unique found member rfl
      rw [← leaving.key, ← same]
    · intro _ _ same
      cases same
      rw [(holds b.2 b).mpr ⟨rfl, member⟩]
      exact nofun
  · dsimp only
    rw [put_db]
    exact leaving
  · dsimp only
    rw [put_db]
    rw [leaving.sessions] at holds
    exact holds.remove (leaving_fresh follows.valid leaving)

theorem Follows.put_neutral {command : DataplaneCommand} (neutral : command.Neutral)
    (follows : system.Follows env pipeOf installed final) (valid' : (system.put command).Valid env) :
    (system.put command).Follows env pipeOf installed final := by
  obtain ⟨ready, same⟩ := neutral.enabledFound final
  refine ⟨valid', ?_, ?_, put_drains ready same follows.drains, ?_⟩
  · rw [put_db]
    exact follows.homed
  · rw [put_switch]
    exact follows.matched
  · unfold InStep
    rw [put_pc, put_db]
    exact follows.inStep

theorem Follows.clean {flow : FiveTuple} {sessionId : Int} {db : FlowDb}
    {put : Option DataplaneCommand} (noSessions : env.useSessions = false)
    (follows : system.Follows env pipeOf installed final)
    (valid' : System.Valid env { { system with db := db }.putAny put with pc := .waiting })
    (place : system.pc = .cleaning flow sessionId)
    (cleanup : Ledger.Cleanup env flow sessionId system.db.ledger db.ledger put) :
    System.Follows env pipeOf { { system with db := db }.putAny put with pc := .waiting }
      installed final := by
  obtain ⟨b, leaving, holds⟩ := follows.inStep.cleaning place
  have keyed := follows.valid.db.keyed
  obtain ⟨twin, flows⟩ := leaving.clean noSessions keyed cleanup
  have homed : db.ledger.Homed env pipeOf := by
    apply cleanup.homed follows.homed
    intro session drops
    obtain ⟨_, home, onPipe⟩ := follows.homed.sessions session drops.member
    have known := drops.known
    simp only [sessionKey, noSessions, Bool.false_eq_true, if_false] at known
    have held : b ∈ system.db.ledger.sessions := by
      rw [leaving.sessions]
      exact Multiset.mem_cons_self _ _
    rw [home, onPipe, Sum.inr.inj known, ← leaving.key, ← (follows.homed.sessions b held).2.2,
      leaving.pipe]
  have dbValid : db.Valid env := by
    have after := valid'.db
    dsimp only at after
    rw [putAny_db] at after
    exact after
  have stays : System.Follows env pipeOf { system with db := db, pc := .waiting }
      installed final := by
    refine ⟨.of_waiting dbValid rfl, homed, follows.matched, follows.drains, twin, ?_⟩
    show final.Holds db.ledger.flows
    rw [flows]
    exact holds
  rw [putAny_with_pc] at valid' ⊢
  cases put with
  | none => exact stays
  | some command => exact stays.put_neutral cleanup.neutral valid'

theorem Follows.execute {command : DataplaneCommand} {rest : List DataplaneCommand}
    {entryHdl : UInt32} (follows : system.Follows env pipeOf installed final)
    (taken : system.ring = command :: rest) (fresh : system.switch.FreshHdl entryHdl command) :
    System.Follows env pipeOf
      { system with ring := rest, switch := system.switch.execute entryHdl command }
      (installed.apply command) final := by
  have drains := follows.drains
  rw [taken] at drains
  obtain ⟨ready, later⟩ := drains.get
  exact ⟨⟨follows.valid.db, follows.valid.removing, follows.valid.cleaning⟩, follows.homed,
    follows.matched.execute ready fresh, later, follows.inStep⟩

/-- Every undisturbed move keeps tables, pools and switch in step. -/
theorem Follows.move (noSessions : env.useSessions = false)
    (keeps : ∀ command, event.command? = some command → command.KeepsTo pipeOf)
    (follows : system.Follows env pipeOf installed final) (valid' : system'.Valid env)
    (accepted : system'.refused = system.refused)
    (fresh : ∀ entryHdl command rest, event = .dataplane entryHdl →
      system.ring = command :: rest → system.switch.FreshHdl entryHdl command)
    (move : ThreadMove env system event system') :
    ∃ installed' final', system'.Follows env pipeOf installed' final' := by
  cases move with
  | stays _ => exact ⟨installed, final, follows⟩
  | add place command adds =>
      exact ⟨installed, follows.add noSessions keeps valid' place command adds accepted⟩
  | release place removes release =>
      exact ⟨installed, final, follows.release noSessions keeps valid' place removes release⟩
  | @put ensure flow flowId sessionId place ready =>
      exact ⟨installed, _, follows.removeFlow valid' place (room_of_not_refused accepted)⟩
  | clean place cleanup =>
      exact ⟨installed, final, follows.clean noSessions valid' place cleanup⟩
  | bloomFilter add indices pipeId =>
      have neutral := bloomFilterCommand_neutral add indices pipeId
      exact ⟨installed, final, follows.put_neutral neutral valid'⟩
  | dataplane entryHdl taken =>
      exact ⟨_, final, follows.execute taken (fresh _ _ _ rfl taken)⟩

/-! ## Agreement -/

theorem Follows.lockstep (follows : system.Follows env pipeOf installed final)
    (place : system.pc = .waiting) : system.db.Lockstep := by
  obtain ⟨twin, _⟩ := follows.inStep.waiting place
  have tables : system.db.sessionHashtable.bindings = system.db.flowHashtable.bindings :=
    twin.sessions
  refine ⟨?_, ?_, fun pipe => (congrFun twin.pools pipe).symm⟩
  · intro h
    rw [tables]
  · intro b hb c hc same
    rw [tables] at hc
    rw [follows.valid.db.keyed.flows b hb c hc same]

theorem Follows.timeoutsExact (noSessions : env.useSessions = false)
    (follows : system.Follows env pipeOf installed final) (place : system.pc = .waiting) :
    system.db.TimeoutsExact env := by
  obtain ⟨twin, _⟩ := follows.inStep.waiting place
  intro c member input command
  have live : c ∈ system.db.ledger.flows := by
    rw [← twin.sessions]
    exact member
  have keeps : input.command.KeepsTo pipeOf := by
    rw [command]
    intro _ carries
    cases carries
  have home := follows.homed.releasesHome noSessions keeps
  apply (flowdbStep_resident follows.valid.db follows.homed.resident home).mono
  intro db' facts
  obtain ⟨_, _, _, _, step⟩ := facts
  have removes : system.db.ledger.Removes input.command c.1 c := by
    rw [command]
    exact .byFlowId live
  exact ⟨c.1, rfl,
    step.flows_eq_of_removes follows.valid.db.keyed follows.valid.db.sound removes⟩

theorem Follows.switchAgrees (follows : system.Follows env pipeOf installed final)
    (place : system.pc = .waiting) (drained : system.ring = []) : system.SwitchAgrees := by
  obtain ⟨twin, holds⟩ := follows.inStep.waiting place
  have drains := follows.drains
  rw [drained] at drains
  obtain rfl := drains.eq_of_nil
  refine ⟨Prod.snd, ?_, ?_⟩
  · intro b member
    refine ⟨b, ?_, rfl, rfl⟩
    have tables : system.db.sessionHashtable.bindings = system.db.flowHashtable.bindings :=
      twin.sessions
    rw [tables]
    exact member
  · have ids : (system.db.flowHashtable.bindings.map Prod.snd).Nodup :=
      Lib.IdPool.used_nodup follows.valid.db.sound.flow_nodup
    have nodup : (system.db.flowHashtable.bindings.map fun b =>
        classificationEntry b.1 b.2 b.2 (system.switch.entryHdls b.2)).Nodup := by
      refine Multiset.Nodup.of_map ClassificationEntry.flowId ?_
      rw [Multiset.map_map]
      exact ids
    refine (Multiset.Nodup.ext (Multiset.coe_nodup.mpr follows.matched.nodup) nodup).mpr ?_
    intro entry
    rw [Multiset.mem_coe, Multiset.mem_map]
    constructor
    · intro member
      obtain ⟨owner, held, eq⟩ := follows.matched.follows entry member
      obtain ⟨same, live⟩ := (holds _ _).mp held
      refine ⟨(owner.1, entry.flowId), live, ?_⟩
      rw [eq, same]
      rfl
    · intro found
      obtain ⟨b, live, rfl⟩ := found
      exact follows.matched.complete b.2 b ((holds b.2 b).mpr ⟨rfl, live⟩)

theorem Follows.agrees (noSessions : env.useSessions = false)
    (follows : system.Follows env pipeOf installed final) (place : system.pc = .waiting) :
    system.Agrees env where
  lockstep := follows.lockstep place
  timeouts := follows.timeoutsExact noSessions place
  switch := follows.switchAgrees place

theorem start_follows {db : FlowDb} (valid : db.Valid env) (initial : db.ledger = Ledger.initial) :
    (start db).Follows env pipeOf (fun _ => none) fun _ => none where
  valid := start_valid valid
  homed := by
    show db.ledger.Homed env pipeOf
    rw [initial]
    exact Ledger.initial_homed
  matched := Switch.empty_matches
  drains := .nil _
  inStep := by
    show db.ledger.Twin ∧ Installed.Holds _ db.ledger.flows
    rw [initial]
    refine ⟨Ledger.initial_twin, ?_⟩
    intro flowId owner
    constructor
    · intro held
      cases held
    · intro facts
      exact absurd facts.2 (Multiset.notMem_zero _)

end System

/-! ## Runs -/

/-- Without sessions, in every interleaving of both threads in which flows keep to their
pipes and nothing is refused, no step faults, and whenever the flow database has
finished a command, tables and pools are in lockstep, and the switch agrees with them
once the ring is drained. -/
theorem threads_in_lockstep (env : Env) (noSessions : env.useSessions = false)
    (events : List SystemEvent) (same : SamePipe (events.filterMap SystemEvent.command?)) :
    Exec.Returns flowdbInit fun db =>
      Lib.AllSteps (systemStep env) (System.Undisturbed env) (.start db) events →
        Lib.AllStates (systemStep env) (fun system => system.pc = .waiting → system.Agrees env)
          (.start db) events := by
  obtain ⟨pipeOf, keeps⟩ := same.exists_pipeOf
  apply (flowdbInit_returns env).mono
  intro db start undisturbed
  obtain ⟨valid, initial, _⟩ := start
  have onPipes : Lib.AllSteps (systemStep env) (fun _ event => ∀ command,
      event.command? = some command → command.KeepsTo pipeOf) (.start db) events := by
    refine Lib.AllSteps.of_forall fun _ event member command carries => ?_
    exact keeps command (List.mem_filterMap.mpr ⟨event, member, carries⟩)
  refine Lib.AllStates.of_invariant
    (I := fun system => ∃ installed final, system.Follows env pipeOf installed final) ?_ ?_
    ⟨_, _, System.start_follows valid initial⟩ (undisturbed.and onPipes)
  · intro system event holds ok
    obtain ⟨installed, final, follows⟩ := holds
    obtain ⟨calm, keeps⟩ := ok
    obtain ⟨system', next, valid', move⟩ := (systemStep_moves follows.valid event).returns
      (follows.not_overflows noSessions keeps)
    exact ⟨system', next, follows.move noSessions keeps valid' (calm.accepted system' next)
      calm.fresh move⟩
  · intro system holds place
    obtain ⟨installed, final, follows⟩ := holds
    exact follows.agrees noSessions place

/-! ## A run -/

section ShortRun

variable {env : Env} {system system' : System} {event : SystemEvent}

theorem ThreadMove.refused_eq (room : system.HasRoom)
    (move : ThreadMove env system event system') : system'.refused = system.refused := by
  have putAny : ∀ (db : FlowDb) put,
      (System.putAny { system with db := db } put).refused = system.refused := by
    intro db put
    have room' : System.HasRoom { system with db := db } := room
    cases put with
    | none => rfl
    | some command => rw [System.putAny, System.put_of_room room']
  cases move with
  | stays _ => rfl
  | add _ _ _ => exact putAny _ _
  | release _ _ _ => rfl
  | put _ _ => rw [System.put_of_room room]
  | clean _ _ => exact putAny _ _
  | bloomFilter _ _ _ => rw [System.put_of_room room]
  | dataplane _ _ => rfl

theorem ThreadMove.switch_eq (other : ∀ entryHdl, event ≠ .dataplane entryHdl)
    (move : ThreadMove env system event system') : system'.switch = system.switch := by
  cases move with
  | stays _ => rfl
  | add _ _ _ => rw [System.putAny_switch]
  | release _ _ _ => rfl
  | put _ _ => rw [System.put_switch]
  | clean _ _ => rw [System.putAny_switch]
  | bloomFilter _ _ _ => rw [System.put_switch]
  | dataplane entryHdl _ => exact absurd rfl (other entryHdl)

theorem System.undisturbed_of_room (valid : system.Valid env) (room : system.HasRoom)
    (fresh : ∀ entryHdl command rest, event = .dataplane entryHdl →
      system.ring = command :: rest → system.switch.FreshHdl entryHdl command) :
    system.Undisturbed env event where
  accepted _ next := ((systemStep_moves valid event).of_pure next).2.refused_eq room
  fresh := fresh

/-- Steps of the flow database disturb nothing while there is room. -/
theorem undisturbed_of_short {events : List SystemEvent} :
    ∀ {system : System}, system.Valid env →
      system.ring.length + events.length ≤ dataplaneRingbufferSize →
      (∀ event ∈ events, ∀ entryHdl, event ≠ .dataplane entryHdl) →
      Lib.AllSteps (systemStep env) (System.Undisturbed env) system events := by
  induction events with
  | nil =>
      intro system _ _ _
      exact True.intro
  | cons event rest ih =>
      intro system valid short others
      rw [List.length_cons] at short
      have room : system.HasRoom := by
        unfold System.HasRoom
        omega
      refine ⟨system.undisturbed_of_room valid room ?_, ?_⟩
      · intro entryHdl _ _ same
        exact absurd same (others event List.mem_cons_self entryHdl)
      · intro system' next
        obtain ⟨valid', move⟩ := (systemStep_moves valid event).of_pure next
        have bound := move.ring_length_le
        exact ih valid' (by omega)
          (fun event' member => others event' (List.mem_cons_of_mem event member))

end ShortRun

/-- A flow is added, installed and removed again. -/
theorem threads_in_lockstep_short :
    (Env.twoPorts false).useSessions = false ∧
    Exec.Returns flowdbInit fun db =>
      Lib.AllStates (systemStep (.twoPorts false))
        (fun system => system.pc = .waiting → system.Agrees (.twoPorts false)) (.start db)
        [.packet (.add .zero (by decide)), .dataplane 1,
          .packet ⟨.removeFlow .zero, true, "", 0, by decide, by decide⟩, .flowdb, .flowdb] := by
  refine ⟨rfl, ?_⟩
  obtain ⟨db, init, agrees⟩ := threads_in_lockstep (.twoPorts false) rfl
    [.packet (.add .zero (by decide)), .dataplane 1,
      .packet ⟨.removeFlow .zero, true, "", 0, by decide, by decide⟩, .flowdb, .flowdb]
    (by
      intro first hfirst second hsecond a b ha hb _
      have only : ∀ command ∈ [FlowCommand.addFlow .zero, .removeFlow .zero],
          ∀ a, command.fiveTuple? = some a → a = .zero := by
        intro command member a carries
        simp only [List.mem_cons, List.not_mem_nil, or_false] at member
        rcases member with rfl | rfl
        · exact (Option.some.inj carries).symm
        · exact (Option.some.inj carries).symm
      rw [only first hfirst a ha, only second hsecond b hb])
  obtain ⟨valid, _, _⟩ := (flowdbInit_returns (.twoPorts false)).of_pure init
  have start := System.start_valid valid
  have room : (System.start db).HasRoom := by
    show 0 < dataplaneRingbufferSize
    decide
  refine ⟨db, init, agrees ⟨System.undisturbed_of_room start room (fun _ _ _ other => by cases other), ?_⟩⟩
  intro first next
  obtain ⟨valid₁, move⟩ := (systemStep_moves start _).of_pure next
  have length₁ : first.ring.length ≤ 1 := move.ring_length_le
  have bound : 4 ≤ dataplaneRingbufferSize := by decide
  refine ⟨System.undisturbed_of_room valid₁ (by unfold System.HasRoom; omega) ?_, ?_⟩
  · intro entryHdl command rest _ _
    have empty := move.switch_eq (fun _ other => by cases other)
    rw [empty]
    cases command with
    | addFlow _ _ _ =>
        intro entry member
        cases member
    | _ => exact True.intro
  · intro second next
    obtain ⟨valid₂, move⟩ := (systemStep_moves valid₁ _).of_pure next
    have length₂ := move.ring_length_le
    refine undisturbed_of_short valid₂ ?_ ?_
    · simp only [List.length_cons, List.length_nil]
      unfold dataplaneRingbufferSize
      omega
    · intro event member entryHdl
      simp only [List.mem_cons, List.not_mem_nil, or_false] at member
      rcases member with rfl | rfl | rfl
      · intro other
        cases other
      · intro other
        cases other
      · intro other
        cases other

end Marina
