import Marina.Settling

/-!
# Sessions on the switch

With sessions, the flows of one client share the registers of one session. A flow is installed
with the session that it had when it was added, and the entry stays as it is while the flow
lives, so it means the right registers only as long as the session does not go away under it.

`System.ClassifiesSessions` is what the tables should say, in either mode: the packets of two
live flows of a pipe go to the same registers exactly when the flows are of one session.
`classification_follows_sessions` proves it for every interleaving of both threads that
`System.Undisturbed` and `System.SessionsLast` allow.
-/

namespace Marina

open Lib (Exec)

/-! ## Five-tuples and their sessions -/

/-- The part of a five-tuple that `compare_five_tuples` compares, in either mode. -/
abbrev SessionKey : Type := FiveTupleForSessionHash ⊕ FiveTupleForHash

/-- All commands with the same key of a flow have the same key of a session, and all commands
with the same key of a session carry ports of the same pipe. -/
structure SameSession (env : Env) (commands : List FlowCommand) : Prop where
  key : ∀ first ∈ commands, ∀ second ∈ commands, ∀ a b, first.fiveTuple? = some a →
    second.fiveTuple? = some b → a.h = b.h → sessionKey env a = sessionKey env b
  pipe : ∀ first ∈ commands, ∀ second ∈ commands, ∀ a b, first.fiveTuple? = some a →
    second.fiveTuple? = some b → sessionKey env a = sessionKey env b → a.pipe = b.pipe

/-- The five-tuple has the session of its flow, and the pipe of its session. -/
structure Belongs (env : Env) (keyOf : FiveTupleForHash → SessionKey) (pipeOf : SessionKey → Int)
    (fiveTuple : FiveTuple) : Prop where
  key : sessionKey env fiveTuple = keyOf fiveTuple.h
  pipe : fiveTuple.pipe = pipeOf (keyOf fiveTuple.h)

theorem SameSession.exists_belongs {env : Env} {commands : List FlowCommand}
    (same : SameSession env commands) :
    ∃ keyOf pipeOf, ∀ command ∈ commands, ∀ fiveTuple, command.fiveTuple? = some fiveTuple →
      Belongs env keyOf pipeOf fiveTuple := by
  let carried := { a : FiveTuple // ∃ command ∈ commands, command.fiveTuple? = some a }
  have keys : Function.FactorsThrough (fun a : carried => sessionKey env a.1)
      fun a : carried => a.1.h := by
    rintro ⟨a, first, hfirst, ha⟩ ⟨b, second, hsecond, hb⟩ flow
    exact same.key first hfirst second hsecond a b ha hb flow
  have pipes : Function.FactorsThrough (fun a : carried => a.1.pipe)
      fun a : carried => sessionKey env a.1 := by
    rintro ⟨a, first, hfirst, ha⟩ ⟨b, second, hsecond, hb⟩ key
    exact same.pipe first hfirst second hsecond a b ha hb key
  have : Nonempty SessionKey := ⟨.inr FiveTuple.zero.h⟩
  rcases (Function.factorsThrough_iff _).mp keys with ⟨keyOf, hkey⟩
  rcases (Function.factorsThrough_iff _).mp pipes with ⟨pipeOf, hpipe⟩
  refine ⟨keyOf, pipeOf, fun command member fiveTuple carries => ?_⟩
  have key : sessionKey env fiveTuple = keyOf fiveTuple.h :=
    congrFun hkey ⟨fiveTuple, command, member, carries⟩
  have pipe : fiveTuple.pipe = pipeOf (sessionKey env fiveTuple) :=
    congrFun hpipe ⟨fiveTuple, command, member, carries⟩
  exact ⟨key, key ▸ pipe⟩

namespace Ledger

/-- The five-tuples of all flows and sessions belong. -/
structure Belong (env : Env) (keyOf : FiveTupleForHash → SessionKey) (pipeOf : SessionKey → Int)
    (ledger : Ledger) : Prop where
  resident : ledger.Resident
  flows : ∀ b ∈ ledger.flows, Belongs env keyOf pipeOf b.1
  sessions : ∀ c ∈ ledger.sessions, Belongs env keyOf pipeOf c.1 ∧
    flowIdToPipe c.2 = c.1.pipe ∧ env.Recorded c.1

variable {env : Env} {keyOf : FiveTupleForHash → SessionKey} {pipeOf : SessionKey → Int}
  {packet flow : FiveTuple} {accepted : Bool} {pipe value sessionId : Int}
  {ledger ledger' : Ledger} {b session : FiveTuple × Int} {put : Option DataplaneCommand}
  {command : FlowCommand}

theorem initial_belong : initial.Belong env keyOf pipeOf where
  resident := initial_resident
  flows b member := absurd member (Multiset.notMem_zero b)
  sessions c member := absurd member (Multiset.notMem_zero c)

theorem TakeSession.belong (here : Belongs env keyOf pipeOf flow) (recorded : env.Recorded flow)
    (session : TakeSession env flow sessionId ledger ledger')
    (belong : ledger.Belong env keyOf pipeOf) : ledger'.Belong env keyOf pipeOf := by
  have resident := session.resident belong.resident
  cases session with
  | join _ _ => exact ⟨resident, belong.flows, belong.sessions⟩
  | create _ takes _ =>
      refine ⟨resident, belong.flows, fun c member => ?_⟩
      rcases Multiset.mem_cons.mp member with rfl | old
      · exact ⟨here, belong.resident.sessionPool _ _ takes.mem, recorded⟩
      · exact belong.sessions c old

theorem Belong.placeFlow {flowId : Int} {rest : Multiset Int}
    (belong : ledger.Belong env keyOf pipeOf) (here : Belongs env keyOf pipeOf flow)
    (takes : Takes (ledger.flowPool flow.pipe) flowId rest) :
    (ledger.placeFlow flow flowId rest).Belong env keyOf pipeOf := by
  refine ⟨belong.resident.placeFlow takes, fun b member => ?_, belong.sessions⟩
  rcases Multiset.mem_cons.mp member with rfl | old
  · exact here
  · exact belong.flows b old

theorem AddFlow.belong (here : Belongs env keyOf pipeOf packet)
    (port : packet.devPort.toNat < maxDevPortId)
    (adds : AddFlow env packet accepted ledger ledger' put)
    (belong : ledger.Belong env keyOf pipeOf) : ledger'.Belong env keyOf pipeOf := by
  have here' : Belongs env keyOf pipeOf (env.record packet) := ⟨here.key, here.pipe⟩
  cases adds with
  | unmapped _ => exact belong
  | noFlowId _ _ => exact belong
  | known _ _ _ _ => exact belong
  | noSessionId new _ _ => exact belong.placeFlow here' new.takes
  | placed new _ session =>
      apply (session.belong here' ⟨packet, new.mapped, port, rfl⟩ belong).placeFlow here'
      rw [session.flowPool_eq]
      exact new.takes
  | refused new _ session => exact session.belong here' ⟨packet, new.mapped, port, rfl⟩ belong

theorem Belong.release (belong : ledger.Belong env keyOf pipeOf)
    (release : ReleaseFlow pipe b ledger ledger') (home : flowIdToPipe b.2 = pipe) :
    ledger'.Belong env keyOf pipeOf := by
  have resident := release.resident belong.resident home
  rcases release with ⟨held⟩
  refine ⟨resident, fun c member => belong.flows c ?_, belong.sessions⟩
  rw [held]
  exact Multiset.mem_cons_of_mem member

/-- A session that a five-tuple leads to has its id from the pipe of that five-tuple. -/
theorem Belong.session_home (belong : ledger.Belong env keyOf pipeOf)
    (here : Belongs env keyOf pipeOf flow) (member : session ∈ ledger.sessions)
    (known : sessionKey env session.1 = sessionKey env flow) :
    flowIdToPipe session.2 = flow.pipe := by
  rcases belong.sessions session member with ⟨there, home, _⟩
  rw [home, there.pipe, here.pipe, ← there.key, ← here.key, known]

theorem Belong.cleanup (belong : ledger.Belong env keyOf pipeOf)
    (here : Belongs env keyOf pipeOf flow)
    (cleanup : Cleanup env flow value ledger ledger' put) : ledger'.Belong env keyOf pipeOf := by
  have resident := cleanup.resident belong.resident fun session drops =>
    belong.session_home here drops.member drops.known
  cases cleanup with
  | kept _ => exact ⟨resident, belong.flows, belong.sessions⟩
  | dropped _ held =>
      refine ⟨resident, belong.flows, fun c member => belong.sessions c ?_⟩
      rw [held]
      exact Multiset.mem_cons_of_mem member

/-- What a removal goes by belongs, and its flow has its id from there. -/
theorem Belong.removes (belong : ledger.Belong env keyOf pipeOf)
    (carried : ∀ fiveTuple, command.fiveTuple? = some fiveTuple →
      Belongs env keyOf pipeOf fiveTuple)
    (removes : ledger.Removes command flow b) :
    Belongs env keyOf pipeOf flow ∧ flowIdToPipe b.2 = flow.pipe := by
  have here : Belongs env keyOf pipeOf flow := by
    cases removes with
    | byFiveTuple _ _ => exact carried _ rfl
    | byFlowId member => exact belong.flows _ member
  refine ⟨here, ?_⟩
  rw [belong.resident.flows b removes.member, (belong.flows b removes.member).pipe, here.pipe,
    removes.key]

/-- A pool with a resident out is not full. -/
theorem Resident.session_pool_room (sound : ledger.Sound) (resident : ledger.Resident)
    (inside : pipe ∈ pipes) (member : session ∈ ledger.sessions)
    (home : flowIdToPipe session.2 = pipe) : (ledger.sessionPool pipe).card < heapSize := by
  rw [← card_residents inside]
  refine Lib.IdPool.card_lt_of_resident (Lib.IdPool.pool_nodup sound.session_nodup inside) ?_
    (mem_residents.mpr ⟨sound.session_id member, home⟩) fun free =>
      sound.session_fresh inside free _ member rfl
  exact fun id free =>
    mem_residents.mpr ⟨sound.free_session_id inside free, resident.sessionPool _ id free⟩

theorem Resident.flow_pool_room (sound : ledger.Sound) (resident : ledger.Resident)
    (inside : pipe ∈ pipes) (member : b ∈ ledger.flows) (home : flowIdToPipe b.2 = pipe) :
    (ledger.flowPool pipe).card < heapSize := by
  rw [← card_residents inside]
  refine Lib.IdPool.card_lt_of_resident (Lib.IdPool.pool_nodup sound.flow_nodup inside) ?_
    (mem_residents.mpr ⟨sound.flow_id member, home⟩) fun free =>
      sound.flow_fresh inside free _ member rfl
  exact fun id free =>
    mem_residents.mpr ⟨sound.free_flow_id inside free, resident.flowPool _ id free⟩

end Ledger

/-! ## Flows that are served -/

/-- Every flow has a live session. -/
def Served (env : Env) (flows sessions : Multiset (FiveTuple × Int)) : Prop :=
  ∀ b ∈ flows, ∃ c ∈ sessions, sessionKey env c.1 = sessionKey env b.1

/-- A session key leads to one session. -/
def SessionKeyed (env : Env) (sessions : Multiset (FiveTuple × Int)) : Prop :=
  ∀ a ∈ sessions, ∀ b ∈ sessions, sessionKey env a.1 = sessionKey env b.1 → a = b

/-- What will be installed: the given flows, each with the live session of its key. -/
def Installed.Serves (env : Env) (installed : Installed)
    (flows sessions : Multiset (FiveTuple × Int)) : Prop :=
  ∀ flowId owner, installed flowId = some owner ↔ (owner.1, flowId) ∈ flows ∧
    ∃ session, (session, owner.2) ∈ sessions ∧ sessionKey env session = sessionKey env owner.1

section Served

variable {env : Env} {installed : Installed} {flows sessions sessions' : Multiset (FiveTuple × Int)}
  {flow session : FiveTuple} {flowId sessionId : Int} {b c : FiveTuple × Int}

theorem Served.mono (served : Served env flows sessions) (more : sessions ⊆ sessions') :
    Served env flows sessions' := by
  intro b member
  rcases served b member with ⟨c, live, key⟩
  exact ⟨c, more live, key⟩

/-- A flow with a session joins those that are served. -/
theorem Served.cons (served : Served env flows sessions) (live : (session, sessionId) ∈ sessions)
    (key : sessionKey env session = sessionKey env flow) :
    Served env ((flow, flowId) ::ₘ flows) sessions := by
  intro b member
  rcases Multiset.mem_cons.mp member with rfl | old
  · exact ⟨_, live, key⟩
  · exact served b old

/-- A session without flows may go. -/
theorem Served.drop (served : Served env flows (c ::ₘ sessions))
    (unused : ∀ b ∈ flows, sessionKey env b.1 ≠ sessionKey env c.1) :
    Served env flows sessions := by
  intro b member
  rcases served b member with ⟨d, live, key⟩
  rcases Multiset.mem_cons.mp live with rfl | other
  · exact absurd key.symm (unused b member)
  · exact ⟨d, other, key⟩

/-- More sessions do not change which one serves a flow. -/
theorem Served.mono_iff (served : Served env flows sessions) (more : sessions ⊆ sessions')
    (keyed : SessionKeyed env sessions') (member : b ∈ flows) :
    (∃ session, (session, sessionId) ∈ sessions' ∧ sessionKey env session = sessionKey env b.1) ↔
      ∃ session, (session, sessionId) ∈ sessions ∧
        sessionKey env session = sessionKey env b.1 := by
  constructor
  · rintro ⟨session, live, key⟩
    rcases served b member with ⟨c, old, known⟩
    obtain rfl := keyed _ live c (more old) (key.trans known.symm)
    exact ⟨session, old, key⟩
  · rintro ⟨session, live, key⟩
    exact ⟨session, more live, key⟩

theorem Installed.Serves.mono (serves : installed.Serves env flows sessions)
    (served : Served env flows sessions) (more : sessions ⊆ sessions')
    (keyed : SessionKeyed env sessions') : installed.Serves env flows sessions' := by
  intro id owner
  rw [serves id owner]
  exact and_congr_right fun member => (served.mono_iff more keyed member).symm

/-- A new flow is installed with its session. -/
theorem Installed.Serves.add (serves : installed.Serves env flows sessions)
    (fresh : ∀ b ∈ flows, b.2 ≠ flowId) (keyed : SessionKeyed env sessions)
    (live : (session, sessionId) ∈ sessions) (key : sessionKey env session = sessionKey env flow) :
    (installed.apply (.addFlow flow flowId sessionId)).Serves env ((flow, flowId) ::ₘ flows)
      sessions := by
  intro id owner
  rcases eq_or_ne id flowId with rfl | apart
  · simp only [Installed.apply, Function.update_self, Multiset.mem_cons, Prod.mk.injEq, and_true]
    constructor
    · intro held
      cases held
      exact ⟨Or.inl rfl, session, live, key⟩
    · rintro ⟨rfl | old, other, live', key'⟩
      · have same := keyed _ live' _ live (key'.trans key.symm)
        rw [← (Prod.mk.inj same).2]
      · exact absurd rfl (fresh _ old)
  · simp only [Installed.apply, Function.update_of_ne apart, Multiset.mem_cons, Prod.mk.injEq,
      apart, and_false, false_or]
    exact serves id owner

theorem Installed.Serves.remove (serves : installed.Serves env (b ::ₘ flows) sessions)
    (fresh : ∀ c ∈ flows, c.2 ≠ b.2) :
    (installed.apply (.removeFlow flow b.2)).Serves env flows sessions := by
  intro id owner
  rcases eq_or_ne id b.2 with rfl | apart
  · simp only [Installed.apply, Function.update_self, reduceCtorEq, false_iff, not_and]
    intro member
    exact absurd rfl (fresh (owner.1, b.2) member)
  · have other : (owner.1, id) ≠ b := fun same => apart (congrArg Prod.snd same)
    simp only [Installed.apply, Function.update_of_ne apart]
    rw [serves id owner, Multiset.mem_cons]
    simp [other]

/-- A session without flows serves none. -/
theorem Installed.Serves.drop (serves : installed.Serves env flows (c ::ₘ sessions))
    (unused : ∀ b ∈ flows, sessionKey env b.1 ≠ sessionKey env c.1) :
    installed.Serves env flows sessions := by
  intro id owner
  rw [serves id owner]
  refine and_congr_right fun member => exists_congr fun session => and_congr_left fun key => ?_
  have other : (session, owner.2) ≠ c := by
    rintro rfl
    exact unused _ member key.symm
  simp [other]

/-- Two entries of one flow have one session. -/
theorem Installed.Serves.session_unique (serves : installed.Serves env flows sessions)
    (keyed : SessionKeyed env sessions) {id id' : Int} {owner owner' : FiveTuple × Int}
    (held : installed id = some owner) (held' : installed id' = some owner')
    (same : sessionKey env owner.1 = sessionKey env owner'.1) : owner.2 = owner'.2 := by
  rcases (serves _ _).mp held with ⟨_, session, live, key⟩
  rcases (serves _ _).mp held' with ⟨_, session', live', key'⟩
  have one := keyed _ live _ live' ((key.trans same).trans key'.symm)
  exact (Prod.mk.inj one).2

end Served

/-! ## The system -/

/-- The five-tuple that a removal under way goes by. -/
def FlowdbPc.leaving? : FlowdbPc → Option FiveTuple
  | .waiting => none
  | .removing _ flow _ _ => some flow
  | .cleaning flow _ => some flow

/-- No session id is missing for the new session of a new flow, and a session that a removal
takes away has no other flow. -/
structure System.SessionsLast (env : Env) (system : System) (event : SystemEvent) : Prop where
  enough : ∀ input packet flowId rest, event = .packet input → system.pc = .waiting →
    input.command = .addFlow packet → Ledger.NewFlow env packet flowId rest system.db.ledger →
    (∀ c ∈ system.db.ledger.sessions, sessionKey env c.1 ≠ sessionKey env packet) →
      system.db.ledger.sessionPool packet.pipe ≠ 0
  last : event = .flowdb → ∀ flow value session, system.pc = .cleaning flow value →
    system.db.ledger.Drops env flow value session →
      ∀ b ∈ system.db.ledger.flows, sessionKey env b.1 ≠ sessionKey env session.1

/-- What will be installed, by the place of the flow database. -/
def System.InShare (env : Env) (system : System) (final : Installed) : Prop :=
  match system.pc with
  | .waiting => Served env system.db.ledger.flows system.db.ledger.sessions ∧
      final.Serves env system.db.ledger.flows system.db.ledger.sessions
  | .removing _ flow flowId _ => ∃ b : FiveTuple × Int, b.2 = flowId ∧ b.1.h = flow.h ∧
      (∀ c ∈ system.db.ledger.flows, c.2 ≠ b.2) ∧
      Served env (b ::ₘ system.db.ledger.flows) system.db.ledger.sessions ∧
      final.Serves env (b ::ₘ system.db.ledger.flows) system.db.ledger.sessions
  | .cleaning _ _ => Served env system.db.ledger.flows system.db.ledger.sessions ∧
      final.Serves env system.db.ledger.flows system.db.ledger.sessions

/-- The invariant of these runs. -/
structure System.Shares (env : Env) (keyOf : FiveTupleForHash → SessionKey)
    (pipeOf : SessionKey → Int) (system : System) (installed final : Installed) : Prop where
  valid : system.Valid env
  belong : system.db.ledger.Belong env keyOf pipeOf
  leaving : ∀ flow, system.pc.leaving? = some flow → Belongs env keyOf pipeOf flow
  matched : system.switch.Matches installed
  drains : Lib.Drains Installed.apply Installed.EnabledFound installed system.ring final
  inShare : system.InShare env final

namespace System

variable {env : Env} {keyOf : FiveTupleForHash → SessionKey} {pipeOf : SessionKey → Int}
  {system system' : System} {event : SystemEvent} {input : FlowInput}
  {installed final : Installed}

theorem InShare.waiting (inShare : system.InShare env final) (place : system.pc = .waiting) :
    Served env system.db.ledger.flows system.db.ledger.sessions ∧
      final.Serves env system.db.ledger.flows system.db.ledger.sessions := by
  unfold InShare at inShare
  rw [place] at inShare
  exact inShare

theorem InShare.removing {ensure : Bool} {flow : FiveTuple} {flowId sessionId : Int}
    (inShare : system.InShare env final)
    (place : system.pc = .removing ensure flow flowId sessionId) :
    ∃ b : FiveTuple × Int, b.2 = flowId ∧ b.1.h = flow.h ∧
      (∀ c ∈ system.db.ledger.flows, c.2 ≠ b.2) ∧
      Served env (b ::ₘ system.db.ledger.flows) system.db.ledger.sessions ∧
      final.Serves env (b ::ₘ system.db.ledger.flows) system.db.ledger.sessions := by
  unfold InShare at inShare
  rw [place] at inShare
  exact inShare

theorem InShare.cleaning {flow : FiveTuple} {sessionId : Int} (inShare : system.InShare env final)
    (place : system.pc = .cleaning flow sessionId) :
    Served env system.db.ledger.flows system.db.ledger.sessions ∧
      final.Serves env system.db.ledger.flows system.db.ledger.sessions := by
  unfold InShare at inShare
  rw [place] at inShare
  exact inShare

theorem Shares.keyed (shares : system.Shares env keyOf pipeOf installed final) :
    SessionKeyed env system.db.ledger.sessions := shares.valid.db.keyed.sessions

/-- Every id goes back to the pool it came from, so no pool overflows. -/
theorem Shares.not_overflows (shares : system.Shares env keyOf pipeOf installed final)
    (carried : ∀ command, event.command? = some command →
      ∀ fiveTuple, command.fiveTuple? = some fiveTuple → Belongs env keyOf pipeOf fiveTuple) :
    ¬ system.Overflows env event := by
  intro overflows
  have sound := shares.valid.db.sound
  cases overflows with
  | @flow input flow b place removes full =>
      rcases shares.belong.removes (carried _ rfl) removes with ⟨_, home⟩
      have inside := Ledger.pipe_mem (removes.port sound input.command_valid)
      have room := shares.belong.resident.flow_pool_room sound inside removes.member home
      omega
  | @session flow sessionId session place drops full =>
      have here := shares.leaving flow (by rw [place]; rfl)
      have home := shares.belong.session_home here drops.member drops.known
      have inside := Ledger.pipe_mem (shares.valid.cleaning flow sessionId place)
      have room := shares.belong.resident.session_pool_room sound inside drops.member home
      omega

/-! ### What a move keeps -/

theorem Shares.add {packet : FiveTuple} {db : FlowDb} {put : Option DataplaneCommand}
    (carried : Belongs env keyOf pipeOf packet)
    (shares : system.Shares env keyOf pipeOf installed final)
    (valid' : ({ system with db := db }.putAny put).Valid env)
    (place : system.pc = .waiting) (port : packet.devPort.toNat < maxDevPortId)
    (enough : ∀ flowId rest, Ledger.NewFlow env packet flowId rest system.db.ledger →
      (∀ c ∈ system.db.ledger.sessions, sessionKey env c.1 ≠ sessionKey env packet) →
        system.db.ledger.sessionPool packet.pipe ≠ 0)
    (adds : Ledger.AddFlow env packet (decide system.HasRoom) system.db.ledger db.ledger put)
    (accepted : ({ system with db := db }.putAny put).refused = system.refused) :
    ∃ final', ({ system with db := db }.putAny put).Shares env keyOf pipeOf installed final' := by
  rcases shares.inShare.waiting place with ⟨served, serves⟩
  have belong := adds.belong carried port shares.belong
  have keyed' : SessionKeyed env db.ledger.sessions := by
    have after := valid'.db
    rw [putAny_db] at after
    exact after.keyed.sessions
  -- The exits that change nothing, and those that cannot be taken.
  have same : ∀ put, db.ledger = system.db.ledger →
      ({ system with db := db }.putAny put).Valid env →
      ({ system with db := db }.putAny put).ring = system.ring →
      ({ system with db := db }.putAny put).Shares env keyOf pipeOf installed final := by
    intro put same valid' ring
    refine ⟨valid', ?_, ?_, ?_, ?_, ?_⟩
    · rw [putAny_db]
      exact belong
    · rw [putAny_pc]
      exact shares.leaving
    · rw [putAny_switch]
      exact shares.matched
    · rw [ring]
      exact shares.drains
    · unfold InShare
      rw [putAny_pc, putAny_db, place]
      dsimp only
      rw [same]
      exact ⟨served, serves⟩
  generalize after : db.ledger = ledger' at adds
  cases adds with
  | unmapped _ => exact ⟨final, same _ after valid' rfl⟩
  | noFlowId _ _ => exact ⟨final, same _ after valid' rfl⟩
  | known _ _ _ _ => exact ⟨final, same _ after valid' rfl⟩
  | noSessionId new absent empty => exact absurd empty (enough _ _ new absent)
  | refused _ full _ => exact absurd (room_of_not_refused accepted) (of_decide_eq_false full)
  | @placed flowId sessionId rest middle new enqueued session =>
      have room : System.HasRoom { system with db := db } := of_decide_eq_true enqueued
      have unused : ∀ b ∈ system.db.ledger.flows, b.2 ≠ flowId :=
        shares.valid.db.sound.flow_fresh (Ledger.pipe_mem port) new.takes.mem
      have flows : db.ledger.flows = (env.record packet, flowId) ::ₘ system.db.ledger.flows := by
        rw [after, ← session.flows_eq]
        rfl
      have sessions : system.db.ledger.sessions ⊆ db.ledger.sessions ∧
          ∃ other, (other, sessionId) ∈ db.ledger.sessions ∧
            sessionKey env other = sessionKey env (env.record packet) := by
        rw [after]
        cases session with
        | join member known => exact ⟨Multiset.Subset.refl _, _, member, known⟩
        | create _ _ _ =>
            exact ⟨Multiset.subset_cons _ _, _, Multiset.mem_cons_self _ _, rfl⟩
      rcases sessions with ⟨more, other, live, key⟩
      refine ⟨final.apply (.addFlow (env.record packet) flowId sessionId), valid', ?_, ?_, ?_, ?_,
        ?_⟩
      · rw [putAny_db]
        exact belong
      · rw [putAny_pc]
        exact shares.leaving
      · rw [putAny_switch]
        exact shares.matched
      · rw [putAny, put_ring room]
        refine shares.drains.put ⟨?_, fun _ _ same => by cases same⟩
        cases held : final flowId with
        | none => exact held
        | some owner => exact absurd rfl (unused _ ((serves flowId owner).mp held).1)
      · unfold InShare
        rw [putAny_pc, putAny_db, place]
        dsimp only
        rw [flows]
        exact ⟨(served.mono more).cons live key,
          (serves.mono served more keyed').add unused keyed' live key⟩

theorem Shares.release {flow : FiveTuple} {b : FiveTuple × Int} {db : FlowDb}
    (carried : ∀ fiveTuple, input.command.fiveTuple? = some fiveTuple →
      Belongs env keyOf pipeOf fiveTuple)
    (shares : system.Shares env keyOf pipeOf installed final)
    (valid' : System.Valid env
      { system with
        db := db
        pc := .removing input.command.ensures flow b.2 input.sessionId })
    (place : system.pc = .waiting) (removes : system.db.ledger.Removes input.command flow b)
    (release : Ledger.ReleaseFlow flow.pipe b system.db.ledger db.ledger) :
    System.Shares env keyOf pipeOf
      { system with
        db := db
        pc := .removing input.command.ensures flow b.2 input.sessionId } installed final := by
  rcases shares.inShare.waiting place with ⟨served, serves⟩
  rcases shares.belong.removes carried removes with ⟨here, home⟩
  have flows := release.flows_eq.1
  have once := Lib.IdPool.used_nodup shares.valid.db.sound.flow_nodup
  rw [flows, Multiset.map_cons, Multiset.nodup_cons] at once
  rw [flows] at served serves
  refine ⟨valid', shares.belong.release release home, ?_, shares.matched, shares.drains, ?_⟩
  · intro other same
    cases same
    exact here
  · refine ⟨b, rfl, removes.key.symm, ?_, ?_⟩
    · intro c member same
      exact once.1 (same ▸ Multiset.mem_map_of_mem Prod.snd member)
    · change Served env (b ::ₘ db.ledger.flows) db.ledger.sessions ∧
        final.Serves env (b ::ₘ db.ledger.flows) db.ledger.sessions
      rw [release.frame.1]
      exact ⟨served, serves⟩

theorem Shares.removeFlow {ensure : Bool} {flow : FiveTuple} {flowId sessionId : Int}
    (shares : system.Shares env keyOf pipeOf installed final)
    (valid' : System.Valid env
      { system.put (.removeFlow flow flowId) with pc := .cleaning flow sessionId })
    (place : system.pc = .removing ensure flow flowId sessionId) (room : system.HasRoom) :
    System.Shares env keyOf pipeOf
      { system.put (.removeFlow flow flowId) with pc := .cleaning flow sessionId } installed
      (final.apply (.removeFlow flow flowId)) := by
  rcases shares.inShare.removing place with ⟨b, rfl, key, fresh, served, serves⟩
  refine ⟨valid', ?_, ?_, ?_, ?_, ?_⟩
  · dsimp only
    rw [put_db]
    exact shares.belong
  · intro other same
    cases same
    exact shares.leaving _ (by rw [place]; rfl)
  · dsimp only
    rw [put_switch]
    exact shares.matched
  · dsimp only
    rw [put_ring room]
    refine shares.drains.put ⟨?_, ?_⟩
    · intro owner held
      rcases Multiset.mem_cons.mp ((serves _ _).mp held).1 with same | other
      · rw [← key, ← same]
      · exact absurd rfl (fresh (owner.1, b.2) other)
    · rintro _ _ ⟨⟩
      rcases served b (Multiset.mem_cons_self _ _) with ⟨c, live, known⟩
      rw [(serves b.2 (b.1, c.2)).mpr ⟨Multiset.mem_cons_self _ _, c.1, live, known⟩]
      exact nofun
  · unfold InShare
    dsimp only
    rw [put_db]
    exact ⟨fun c member => served c (Multiset.mem_cons_of_mem member), serves.remove fresh⟩

theorem Shares.put_neutral {command : DataplaneCommand} (neutral : command.Neutral)
    (shares : system.Shares env keyOf pipeOf installed final)
    (valid' : (system.put command).Valid env) :
    (system.put command).Shares env keyOf pipeOf installed final := by
  rcases neutral.enabledFound final with ⟨ready, same⟩
  refine ⟨valid', ?_, ?_, ?_, put_drains ready same shares.drains, ?_⟩
  · rw [put_db]
    exact shares.belong
  · rw [put_pc]
    exact shares.leaving
  · rw [put_switch]
    exact shares.matched
  · unfold InShare
    rw [put_pc, put_db]
    exact shares.inShare

theorem Shares.clean {flow : FiveTuple} {sessionId : Int} {db : FlowDb}
    {put : Option DataplaneCommand} (shares : system.Shares env keyOf pipeOf installed final)
    (valid' : System.Valid env { { system with db := db }.putAny put with pc := .waiting })
    (place : system.pc = .cleaning flow sessionId)
    (last : ∀ session, system.db.ledger.Drops env flow sessionId session →
      ∀ b ∈ system.db.ledger.flows, sessionKey env b.1 ≠ sessionKey env session.1)
    (cleanup : Ledger.Cleanup env flow sessionId system.db.ledger db.ledger put) :
    System.Shares env keyOf pipeOf { { system with db := db }.putAny put with pc := .waiting }
      installed final := by
  have shared := shares.inShare.cleaning place
  have here := shares.leaving flow (by rw [place]; rfl)
  have belong := shares.belong.cleanup here cleanup
  have left : Served env db.ledger.flows db.ledger.sessions ∧
      final.Serves env db.ledger.flows db.ledger.sessions := by
    generalize db.ledger = ledger' at cleanup
    cases cleanup with
    | kept _ => exact shared
    | dropped drops held =>
        have unused := last _ drops
        rw [held] at shared
        exact ⟨shared.1.drop unused, shared.2.drop unused⟩
  have dbValid : db.Valid env := by
    have after := valid'.db
    dsimp only at after
    rw [putAny_db] at after
    exact after
  have stays : System.Shares env keyOf pipeOf { system with db := db, pc := .waiting }
      installed final := by
    refine ⟨.of_waiting dbValid rfl, belong, ?_, shares.matched, shares.drains, left⟩
    intro flow leaves
    cases leaves
  rw [putAny_with_pc] at valid' ⊢
  cases put with
  | none => exact stays
  | some command => exact stays.put_neutral cleanup.neutral valid'

theorem Shares.execute {command : DataplaneCommand} {rest : List DataplaneCommand}
    {entryHdl : UInt32} (shares : system.Shares env keyOf pipeOf installed final)
    (taken : system.ring = command :: rest) (fresh : system.switch.FreshHdl entryHdl command) :
    System.Shares env keyOf pipeOf
      { system with ring := rest, switch := system.switch.execute entryHdl command }
      (installed.apply command) final := by
  have drains := shares.drains
  rw [taken] at drains
  rcases drains.get with ⟨ready, later⟩
  exact ⟨⟨shares.valid.db, shares.valid.removing, shares.valid.cleaning⟩, shares.belong,
    shares.leaving, shares.matched.execute ready fresh, later, shares.inShare⟩

/-- Every undisturbed move that lets the sessions last keeps the invariant. -/
theorem Shares.move (shares : system.Shares env keyOf pipeOf installed final)
    (carried : ∀ command, event.command? = some command →
      ∀ fiveTuple, command.fiveTuple? = some fiveTuple → Belongs env keyOf pipeOf fiveTuple)
    (valid' : system'.Valid env) (accepted : system'.refused = system.refused)
    (fresh : ∀ entryHdl command rest, event = .dataplane entryHdl →
      system.ring = command :: rest → system.switch.FreshHdl entryHdl command)
    (lasts : system.SessionsLast env event) (move : ThreadMove env system event system') :
    ∃ installed' final', system'.Shares env keyOf pipeOf installed' final' := by
  cases move with
  | stays _ => exact ⟨installed, final, shares⟩
  | @add input packet db put place command adds =>
      have port := input.command_valid
      rw [command] at port
      have here := carried _ rfl packet (by rw [command]; rfl)
      have enough := fun flowId rest => lasts.enough input packet flowId rest rfl place command
      exact ⟨installed, shares.add here valid' place port enough adds accepted⟩
  | release place removes release =>
      exact ⟨installed, final, shares.release (carried _ rfl) valid' place removes release⟩
  | put place ready =>
      exact ⟨installed, _, shares.removeFlow valid' place (room_of_not_refused accepted)⟩
  | @clean flow sessionId db put place cleanup =>
      have last := fun session => lasts.last rfl flow sessionId session place
      exact ⟨installed, final, shares.clean valid' place last cleanup⟩
  | bloomFilter add indices pipeId =>
      have neutral := bloomFilterCommand_neutral add indices pipeId
      exact ⟨installed, final, shares.put_neutral neutral valid'⟩
  | dataplane entryHdl taken =>
      exact ⟨_, final, shares.execute taken (fresh _ _ _ rfl taken)⟩

theorem start_shares {db : FlowDb} (valid : db.Valid env) (initial : db.ledger = Ledger.initial) :
    (start db).Shares env keyOf pipeOf (fun _ => none) fun _ => none := by
  have nothing : ∀ b : FiveTuple × Int, b ∉ Ledger.initial.flows := Multiset.notMem_zero
  refine ⟨start_valid valid, ?_, fun flow leaves => ?_, Switch.empty_matches, .nil _, ?_⟩
  · change db.ledger.Belong env keyOf pipeOf
    rw [initial]
    exact Ledger.initial_belong
  · cases leaves
  · change Served env db.ledger.flows db.ledger.sessions ∧
      Installed.Serves env _ db.ledger.flows db.ledger.sessions
    rw [initial]
    refine ⟨fun b member => absurd member (nothing b), fun flowId owner => ?_⟩
    simp [nothing]

end System

/-! ## What the tables say -/

/-- The tables mean the sessions of the live flows: every flow has one, a packet of the flow is
classified to its registers, every other packet misses, and packets of two flows of a pipe go
to the same registers exactly when the flows are of one session. -/
structure System.ClassifiesSessions (env : Env) (system : System) : Prop where
  served : ∀ b ∈ system.db.flowHashtable.bindings, ∃ c ∈ system.db.sessionHashtable.bindings,
    sessionKey env c.1 = sessionKey env b.1
  hit : ∀ b ∈ system.db.flowHashtable.bindings, ∀ c ∈ system.db.sessionHashtable.bindings,
    sessionKey env c.1 = sessionKey env b.1 →
      ∀ headers : ParsedHeaders, headers.classificationKey = some b.1.h.key →
        system.switch.classify b.1.pipe headers = flowIdToRegisterIndex c.2 ∧
          0 < flowIdToRegisterIndex c.2
  miss : ∀ pipe (headers : ParsedHeaders),
    (∀ b ∈ system.db.flowHashtable.bindings, b.1.pipe = pipe →
      headers.classificationKey ≠ some b.1.h.key) → system.switch.classify pipe headers = 0
  together : ∀ b ∈ system.db.flowHashtable.bindings, ∀ c ∈ system.db.flowHashtable.bindings,
    b.1.pipe = c.1.pipe → ∀ headers headers' : ParsedHeaders,
      headers.classificationKey = some b.1.h.key →
      headers'.classificationKey = some c.1.h.key →
        (system.switch.classify b.1.pipe headers = system.switch.classify c.1.pipe headers' ↔
          sessionKey env b.1 = sessionKey env c.1)

/-- What such a run keeps. -/
def System.Joined (env : Env) (keyOf : FiveTupleForHash → SessionKey) (pipeOf : SessionKey → Int)
    (system : System) : Prop :=
  system.Clean ∧ ∃ installed final, system.Shares env keyOf pipeOf installed final

section Runs

variable {env : Env} {keyOf : FiveTupleForHash → SessionKey} {pipeOf : SessionKey → Int}
  {system : System} {event : SystemEvent}

/-- What is installed when nothing is queued. -/
theorem System.Shares.drained {installed final : Installed}
    (shares : system.Shares env keyOf pipeOf installed final) (quiet : system.Quiet) :
    system.switch.Matches final ∧
      final.Serves env system.db.ledger.flows system.db.ledger.sessions := by
  have drains := shares.drains
  rw [quiet.drained] at drains
  obtain rfl := drains.eq_of_nil
  exact ⟨shares.matched, (shares.inShare.waiting quiet.waiting).2⟩

/-- A packet of a live flow finds the registers of its session. -/
theorem System.Joined.hit (joined : system.Joined env keyOf pipeOf) (quiet : system.Quiet)
    {b c : FiveTuple × Int} (flow : b ∈ system.db.ledger.flows)
    (session : c ∈ system.db.ledger.sessions)
    (same : sessionKey env c.1 = sessionKey env b.1) {headers : ParsedHeaders}
    (key : headers.classificationKey = some b.1.h.key) :
    system.switch.classify b.1.pipe headers = flowIdToRegisterIndex c.2 ∧
      0 < flowIdToRegisterIndex c.2 := by
  rcases joined with ⟨clean, installed, final, shares⟩
  rcases shares.drained quiet with ⟨matched, serves⟩
  have keyed := shares.keyed
  rcases System.register_of_id (shares.valid.db.sound.session_id session) with ⟨positive, narrow⟩
  have held : final b.2 = some (b.1, c.2) := (serves b.2 (b.1, c.2)).mpr ⟨flow, c.1, session, same⟩
  have found := matched.classify_of_held held (fun id other held' keys => ?_) key
  · exact ⟨found.trans narrow, positive⟩
  · have live := ((serves id other).mp held').1
    have hash := FiveTupleForHash.key_injective (clean _ live) (clean b flow) keys
    have one := shares.valid.db.keyed.flows _ live b flow hash
    refine serves.session_unique keyed held' held ?_
    rw [← one]

theorem System.Joined.classifiesSessions (joined : system.Joined env keyOf pipeOf)
    (quiet : system.Quiet) : system.ClassifiesSessions env := by
  have hit : ∀ b ∈ system.db.ledger.flows, ∀ c ∈ system.db.ledger.sessions,
      sessionKey env c.1 = sessionKey env b.1 →
        ∀ headers : ParsedHeaders, headers.classificationKey = some b.1.h.key →
          system.switch.classify b.1.pipe headers = flowIdToRegisterIndex c.2 ∧
            0 < flowIdToRegisterIndex c.2 :=
    fun b flow c session same headers key => joined.hit quiet flow session same key
  rcases joined with ⟨_, installed, final, shares⟩
  have served := (shares.inShare.waiting quiet.waiting).1
  refine ⟨served, hit, ?_, ?_⟩
  · intro pipe headers absent
    rcases shares.drained quiet with ⟨matched, serves⟩
    apply matched.classify_of_unheld
    intro id owner held
    exact absent (owner.1, id) ((serves id owner).mp held).1
  · intro b flow c flow' pipe headers headers' key key'
    rcases served b flow with ⟨s, session, same⟩
    rcases served c flow' with ⟨s', session', same'⟩
    rw [(hit b flow s session same headers key).1, (hit c flow' s' session' same' headers' key').1]
    constructor
    · intro registers
      -- The ids are of one pipe, so one register is one id.
      rcases shares.belong.sessions s session with ⟨here, home, _⟩
      rcases shares.belong.sessions s' session' with ⟨here', home', _⟩
      have flowHere := shares.belong.flows b flow
      have flowHere' := shares.belong.flows c flow'
      have pipes : flowIdToPipe s.2 = flowIdToPipe s'.2 := by
        rw [home, home', here.pipe, here'.pipe, ← here.key, ← here'.key, same, same',
          flowHere.key, flowHere'.key, ← flowHere.pipe, ← flowHere'.pipe, pipe]
      have ids : s.2 = s'.2 := by
        unfold flowIdToRegisterIndex at registers
        unfold flowIdToPipe at pipes
        omega
      have one := shares.valid.db.sound.session_unique session session' ids
      rw [← same, ← same', one]
    · intro sessions
      have one := shares.keyed s session s' session' (same.trans (sessions.trans same'.symm))
      rw [one]

/-- The event carries clean addresses and five-tuples that belong. -/
structure SystemEvent.Fitting (env : Env) (keyOf : FiveTupleForHash → SessionKey)
    (pipeOf : SessionKey → Int) (event : SystemEvent) : Prop where
  carried : ∀ command, event.command? = some command →
    ∀ fiveTuple, command.fiveTuple? = some fiveTuple → Belongs env keyOf pipeOf fiveTuple
  clean : ∀ command, event.command? = some command → command.Clean

/-- A step that is not disturbed and lets the sessions last. -/
def System.Lasting (env : Env) (system : System) (event : SystemEvent) : Prop :=
  system.Undisturbed env event ∧ system.SessionsLast env event

theorem SystemEvent.sessionsLast_of_none (none : event.command? = none) (other : event ≠ .flowdb) :
    system.SessionsLast env event where
  enough input _ _ _ carries := by
    rw [carries] at none
    cases none
  last resumes := absurd resumes other

theorem System.Joined.step (joined : system.Joined env keyOf pipeOf)
    (fitting : event.Fitting env keyOf pipeOf) (lasting : system.Lasting env event) :
    Exec.Returns (systemStep env system event) fun system' =>
      system'.Joined env keyOf pipeOf ∧ ThreadMove env system event system' := by
  rcases joined with ⟨clean, installed, final, shares⟩
  rcases lasting with ⟨calm, lasts⟩
  rcases (systemStep_moves shares.valid event).returns (shares.not_overflows fitting.carried) with
    ⟨system', next, valid', move⟩
  refine ⟨system', next, ⟨clean.move fitting.clean move, ?_⟩, move⟩
  exact shares.move fitting.carried valid' (calm.accepted system' next) calm.fresh lasts move

theorem System.start_joined {db : FlowDb} (valid : db.Valid env)
    (initial : db.ledger = Ledger.initial) : (System.start db).Joined env keyOf pipeOf := by
  refine ⟨?_, _, _, System.start_shares valid initial⟩
  intro b member
  change b ∈ db.ledger.flows at member
  rw [initial] at member
  exact absurd member (Multiset.notMem_zero b)

/-- What holds of every joined system holds in every state of every lasting run in which
five-tuples belong and addresses are clean. -/
theorem System.Joined.run {p : System → Prop}
    (holds : ∀ keyOf pipeOf system, System.Joined env keyOf pipeOf system → p system)
    {events : List SystemEvent} (same : SameSession env (events.filterMap SystemEvent.command?))
    (clean : ∀ command ∈ events.filterMap SystemEvent.command?, command.Clean) :
    Exec.Returns flowdbInit fun db =>
      Lib.AllSteps (systemStep env) (System.Lasting env) (.start db) events →
        Lib.AllStates (systemStep env) p (.start db) events := by
  rcases same.exists_belongs with ⟨keyOf, pipeOf, belongs⟩
  apply (flowdbInit_returns env).mono
  rintro db ⟨valid, initial, _⟩ lasting
  have fitting : Lib.AllSteps (systemStep env) (fun _ event => event.Fitting env keyOf pipeOf)
      (.start db) events := by
    refine .of_forall fun _ event member => ⟨fun command carries => ?_, fun command carries => ?_⟩
    · exact belongs command (List.mem_filterMap.mpr ⟨event, member, carries⟩)
    · exact clean command (List.mem_filterMap.mpr ⟨event, member, carries⟩)
  refine Lib.AllStates.of_invariant (I := System.Joined env keyOf pipeOf) ?_ (holds keyOf pipeOf)
    (System.start_joined valid initial) (lasting.and fitting)
  intro system event joined ok
  exact (joined.step ok.2 ok.1).mono fun _ kept => kept.1

end Runs

/-- In either mode, in every interleaving of both threads in which the five-tuples of a flow
have one session and those of a session one pipe, addresses are clean, nothing is refused, and
no session goes away under its flows: no step faults, and whenever the flow database waits and
the ring is drained, the tables mean the sessions of the live flows. -/
theorem classification_follows_sessions (env : Env) (events : List SystemEvent)
    (same : SameSession env (events.filterMap SystemEvent.command?))
    (clean : ∀ command ∈ events.filterMap SystemEvent.command?, command.Clean) :
    Exec.Returns flowdbInit fun db =>
      Lib.AllSteps (systemStep env) (System.Lasting env) (.start db) events →
        Lib.AllStates (systemStep env)
          (fun system => system.Quiet → system.ClassifiesSessions env) (.start db) events :=
  System.Joined.run (fun _ _ _ joined => joined.classifiesSessions) same clean

theorem onPort_port (srcPort : UInt16) :
    (FiveTuple.onPort 0 srcPort).devPort.toNat < maxDevPortId := by
  have small : 0 < maxDevPortId := by decide
  rw [FiveTuple.onPort_devPort srcPort small]
  exact small

/-- A flow of the one client on port 0. -/
def clientFlow (srcPort : UInt16) : FlowInput := .add (.onPort 0 srcPort) (onPort_port srcPort)

/-- Two flows of one client are added and installed. -/
def twoFlows : List SystemEvent :=
  [.packet (clientFlow 0), .packet (clientFlow 1), .dataplane 1, .dataplane 2]

/-- The second flow joins the session of the first. -/
theorem twoFlows_sessionsLast {db : FlowDb} (valid : db.Valid (.twoPorts true))
    (initial : db.ledger = Ledger.initial) :
    Lib.AllSteps (systemStep (.twoPorts true)) (System.SessionsLast (.twoPorts true)) (.start db)
      twoFlows := by
  have start := System.start_valid valid
  refine ⟨⟨?_, nofun⟩, fun first next => ⟨⟨?_, nofun⟩, fun second _ => ⟨?_, fun third _ => ⟨?_, ?_⟩⟩⟩⟩
  · intro input packet flowId rest same _ command _ _
    cases same
    cases command
    change db.ledger.sessionPool (FiveTuple.onPort 0 0).pipe ≠ 0
    rw [initial, (Ledger.initial_pool (onPort_port 0)).2]
    exact Ledger.residentsFrom_ne_zero (Ledger.pipe_mem (onPort_port 0)) (by decide)
  · intro input packet flowId rest same _ command _ absent
    cases same
    cases command
    rcases (systemStep_moves start (.packet (clientFlow 0))).of_pure next with ⟨_, move⟩
    rcases move.adds rfl rfl with ⟨db', put, rfl, adds⟩
    have room : decide (System.start db).HasRoom = true := rfl
    change Ledger.AddFlow _ _ _ db.ledger db'.ledger put at adds
    rw [initial, room] at adds
    have sessions := (adds.placed_of_initial (by decide) (onPort_port 0)).2.1
    rw [System.putAny_db] at absent
    change ∀ c ∈ db'.ledger.sessions, _ at absent
    rw [sessions] at absent
    exact absurd rfl (absent _ (Multiset.mem_singleton_self _))
  · exact SystemEvent.sessionsLast_of_none rfl nofun
  · exact SystemEvent.sessionsLast_of_none rfl nofun
  · exact fun _ _ => True.intro

theorem twoFlows_command {command : FlowCommand}
    (member : command ∈ twoFlows.filterMap SystemEvent.command?) :
    ∃ srcPort, command = .addFlow (.onPort 0 srcPort) := by
  change command ∈ [FlowCommand.addFlow (.onPort 0 0), .addFlow (.onPort 0 1)] at member
  simp only [List.mem_cons, List.not_mem_nil, or_false] at member
  rcases member with rfl | rfl
  · exact ⟨0, rfl⟩
  · exact ⟨1, rfl⟩

theorem twoFlows_sameSession :
    SameSession (.twoPorts true) (twoFlows.filterMap SystemEvent.command?) := by
  refine ⟨?_, ?_⟩
  all_goals
    intro first hfirst second hsecond a b ha hb _
    rcases twoFlows_command hfirst with ⟨_, rfl⟩
    rcases twoFlows_command hsecond with ⟨_, rfl⟩
    cases ha
    cases hb
    rfl

theorem twoFlows_clean : ∀ command ∈ twoFlows.filterMap SystemEvent.command?, command.Clean := by
  intro command member packet adds
  rcases twoFlows_command member with ⟨_, rfl⟩
  cases adds
  exact fun _ => ⟨rfl, rfl⟩

theorem twoFlows_lasting {db : FlowDb} (valid : db.Valid (.twoPorts true))
    (initial : db.ledger = Ledger.initial) :
    Lib.AllSteps (systemStep (.twoPorts true)) (System.Lasting (.twoPorts true)) (.start db)
      twoFlows := by
  have short : 0 + 4 ≤ dataplaneRingbufferSize := by decide
  have undisturbed : Lib.AllSteps (systemStep (.twoPorts true))
      (System.Undisturbed (.twoPorts true)) (.start db) twoFlows :=
    undisturbed_of_fresh (System.start_valid valid) short (by decide)
      (by simp [System.start, Switch.empty])
  exact undisturbed.and (twoFlows_sessionsLast valid initial)

theorem classification_follows_sessions_client :
    Exec.Returns flowdbInit fun db =>
      Lib.AllStates (systemStep (.twoPorts true))
        (fun system => system.Quiet → system.ClassifiesSessions (.twoPorts true)) (.start db)
        twoFlows := by
  rcases classification_follows_sessions (.twoPorts true) twoFlows twoFlows_sameSession
    twoFlows_clean with ⟨db, init, classifies⟩
  rcases (flowdbInit_returns (.twoPorts true)).of_pure init with ⟨valid, initial, _⟩
  exact ⟨db, init, classifies (twoFlows_lasting valid initial)⟩

/-! ## Without sessions -/

section NoSessions

variable {env : Env} {pipeOf : FiveTupleForHash → Int} {system : System} {event : SystemEvent}

/-- In lockstep, a flow and its session come and go together. -/
theorem System.Tracked.sessionsLast (noSessions : env.useSessions = false)
    (tracked : system.Tracked env pipeOf) : system.SessionsLast env event := by
  rcases tracked with ⟨_, installed, final, follows⟩
  refine ⟨?_, ?_⟩
  · intro input packet flowId rest _ place _ new _ empty
    have taken := new.takes.mem
    rw [← (follows.inStep.waiting place).1.pools, empty] at taken
    exact Multiset.notMem_zero flowId taken
  · intro _ flow value session place drops b member same
    rcases follows.inStep.cleaning place with ⟨left, leaving, _⟩
    have keyed := follows.valid.db.keyed.sessions
    have live : left ∈ system.db.ledger.sessions ∧ b ∈ system.db.ledger.sessions := by
      rw [leaving.sessions]
      exact ⟨Multiset.mem_cons_self _ _, Multiset.mem_cons_of_mem member⟩
    have leads : sessionKey env left.1 = sessionKey env flow := by
      simp [sessionKey, noSessions, leaving.key]
    obtain rfl := keyed b live.2 session drops.member same
    obtain rfl := keyed b live.2 left live.1 (drops.known.trans leads.symm)
    exact System.leaving_fresh follows.valid leaving b member rfl

/-- So every undisturbed run in which flows keep to their pipes is one of these. -/
theorem System.lasting_of_noSessions (noSessions : env.useSessions = false) {db : FlowDb}
    (valid : db.Valid env) (initial : db.ledger = Ledger.initial) {events : List SystemEvent}
    (same : SamePipe (events.filterMap SystemEvent.command?))
    (clean : ∀ command ∈ events.filterMap SystemEvent.command?, command.Clean)
    (undisturbed : Lib.AllSteps (systemStep env) (System.Undisturbed env) (.start db) events) :
    SameSession env (events.filterMap SystemEvent.command?) ∧
      Lib.AllSteps (systemStep env) (System.Lasting env) (.start db) events := by
  have keys : ∀ a : FiveTuple, sessionKey env a = .inr a.h := fun a => by
    simp [sessionKey, noSessions]
  refine ⟨⟨?_, ?_⟩, ?_⟩
  · intro first _ second _ a b _ _ flow
    rw [keys, keys, flow]
  · intro first hfirst second hsecond a b ha hb session
    rw [keys, keys] at session
    exact same first hfirst second hsecond a b ha hb (Sum.inr.inj session)
  · rcases same.exists_proper clean with ⟨pipeOf, proper⟩
    have properly : Lib.AllSteps (systemStep env) (fun _ event => event.Proper pipeOf)
        (.start db) events := .of_forall fun _ event member => proper event member
    refine Lib.AllSteps.of_invariant (I := System.Tracked env pipeOf) ?_ ?_
      (System.start_tracked valid initial) (undisturbed.and properly)
    · intro system event system' tracked ok next
      exact ((tracked.step noSessions ok.2 ok.1).of_pure next).1
    · exact fun system event tracked ok => ⟨ok.1, tracked.sessionsLast noSessions⟩

end NoSessions

end Marina
