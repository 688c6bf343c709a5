import Marina.FlowRuns

/-!
# Counting the flows of a session

`flow_count` should hold the number of live flows of each session, and a session should
be live while one of its flows is. `session_hashtable_add_or_increase_flow_count` counts
a flow that joins a session but not the one that creates it, so the count is wrong from
the first flow on: the property holds in exactly the runs that add no flow.
-/

namespace Marina

open Lib (Exec)

/-- The live flows of a session. -/
def FlowDb.flowsOf (env : Env) (db : FlowDb) (session : FiveTuple) : Multiset (FiveTuple × Int) :=
  db.flowHashtable.bindings.filter fun b => sessionKey env b.1 = sessionKey env session

/-- A session is live exactly when one of its flows is, and `flow_count` is the number of
these. -/
structure FlowDb.RefCounted (env : Env) (db : FlowDb) : Prop where
  live_iff : ∀ key, (∃ b ∈ db.sessionHashtable.bindings, sessionKey env b.1 = key) ↔
    ∃ b ∈ db.flowHashtable.bindings, sessionKey env b.1 = key
  count : ∀ b ∈ db.sessionHashtable.bindings,
    (db.sessionHashtable.flowCount b.2).toInt = (db.flowsOf env b.1).card

/-- The command adds no flow of a forwarded port. -/
def FlowInput.AddsNothing (env : Env) (input : FlowInput) : Prop :=
  ∀ packet, input.command = .addFlow packet → ¬ env.Mapped packet

theorem not_addsNothing {env : Env} {input : FlowInput} :
    ¬ input.AddsNothing env ↔ ∃ packet, input.command = .addFlow packet ∧ env.Mapped packet := by
  unfold FlowInput.AddsNothing
  push Not
  rfl

section FirstStep

variable {env : Env} {input : FlowInput} {ledger' : Ledger} {puts : List DataplaneCommand}

theorem Ledger.initial_not_removes {command : FlowCommand} {flow : FiveTuple}
    {b : FiveTuple × Int} : ¬ Ledger.initial.Removes command flow b :=
  fun removes => Multiset.notMem_zero b removes.member

/-- Nothing happens while no flow was added. -/
theorem Ledger.Step.of_addsNothing (nothing : input.AddsNothing env)
    (step : Step env input Ledger.initial ledger' puts) : ledger' = Ledger.initial := by
  cases step with
  | @add packet _ _ command adds =>
      cases adds with
      | unmapped _ => rfl
      | noFlowId mapped _ => exact absurd mapped (nothing packet command)
      | known mapped _ _ _ => exact absurd mapped (nothing packet command)
      | noSessionId new _ _ => exact absurd new.mapped (nothing packet command)
      | placed new _ _ => exact absurd new.mapped (nothing packet command)
      | refused new _ _ => exact absurd new.mapped (nothing packet command)
  | missed _ _ => rfl
  | remove removes _ _ => exact absurd removes initial_not_removes

theorem flowdbStep_of_addsNothing {db : FlowDb} (valid : db.Valid env)
    (initial : db.ledger = Ledger.initial) (nothing : input.AddsNothing env) :
    Exec.Returns (flowdbStep env db input) fun db' =>
      db'.Valid env ∧ db'.ledger = Ledger.initial := by
  have room : ¬ db.ledger.Overflows env input := by
    rw [initial]
    intro overflows
    cases overflows with
    | flow removes _ => exact Ledger.initial_not_removes removes
    | session removes _ _ => exact Ledger.initial_not_removes removes
  apply ((flowdbStep_returns valid input).returns room).mono
  intro db' facts
  obtain ⟨after, _, puts, step⟩ := facts
  rw [initial] at step
  exact ⟨after, step.of_addsNothing nothing⟩

/-- The first flow, refused by the ring, leaves its session behind. -/
theorem Ledger.AddFlow.refused_of_initial {packet : FiveTuple} {put : Option DataplaneCommand}
    (mapped : env.Mapped packet) (port : packet.devPort.toNat < maxDevPortId)
    (adds : AddFlow env packet false Ledger.initial ledger' put) :
    ledger'.flows = 0 ∧ ledger'.sessions = {(env.record packet, 4 + packet.pipe)} := by
  have inside := pipe_mem port
  have filled := residentsFrom_ne_zero (n := 0) inside (by decide)
  obtain ⟨flowPool, sessionPool⟩ := initial_pool port
  cases adds with
  | unmapped unmapped => exact absurd mapped unmapped
  | noFlowId _ empty => exact absurd (flowPool.symm.trans empty) filled
  | known _ _ member _ => exact absurd member (Multiset.notMem_zero _)
  | noSessionId _ _ empty => exact absurd (sessionPool.symm.trans empty) filled
  | placed _ enqueued _ => cases enqueued
  | refused _ _ session =>
      cases session with
      | join member _ => exact absurd member (Multiset.notMem_zero _)
      | create _ takes _ =>
          obtain ⟨rfl, rfl⟩ := takes_residentsFrom inside (by decide) (sessionPool ▸ takes)
          exact ⟨rfl, rfl⟩

/-- The slot of the first session lies inside the egress map. -/
theorem egressSlot_first {packet : FiveTuple} (mapped : env.Mapped packet)
    (port : packet.devPort.toNat < maxDevPortId) :
    egressSlot (env.record packet) (4 + packet.pipe) < featureSize := by
  have egress := env.egress_pipe mapped
  unfold egressSlot
  rw [env.record_offset mapped port]
  unfold featureSize maxFlows numPipes
  unfold numPipes at egress
  omega

/-- The session of the first flow is not counted; when the ring refuses the flow, the
session is live without one. -/
theorem not_refCounted_of_first {db db' : FlowDb} (valid : db.Valid env)
    (initial : db.ledger = Ledger.initial) (adds : ¬ input.AddsNothing env)
    (next : flowdbStep env db input = pure db') : ¬ db'.RefCounted env := by
  intro counted
  obtain ⟨_, _, puts, step⟩ := (flowdbStep_returns valid input).of_pure next
  obtain ⟨packet, command, mapped⟩ := not_addsNothing.mp adds
  have port := input.command_valid
  rw [command] at port
  obtain ⟨_, _, adds⟩ := step.adds command
  rw [initial] at adds
  cases accepted : input.accepted with
  | true =>
      rw [accepted] at adds
      obtain ⟨_, flowCount, count, ledger⟩ := adds.of_initial mapped port
      have member : (env.record packet, 4 + packet.pipe) ∈ db'.ledger.sessions := by
        rw [ledger]
        exact Multiset.mem_singleton_self _
      have wrong := counted.count _ member
      have zero : db'.sessionHashtable.flowCount = 0 := by
        change db'.ledger.flowCount = 0
        rw [ledger]
        exact count (egressSlot_first mapped port)
      have one : (db'.flowsOf env (env.record packet)).card = 1 := by
        unfold FlowDb.flowsOf
        change (Multiset.filter _ db'.ledger.flows).card = 1
        rw [ledger, Multiset.filter_singleton, if_pos rfl, Multiset.card_singleton]
      rw [zero, one] at wrong
      cases wrong
  | false =>
      rw [accepted] at adds
      obtain ⟨flows, sessions⟩ := adds.refused_of_initial mapped port
      have member : (env.record packet, 4 + packet.pipe) ∈ db'.ledger.sessions := by
        rw [sessions]
        exact Multiset.mem_singleton_self _
      obtain ⟨b, live, _⟩ := (counted.live_iff _).mp ⟨_, member, rfl⟩
      change b ∈ db'.ledger.flows at live
      rw [flows] at live
      exact Multiset.notMem_zero b live

end FirstStep

theorem FlowDb.refCounted_of_initial {env : Env} {db : FlowDb}
    (initial : db.ledger = Ledger.initial) : db.RefCounted env := by
  have flows : db.flowHashtable.bindings = 0 := congrArg Ledger.flows initial
  have sessions : db.sessionHashtable.bindings = 0 := congrArg Ledger.sessions initial
  constructor
  · intro key
    rw [flows, sessions]
  · intro b member
    rw [sessions] at member
    exact absurd member (Multiset.notMem_zero b)

/-- Sessions are counted correctly after every command of exactly those runs that add no
flow of a forwarded port. -/
theorem flowdb_refCounted_iff_addsNothing (env : Env) (inputs : List FlowInput) :
    Exec.Returns flowdbInit fun db =>
      (Lib.AllStates (flowdbStep env) (FlowDb.RefCounted env) db inputs ↔
        ∀ input ∈ inputs, input.AddsNothing env) := by
  apply (flowdbInit_returns env).mono
  intro db start
  obtain ⟨valid, initial, _⟩ := start
  have keeps : ∀ db input, (db.Valid env ∧ db.ledger = Ledger.initial) →
      input.AddsNothing env → Exec.Returns (flowdbStep env db input) fun db =>
        db.Valid env ∧ db.ledger = Ledger.initial :=
    fun db input holds nothing => flowdbStep_of_addsNothing holds.1 holds.2 nothing
  rw [Lib.allStates_iff_allSteps keeps ?_ (fun db holds => FlowDb.refCounted_of_initial holds.2)
    ⟨valid, initial⟩]
  · exact ⟨Lib.AllSteps.forall_mem keeps ⟨valid, initial⟩,
      fun nothing => Lib.AllSteps.of_forall fun _ => nothing⟩
  · intro db input holds adds returned
    obtain ⟨db', next, counted⟩ := returned
    exact not_refCounted_of_first holds.1 holds.2 adds next counted

/-- One flow is added: its session has a count of 0. -/
theorem flowdb_not_refCounted_first_flow :
    ¬ Exec.Returns flowdbInit fun db =>
      Lib.AllStates (flowdbStep (.twoPorts true)) (FlowDb.RefCounted (.twoPorts true)) db
        [⟨.addFlow .zero, true, "", 0, by decide, by decide⟩] := by
  intro claimed
  obtain ⟨db, init, states⟩ := claimed
  obtain ⟨valid, initial, _⟩ := (flowdbInit_returns (.twoPorts true)).of_pure init
  obtain ⟨_, db', next, counted⟩ := states
  refine not_refCounted_of_first valid initial ?_ next counted
  exact not_addsNothing.mpr ⟨.zero, rfl, by decide⟩

end Marina
