import Marina.Features
import Marina.Residency

/-!
# Timeouts of idle sessions

`process_and_age_feature` works in session ids: it enqueues `PKT_TIMEOUT_FLOW` with the
session that the egress map gives for an idle slot. The flow database takes that number
for a flow id. The command removes a flow of the idle session, or none, as long as no
live flow has the id of a live session with another session key; `Ledger.IdsApart` is
the condition on a command that adds a flow under which this stays so.
-/

namespace Marina

open Lib (Exec)

/-- The flow database and the features that the dataplane thread keeps. -/
structure AgeingSystem where
  db : FlowDb
  features : FeatureState

/-- A command of the flow database, or a round of reading and ageing the packet counter:
what the data plane returned, the seconds of the clock, and whether the packet ring
takes the timeout of a slot. -/
inductive AgeingEvent
  | command (input : FlowInput)
  | round (read : Option (Int → UInt32)) (now : UInt32) (accepted : Int → Bool)

/-- The features after a round, and the flow ids of the timeouts it enqueued. -/
def AgeingSystem.age (system : AgeingSystem) (read : Option (Int → UInt32)) (now : UInt32)
    (accepted : Int → Bool) : FeatureState × List Int :=
  processAndAgeFeature ⟨system.db.sessionHashtable.egressFeatureToSessionId, now, accepted⟩
    { system.features with registerCount := readFeature read system.features.registerCount }

theorem AgeingSystem.age_eq (system : AgeingSystem) (read : Option (Int → UInt32)) (now : UInt32)
    (accepted : Int → Bool) : system.age read now accepted =
      processAndAgeFeature ⟨system.db.sessionHashtable.egressFeatureToSessionId, now, accepted⟩
        { system.features with
          registerCount := readFeature read system.features.registerCount } := by
  unfold AgeingSystem.age
  rfl

def ageingStep (env : Env) (system : AgeingSystem) : AgeingEvent → Outcome AgeingSystem
  | .command input => do
      let db ← flowdbStep env system.db input
      pure { system with db := db }
  | .round read now accepted =>
      pure { system with features := (system.age read now accepted).1 }

/-- Every flow that an enqueued timeout removes, executed in the same state, belongs to
the session that was idle. -/
def AgeingSystem.TimeoutsSpare (env : Env) (system : AgeingSystem) : Prop :=
  ∀ read now accepted, ∀ sessionId ∈ (system.age read now accepted).2,
    ∀ input db', input.command = .timeoutFlow sessionId →
      flowdbStep env system.db input = pure db' →
      ∀ b ∈ system.db.flowHashtable.bindings, b ∉ db'.flowHashtable.bindings →
        ∃ session, (session, sessionId) ∈ system.db.sessionHashtable.bindings ∧
          sessionKey env b.1 = sessionKey env session

/-- A live flow and a live session with the same id have the same session key. -/
def Ledger.IdsMatch (env : Env) (ledger : Ledger) : Prop :=
  ∀ b ∈ ledger.flows, ∀ c ∈ ledger.sessions, b.2 = c.2 → sessionKey env b.1 = sessionKey env c.1

/-- The flow id that a new flow takes and keeps is not that of a live session with another
key, and the session id that it takes is not that of a live flow with another key. -/
structure Ledger.IdsApart (env : Env) (ledger : Ledger) (input : FlowInput) : Prop where
  flow : ∀ packet flowId rest, input.command = .addFlow packet →
    NewFlow env packet flowId rest ledger →
    input.accepted = true ∨ ((∀ c ∈ ledger.sessions, sessionKey env c.1 ≠ sessionKey env packet) ∧
      ledger.sessionPool packet.pipe = 0) →
    ∀ c ∈ ledger.sessions, flowId = c.2 → sessionKey env packet = sessionKey env c.1
  session : ∀ packet flowId rest, input.command = .addFlow packet →
    NewFlow env packet flowId rest ledger →
    (∀ c ∈ ledger.sessions, sessionKey env c.1 ≠ sessionKey env packet) →
    ∀ sessionId rest', Takes (ledger.sessionPool packet.pipe) sessionId rest' →
      ∀ b ∈ ledger.flows, b.2 = sessionId → sessionKey env b.1 = sessionKey env packet

namespace Ledger

variable {env : Env} {input : FlowInput} {packet flow : FiveTuple} {sessionId value pipe : Int}
  {ledger ledger' : Ledger} {b : FiveTuple × Int} {put : Option DataplaneCommand}
  {puts : List DataplaneCommand}

theorem IdsMatch.placeFlow {flowId : Int} {rest : Multiset Int} (idsMatch : ledger.IdsMatch env)
    (apart : ∀ c ∈ ledger.sessions, flowId = c.2 → sessionKey env flow = sessionKey env c.1) :
    (ledger.placeFlow flow flowId rest).IdsMatch env := by
  intro b hb c hc same
  rcases Multiset.mem_cons.mp hb with rfl | hb
  · exact apart c hc same
  · exact idsMatch b hb c hc same

theorem TakeSession.idsMatch (idsMatch : ledger.IdsMatch env)
    (apart : (∀ c ∈ ledger.sessions, sessionKey env c.1 ≠ sessionKey env flow) →
      ∀ rest', Takes (ledger.sessionPool flow.pipe) sessionId rest' →
        ∀ b ∈ ledger.flows, b.2 = sessionId → sessionKey env b.1 = sessionKey env flow)
    (session : TakeSession env flow sessionId ledger ledger') : ledger'.IdsMatch env := by
  cases session with
  | join _ _ => exact idsMatch
  | create absent takes _ =>
      intro b hb c hc same
      rcases Multiset.mem_cons.mp hc with rfl | hc
      · exact apart absent _ takes b hb same
      · exact idsMatch b hb c hc same

/-- A session that a flow takes is an old one or has the flow's own key. -/
theorem TakeSession.sessions_cases (session : TakeSession env flow sessionId ledger ledger') :
    ∀ c ∈ ledger'.sessions, c ∈ ledger.sessions ∨ c.1 = flow := by
  intro c member
  cases session with
  | join _ _ => exact Or.inl member
  | create _ _ _ =>
      rcases Multiset.mem_cons.mp member with rfl | member
      · exact Or.inr rfl
      · exact Or.inl member

theorem AddFlow.idsMatch (idsMatch : ledger.IdsMatch env) (apart : ledger.IdsApart env input)
    (command : input.command = .addFlow packet)
    (step : AddFlow env packet input.accepted ledger ledger' put) : ledger'.IdsMatch env := by
  have takes : ∀ {flowId rest ledger₁ sessionId}, NewFlow env packet flowId rest ledger →
      TakeSession env (env.record packet) sessionId ledger ledger₁ → ledger₁.IdsMatch env := by
    intro flowId rest ledger₁ sessionId new session
    apply session.idsMatch idsMatch
    intro absent rest'
    exact apart.session packet _ _ command new absent _ rest'
  cases step with
  | unmapped _ => exact idsMatch
  | noFlowId _ _ => exact idsMatch
  | known _ _ _ _ => exact idsMatch
  | noSessionId new absent empty =>
      apply idsMatch.placeFlow
      exact apart.flow packet _ _ command new (Or.inr ⟨absent, empty⟩)
  | placed new enqueued session =>
      apply (takes new session).placeFlow
      intro c member same
      rcases session.sessions_cases c member with old | own
      · exact apart.flow packet _ _ command new (Or.inl enqueued) c old same
      · rw [own]
  | refused new _ session => exact takes new session

/-- A command that keeps ids apart keeps them matched. -/
theorem Step.idsMatch (idsMatch : ledger.IdsMatch env) (apart : ledger.IdsApart env input)
    (step : Step env input ledger ledger' puts) : ledger'.IdsMatch env := by
  cases step with
  | add command adds => exact adds.idsMatch idsMatch apart command
  | missed _ _ => exact idsMatch
  | remove removes release cleanup =>
      have flows : ∀ x ∈ ledger'.flows, x ∈ ledger.flows := by
        intro x member
        rw [cleanup.flows_eq.1] at member
        cases release with
        | intro held =>
            rw [held]
            exact Multiset.mem_cons_of_mem member
      have sessions : ∀ x ∈ ledger'.sessions, x ∈ ledger.sessions := by
        intro x member
        rw [← release.frame.1]
        cases cleanup with
        | kept _ => exact member
        | dropped _ held =>
            rw [held]
            exact Multiset.mem_cons_of_mem member
      intro b hb c hc
      exact idsMatch b (flows b hb) c (sessions c hc)

theorem Removes.of_timeout {flowId : Int}
    (removes : ledger.Removes (.timeoutFlow flowId) flow b) : flow = b.1 ∧ b.2 = flowId := by
  cases removes with
  | byFlowId member => exact ⟨rfl, rfl⟩

/-- A flow that a timeout removes has the id of the timeout. -/
theorem Step.timeout_removes {flowId : Int} (command : input.command = .timeoutFlow flowId)
    (step : Step env input ledger ledger' puts) (live : b ∈ ledger.flows)
    (gone : b ∉ ledger'.flows) : b.2 = flowId := by
  cases step with
  | add command' _ => cases command.symm.trans command'
  | missed _ _ => exact absurd live gone
  | @remove flow released _ _ _ removes release cleanup =>
      rw [cleanup.flows_eq.1] at gone
      cases release with
      | intro held =>
          rw [held, Multiset.mem_cons] at live
          obtain rfl := live.resolve_right gone
          rw [command] at removes
          exact removes.of_timeout.2

/-- A timeout for the id of a live flow takes that flow. -/
theorem Step.timeout_takes (keyed : ledger.Keyed env)
    (sound : ledger.Sound) (live : b ∈ ledger.flows) (command : input.command = .timeoutFlow b.2)
    (step : Step env input ledger ledger' puts) : b ∉ ledger'.flows := by
  have removes : ledger.Removes input.command b.1 b := by
    rw [command]
    exact .byFlowId live
  have held := step.flows_eq_of_removes keyed sound removes
  have used := Lib.IdPool.used_nodup sound.flow_nodup
  rw [held, Multiset.map_cons, Multiset.nodup_cons] at used
  intro again
  exact used.1 (Multiset.mem_map_of_mem _ again)

end Ledger

/-- An enqueued timeout carries the id of a live session. -/
theorem AgeingSystem.mem_age {env : Env} {system : AgeingSystem} (valid : system.db.Valid env)
    {read : Option (Int → UInt32)} {now : UInt32} {accepted : Int → Bool} {sessionId : Int}
    (enqueued : sessionId ∈ (system.age read now accepted).2) :
    ∃ session, (session, sessionId) ∈ system.db.sessionHashtable.bindings := by
  rw [AgeingSystem.age_eq, mem_processAndAgeFeature_iff] at enqueued
  obtain ⟨i, _, _, item⟩ := enqueued
  unfold FeatureState.agedItem at item
  split at item
  · rename_i idle
    obtain ⟨_, b, member, value, _⟩ := valid.sessionTable.egress i idle.2.1.2
    rw [← Option.some.inj item]
    dsimp only
    rw [← value]
    exact ⟨b.1, member⟩
  · cases item

theorem AgeingSystem.timeoutsSpare_of_idsMatch {env : Env} {system : AgeingSystem}
    (valid : system.db.Valid env) (idsMatch : system.db.ledger.IdsMatch env) :
    system.TimeoutsSpare env := by
  intro read now accepted sessionId enqueued input db' command next b live gone
  obtain ⟨session, member⟩ := system.mem_age valid enqueued
  obtain ⟨_, _, puts, step⟩ := (flowdbStep_returns valid input).of_pure next
  exact ⟨session, member, idsMatch b live _ member (step.timeout_removes command live gone)⟩

theorem ageingStep_keeps {env : Env} {system : AgeingSystem} {event : AgeingEvent}
    (valid : system.db.Valid env) (idsMatch : system.db.ledger.IdsMatch env)
    (apart : ∀ input, event = .command input → system.db.ledger.IdsApart env input) :
    Exec.ReturnsOr .heapOverflow (ageingStep env system event) fun system' =>
      system'.db.Valid env ∧ system'.db.ledger.IdsMatch env := by
  cases event with
  | command input =>
      simp only [ageingStep]
      apply (flowdbStep_returns valid input).orFault.bind
      intro db' facts
      obtain ⟨valid', _, puts, step⟩ := facts
      exact Or.inl (.pure ⟨valid', step.idsMatch idsMatch (apart input rfl)⟩)
  | round read now accepted =>
      exact Or.inl ⟨_, rfl, valid, idsMatch⟩

/-- In every run of commands and ageing rounds in which commands that add flows keep the
ids apart, up to the first push onto a full pool, the timeout of an idle session removes
only flows of that session. -/
theorem timeouts_spare_other_sessions (env : Env) (events : List AgeingEvent) :
    Exec.Returns flowdbInit fun db =>
      Lib.AllSteps (ageingStep env)
          (fun system event => ∀ input, event = .command input →
            system.db.ledger.IdsApart env input) ⟨db, prepareFeature⟩ events →
        Lib.StatesUntil .heapOverflow (ageingStep env) (AgeingSystem.TimeoutsSpare env)
          ⟨db, prepareFeature⟩ events := by
  apply (flowdbInit_returns env).mono
  intro db start steps
  obtain ⟨valid, initial, _⟩ := start
  refine Lib.StatesUntil.of_invariant
    (I := fun system => system.db.Valid env ∧ system.db.ledger.IdsMatch env)
    (fun system event holds => ageingStep_keeps holds.1 holds.2)
    (fun system holds => system.timeoutsSpare_of_idsMatch holds.1 holds.2) ⟨valid, ?_⟩ steps
  intro b member
  dsimp only at member
  rw [initial] at member
  exact absurd member (Multiset.notMem_zero b)

/-- A first flow, and two rounds. -/
theorem timeouts_spare_first_flow :
    Exec.Returns flowdbInit fun db =>
      Lib.StatesUntil .heapOverflow (ageingStep (.twoPorts true))
        (AgeingSystem.TimeoutsSpare (.twoPorts true)) ⟨db, prepareFeature⟩
        [.command (.add .zero (by decide)), .round (some fun _ => 0) 100 fun _ => true,
          .round (some fun _ => 0) 200 fun _ => true] := by
  obtain ⟨db, init, spares⟩ := timeouts_spare_other_sessions (.twoPorts true)
    [.command (.add .zero (by decide)), .round (some fun _ => 0) 100 fun _ => true,
      .round (some fun _ => 0) 200 fun _ => true]
  obtain ⟨_, initial, _⟩ := (flowdbInit_returns (.twoPorts true)).of_pure init
  refine ⟨db, init, spares ⟨?_, ?_⟩⟩
  · intro input _
    dsimp only
    rw [initial]
    exact ⟨fun _ _ _ _ _ _ c member => absurd member (Multiset.notMem_zero c),
      fun _ _ _ _ _ _ _ _ _ b member => absurd member (Multiset.notMem_zero b)⟩
  · intro _ _
    have idle : ∀ {system : AgeingSystem} {read now accepted input},
        AgeingEvent.round read now accepted = .command input →
          system.db.ledger.IdsApart (.twoPorts true) input := by
      intro system read now accepted input same
      cases same
    exact ⟨fun _ => idle, fun _ _ => ⟨fun _ => idle, fun _ _ => True.intro⟩⟩

/-! ## Two clients -/

theorem FeatureState.agedUpdate_of_unnoted {round : AgeingRound} {state : FeatureState} {i : Int}
    (unnoted : state.lastFlowUpdate i = 0) (mapped : round.egressFeatureToSessionId i ≠ -1) :
    state.agedUpdate round i = round.now := by
  unfold FeatureState.agedUpdate
  rw [if_pos]
  exact Or.inr ⟨unnoted, mapped⟩

theorem FeatureState.agedItem_of_idle {round : AgeingRound} {state : FeatureState} {i : Int}
    (unchanged : state.registerCount.dataPlaneValues i = state.registerCount.lastDataPlaneValue i)
    (noted : state.lastFlowUpdate i ≠ 0) (timedOut : state.TimedOut round i)
    (accepted : round.accepted i = true) :
    state.agedItem round i = some (round.egressFeatureToSessionId i) := by
  unfold FeatureState.agedItem
  rw [if_pos]
  refine ⟨?_, timedOut, accepted⟩
  intro updated
  rcases updated with changed | fresh
  · exact changed unchanged
  · exact noted fresh.1

/-- A slot that is mapped after the start is noted in a first round and timed out in a
later one whose register has not changed. -/
theorem AgeingSystem.age_idle {db : FlowDb} {slot sessionId : Int} (low : 4 ≤ slot)
    (high : slot < featureSize) (live : sessionId ≠ -1)
    (mapped : db.sessionHashtable.egressFeatureToSessionId slot = sessionId)
    {aged : FeatureState}
    (round : aged =
      (AgeingSystem.age ⟨db, prepareFeature⟩ (some fun _ => 0) 100 fun _ => true).1) :
    sessionId ∈ (AgeingSystem.age ⟨db, aged⟩ (some aged.registerCount.dataPlaneValues) 200
      fun _ => true).2 := by
  subst mapped
  have noted : aged.lastFlowUpdate slot = 100 := by
    rw [round]
    rw [AgeingSystem.age_eq, processAndAgeFeature_lastFlowUpdate low high]
    exact FeatureState.agedUpdate_of_unnoted rfl live
  rw [AgeingSystem.age_eq, mem_processAndAgeFeature_iff]
  refine ⟨slot, low, high, ?_⟩
  refine FeatureState.agedItem_of_idle rfl ?_ ⟨?_, live⟩ rfl
  · show aged.lastFlowUpdate slot ≠ 0
    rw [noted]
    decide
  · show aged.lastFlowUpdate slot < 200 - flowTimeout
    rw [noted]
    decide

theorem ageingStep_command {env : Env} {db db' : FlowDb} {features : FeatureState}
    {input : FlowInput} (next : flowdbStep env db input = pure db') :
    ageingStep env ⟨db, features⟩ (.command input) = pure ⟨db', features⟩ := by
  simp only [ageingStep, next, pure_bind]

theorem ageingStep_round {env : Env} {db : FlowDb} {features aged : FeatureState}
    {read : Option (Int → UInt32)} {now : UInt32} {accepted : Int → Bool}
    (round : aged = (AgeingSystem.age ⟨db, features⟩ read now accepted).1) :
    ageingStep env ⟨db, features⟩ (.round read now accepted) = pure ⟨db, aged⟩ := by
  rw [round]
  rfl

/-- The first flow of a second client. -/
def secondClient : FiveTuple :=
  { FiveTuple.onPort 0 2 with sh := { FiveTuple.zero.sh with toServer := true } }

theorem releasesHome_of_add {env : Env} {ledger : Ledger} {packet : FiveTuple}
    (port : packet.devPort.toNat < maxDevPortId) :
    ledger.ReleasesHome env (.add packet port) := by
  intro flow b removes
  cases removes

theorem sessionHashtableInit_complete : sessionHashtableInit.EgressComplete := by
  intro b member
  rw [sessionHashtableInit_bindings] at member
  exact absurd member (Multiset.notMem_zero b)

/-- Two flows of one client share session 4, which is exported from slot 5. -/
theorem two_flows_of_client {db : FlowDb} (valid : db.Valid (.twoPorts true))
    (initial : db.ledger = Ledger.initial) (table : db.sessionHashtable = sessionHashtableInit) :
    ∃ first second,
      flowdbStep (.twoPorts true) db (.add (.onPort 0 0) (by decide)) = pure first ∧
      flowdbStep (.twoPorts true) first (.add (.onPort 0 1) (by decide)) = pure second ∧
      second.Valid (.twoPorts true) ∧ second.ledger.Resident ∧
      second.sessionHashtable.EgressComplete ∧
      second.ledger.flows = {((Env.twoPorts true).record (.onPort 0 1), 8),
        ((Env.twoPorts true).record (.onPort 0 0), 4)} ∧
      second.ledger.sessions = {((Env.twoPorts true).record (.onPort 0 0), 4)} ∧
      second.ledger.flowPool 0 = (Ledger.residentsFrom 0 2).val ∧
      second.ledger.sessionPool 0 = (Ledger.residentsFrom 0 1).val := by
  have port : (FiveTuple.onPort 0 0).devPort.toNat < maxDevPortId := by decide
  have port' : (FiveTuple.onPort 0 1).devPort.toNat < maxDevPortId := by decide
  have pipe : (FiveTuple.onPort 0 0).pipe = 0 := rfl
  have pipe' : (FiveTuple.onPort 0 1).pipe = 0 := rfl
  obtain ⟨first, added, valid₁, resident₁, kept₁, _, step⟩ :=
    flowdbStep_resident valid (initial ▸ Ledger.initial_resident) (releasesHome_of_add port)
  obtain ⟨_, _, adds⟩ := step.adds rfl
  rw [initial] at adds
  obtain ⟨flows₁, sessions₁, flowPool, sessionPool⟩ := adds.placed_of_initial (by decide) port
  rw [pipe] at flows₁ sessions₁ flowPool sessionPool
  obtain ⟨second, added₂, valid₂, resident₂, kept₂, _, step⟩ :=
    flowdbStep_resident valid₁ resident₁ (releasesHome_of_add port')
  obtain ⟨_, _, adds⟩ := step.adds rfl
  have served : first.ledger.sessionPool (FiveTuple.onPort 0 1).pipe ≠ 0 := by
    rw [pipe', sessionPool]
    exact Ledger.residentsFrom_ne_zero (Ledger.pipe_mem port) (by decide)
  have absent : ∀ b ∈ first.ledger.flows, b.1.h ≠ (FiveTuple.onPort 0 1).h := by
    rw [flows₁]
    decide
  have member : ((Env.twoPorts true).record (.onPort 0 0), 4) ∈ first.ledger.sessions := by
    rw [sessions₁]
    exact Multiset.mem_singleton_self _
  have key : sessionKey (.twoPorts true) ((Env.twoPorts true).record (.onPort 0 0)) =
      sessionKey (.twoPorts true) (.onPort 0 1) := rfl
  obtain ⟨_, _, ledger₂⟩ := adds.joins (by decide) port' (by decide) flowPool served absent
    valid₁.keyed member key
  have apart : EgressInjective {((Env.twoPorts true).record (.onPort 0 0), 4)} :=
    ⟨by decide, by decide⟩
  have none : EgressInjective db.ledger.sessions := by
    rw [initial]
    exact ⟨fun a member => absurd member (Multiset.notMem_zero a),
      fun a member => absurd member (Multiset.notMem_zero a)⟩
  have sessions₂ : second.ledger.sessions = first.ledger.sessions := by
    rw [ledger₂]
  refine ⟨first, second, added, added₂, valid₂, resident₂, ?_, ?_, sessions₂.trans sessions₁,
    ?_, ?_⟩
  · refine kept₂ (kept₁ (table ▸ sessionHashtableInit_complete) none ?_) ?_ ?_
    · exact sessions₁ ▸ apart
    · exact sessions₁ ▸ apart
    · exact sessions₂ ▸ sessions₁ ▸ apart
  · rw [ledger₂]
    dsimp only
    rw [flows₁]
    rfl
  · rw [ledger₂, ← pipe']
    dsimp only
    rw [Function.update_self]
  · rw [ledger₂]
    exact sessionPool

/-- The flow of a second client: its session has the id of the first client's second
flow, and is exported from slot 9. -/
theorem ids_cross {second : FlowDb} (valid : second.Valid (.twoPorts true))
    (resident : second.ledger.Resident) (complete : second.sessionHashtable.EgressComplete)
    (flows : second.ledger.flows = {((Env.twoPorts true).record (.onPort 0 1), 8),
      ((Env.twoPorts true).record (.onPort 0 0), 4)})
    (sessions : second.ledger.sessions = {((Env.twoPorts true).record (.onPort 0 0), 4)})
    (flowPool : second.ledger.flowPool 0 = (Ledger.residentsFrom 0 2).val)
    (sessionPool : second.ledger.sessionPool 0 = (Ledger.residentsFrom 0 1).val) :
    ∃ third,
      flowdbStep (.twoPorts true) second (.add secondClient (by decide)) = pure third ∧
      third.Valid (.twoPorts true) ∧ third.ledger.Resident ∧
      third.sessionHashtable.EgressComplete ∧
      third.ledger.flows = {((Env.twoPorts true).record secondClient, 12),
        ((Env.twoPorts true).record (.onPort 0 1), 8),
        ((Env.twoPorts true).record (.onPort 0 0), 4)} ∧
      third.ledger.sessions = {((Env.twoPorts true).record secondClient, 8),
        ((Env.twoPorts true).record (.onPort 0 0), 4)} := by
  have port : secondClient.devPort.toNat < maxDevPortId := by decide
  obtain ⟨third, added, valid', resident', kept, _, step⟩ :=
    flowdbStep_resident valid resident (releasesHome_of_add port)
  obtain ⟨_, _, adds⟩ := step.adds rfl
  have absent : ∀ b ∈ second.ledger.flows, b.1.h ≠ secondClient.h := by
    rw [flows]
    decide
  have alone : ∀ b ∈ second.ledger.sessions,
      sessionKey (.twoPorts true) b.1 ≠ sessionKey (.twoPorts true) secondClient := by
    rw [sessions]
    decide
  obtain ⟨_, _, _, ledger⟩ := adds.creates (by decide) port (by decide) (by decide) flowPool
    sessionPool absent alone
  have sessions' : third.ledger.sessions = {((Env.twoPorts true).record secondClient, 8),
      ((Env.twoPorts true).record (.onPort 0 0), 4)} := by
    rw [ledger]
    dsimp only
    rw [sessions]
    rfl
  refine ⟨third, added, valid', resident', kept complete ?_ ?_, ?_, sessions'⟩
  · rw [sessions]
    exact ⟨by decide, by decide⟩
  · rw [sessions']
    exact ⟨by decide, by decide⟩
  · rw [ledger]
    dsimp only
    rw [flows]
    rfl

/-- The idle session of the second client takes away a flow of the first. -/
theorem timeouts_do_not_spare_other_client :
    ¬ Exec.Returns flowdbInit fun db =>
      Lib.StatesUntil .heapOverflow (ageingStep (.twoPorts true))
        (AgeingSystem.TimeoutsSpare (.twoPorts true)) ⟨db, prepareFeature⟩
        [.command (.add (.onPort 0 0) (by decide)), .command (.add (.onPort 0 1) (by decide)),
          .command (.add secondClient (by decide)), .round (some fun _ => 0) 100 fun _ => true] := by
  intro claimed
  obtain ⟨db, init, states⟩ := claimed
  obtain ⟨valid, initial, table⟩ := (flowdbInit_returns (.twoPorts true)).of_pure init
  obtain ⟨first, second, added₁, added₂, valid, resident, complete, flows, sessions, flowPool,
    sessionPool⟩ := two_flows_of_client valid initial table
  obtain ⟨third, added₃, valid, resident, complete, flows, sessions⟩ :=
    ids_cross valid resident complete flows sessions flowPool sessionPool
  have last := (((states.2.of_pure (ageingStep_command added₁)).2.of_pure
    (ageingStep_command added₂)).2.of_pure (ageingStep_command added₃)).2
  obtain ⟨aged, round⟩ : ∃ aged, aged =
      (AgeingSystem.age ⟨third, prepareFeature⟩ (some fun _ => 0) 100 fun _ => true).1 := ⟨_, rfl⟩
  have spares := last.of_pure (ageingStep_round round)
  have live : ((Env.twoPorts true).record (.onPort 0 1), 8) ∈ third.ledger.flows := by
    rw [flows]
    decide
  have held : ((Env.twoPorts true).record secondClient, 8) ∈ third.ledger.sessions := by
    rw [sessions]
    decide
  have idle := AgeingSystem.age_idle (show (4 : Int) ≤ 9 by decide) (by decide) (by decide)
    (complete _ held) round
  have home : third.ledger.ReleasesHome (.twoPorts true)
      ⟨.timeoutFlow 8, true, "", 0, by decide, by decide⟩ := by
    have flowPipes : ∀ b ∈ third.ledger.flows, b.1.pipe = 0 := by
      rw [flows]
      decide
    have sessionPipes : ∀ c ∈ third.ledger.sessions, flowIdToPipe c.2 = 0 := by
      rw [sessions]
      decide
    intro flow b removes
    obtain ⟨rfl, _⟩ := Ledger.Removes.of_timeout removes
    refine ⟨resident.flows b removes.member, ?_⟩
    intro session drops
    rw [sessionPipes session drops.member, flowPipes b removes.member]
  obtain ⟨db', next, _, _, _, _, step⟩ := flowdbStep_resident valid resident home
  obtain ⟨session, member, same⟩ := spares _ _ _ 8 idle _ db' rfl next _ live
    (step.timeout_takes valid.keyed valid.sound live rfl)
  have sessionIds : ∀ c ∈ third.ledger.sessions, c.2 = 8 →
      sessionKey (.twoPorts true) ((Env.twoPorts true).record (.onPort 0 1)) ≠
        sessionKey (.twoPorts true) c.1 := by
    rw [sessions]
    decide
  exact sessionIds _ member rfl same

end Marina
