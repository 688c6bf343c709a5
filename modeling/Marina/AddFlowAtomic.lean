import Marina.FlowRuns

/-!
# Adding a flow that is not added

`add_flow` leaves in five ways without having put `DP_ADD_FLOW` into the ring of the data
plane. Three of them leave before anything was changed, or give a popped id back. When the
ring is full, the flow is taken back, but not its session: a session that was created stays,
and so does the count of a session that was joined. When there is no id for a new session,
nothing is taken back. `add_flow_all_or_nothing_iff` shows that nothing else is left behind.
-/

namespace Marina

open Lib (Exec)

/-- The tables, the reverse maps and the pools are those from before. -/
structure FlowDb.Unchanged (db db' : FlowDb) : Prop where
  flows : db'.flowHashtable.bindings = db.flowHashtable.bindings
  sessions : db'.sessionHashtable.bindings = db.sessionHashtable.bindings
  flowCount : db'.sessionHashtable.flowCount = db.sessionHashtable.flowCount
  flowMap : db'.flowHashtable.featureIndexToEntryMap = db.flowHashtable.featureIndexToEntryMap
  sessionMap : db'.sessionHashtable.featureIndexToEntryMap =
    db.sessionHashtable.featureIndexToEntryMap
  egressMap : db'.sessionHashtable.egressFeatureToSessionId =
    db.sessionHashtable.egressFeatureToSessionId
  flowIds : ∀ pipe, (db'.flowIdHeap pipe).ids = (db.flowIdHeap pipe).ids
  sessionIds : ∀ pipe, (db'.sessionIdHeap pipe).ids = (db.sessionIdHeap pipe).ids

/-- `DP_ADD_FLOW` is in the ring, or nothing has changed. -/
def AllOrNothing (db : FlowDb) (accepted : Bool) (result : FlowDb × Option DataplaneCommand) :
    Prop :=
  (accepted = true ∧ result.2.isSome = true) ∨ db.Unchanged result.1

/-- The packet is the first one of a flow that gets an id. -/
structure Ledger.Admits (env : Env) (packet : FiveTuple) (ledger : Ledger) : Prop where
  mapped : env.Mapped packet
  filled : ledger.flowPool packet.pipe ≠ 0
  absent : ∀ b ∈ ledger.flows, b.1.h ≠ packet.h

/-- The new flow has no live session, and either there is no id for one or the ring is full;
or the ring is full and sessions count their flows. -/
structure Ledger.Strands (env : Env) (packet : FiveTuple) (accepted : Bool) (ledger : Ledger) :
    Prop where
  admits : ledger.Admits env packet
  stops : ((∀ b ∈ ledger.sessions, sessionKey env b.1 ≠ sessionKey env packet) ∧
      (ledger.sessionPool packet.pipe = 0 ∨ accepted = false)) ∨
    (accepted = false ∧ env.useSessions = true)

section Unchanged

variable {env : Env} {db db' : FlowDb} {packet : FiveTuple} {accepted : Bool} {uuid : String}
  {ledger ledger' : Ledger} {put : Option DataplaneCommand}

namespace FlowDb

theorem Unchanged.ledger_eq (unchanged : db.Unchanged db') : db'.ledger = db.ledger := by
  unfold FlowDb.ledger
  rw [unchanged.flows, unchanged.sessions, unchanged.flowCount]
  congr 1
  · funext pipe
    exact unchanged.flowIds pipe
  · funext pipe
    exact unchanged.sessionIds pipe

theorem Unchanged.of_ledger (same : db'.ledger = db.ledger)
    (flowMap : db'.flowHashtable.featureIndexToEntryMap = db.flowHashtable.featureIndexToEntryMap)
    (table : db'.sessionHashtable = db.sessionHashtable) : db.Unchanged db' where
  flows := congrArg Ledger.flows same
  sessions := congrArg Ledger.sessions same
  flowCount := congrArg Ledger.flowCount same
  flowMap := flowMap
  sessionMap := congrArg SessionHashtable.featureIndexToEntryMap table
  egressMap := congrArg SessionHashtable.egressFeatureToSessionId table
  flowIds pipe := congrFun (congrArg Ledger.flowPool same) pipe
  sessionIds pipe := congrFun (congrArg Ledger.sessionPool same) pipe

end FlowDb

/-! ## What is left behind -/

/-- A session that was taken for a refused flow shows. -/
theorem Ledger.TakeSession.ne {flow : FiveTuple} {sessionId : Int}
    (session : TakeSession env flow sessionId ledger ledger')
    (visible : (∀ b ∈ ledger.sessions, sessionKey env b.1 ≠ sessionKey env flow) ∨
      env.useSessions = true) : ledger' ≠ ledger := by
  intro same
  cases session with
  | join member known =>
      have counting := visible.resolve_left fun absent => absent _ member known
      have counts := congrFun (congrArg Ledger.flowCount same) sessionId
      dsimp only at counts
      rw [if_pos counting, Function.update_self] at counts
      have one : (1 : Int32) = 0 := by
        rw [← Int32.add_right_inj (ledger.flowCount sessionId), counts, Int32.add_zero]
      exact absurd one (by decide)
  | create _ _ _ =>
      have sessions := congrArg (fun l => l.sessions.card) same
      dsimp only at sessions
      rw [Multiset.card_cons] at sessions
      omega

/-- Where `add_flow` strands, it changes the ledger and puts nothing. -/
theorem Ledger.Strands.changes (strands : ledger.Strands env packet accepted)
    (adds : AddFlow env packet accepted ledger ledger' put) :
    ledger' ≠ ledger ∧ ¬ (accepted = true ∧ put.isSome = true) := by
  obtain ⟨admits, stops⟩ := strands
  cases adds with
  | unmapped unmapped => exact absurd admits.mapped unmapped
  | noFlowId _ empty => exact absurd empty admits.filled
  | known _ _ member same => exact absurd same (admits.absent _ member)
  | noSessionId _ _ _ =>
      refine ⟨?_, fun enqueued => Bool.false_ne_true enqueued.2⟩
      intro same
      have flows := congrArg (fun l => l.flows.card) same
      dsimp only [Ledger.placeFlow] at flows
      rw [Multiset.card_cons] at flows
      omega
  | placed _ enqueued session =>
      have running : ¬ accepted = false := by simp [enqueued]
      rcases stops with ⟨absent, empty | full⟩ | ⟨full, _⟩
      · cases session with
        | join member known => exact absurd known (absent _ member)
        | create _ takes _ =>
            have free := takes.mem
            change _ ∈ ledger.sessionPool packet.pipe at free
            rw [empty] at free
            exact absurd free (Multiset.notMem_zero _)
      · exact absurd full running
      · exact absurd full running
  | refused _ full session =>
      refine ⟨session.ne ?_, fun enqueued => by simp [full] at enqueued⟩
      exact stops.imp And.left And.right

/-! ## What is taken back -/

/-- A refused flow that joins a session without counting leaves nothing behind. -/
theorem addFlow_of_refused (valid : db.Valid env) (port : packet.devPort.toNat < maxDevPortId)
    (admits : db.ledger.Admits env packet) {b : FiveTuple × Int} (member : b ∈ db.ledger.sessions)
    (known : sessionKey env b.1 = sessionKey env packet) (single : env.useSessions = false)
    (uuid : String) :
    Exec.Returns (addFlow env db packet uuid false) fun result => db.Unchanged result.1 := by
  obtain ⟨flowId, heap, table, placed, add, rfl, placedValid, new, ledger, run⟩ :=
    addFlow_of_new valid port admits.mapped admits.filled admits.absent
  have same : db.sessionHashtable.increase env b.2 = db.sessionHashtable := by
    unfold SessionHashtable.increase
    rw [if_neg (by simp [single])]
  have known' : sessionKey env b.1 = sessionKey env (env.record packet) := known
  have absent : ∀ b ∈ db.flowHashtable.bindings, b.1.h ≠ (env.record packet).h := new.absent
  have session : addFlowSession env _ (env.record packet) uuid = _ :=
    addFlowSession_of_mem placedValid member known'
  dsimp only at session
  rw [same] at session
  have undone := (flowHashtableAdd_undone valid.flowTable valid.sound.flow_room absent
    (valid.sound.flow_fresh (Ledger.pipe_mem port) new.takes.mem)).of_pure add
  obtain ⟨removed, remove, map⟩ := undone
  obtain ⟨final, refused, _, finalLedger, finalTable⟩ := refuseFlow_returns placedValid ledger
    new.takes (valid.fits packet.pipe).1 valid.sound
  obtain ⟨pushed, push, rest⟩ := Exec.bind_eq_pure.mp refused
  obtain ⟨removed', remove', final'⟩ := Exec.bind_eq_pure.mp rest
  rw [Exec.pure_inj] at final'
  have frame : pushed.flowHashtable = table := by
    unfold FlowDb.pushFlowId at push
    obtain ⟨heap', _, update⟩ := Exec.bind_eq_pure.mp push
    rw [Exec.pure_inj] at update
    rw [← update]
  rw [frame, remove, Exec.pure_inj] at remove'
  subst remove'
  rw [run]
  unfold addFlowToDataplane
  rw [session, pure_bind]
  dsimp only
  rw [if_neg Bool.false_ne_true, push, pure_bind, frame, remove, pure_bind]
  refine .pure ?_
  dsimp only
  rw [final']
  refine .of_ledger finalLedger ?_ finalTable
  rw [← final']
  exact map

/-- A flow that the ring takes and that gets a session. -/
theorem addFlow_accepted (valid : db.Valid env) (port : packet.devPort.toNat < maxDevPortId)
    (admits : db.ledger.Admits env packet)
    (served : (∃ b ∈ db.ledger.sessions, sessionKey env b.1 = sessionKey env packet) ∨
      db.ledger.sessionPool packet.pipe ≠ 0) (uuid : String) :
    Exec.Returns (addFlow env db packet uuid true) (AllOrNothing db true) := by
  apply (addFlow_returns valid port uuid true).mono
  intro result facts
  obtain ⟨db', put⟩ := result
  refine Or.inl ⟨rfl, ?_⟩
  generalize after : db'.ledger = ledger' at facts
  cases facts.2.2 with
  | unmapped unmapped => exact absurd admits.mapped unmapped
  | noFlowId _ empty => exact absurd empty admits.filled
  | known _ _ member same => exact absurd same (admits.absent _ member)
  | noSessionId _ absent empty =>
      rcases served with ⟨b, member, known⟩ | filled
      · exact absurd known (absent b member)
      · exact absurd empty filled
  | placed _ _ _ => rfl
  | refused _ full _ => cases full

/-- A call of `add_flow` that does not strand puts its command or leaves everything. -/
theorem addFlow_allOrNothing (valid : db.Valid env) (port : packet.devPort.toNat < maxDevPortId)
    (uuid : String) (accepted : Bool) (spares : ¬ db.ledger.Strands env packet accepted) :
    Exec.Returns (addFlow env db packet uuid accepted) (AllOrNothing db accepted) := by
  have nothing : db.Unchanged db := .of_ledger rfl rfl rfl
  by_cases mapped : env.Mapped packet
  · by_cases empty : db.ledger.flowPool packet.pipe = 0
    · rw [addFlow_of_empty mapped empty]
      exact .pure (Or.inr nothing)
    · by_cases live : ∃ b ∈ db.ledger.flows, b.1.h = packet.h
      · obtain ⟨b, member, same⟩ := live
        apply (addFlow_of_known valid port mapped empty member same uuid accepted).mono
        intro result facts
        obtain ⟨_, ledger, flowTable, sessionTable, _⟩ := facts
        exact Or.inr (.of_ledger ledger (by rw [flowTable]) sessionTable)
      · have admits : db.ledger.Admits env packet :=
          ⟨mapped, empty, fun b member same => live ⟨b, member, same⟩⟩
        by_cases joins : ∃ b ∈ db.ledger.sessions, sessionKey env b.1 = sessionKey env packet
        · obtain ⟨b, member, known⟩ := joins
          cases accepted with
          | false =>
              have single : env.useSessions = false := by
                rw [← Bool.not_eq_true]
                exact fun counting => spares ⟨admits, Or.inr ⟨rfl, counting⟩⟩
              exact (addFlow_of_refused valid port admits member known single uuid).mono
                fun _ unchanged => Or.inr unchanged
          | true => exact addFlow_accepted valid port admits (Or.inl ⟨b, member, known⟩) uuid
        · have absent : ∀ b ∈ db.ledger.sessions, sessionKey env b.1 ≠ sessionKey env packet :=
            fun b member known => joins ⟨b, member, known⟩
          cases accepted with
          | false => exact absurd ⟨admits, Or.inl ⟨absent, Or.inr rfl⟩⟩ spares
          | true =>
              exact addFlow_accepted valid port admits
                (Or.inr fun none => spares ⟨admits, Or.inl ⟨absent, Or.inl none⟩⟩) uuid
  · rw [addFlow_of_unmapped mapped]
    exact .pure (Or.inr nothing)

end Unchanged

/-! ## Reachable states -/

/-- In every state that a run of commands reaches, a call of `add_flow` puts its command or
leaves everything as it was, exactly when it does not strand. -/
theorem add_flow_all_or_nothing_iff (env : Env) (inputs : List FlowInput) (packet : FiveTuple)
    (port : packet.devPort.toNat < maxDevPortId) (uuid : String) (accepted : Bool) :
    Exec.Returns flowdbInit fun start =>
      ∀ db, inputs.foldlM (flowdbStep env) start = pure db →
        (Exec.Returns (addFlow env db packet uuid accepted) (AllOrNothing db accepted) ↔
          ¬ db.ledger.Strands env packet accepted) := by
  apply (flowdbInit_returns env).mono
  intro start facts db run
  have valid := flowdbRun_valid inputs facts.1 run
  constructor
  · intro returned strands
    obtain ⟨result, call, outcome⟩ := returned
    obtain ⟨_, _, adds⟩ := (addFlow_returns valid port uuid accepted).of_pure call
    obtain ⟨changed, notPut⟩ := strands.changes adds
    rcases outcome with enqueued | unchanged
    · exact notPut enqueued
    · exact changed unchanged.ledger_eq
  · exact addFlow_allOrNothing valid port uuid accepted

/-- A flow that is added again while the ring is full: the id that was popped for it goes back,
and nothing is left behind. -/
theorem add_flow_all_or_nothing_again :
    Exec.Returns flowdbInit fun start =>
      Exec.Returns (flowdbStep (.twoPorts true) start (.add .zero (by decide))) fun db =>
        Exec.Returns (addFlow (.twoPorts true) db .zero "" false) (AllOrNothing db false) := by
  obtain ⟨start, init, iff⟩ := add_flow_all_or_nothing_iff (.twoPorts true)
    [.add .zero (by decide)] .zero (by decide) "" false
  obtain ⟨valid, initial, _⟩ := (flowdbInit_returns (.twoPorts true)).of_pure init
  obtain ⟨db, added, _, _, _, step⟩ := (flowdbStep_returns valid (.add .zero (by decide))).returns
    (Ledger.not_overflows_of_add rfl)
  obtain ⟨_, rfl, adds⟩ := step.adds rfl
  rw [initial] at adds
  obtain ⟨_, _, _, ledger⟩ := adds.of_initial (by decide) (by decide)
  refine ⟨start, init, db, added, (iff db ?_).mpr ?_⟩
  · rw [List.foldlM_cons, added, pure_bind, List.foldlM_nil]
  · intro strands
    refine strands.admits.absent ((Env.twoPorts true).record .zero, 4 + FiveTuple.zero.pipe) ?_ rfl
    rw [ledger]
    exact Multiset.mem_singleton_self _

/-- The first flow, refused by the ring: its session stays. -/
theorem add_flow_not_all_or_nothing :
    ¬ Exec.Returns flowdbInit fun db =>
      Exec.Returns (addFlow (.twoPorts true) db .zero "" false) (AllOrNothing db false) := by
  intro claimed
  obtain ⟨db, init, result, call, outcome⟩ := claimed
  obtain ⟨valid, initial, _⟩ := (flowdbInit_returns (.twoPorts true)).of_pure init
  have port : FiveTuple.zero.devPort.toNat < maxDevPortId := by decide
  have strands : db.ledger.Strands (.twoPorts true) .zero false := by
    rw [initial]
    refine ⟨⟨by decide, ?_, fun b member => absurd member (Multiset.notMem_zero b)⟩,
      Or.inr ⟨rfl, rfl⟩⟩
    rw [(Ledger.initial_pool port).1]
    exact Ledger.residentsFrom_ne_zero (Ledger.pipe_mem port) (by decide)
  obtain ⟨_, _, adds⟩ := (addFlow_returns valid port "" false).of_pure call
  obtain ⟨changed, notPut⟩ := strands.changes adds
  rcases outcome with enqueued | unchanged
  · exact notPut enqueued
  · exact changed unchanged.ledger_eq

end Marina
