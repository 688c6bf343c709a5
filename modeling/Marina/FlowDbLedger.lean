import Marina.FlowDb

/-!
# The flow database refines the ledger

Each command of the flow database, run from a valid state, returns a valid state whose
ledger is related to the old one by a transition of the `Ledger`. A heap overflow
happens exactly where a removal pushes onto a full pool.
-/

namespace Marina

open Lib (Exec)

def FlowDb.ledger (db : FlowDb) : Ledger where
  flows := db.flowHashtable.bindings
  sessions := db.sessionHashtable.bindings
  flowPool pipe := (db.flowIdHeap pipe).ids
  sessionPool pipe := (db.sessionIdHeap pipe).ids
  flowCount := db.sessionHashtable.flowCount

/-- The heaps and tables are valid, and no id is lost or duplicated. -/
structure FlowDb.Valid (env : Env) (db : FlowDb) : Prop where
  flowHeap : ∀ pipe, (db.flowIdHeap pipe).Valid
  sessionHeap : ∀ pipe, (db.sessionIdHeap pipe).Valid
  flowTable : db.flowHashtable.Valid env
  sessionTable : db.sessionHashtable.Valid env
  sound : db.ledger.Sound

theorem FlowDb.Valid.keyed {env : Env} {db : FlowDb} (valid : db.Valid env) :
    db.ledger.Keyed env where
  flows _ ha _ hb same := valid.flowTable.key_unique ha hb same
  sessions _ ha _ hb same := valid.sessionTable.key_unique ha hb same

theorem FlowDb.Valid.fits {env : Env} {db : FlowDb} (valid : db.Valid env) (pipe : Int) :
    (db.ledger.flowPool pipe).card ≤ heapSize ∧ (db.ledger.sessionPool pipe).card ≤ heapSize := by
  change (db.flowIdHeap pipe).ids.card ≤ _ ∧ (db.sessionIdHeap pipe).ids.card ≤ _
  rw [HeapQueue.card_ids, HeapQueue.card_ids]
  exact ⟨(valid.flowHeap pipe).fits, (valid.sessionHeap pipe).fits⟩

/-- The egress map stays complete as long as egress slots do not collide. -/
def FlowDb.EgressKept (db db' : FlowDb) : Prop :=
  db.sessionHashtable.EgressComplete → EgressInjective db.ledger.sessions →
    EgressInjective db'.ledger.sessions → db'.sessionHashtable.EgressComplete

section Pools

variable {env : Env} {db : FlowDb} {pipe id : Int} {heap : HeapQueue}

theorem ids_update (heaps : Int → HeapQueue) (pipe : Int) (heap : HeapQueue) :
    (fun p => (Function.update heaps pipe heap p).ids) =
      Function.update (fun p => (heaps p).ids) pipe heap.ids := by
  funext p
  exact Function.apply_update (fun _ => HeapQueue.ids) heaps pipe heap p

theorem valid_update {heaps : Int → HeapQueue} (valid : ∀ p, (heaps p).Valid)
    (new : heap.Valid) (p : Int) : (Function.update heaps pipe heap p).Valid := by
  by_cases same : p = pipe
  · subst same
    rw [Function.update_self]
    exact new
  · rw [Function.update_of_ne same]
    exact valid p

/-- The flow pools after a heap was replaced. -/
theorem FlowDb.flowPool_update (db : FlowDb) (pipe : Int) (heap : HeapQueue) :
    { db with flowIdHeap := Function.update db.flowIdHeap pipe heap }.ledger.flowPool =
      Function.update db.ledger.flowPool pipe heap.ids :=
  ids_update db.flowIdHeap pipe heap

/-- A pop from a filled heap takes its lowest id. -/
theorem heapPop_takes (valid : heap.Valid) (filled : heap.ids ≠ 0) :
    Exec.Returns (heapPop heap) fun result =>
      result.2.Valid ∧ Ledger.Takes heap.ids result.1 result.2.ids := by
  apply (heapPop_returns valid filled).mono
  intro result facts
  obtain ⟨valid', taken, least⟩ := facts
  refine ⟨valid', taken, fun other member => least other ?_⟩
  rw [taken]
  exact Multiset.mem_cons_of_mem member

theorem FlowDb.popFlowId_of_empty (empty : db.ledger.flowPool pipe = 0) :
    db.popFlowId pipe = pure (0, db) := by
  unfold FlowDb.popFlowId
  rw [heapPop_of_empty empty, pure_bind]
  dsimp only
  rw [Function.update_eq_self]

theorem FlowDb.popFlowId_returns (valid : (db.flowIdHeap pipe).Valid)
    (filled : db.ledger.flowPool pipe ≠ 0) :
    Exec.Returns (db.popFlowId pipe) fun result =>
      ∃ heap : HeapQueue, heap.Valid ∧
        Ledger.Takes (db.ledger.flowPool pipe) result.1 heap.ids ∧
        result.2 = { db with flowIdHeap := Function.update db.flowIdHeap pipe heap } := by
  unfold FlowDb.popFlowId
  apply (heapPop_takes valid filled).bind
  intro result facts
  exact .pure ⟨result.2, facts.1, facts.2, rfl⟩

theorem FlowDb.popSessionId_of_empty (empty : db.ledger.sessionPool pipe = 0) :
    db.popSessionId pipe = pure (0, db) := by
  unfold FlowDb.popSessionId
  rw [heapPop_of_empty empty, pure_bind]
  dsimp only
  rw [Function.update_eq_self]

theorem FlowDb.popSessionId_returns (valid : (db.sessionIdHeap pipe).Valid)
    (filled : db.ledger.sessionPool pipe ≠ 0) :
    Exec.Returns (db.popSessionId pipe) fun result =>
      ∃ heap : HeapQueue, heap.Valid ∧
        Ledger.Takes (db.ledger.sessionPool pipe) result.1 heap.ids ∧
        result.2 = { db with sessionIdHeap := Function.update db.sessionIdHeap pipe heap } := by
  unfold FlowDb.popSessionId
  apply (heapPop_takes valid filled).bind
  intro result facts
  exact .pure ⟨result.2, facts.1, facts.2, rfl⟩

/-- A push adds the id to the pool, or overflows a full one. -/
theorem FlowDb.pushFlowId_returns (db : FlowDb) (pipe id : Int)
    (valid : (db.flowIdHeap pipe).Valid) :
    Exec.ReturnsUnless .heapOverflow ((db.ledger.flowPool pipe).card = heapSize)
      (db.pushFlowId pipe id) fun result =>
        ∃ heap : HeapQueue, heap.Valid ∧ heap.ids = id ::ₘ db.ledger.flowPool pipe ∧
          result = { db with flowIdHeap := Function.update db.flowIdHeap pipe heap } := by
  unfold FlowDb.pushFlowId
  rcases lt_or_eq_of_le valid.fits with room | full
  · refine Exec.Returns.unless ((heapPush_returns valid room id).bind ?_)
    intro heap facts
    exact .pure ⟨heap, facts.1, facts.2, rfl⟩
  · rw [heapPush_of_full full]
    exact Or.inr ⟨(HeapQueue.card_ids _).trans full, rfl⟩

theorem FlowDb.pushSessionId_returns (db : FlowDb) (pipe id : Int)
    (valid : (db.sessionIdHeap pipe).Valid) :
    Exec.ReturnsUnless .heapOverflow ((db.ledger.sessionPool pipe).card = heapSize)
      (db.pushSessionId pipe id) fun result =>
        ∃ heap : HeapQueue, heap.Valid ∧ heap.ids = id ::ₘ db.ledger.sessionPool pipe ∧
          result = { db with sessionIdHeap := Function.update db.sessionIdHeap pipe heap } := by
  unfold FlowDb.pushSessionId
  rcases lt_or_eq_of_le valid.fits with room | full
  · refine Exec.Returns.unless ((heapPush_returns valid room id).bind ?_)
    intro heap facts
    exact .pure ⟨heap, facts.1, facts.2, rfl⟩
  · rw [heapPush_of_full full]
    exact Or.inr ⟨(HeapQueue.card_ids _).trans full, rfl⟩

end Pools

/-! ## Adding a flow -/

section AddFlow

variable {env : Env} {db : FlowDb} {packet flow : FiveTuple} {uuid : String} {accepted : Bool}

/-- A popped flow id is a real one. -/
theorem Ledger.Sound.flow_ne_zero {ledger : Ledger} (sound : ledger.Sound)
    {pipe id : Int} {rest : Multiset Int} (inside : pipe ∈ Ledger.pipes)
    (takes : Ledger.Takes (ledger.flowPool pipe) id rest) : id ≠ 0 := by
  have real := sound.free_flow_id inside (by rw [takes.eq]; exact Multiset.mem_cons_self _ _)
  unfold Ledger.ids minSessionId at real
  rw [Finset.mem_Ico] at real
  omega

theorem Ledger.Sound.session_ne_zero {ledger : Ledger} (sound : ledger.Sound)
    {pipe id : Int} {rest : Multiset Int} (inside : pipe ∈ Ledger.pipes)
    (takes : Ledger.Takes (ledger.sessionPool pipe) id rest) : id ≠ 0 := by
  have real := sound.free_session_id inside
    (by rw [takes.eq]; exact Multiset.mem_cons_self _ _)
  unfold Ledger.ids minSessionId at real
  rw [Finset.mem_Ico] at real
  omega

/-- An id that was popped goes back to the pool it came from. -/
theorem FlowDb.pushFlowId_back (valid : db.Valid env) {pipe flowId : Int} {heap : HeapQueue}
    (heapValid : heap.Valid) (takes : Ledger.Takes (db.ledger.flowPool pipe) flowId heap.ids) :
    Exec.Returns ({ db with
        flowIdHeap := Function.update db.flowIdHeap pipe heap }.pushFlowId pipe flowId)
      fun result => result.Valid env ∧ result.ledger = db.ledger ∧
        result.flowHashtable = db.flowHashtable ∧
        result.sessionHashtable = db.sessionHashtable := by
  have popped := db.flowPool_update pipe heap
  have room : heap.ids.card < heapSize := by
    have fits := (valid.fits pipe).1
    rw [takes.eq, Multiset.card_cons] at fits
    exact fits
  have pushed := FlowDb.pushFlowId_returns
    { db with flowIdHeap := Function.update db.flowIdHeap pipe heap } pipe flowId
    (valid_update valid.flowHeap heapValid pipe)
  apply (pushed.returns (by rw [popped, Function.update_self]; exact room.ne)).mono
  intro result facts
  obtain ⟨heap', heapValid', ids, rfl⟩ := facts
  have pool : { db with
      flowIdHeap := Function.update (Function.update db.flowIdHeap pipe heap) pipe heap'
      }.ledger.flowPool = db.ledger.flowPool := by
    rw [Function.update_idem, FlowDb.flowPool_update, ids, popped, Function.update_self,
      ← takes.eq, Function.update_eq_self]
  have same : { db with
      flowIdHeap := Function.update (Function.update db.flowIdHeap pipe heap) pipe heap'
      }.ledger = db.ledger :=
    congrArg (fun pools => { db.ledger with flowPool := pools }) pool
  refine ⟨⟨valid_update (valid_update valid.flowHeap heapValid) heapValid', valid.sessionHeap,
    valid.flowTable, valid.sessionTable, ?_⟩, same, rfl, rfl⟩
  rw [same]
  exact valid.sound

/-- A flow with a live session joins it. -/
theorem addFlowSession_of_mem (valid : db.Valid env) {b : FiveTuple × Int}
    (member : b ∈ db.ledger.sessions) (known : sessionKey env b.1 = sessionKey env flow) :
    addFlowSession env db flow uuid =
      pure (some b.2, { db with sessionHashtable := db.sessionHashtable.increase env b.2 }) := by
  unfold addFlowSession FlowDb.addSession
  rw [sessionHashtableGet_of_mem valid.sessionTable member known, pure_bind]
  dsimp only
  rw [sessionHashtableAdd_of_mem valid.sessionTable member known valid.sound.session_room,
    pure_bind]
  rfl

theorem takeSession_of_mem {b : FiveTuple × Int} (member : b ∈ db.ledger.sessions)
    (known : sessionKey env b.1 = sessionKey env flow) :
    Ledger.TakeSession env flow b.2 db.ledger
      { db with sessionHashtable := db.sessionHashtable.increase env b.2 }.ledger := by
  have joined : Ledger.TakeSession env flow b.2 db.ledger _ := .join member known
  have same : { db with sessionHashtable := db.sessionHashtable.increase env b.2 }.ledger =
      { db.ledger with
        flowCount := if env.useSessions then
          Function.update db.ledger.flowCount b.2 (db.ledger.flowCount b.2 + 1)
        else db.ledger.flowCount } := by
    unfold FlowDb.ledger SessionHashtable.increase
    split <;> rfl
  rw [same]
  exact joined

/-- What `addFlowSession` leaves behind when the flow has its session. -/
structure SessionTaken (env : Env) (flow : FiveTuple) (sessionId : Int) (db db' : FlowDb) :
    Prop where
  valid : db'.Valid env
  session : Ledger.TakeSession env flow sessionId db.ledger db'.ledger
  flowHashtable : db'.flowHashtable = db.flowHashtable
  flowIdHeap : db'.flowIdHeap = db.flowIdHeap
  egress : db.EgressKept db'

/-- A new session is entered under the lowest free id of its pipe. -/
theorem addFlowSession_of_absent (valid : db.Valid env)
    (port : flow.devPort.toNat < maxDevPortId)
    (absent : ∀ b ∈ db.ledger.sessions, sessionKey env b.1 ≠ sessionKey env flow)
    (filled : db.ledger.sessionPool flow.pipe ≠ 0) :
    Exec.Returns (addFlowSession env db flow uuid) fun result =>
      ∃ sessionId, result.1 = some sessionId ∧
        SessionTaken env flow sessionId db result.2 := by
  have inside := Ledger.pipe_mem port
  unfold addFlowSession FlowDb.addSession
  rw [sessionHashtableGet_of_absent valid.sound.session_room absent, pure_bind]
  dsimp only
  apply (FlowDb.popSessionId_returns (valid.sessionHeap flow.pipe) filled).bind
  intro popped facts
  obtain ⟨sessionId, popped⟩ := popped
  obtain ⟨heap, heapValid, takes, rfl⟩ := facts
  rw [if_neg (valid.sound.session_ne_zero inside takes)]
  have fresh : ∀ b ∈ db.ledger.sessions, b.2 ≠ sessionId :=
    valid.sound.session_fresh inside (by rw [takes.eq]; exact Multiset.mem_cons_self _ _)
  have added := sessionHashtableAdd_of_absent valid.sessionTable valid.sound.session_room
    absent fresh
  apply (added.bind (q := fun db' => ∃ table : SessionHashtable, table.Valid env ∧
    table.bindings = (flow, sessionId) ::ₘ db.ledger.sessions ∧
    (egressSlot flow sessionId < featureSize → table.flowCount = db.ledger.flowCount) ∧
    (db.sessionHashtable.EgressComplete →
      EgressInjective ((flow, sessionId) ::ₘ db.ledger.sessions) → table.EgressComplete) ∧
    db' = { db with
      sessionIdHeap := Function.update db.sessionIdHeap flow.pipe heap
      uuidMapping := Function.update db.uuidMapping sessionId uuid
      sessionHashtable := table }) ?_).bind
  · intro db' facts
    obtain ⟨table, tableValid, bindings, count, complete, rfl⟩ := facts
    refine .pure ⟨sessionId, rfl, ?_⟩
    have created : Ledger.TakeSession env flow sessionId db.ledger _ :=
      .create absent takes count
    have same : { db with
        sessionIdHeap := Function.update db.sessionIdHeap flow.pipe heap
        uuidMapping := Function.update db.uuidMapping sessionId uuid
        sessionHashtable := table }.ledger =
        { db.ledger with
          sessions := (flow, sessionId) ::ₘ db.ledger.sessions
          sessionPool := Function.update db.ledger.sessionPool flow.pipe heap.ids
          flowCount := table.flowCount } := by
      unfold FlowDb.ledger
      dsimp only
      rw [ids_update, bindings]
      rfl
    rw [← same] at created
    refine ⟨⟨valid.flowHeap, valid_update valid.sessionHeap heapValid, valid.flowTable,
      tableValid, created.sound inside valid.sound⟩, created, rfl, rfl, ?_⟩
    intro before _ after
    rw [same] at after
    exact complete before after
  · intro result facts
    obtain ⟨_, tableValid, bindings, count, complete⟩ := facts
    exact .pure ⟨result.2, tableValid, bindings, count, complete, rfl⟩

/-- Without a live session and without a free id for one, the flow has none. -/
theorem addFlowSession_of_empty (valid : db.Valid env)
    (absent : ∀ b ∈ db.ledger.sessions, sessionKey env b.1 ≠ sessionKey env flow)
    (empty : db.ledger.sessionPool flow.pipe = 0) :
    addFlowSession env db flow uuid =
      pure (none, { db with uuidMapping := Function.update db.uuidMapping 0 uuid }) := by
  unfold addFlowSession
  rw [sessionHashtableGet_of_absent valid.sound.session_room absent, pure_bind]
  dsimp only
  rw [FlowDb.popSessionId_of_empty empty, pure_bind]
  dsimp only
  rw [if_pos rfl]

/-- A flow gets a session, unless it needs a new one and its pipe has no free id. -/
theorem addFlowSession_returns (valid : db.Valid env)
    (port : flow.devPort.toNat < maxDevPortId) (uuid : String) :
    Exec.Returns (addFlowSession env db flow uuid) fun result =>
      (∃ sessionId, result.1 = some sessionId ∧ SessionTaken env flow sessionId db result.2) ∨
      (result = (none, { db with uuidMapping := Function.update db.uuidMapping 0 uuid }) ∧
        (∀ b ∈ db.ledger.sessions, sessionKey env b.1 ≠ sessionKey env flow) ∧
        db.ledger.sessionPool flow.pipe = 0) := by
  by_cases live : ∃ b ∈ db.ledger.sessions, sessionKey env b.1 = sessionKey env flow
  · obtain ⟨b, member, known⟩ := live
    rw [addFlowSession_of_mem valid member known]
    have joined := takeSession_of_mem member known
    refine .pure (Or.inl ⟨b.2, rfl, ?_⟩)
    refine ⟨⟨valid.flowHeap, valid.sessionHeap, valid.flowTable, valid.sessionTable.increase b.2,
      joined.sound (Ledger.pipe_mem port) valid.sound⟩, joined, rfl, rfl, ?_⟩
    intro before _ _ b' member'
    rw [SessionHashtable.increase_bindings] at member'
    dsimp only
    rw [SessionHashtable.increase_egress]
    exact before b' member'
  · have absent : ∀ b ∈ db.ledger.sessions, sessionKey env b.1 ≠ sessionKey env flow :=
      fun b member known => live ⟨b, member, known⟩
    by_cases empty : db.ledger.sessionPool flow.pipe = 0
    · rw [addFlowSession_of_empty valid absent empty]
      exact .pure (Or.inr ⟨rfl, absent, empty⟩)
    · exact (addFlowSession_of_absent valid port absent empty).mono fun _ facts => Or.inl facts

/-- Placing a flow and giving it a session do not disturb each other. -/
theorem Ledger.TakeSession.of_placeFlow {ledger ledger' : Ledger} {flowId sessionId : Int}
    {rest : Multiset Int}
    (session : TakeSession env flow sessionId (ledger.placeFlow packet flowId rest) ledger') :
    ∃ before, TakeSession env flow sessionId ledger before ∧
      ledger' = before.placeFlow packet flowId rest := by
  cases session with
  | join member known => exact ⟨_, .join member known, rfl⟩
  | create absent takes count => exact ⟨_, .create absent takes count, rfl⟩

/-- Taking a refused flow back out of its table and giving its id back. -/
theorem refuseFlow_returns {ledger : Ledger} {flowId : Int} {rest : Multiset Int}
    (valid : db.Valid env) (placed : db.ledger = ledger.placeFlow flow flowId rest)
    (takes : Ledger.Takes (ledger.flowPool flow.pipe) flowId rest)
    (fits : (ledger.flowPool flow.pipe).card ≤ heapSize) (sound : ledger.Sound) :
    Exec.Returns (do
      let db ← db.pushFlowId flow.pipe flowId
      let (_, table) ← flowHashtableRemoveByValue env db.flowHashtable flowId
      pure { db with flowHashtable := table }) fun result =>
      result.Valid env ∧ result.ledger = ledger ∧
        result.sessionHashtable = db.sessionHashtable := by
  have pool : db.ledger.flowPool = Function.update ledger.flowPool flow.pipe rest := by
    rw [placed]
    rfl
  have flows : db.flowHashtable.bindings = (flow, flowId) ::ₘ ledger.flows := by
    change db.ledger.flows = _
    rw [placed]
    rfl
  have room : (db.ledger.flowPool flow.pipe).card < heapSize := by
    rw [takes.eq, Multiset.card_cons] at fits
    rw [pool, Function.update_self]
    exact fits
  apply ((db.pushFlowId_returns flow.pipe flowId (valid.flowHeap flow.pipe)).returns room.ne).bind
  intro pushed facts
  obtain ⟨heap, heapValid, ids, rfl⟩ := facts
  have member : (flow, flowId) ∈ db.flowHashtable.bindings := by
    rw [flows]
    exact Multiset.mem_cons_self _ _
  apply (flowHashtableRemoveByValue_of_mem valid.flowTable member).bind
  intro removed facts
  obtain ⟨_, tableValid, bindings⟩ := facts
  have left : removed.2.bindings = ledger.flows := by
    rw [flows] at bindings
    exact ((Multiset.cons_inj_right _).mp bindings).symm
  have same : { db with
      flowIdHeap := Function.update db.flowIdHeap flow.pipe heap
      flowHashtable := removed.2 }.ledger = ledger := by
    have back : Function.update db.ledger.flowPool flow.pipe heap.ids = ledger.flowPool := by
      rw [ids, pool, Function.update_self, Function.update_idem, ← takes.eq,
        Function.update_eq_self]
    unfold FlowDb.ledger
    dsimp only
    rw [ids_update, left]
    change { db.ledger with
      flows := ledger.flows
      flowPool := Function.update db.ledger.flowPool flow.pipe heap.ids } = ledger
    rw [back, placed]
    rfl
  refine .pure ⟨⟨valid_update valid.flowHeap heapValid, valid.sessionHeap, tableValid,
    valid.sessionTable, ?_⟩, same, rfl⟩
  rw [same]
  exact sound

/-- The two ways on after a new flow was placed: without a session id the data plane is
not told, and with one the answer of the ring decides whether the flow stays. -/
theorem addFlowToDataplane_returns {ledger : Ledger} {flowId : Int} {rest : Multiset Int}
    (valid : db.Valid env) (placed : db.ledger = ledger.placeFlow (env.record packet) flowId rest)
    (new : Ledger.NewFlow env packet flowId rest ledger)
    (fits : (ledger.flowPool packet.pipe).card ≤ heapSize) (sound : ledger.Sound)
    (port : packet.devPort.toNat < maxDevPortId) :
    Exec.Returns (addFlowToDataplane env db (env.record packet) flowId uuid accepted)
      fun result => result.1.Valid env ∧ db.EgressKept result.1 ∧
        Ledger.AddFlow env packet accepted ledger result.1.ledger result.2 := by
  have sessions : db.ledger.sessions = ledger.sessions := by
    rw [placed]
    rfl
  have pool : db.ledger.sessionPool = ledger.sessionPool := by
    rw [placed]
    rfl
  have port' : (env.record packet).devPort.toNat < maxDevPortId := port
  unfold addFlowToDataplane
  apply (addFlowSession_returns valid port' uuid).bind
  intro taken facts
  obtain ⟨sessionId?, after⟩ := taken
  rcases facts with ⟨sessionId, found, taken⟩ | ⟨missing, absent, empty⟩
  · obtain rfl := found
    obtain ⟨ledger', session, placed'⟩ := (placed ▸ taken.session).of_placeFlow
    dsimp only
    split
    · rename_i enqueued
      refine .pure ⟨taken.valid, taken.egress, ?_⟩
      rw [placed']
      exact .placed new enqueued session
    · rename_i full
      have back := refuseFlow_returns taken.valid placed'
        (by rw [session.flowPool_eq]; exact new.takes)
        (by rw [session.flowPool_eq]; exact fits)
        (session.sound (Ledger.pipe_mem port') sound)
      obtain ⟨final, returned, finalValid, same, table⟩ := back
      obtain ⟨pushed, push, rest⟩ := Exec.bind_eq_pure.mp returned
      obtain ⟨removed, remove, final'⟩ := Exec.bind_eq_pure.mp rest
      rw [Exec.pure_inj] at final'
      rw [push, pure_bind, remove, pure_bind]
      refine .pure ⟨?_, ?_, ?_⟩
      · dsimp only
        rw [final']
        exact finalValid
      · dsimp only
        rw [final']
        intro before injective after
        rw [table]
        refine taken.egress before injective ?_
        rw [same] at after
        rw [placed']
        exact after
      · dsimp only
        rw [final', same]
        exact .refused new (by simpa using full) session
  · obtain ⟨rfl, rfl⟩ := Prod.mk.inj missing
    refine .pure ⟨⟨valid.flowHeap, valid.sessionHeap, valid.flowTable, valid.sessionTable,
      valid.sound⟩, fun before _ _ => before, ?_⟩
    rw [sessions] at absent
    rw [pool] at empty
    have stranded : Ledger.AddFlow env packet accepted ledger _ none :=
      .noSessionId new absent empty
    rw [← placed] at stranded
    exact stranded

theorem addFlow_of_unmapped (unmapped : ¬ env.Mapped packet) :
    addFlow env db packet uuid accepted = pure (db, none) := by
  unfold addFlow
  dsimp only
  rw [if_pos (not_not.mp unmapped)]

theorem addFlow_of_empty (mapped : env.Mapped packet) (empty : db.ledger.flowPool packet.pipe = 0) :
    addFlow env db packet uuid accepted = pure (db, none) := by
  unfold addFlow
  dsimp only
  rw [if_neg mapped, FlowDb.popFlowId_of_empty empty, pure_bind]
  dsimp only
  rw [if_pos rfl]

/-- With a flow id to spare, `add_flow` pops it and looks for the flow. -/
theorem addFlow_of_filled (valid : db.Valid env) (port : packet.devPort.toNat < maxDevPortId)
    (mapped : env.Mapped packet) (filled : db.ledger.flowPool packet.pipe ≠ 0) :
    ∃ (flowId : Int) (heap : HeapQueue), heap.Valid ∧
      Ledger.Takes (db.ledger.flowPool packet.pipe) flowId heap.ids ∧
      ∀ {code : Int} {table : FlowHashtable} (uuid : String) (accepted : Bool),
        flowHashtableAdd env db.flowHashtable (env.record packet) flowId = pure (code, table) →
        addFlow env db packet uuid accepted =
          if code ≠ 0 then
            { db with
              flowIdHeap := Function.update db.flowIdHeap packet.pipe heap
              flowHashtable := table }.pushFlowId packet.pipe flowId >>= fun db => pure (db, none)
          else
            addFlowToDataplane env
              { db with
                flowIdHeap := Function.update db.flowIdHeap packet.pipe heap
                flowHashtable := table } (env.record packet) flowId uuid accepted := by
  obtain ⟨⟨flowId, after⟩, pop, heap, heapValid, takes, rfl⟩ :=
    FlowDb.popFlowId_returns (valid.flowHeap packet.pipe) filled
  refine ⟨flowId, heap, heapValid, takes, fun uuid accepted added => ?_⟩
  have recorded : packet.withEgressOffset (env.devportMapping.egress packet) =
      env.record packet := rfl
  unfold addFlow
  dsimp only
  rw [if_neg mapped, pop, pure_bind]
  dsimp only
  rw [if_neg (valid.sound.flow_ne_zero (Ledger.pipe_mem port) takes), recorded, added, pure_bind]
  rfl

/-- A known flow gives the popped id back. -/
theorem addFlow_of_known (valid : db.Valid env) (port : packet.devPort.toNat < maxDevPortId)
    (mapped : env.Mapped packet) (filled : db.ledger.flowPool packet.pipe ≠ 0)
    {b : FiveTuple × Int} (member : b ∈ db.ledger.flows) (same : b.1.h = packet.h)
    (uuid : String) (accepted : Bool) :
    Exec.Returns (addFlow env db packet uuid accepted) fun result =>
      result.1.Valid env ∧ result.1.ledger = db.ledger ∧
        result.1.flowHashtable = db.flowHashtable ∧
        result.1.sessionHashtable = db.sessionHashtable ∧ result.2 = none := by
  obtain ⟨flowId, heap, heapValid, takes, run⟩ := addFlow_of_filled valid port mapped filled
  have known : b.1.h = (env.record packet).h := same
  rw [run uuid accepted (flowHashtableAdd_of_mem valid.flowTable member known),
    if_pos (by decide)]
  apply (FlowDb.pushFlowId_back valid heapValid takes).bind
  intro final facts
  obtain ⟨finalValid, same', flowTable, sessionTable⟩ := facts
  exact .pure ⟨finalValid, same', flowTable, sessionTable, rfl⟩

/-- A new flow is placed before it gets its session. -/
theorem addFlow_of_new (valid : db.Valid env) (port : packet.devPort.toNat < maxDevPortId)
    (mapped : env.Mapped packet) (filled : db.ledger.flowPool packet.pipe ≠ 0)
    (absent : ∀ b ∈ db.ledger.flows, b.1.h ≠ packet.h) :
    ∃ (flowId : Int) (heap : HeapQueue) (table : FlowHashtable) (placed : FlowDb),
      flowHashtableAdd env db.flowHashtable (env.record packet) flowId = pure (0, table) ∧
      placed = { db with
        flowIdHeap := Function.update db.flowIdHeap packet.pipe heap
        flowHashtable := table } ∧
      placed.Valid env ∧ Ledger.NewFlow env packet flowId heap.ids db.ledger ∧
      placed.ledger = db.ledger.placeFlow (env.record packet) flowId heap.ids ∧
      ∀ uuid accepted, addFlow env db packet uuid accepted =
        addFlowToDataplane env placed (env.record packet) flowId uuid accepted := by
  obtain ⟨flowId, heap, heapValid, takes, run⟩ := addFlow_of_filled valid port mapped filled
  have new : ∀ b ∈ db.ledger.flows, b.1.h ≠ (env.record packet).h := absent
  obtain ⟨⟨code, table⟩, add, rfl, tableValid, bindings⟩ := flowHashtableAdd_of_absent
    valid.flowTable valid.sound.flow_room new
    (valid.sound.flow_fresh (Ledger.pipe_mem port) takes.mem)
  have placed : { db with
      flowIdHeap := Function.update db.flowIdHeap packet.pipe heap
      flowHashtable := table }.ledger =
      db.ledger.placeFlow (env.record packet) flowId heap.ids := by
    unfold FlowDb.ledger Ledger.placeFlow
    dsimp only at bindings ⊢
    rw [ids_update, bindings]
    rfl
  refine ⟨flowId, heap, table, _, add, rfl, ⟨valid_update valid.flowHeap heapValid,
    valid.sessionHeap, tableValid, valid.sessionTable, ?_⟩, ⟨mapped, absent, takes⟩, placed, ?_⟩
  · rw [placed]
    exact valid.sound.placeFlow port takes
  · intro uuid accepted
    rw [run uuid accepted add, if_neg (not_not.mpr rfl)]

/-- `add_flow` takes one of the ledger's exits, and never overflows a pool. -/
theorem addFlow_returns (valid : db.Valid env) (port : packet.devPort.toNat < maxDevPortId)
    (uuid : String) (accepted : Bool) :
    Exec.Returns (addFlow env db packet uuid accepted) fun result =>
      result.1.Valid env ∧ db.EgressKept result.1 ∧
        Ledger.AddFlow env packet accepted db.ledger result.1.ledger result.2 := by
  have nothing : db.EgressKept db := fun before _ _ => before
  by_cases mapped : env.Mapped packet
  · by_cases empty : db.ledger.flowPool packet.pipe = 0
    · rw [addFlow_of_empty mapped empty]
      exact .pure ⟨valid, nothing, .noFlowId mapped empty⟩
    · by_cases live : ∃ b ∈ db.ledger.flows, b.1.h = packet.h
      · obtain ⟨b, member, same⟩ := live
        apply (addFlow_of_known valid port mapped empty member same uuid accepted).mono
        intro result facts
        obtain ⟨finalValid, same', _, table, nothingPut⟩ := facts
        refine ⟨finalValid, ?_, ?_⟩
        · intro before _ _
          rw [table]
          exact before
        · rw [same', nothingPut]
          exact .known mapped empty member same
      · have absent : ∀ b ∈ db.ledger.flows, b.1.h ≠ packet.h :=
          fun b member same => live ⟨b, member, same⟩
        obtain ⟨flowId, heap, table, placed, _, rfl, placedValid, new, ledger, run⟩ :=
          addFlow_of_new valid port mapped empty absent
        rw [run]
        exact addFlowToDataplane_returns placedValid ledger new (valid.fits packet.pipe).1
          valid.sound port
  · rw [addFlow_of_unmapped mapped]
    exact .pure ⟨valid, nothing, .unmapped mapped⟩

end AddFlow

/-! ## Removing a flow -/

section RemoveFlow

variable {env : Env} {db : FlowDb} {packet flow : FiveTuple} {pipe value : Int}
  {b : FiveTuple × Int}

/-- What a removal leaves behind once the flow id is back in a pool. -/
structure FlowReleased (env : Env) (pipe : Int) (b : FiveTuple × Int) (db db' : FlowDb) :
    Prop where
  valid : db'.Valid env
  release : Ledger.ReleaseFlow pipe b db.ledger db'.ledger
  sessionHashtable : db'.sessionHashtable = db.sessionHashtable

/-- The push of the flow id, after the flow was taken out of its table. -/
theorem pushFlowId_released (valid : db.Valid env) (inside : pipe ∈ Ledger.pipes)
    {table : FlowHashtable} (tableValid : table.Valid env)
    (bindings : db.flowHashtable.bindings = b ::ₘ table.bindings) :
    Exec.ReturnsUnless .heapOverflow ((db.ledger.flowPool pipe).card = heapSize)
      ({ db with flowHashtable := table }.pushFlowId pipe b.2) (FlowReleased env pipe b db) := by
  have pushed := FlowDb.pushFlowId_returns { db with flowHashtable := table } pipe b.2
    (valid.flowHeap pipe)
  apply pushed.mono
  intro result facts
  obtain ⟨heap, heapValid, ids, rfl⟩ := facts
  have release : Ledger.ReleaseFlow pipe b db.ledger _ := .intro bindings
  have same : { db with
      flowHashtable := table
      flowIdHeap := Function.update db.flowIdHeap pipe heap }.ledger =
      { db.ledger with
        flows := table.bindings
        flowPool :=
          Function.update db.ledger.flowPool pipe (b.2 ::ₘ db.ledger.flowPool pipe) } := by
    unfold FlowDb.ledger
    dsimp only
    rw [ids_update, ids]
    rfl
  rw [← same] at release
  exact ⟨⟨valid_update valid.flowHeap heapValid, valid.sessionHeap, tableValid,
    valid.sessionTable, release.sound inside valid.sound⟩, release, rfl⟩

theorem releaseFlowByFiveTuple_of_mem (valid : db.Valid env)
    (port : packet.devPort.toNat < maxDevPortId) (member : b ∈ db.ledger.flows)
    (same : b.1.h = packet.h) :
    Exec.ReturnsUnless .heapOverflow ((db.ledger.flowPool packet.pipe).card = heapSize)
      (releaseFlowByFiveTuple env db packet) fun result =>
        result.2 = some (packet, b.2) ∧ FlowReleased env packet.pipe b db result.1 := by
  unfold releaseFlowByFiveTuple
  apply (flowHashtableRemove_of_mem valid.flowTable member same).unless.bind id
  intro removed facts
  obtain ⟨removed, table⟩ := removed
  obtain ⟨rfl, tableValid, bindings⟩ := facts
  dsimp only
  apply (pushFlowId_released valid (Ledger.pipe_mem port) tableValid bindings).bind id
  intro db' released
  exact Exec.Returns.unless (.pure ⟨rfl, released⟩)

theorem releaseFlowByFiveTuple_of_absent (valid : db.Valid env)
    (absent : ∀ b ∈ db.ledger.flows, b.1.h ≠ packet.h) :
    releaseFlowByFiveTuple env db packet = pure (db, none) := by
  unfold releaseFlowByFiveTuple
  rw [flowHashtableRemove_of_absent valid.sound.flow_room absent, pure_bind]

theorem releaseFlowByFlowId_of_mem (valid : db.Valid env) (member : b ∈ db.ledger.flows) :
    Exec.ReturnsUnless .heapOverflow ((db.ledger.flowPool b.1.pipe).card = heapSize)
      (releaseFlowByFlowId env db b.2) fun result =>
        result.2 = some b ∧ FlowReleased env b.1.pipe b db result.1 := by
  unfold releaseFlowByFlowId
  apply (flowHashtableRemoveByValue_of_mem valid.flowTable member).unless.bind id
  intro removed facts
  obtain ⟨removed, table⟩ := removed
  obtain ⟨rfl, tableValid, bindings⟩ := facts
  dsimp only
  apply (pushFlowId_released valid (Ledger.pipe_mem (valid.sound.ports b member)) tableValid
    bindings).bind id
  intro db' released
  exact Exec.Returns.unless (.pure ⟨rfl, released⟩)

theorem releaseFlowByFlowId_of_absent (valid : db.Valid env)
    (absent : ∀ b ∈ db.ledger.flows, b.2 ≠ value) :
    releaseFlowByFlowId env db value = pure (db, none) := by
  unfold releaseFlowByFlowId
  rw [flowHashtableRemoveByValue_of_absent valid.flowTable absent, pure_bind]

/-- A cleanup that takes no session away changes nothing but a flow count. -/
theorem sessionCleanup_of_kept (valid : db.Valid env)
    (stays : ∀ session, ¬ db.ledger.Drops env flow value session) :
    sessionCleanupAfterFlowRemove env db flow value =
      pure ({ db with sessionHashtable := db.sessionHashtable.decrease env value }, none) := by
  have unchanged : sessionHashtableRemoveOrDecreaseFlowCount env db.sessionHashtable flow value =
      pure (none, db.sessionHashtable.decrease env value) := by
    by_cases emptied : db.sessionHashtable.Emptied env value
    · refine sessionHashtableRemove_of_absent valid.sound.session_room ?_
      intro session member known
      exact stays session ⟨emptied, member, known⟩
    · exact sessionHashtableRemove_of_not_emptied emptied
  unfold sessionCleanupAfterFlowRemove
  rw [unchanged, pure_bind]

/-- The removal of a session gives its id to the pool of the flow's pipe. -/
theorem sessionCleanup_of_drops (valid : db.Valid env) (port : flow.devPort.toNat < maxDevPortId)
    (drops : db.ledger.Drops env flow value b) :
    Exec.ReturnsUnless .heapOverflow ((db.ledger.sessionPool flow.pipe).card = heapSize)
      (sessionCleanupAfterFlowRemove env db flow value) fun result =>
        result.1.Valid env ∧ db.EgressKept result.1 ∧
          Ledger.Cleanup env flow value db.ledger result.1.ledger result.2 := by
  unfold sessionCleanupAfterFlowRemove
  apply (sessionHashtableRemove_of_mem valid.sessionTable drops.emptied drops.member
    drops.known).unless.bind id
  intro removed facts
  obtain ⟨removed, table⟩ := removed
  obtain ⟨rfl, tableValid, bindings, complete⟩ := facts
  dsimp only
  have pushed := FlowDb.pushSessionId_returns { db with sessionHashtable := table } flow.pipe b.2
    (valid.sessionHeap flow.pipe)
  apply pushed.bind id
  intro pushed facts
  obtain ⟨heap, heapValid, ids, rfl⟩ := facts
  have same : { db with
      sessionHashtable := table
      sessionIdHeap := Function.update db.sessionIdHeap flow.pipe heap }.ledger =
      { db.ledger with
        sessions := table.bindings
        sessionPool := Function.update db.ledger.sessionPool flow.pipe
          (b.2 ::ₘ db.ledger.sessionPool flow.pipe)
        flowCount := table.flowCount } := by
    unfold FlowDb.ledger
    dsimp only
    rw [ids_update, ids]
    rfl
  have cleanup : Ledger.Cleanup env flow value db.ledger { db with
      sessionHashtable := table
      sessionIdHeap := Function.update db.sessionIdHeap flow.pipe heap }.ledger
      (some (.clearRegisters flow b.2)) := by
    rw [same]
    exact .dropped drops bindings
  refine Exec.Returns.unless (.pure ⟨⟨valid.flowHeap, valid_update valid.sessionHeap heapValid,
    valid.flowTable, tableValid, cleanup.sound port valid.sound⟩, ?_, cleanup⟩)
  intro before injective _
  exact complete before injective

/-- `session_cleanup_after_flow_remove` takes one of the ledger's exits, or overflows a
full pool. -/
theorem sessionCleanup_returns (valid : db.Valid env) (port : flow.devPort.toNat < maxDevPortId)
    (value : Int) :
    Exec.ReturnsUnless .heapOverflow
      (∃ session, db.ledger.Drops env flow value session ∧
        (db.ledger.sessionPool flow.pipe).card = heapSize)
      (sessionCleanupAfterFlowRemove env db flow value) fun result =>
        result.1.Valid env ∧ db.EgressKept result.1 ∧
          Ledger.Cleanup env flow value db.ledger result.1.ledger result.2 := by
  by_cases dropped : ∃ session, db.ledger.Drops env flow value session
  · obtain ⟨session, drops⟩ := dropped
    refine (sessionCleanup_of_drops valid port drops).imp id ?_
    intro faulted
    exact ⟨⟨session, drops, faulted.1⟩, faulted.2⟩
  · have stays : ∀ session, ¬ db.ledger.Drops env flow value session :=
      fun session drops => dropped ⟨session, drops⟩
    rw [sessionCleanup_of_kept valid stays]
    have kept : Ledger.Cleanup env flow value db.ledger
        { db.ledger with flowCount := (db.sessionHashtable.decrease env value).flowCount } none :=
      .kept stays
    have same : { db with
        sessionHashtable := db.sessionHashtable.decrease env value }.ledger =
        { db.ledger with flowCount := (db.sessionHashtable.decrease env value).flowCount } := by
      unfold FlowDb.ledger
      dsimp only
      rw [SessionHashtable.decrease_bindings]
    rw [← same] at kept
    refine Exec.Returns.unless (.pure ⟨⟨valid.flowHeap, valid.sessionHeap, valid.flowTable,
      valid.sessionTable.decrease value, kept.sound port valid.sound⟩, ?_, kept⟩)
    intro before _ _ b member
    rw [SessionHashtable.decrease_bindings] at member
    dsimp only
    rw [SessionHashtable.decrease_egress]
    exact before b member

/-- Both removals after the flow id is back in a pool. -/
theorem finishRemoval_returns {input : FlowInput} {released : FlowDb}
    (removes : db.ledger.Removes input.command flow b)
    (port : flow.devPort.toNat < maxDevPortId) (half : FlowReleased env flow.pipe b db released) :
    Exec.ReturnsUnless .heapOverflow (db.ledger.Overflows env input)
      (finishRemoval env input.sessionId (released, some (flow, b.2))) fun result =>
        result.1.Valid env ∧ db.EgressKept result.1 ∧
          Ledger.Step env input db.ledger result.1.ledger result.2 := by
  obtain ⟨valid, release, table⟩ := half
  obtain ⟨sessions, pool, _⟩ := release.frame
  simp only [finishRemoval]
  apply (sessionCleanup_returns valid port input.sessionId).bind
  · intro overflow
    obtain ⟨session, drops, full⟩ := overflow
    rw [pool] at full
    exact .session removes (release.drops_iff.mp drops) full
  · intro cleaned facts
    obtain ⟨cleanedValid, kept, cleanup⟩ := facts
    refine Exec.Returns.unless (.pure ⟨cleanedValid, ?_, .remove removes release cleanup⟩)
    intro before injective after
    refine kept ?_ ?_ after
    · rw [table]
      exact before
    · rw [sessions]
      exact injective

/-- A command takes one of the ledger's exits, or overflows a full pool. -/
theorem flowdbCommand_returns (valid : db.Valid env) (input : FlowInput) :
    Exec.ReturnsUnless .heapOverflow (db.ledger.Overflows env input)
      (flowdbCommand env db input) fun result =>
        result.1.Valid env ∧ db.EgressKept result.1 ∧
          Ledger.Step env input db.ledger result.1.ledger result.2 := by
  have nothing : db.EgressKept db := fun before _ _ => before
  have inside := input.command_valid
  unfold flowdbCommand
  split
  · rename_i packet command
    rw [command] at inside
    apply (addFlow_returns valid inside input.uuid input.accepted).unless.bind id
    intro result facts
    obtain ⟨after, kept, adds⟩ := facts
    exact Exec.Returns.unless (.pure ⟨after, kept, .add command adds⟩)
  · rename_i packet command
    rw [command] at inside
    unfold removeFlowByFiveTuple
    by_cases live : ∃ b ∈ db.ledger.flows, b.1.h = packet.h
    · obtain ⟨b, member, same⟩ := live
      have removes : db.ledger.Removes input.command packet b := by
        rw [command]
        exact .byFiveTuple member same
      apply (releaseFlowByFiveTuple_of_mem valid inside member same).bind (.flow removes)
      intro half facts
      obtain ⟨half, found⟩ := half
      obtain ⟨rfl, released⟩ := facts
      exact finishRemoval_returns removes inside released
    · have absent : ∀ b ∈ db.ledger.flows, b.1.h ≠ packet.h :=
        fun b member same => live ⟨b, member, same⟩
      rw [releaseFlowByFiveTuple_of_absent valid absent, pure_bind]
      refine Exec.Returns.unless (.pure ⟨valid, nothing, .missed (by simp [command]) ?_⟩)
      intro flow b removes
      rw [command] at removes
      cases removes with
      | byFiveTuple member same => exact absent b member same
  · rename_i flowId command
    unfold removeFlowByFlowId
    by_cases live : ∃ b ∈ db.ledger.flows, b.2 = flowId
    · obtain ⟨b, member, rfl⟩ := live
      have removes : db.ledger.Removes input.command b.1 b := by
        rw [command]
        exact .byFlowId member
      apply (releaseFlowByFlowId_of_mem valid member).bind (.flow removes)
      intro half facts
      obtain ⟨half, found⟩ := half
      obtain ⟨rfl, released⟩ := facts
      exact finishRemoval_returns removes (valid.sound.ports b member) released
    · have absent : ∀ b ∈ db.ledger.flows, b.2 ≠ flowId :=
        fun b member same => live ⟨b, member, same⟩
      rw [releaseFlowByFlowId_of_absent valid absent, pure_bind]
      refine Exec.Returns.unless (.pure ⟨valid, nothing, .missed (by simp [command]) ?_⟩)
      intro flow b removes
      rw [command] at removes
      cases removes with
      | byFlowId member => exact absent b member rfl

end RemoveFlow

end Marina
