import Marina.FlowRuns
import Marina.Lib.Marks

/-!
# Sessions and their uuids

`add_flow` gives a new session an entry in `uuid_mapping`, and nothing ever takes it back:
an export copies the whole array, and reads the entries of the sessions that are live then.
`FlowDb.DrawsUuid` says what one command does to the array, so that the entries are marks of
the live sessions. `uuid_mapping_identifies_sessions` follows for every run in which the uuids
are different: what two exports call by one uuid is one session, that lived all the time
between them.
-/

namespace Marina

open Lib (Exec)
open Lib.Exec (bind_eq_pure pure_inj)

/-- What a command does to the uuids of the live sessions. -/
inductive FlowDb.DrawsUuid (uuid : String) (db db' : FlowDb) : Prop
  | kept {gone : Multiset (FiveTuple × Int)}
      (sessions : db.ledger.sessions = gone + db'.ledger.sessions)
      (uuids : ∀ b ∈ db.ledger.sessions, db'.uuidMapping b.2 = db.uuidMapping b.2)
  | drawn {flow : FiveTuple} {sessionId : Int} (free : ∀ b ∈ db.ledger.sessions, b.2 ≠ sessionId)
      (sessions : db'.ledger.sessions = (flow, sessionId) ::ₘ db.ledger.sessions)
      (uuids : db'.uuidMapping = Function.update db.uuidMapping sessionId uuid)

def FlowDb.HasSession (db : FlowDb) (session : FiveTuple × Int) : Prop :=
  session ∈ db.ledger.sessions

/-- The uuid that an export finds for a session. -/
def FlowDb.uuid (db : FlowDb) (session : FiveTuple × Int) : String :=
  db.uuidMapping session.2

/-- The session table and the uuids are left alone. -/
structure FlowDb.KeepsSessions (db db' : FlowDb) : Prop where
  sessionHashtable : db'.sessionHashtable = db.sessionHashtable
  uuidMapping : db'.uuidMapping = db.uuidMapping

section Commands

variable {env : Env} {db db' middle : FlowDb} {flow packet : FiveTuple} {uuid : String}
  {accepted : Bool} {pipe id value : Int} {input : FlowInput}

theorem FlowDb.KeepsSessions.sessions (keeps : db.KeepsSessions db') :
    db'.ledger.sessions = db.ledger.sessions :=
  congrArg SessionHashtable.bindings keeps.sessionHashtable

/-- The live sessions stay, and so do their uuids. -/
theorem FlowDb.DrawsUuid.of_eq (sessions : db'.ledger.sessions = db.ledger.sessions)
    (uuids : ∀ b ∈ db.ledger.sessions, db'.uuidMapping b.2 = db.uuidMapping b.2) :
    db.DrawsUuid uuid db' := by
  have none_gone : db.ledger.sessions = 0 + db'.ledger.sessions := by rw [zero_add, sessions]
  exact .kept none_gone uuids

theorem FlowDb.KeepsSessions.draws (keeps : db.KeepsSessions db') : db.DrawsUuid uuid db' :=
  .of_eq keeps.sessions fun b _ => congrFun keeps.uuidMapping b.2

theorem FlowDb.KeepsSessions.draws_before (keeps : db.KeepsSessions middle)
    (draws : middle.DrawsUuid uuid db') : db.DrawsUuid uuid db' := by
  cases draws with
  | kept fewer uuids =>
      rw [keeps.sessions] at fewer uuids
      exact .kept fewer fun b member => (uuids b member).trans (congrFun keeps.uuidMapping b.2)
  | drawn free new uuids =>
      rw [keeps.sessions] at free new
      rw [keeps.uuidMapping] at uuids
      exact .drawn free new uuids

theorem FlowDb.KeepsSessions.draws_after (keeps : middle.KeepsSessions db')
    (draws : db.DrawsUuid uuid middle) : db.DrawsUuid uuid db' := by
  cases draws with
  | kept fewer uuids =>
      rw [← keeps.sessions] at fewer
      exact .kept fewer fun b member => (congrFun keeps.uuidMapping b.2).trans (uuids b member)
  | drawn free new uuids =>
      exact .drawn free (keeps.sessions.trans new) (keeps.uuidMapping.trans uuids)

/-- A flow id that goes back does not touch the sessions. -/
theorem FlowDb.KeepsSessions.push (keeps : db.KeepsSessions middle)
    (push : middle.pushFlowId pipe id = pure db') : db.KeepsSessions db' := by
  simp only [FlowDb.pushFlowId, bind_eq_pure, pure_inj] at push
  rcases push with ⟨heap, _, rfl⟩
  exact ⟨keeps.sessionHashtable, keeps.uuidMapping⟩

/-- A flow that joins a session leaves the uuids alone, a new session gets the uuid, and
without a free id the uuid goes to the entry of no session. -/
theorem addFlowSession_draws (valid : db.Valid env) (port : flow.devPort.toNat < maxDevPortId)
    (uuid : String) :
    Exec.Returns (addFlowSession env db flow uuid) fun result => db.DrawsUuid uuid result.2 := by
  have room := valid.sound.session_room
  have inside := Ledger.pipe_mem port
  by_cases live : ∃ b ∈ db.ledger.sessions, sessionKey env b.1 = sessionKey env flow
  · rcases live with ⟨b, member, known⟩
    rw [addFlowSession_of_mem valid member known]
    exact .pure (.of_eq SessionHashtable.increase_bindings fun _ _ => rfl)
  · have absent : ∀ b ∈ db.ledger.sessions, sessionKey env b.1 ≠ sessionKey env flow :=
      fun b member known => live ⟨b, member, known⟩
    by_cases empty : db.ledger.sessionPool flow.pipe = 0
    · rw [addFlowSession_of_empty valid absent empty]
      refine .pure (.of_eq rfl fun b member => Function.update_of_ne ?_ uuid db.uuidMapping)
      have real := valid.sound.session_id member
      simp only [Ledger.ids, minSessionId, Finset.mem_Ico] at real
      omega
    · unfold addFlowSession FlowDb.addSession
      rw [sessionHashtableGet_of_absent room absent, pure_bind]
      dsimp only
      apply (FlowDb.popSessionId_returns (valid.sessionHeap flow.pipe) empty).bind
      rintro ⟨sessionId, popped⟩ ⟨heap, _, takes, rfl⟩
      have free := valid.sound.session_fresh inside takes.mem
      rw [if_neg (valid.sound.session_ne_zero inside takes)]
      have added := sessionHashtableAdd_of_absent valid.sessionTable room absent free
      rcases added with ⟨⟨code, table⟩, add, _, _, bindings, _⟩
      dsimp only
      rw [add]
      simp only [pure_bind]
      exact .pure (.drawn free bindings rfl)

theorem addFlowToDataplane_draws (valid : db.Valid env)
    (port : flow.devPort.toNat < maxDevPortId) {put : Option DataplaneCommand}
    (run : addFlowToDataplane env db flow id uuid accepted = pure (db', put)) :
    db.DrawsUuid uuid db' := by
  rcases addFlowSession_draws valid port uuid with ⟨⟨sessionId, taken⟩, session, draws⟩
  unfold addFlowToDataplane at run
  rw [session, pure_bind] at run
  cases sessionId with
  | none =>
      simp only [pure_inj, Prod.mk.injEq] at run
      rcases run with ⟨rfl, _⟩
      exact draws
  | some sessionId =>
      cases accepted with
      | true =>
          simp only [if_true, pure_inj, Prod.mk.injEq] at run
          rcases run with ⟨rfl, _⟩
          exact draws
      | false =>
          simp only [Bool.false_eq_true, if_false, bind_eq_pure, pure_inj, Prod.mk.injEq] at run
          rcases run with ⟨pushed, push, removed, _, rfl, _⟩
          have pushes := FlowDb.KeepsSessions.push ⟨rfl, rfl⟩ push
          have keeps : taken.KeepsSessions { pushed with flowHashtable := removed.2 } :=
            ⟨pushes.sessionHashtable, pushes.uuidMapping⟩
          exact keeps.draws_after draws

theorem addFlow_draws (valid : db.Valid env) (port : packet.devPort.toNat < maxDevPortId)
    {put : Option DataplaneCommand} (run : addFlow env db packet uuid accepted = pure (db', put)) :
    db.DrawsUuid uuid db' := by
  have same : db.KeepsSessions db := ⟨rfl, rfl⟩
  by_cases mapped : env.Mapped packet
  · by_cases empty : db.ledger.flowPool packet.pipe = 0
    · rw [addFlow_of_empty mapped empty, pure_inj, Prod.mk.injEq] at run
      exact run.1 ▸ same.draws
    · rcases addFlow_of_filled valid port mapped empty with ⟨flowId, heap, _, _, onward⟩
      by_cases live : ∃ b ∈ db.ledger.flows, b.1.h = packet.h
      · rcases live with ⟨b, member, known⟩
        have known : b.1.h = (env.record packet).h := known
        rw [onward uuid accepted (flowHashtableAdd_of_mem valid.flowTable member known),
          if_pos (by simp)] at run
        simp only [bind_eq_pure, pure_inj, Prod.mk.injEq] at run
        rcases run with ⟨pushed, push, rfl, _⟩
        have taken : db.KeepsSessions
            { db with flowIdHeap := Function.update db.flowIdHeap packet.pipe heap } := ⟨rfl, rfl⟩
        exact (taken.push push).draws
      · have absent : ∀ b ∈ db.ledger.flows, b.1.h ≠ packet.h :=
          fun b member known => live ⟨b, member, known⟩
        rcases addFlow_of_new valid port mapped empty absent with
          ⟨flowId, heap, table, placed, _, same, placedValid, _, _, onward⟩
        rw [onward] at run
        have port' : (env.record packet).devPort.toNat < maxDevPortId := port
        have draws := addFlowToDataplane_draws placedValid port' run
        have keeps : db.KeepsSessions placed := ⟨by rw [same], by rw [same]⟩
        exact keeps.draws_before draws
  · rw [addFlow_of_unmapped mapped, pure_inj, Prod.mk.injEq] at run
    exact run.1 ▸ same.draws

theorem releaseFlowByFiveTuple_keeps {found : Option (FiveTuple × Int)}
    (run : releaseFlowByFiveTuple env db packet = pure (db', found)) : db.KeepsSessions db' := by
  simp only [releaseFlowByFiveTuple, bind_eq_pure] at run
  rcases run with ⟨⟨removed, table⟩, _, run⟩
  have same : db.KeepsSessions { db with flowHashtable := table } := ⟨rfl, rfl⟩
  cases removed with
  | none =>
      simp only [pure_inj, Prod.mk.injEq] at run
      rcases run with ⟨rfl, _⟩
      exact same
  | some flowId =>
      simp only [bind_eq_pure, pure_inj, Prod.mk.injEq] at run
      rcases run with ⟨pushed, push, rfl, _⟩
      exact same.push push

theorem releaseFlowByFlowId_keeps {found : Option (FiveTuple × Int)}
    (run : releaseFlowByFlowId env db id = pure (db', found)) : db.KeepsSessions db' := by
  simp only [releaseFlowByFlowId, bind_eq_pure] at run
  rcases run with ⟨⟨removed, table⟩, _, run⟩
  have same : db.KeepsSessions { db with flowHashtable := table } := ⟨rfl, rfl⟩
  cases removed with
  | none =>
      simp only [pure_inj, Prod.mk.injEq] at run
      rcases run with ⟨rfl, _⟩
      exact same
  | some fiveTuple =>
      simp only [bind_eq_pure, pure_inj, Prod.mk.injEq] at run
      rcases run with ⟨pushed, push, rfl, _⟩
      exact same.push push

/-- A removal takes no uuid back. -/
theorem finishRemoval_uuids {found : Option (FiveTuple × Int)} {puts : List DataplaneCommand}
    (run : finishRemoval env value (db, found) = pure (db', puts)) :
    db'.uuidMapping = db.uuidMapping := by
  cases found with
  | none =>
      simp only [finishRemoval, pure_inj, Prod.mk.injEq] at run
      rw [← run.1]
  | some flow =>
      simp only [finishRemoval, sessionCleanupAfterFlowRemove, FlowDb.pushSessionId, bind_eq_pure,
        pure_inj, Prod.mk.injEq] at run
      rcases run with ⟨⟨cleaned, put⟩, ⟨⟨removed, table⟩, _, cleanup⟩, rfl, _⟩
      cases removed with
      | none =>
          simp only [pure_inj, Prod.mk.injEq] at cleanup
          rw [← cleanup.1]
      | some sessionId =>
          simp only [bind_eq_pure, pure_inj, Prod.mk.injEq] at cleanup
          rcases cleanup with ⟨pushed, ⟨heap, _, rfl⟩, rfl, _⟩
          rfl

/-- A removal takes at most one session away. -/
theorem Ledger.Step.sessions_gone {ledger ledger' : Ledger} {puts : List DataplaneCommand}
    (step : Ledger.Step env input ledger ledger' puts)
    (command : ∀ packet, input.command ≠ .addFlow packet) :
    ∃ gone, ledger.sessions = gone + ledger'.sessions := by
  cases step with
  | add adds _ => exact absurd adds (command _)
  | missed _ _ => exact ⟨0, (zero_add _).symm⟩
  | remove _ release cleanup =>
      rw [← release.frame.1]
      cases cleanup with
      | kept _ => exact ⟨0, (zero_add _).symm⟩
      | dropped _ held => exact ⟨{_}, held.trans (Multiset.singleton_add _ _).symm⟩

theorem flowdbStep_draws (valid : db.Valid env) (run : flowdbStep env db input = pure db') :
    db.DrawsUuid input.uuid db' := by
  have steps := ((flowdbStep_returns valid input).of_pure run).2.2
  rcases steps with ⟨_, step⟩
  have inside := input.command_valid
  simp only [flowdbStep, flowdbCommand, bind_eq_pure, pure_inj] at run
  rcases run with ⟨⟨final, puts⟩, run, rfl⟩
  cases command : input.command with
  | addFlow packet =>
      rw [command] at inside
      simp only [command, bind_eq_pure, pure_inj, Prod.mk.injEq] at run
      rcases run with ⟨⟨added, put⟩, run, rfl, _⟩
      exact addFlow_draws valid inside run
  | removeFlow packet =>
      rcases step.sessions_gone (by simp [command]) with ⟨gone, fewer⟩
      simp only [command, removeFlowByFiveTuple, bind_eq_pure] at run
      rcases run with ⟨⟨released, found⟩, release, finish⟩
      have uuids := (finishRemoval_uuids finish).trans
        (releaseFlowByFiveTuple_keeps release).uuidMapping
      exact .kept fewer fun b _ => congrFun uuids b.2
  | timeoutFlow flowId =>
      rcases step.sessions_gone (by simp [command]) with ⟨gone, fewer⟩
      simp only [command, removeFlowByFlowId, bind_eq_pure] at run
      rcases run with ⟨⟨released, found⟩, release, finish⟩
      have uuids := (finishRemoval_uuids finish).trans
        (releaseFlowByFlowId_keeps release).uuidMapping
      exact .kept fewer fun b _ => congrFun uuids b.2

/-- The uuids are marks of the live sessions. -/
theorem FlowDb.DrawsUuid.marks (draws : db.DrawsUuid input.uuid db') :
    Lib.Marks FlowDb.HasSession FlowDb.uuid FlowInput.uuid db input db' := by
  cases draws with
  | kept fewer uuids =>
      have old : ∀ b ∈ db'.ledger.sessions, b ∈ db.ledger.sessions := by
        intro b member
        rw [fewer]
        exact Multiset.mem_add.mpr (Or.inr member)
      exact ⟨fun b _ member => uuids b member, fun b here before => absurd (old b here) before,
        fun b _ here before _ _ => absurd (old b here) before⟩
  | drawn free new uuids =>
      rename_i flow sessionId
      have cases : ∀ b ∈ db'.ledger.sessions, b ∉ db.ledger.sessions → b = (flow, sessionId) := by
        intro b here before
        rw [new, Multiset.mem_cons] at here
        exact here.resolve_right before
      refine ⟨?_, ?_, ?_⟩
      · intro b _ member
        simp [FlowDb.uuid, uuids, free b member]
      · intro b here before
        simp [FlowDb.uuid, uuids, cases b here before]
      · intro b c hereB beforeB hereC beforeC
        rw [cases b hereB beforeB, cases c hereC beforeC]

end Commands

/-- In every run in which the uuids are different, at any two times: two live sessions have
the same uuid exactly when they are one session that was live all the time in between. -/
theorem uuid_mapping_identifies_sessions (env : Env) (before between : List FlowInput)
    (distinct : ((before ++ between).map FlowInput.uuid).Nodup) :
    Exec.Returns flowdbInit fun start =>
      ∀ db db', before.foldlM (flowdbStep env) start = pure db →
        between.foldlM (flowdbStep env) db = pure db' →
        ∀ session session', db.HasSession session → db'.HasSession session' →
          (db.uuid session = db'.uuid session' ↔ session = session' ∧
            Lib.AllStates (flowdbStep env) (fun db => db.HasSession session) db between) := by
  apply (flowdbInit_returns env).mono
  rintro start ⟨valid, initial, _⟩ db db' ran ran' session session' here there
  have nothing : ∀ session, ¬ start.HasSession session := by
    intro session live
    rw [FlowDb.HasSession, initial] at live
    exact Multiset.notMem_zero session live
  have keeps : ∀ db input db', db.Valid env → flowdbStep env db input = pure db' →
      db'.Valid env ∧ Lib.Marks FlowDb.HasSession FlowDb.uuid FlowInput.uuid db input db' :=
    fun db input db' valid run =>
      ⟨((flowdbStep_returns valid input).of_pure run).1, (flowdbStep_draws valid run).marks⟩
  exact Lib.marks_identify keeps valid nothing distinct ran ran' here there

/-- The commands of a flow that comes, goes, and comes again. -/
def zeroInput (command : FlowCommand) (valid : command.Valid) (uuid : String) : FlowInput :=
  ⟨command, true, uuid, 0, valid, zero_sessionId_valid⟩

theorem zero_port : FiveTuple.zero.devPort.toNat < maxDevPortId := by decide

def firstTime : FlowInput := zeroInput (.addFlow .zero) zero_port "first"

def leaving : FlowInput := zeroInput (.removeFlow .zero) zero_port "unused"

def secondTime : FlowInput := zeroInput (.addFlow .zero) zero_port "second"

/-- A session that comes again is another one, although it may get the same id. -/
theorem uuid_mapping_identifies_sessions_again :
    Exec.Returns flowdbInit fun start =>
      ∀ db db', [firstTime].foldlM (flowdbStep (.twoPorts false)) start = pure db →
        [leaving, secondTime].foldlM (flowdbStep (.twoPorts false)) db = pure db' →
        ∀ session, db.HasSession session → db'.HasSession session →
          db.uuid session ≠ db'.uuid session := by
  have identifies := uuid_mapping_identifies_sessions (.twoPorts false) [firstTime]
    [leaving, secondTime] (by decide)
  rcases flowdbInit_returns (.twoPorts false) with ⟨start, run, valid, initial, _⟩
  refine ⟨start, run, fun db db' ran ran' session here there same => ?_⟩
  have stays := ((identifies.of_pure run db db' ran ran' session session here there).mp same).2
  -- The first flow is the only one, and its session leaves with it.
  simp only [List.foldlM_cons, List.foldlM_nil, bind_pure] at ran
  rcases (flowdbStep_returns valid firstTime).of_pure ran with ⟨valid', _, _, step⟩
  rcases step.adds rfl with ⟨_, _, adds⟩
  rw [initial] at adds
  rcases adds.placed_of_initial (by decide) zero_port with ⟨flows, sessions, _, _⟩
  rcases stays.2 with ⟨middle, next, later⟩
  rcases (flowdbStep_returns valid' leaving).of_pure next with ⟨_, _, _, step⟩
  have removes : db.ledger.Removes leaving.command .zero
      ((Env.twoPorts false).record .zero, 4) := by
    refine .byFiveTuple ?_ rfl
    rw [flows]
    exact Multiset.mem_singleton_self _
  rcases step.of_removes valid'.keyed valid'.sound removes with
    ⟨released, _, release, cleanup, _⟩
  have left : released.sessions = {((Env.twoPorts false).record .zero, 4)} := by
    rw [release.frame.1, sessions]
    rfl
  have gone : middle.ledger.sessions = 0 := by
    generalize middle.ledger = after at cleanup
    cases cleanup with
    | kept stays =>
        refine absurd ⟨Or.inl rfl, ?_, rfl⟩ (stays ((Env.twoPorts false).record .zero, 4))
        rw [left]
        exact Multiset.mem_singleton_self _
    | dropped _ held => exact ((Multiset.singleton_eq_cons_iff _).mp (left.symm.trans held)).2
  have live := later.head
  rw [FlowDb.HasSession, gone] at live
  exact Multiset.notMem_zero session live

end Marina
