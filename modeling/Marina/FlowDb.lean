import Marina.Heap
import Marina.Ledger

/-!
# The flow database

The commands of `controller/flow_db/flow_db.c` over the four pools of free flow ids,
the four pools of free session ids, and the two hash tables. A call of
`dataplane_ringbuffer_put` shows in the result as the command that was handed over;
whether the ring took it is an argument where the code looks at it.
-/

namespace Marina

open Lib (Exec)

structure FlowDb where
  flowIdHeap : Int → HeapQueue
  sessionIdHeap : Int → HeapQueue
  flowHashtable : FlowHashtable
  sessionHashtable : SessionHashtable
  uuidMapping : Int → String

namespace FlowDb

def popFlowId (db : FlowDb) (pipe : Int) : Outcome (Int × FlowDb) := do
  let (flowId, heap) ← heapPop (db.flowIdHeap pipe)
  pure (flowId, { db with flowIdHeap := Function.update db.flowIdHeap pipe heap })

def pushFlowId (db : FlowDb) (pipe flowId : Int) : Outcome FlowDb := do
  let heap ← heapPush (db.flowIdHeap pipe) flowId
  pure { db with flowIdHeap := Function.update db.flowIdHeap pipe heap }

def popSessionId (db : FlowDb) (pipe : Int) : Outcome (Int × FlowDb) := do
  let (sessionId, heap) ← heapPop (db.sessionIdHeap pipe)
  pure (sessionId, { db with sessionIdHeap := Function.update db.sessionIdHeap pipe heap })

def pushSessionId (db : FlowDb) (pipe sessionId : Int) : Outcome FlowDb := do
  let heap ← heapPush (db.sessionIdHeap pipe) sessionId
  pure { db with sessionIdHeap := Function.update db.sessionIdHeap pipe heap }

end FlowDb

/-- The call of `session_hashtable_add_or_increase_flow_count` in `add_flow`. -/
def FlowDb.addSession (env : Env) (db : FlowDb) (fiveTuple : FiveTuple) (sessionId : Int) :
    Outcome FlowDb := do
  let (_, table) ←
    sessionHashtableAddOrIncreaseFlowCount env db.sessionHashtable fiveTuple sessionId
  pure { db with sessionHashtable := table }

/-- The part of `add_flow` that gives a new flow its session: `none` when a new session
is needed and its pipe has no free id, where the unused uuid is written all the same. -/
def addFlowSession (env : Env) (db : FlowDb) (fiveTuple : FiveTuple) (uuid : String) :
    Outcome (Option Int × FlowDb) := do
  match ← sessionHashtableGet env db.sessionHashtable fiveTuple with
  | some sessionId => do
      let db ← db.addSession env fiveTuple sessionId
      pure (some sessionId, db)
  | none => do
      let (sessionId, db) ← db.popSessionId fiveTuple.pipe
      let db := { db with uuidMapping := Function.update db.uuidMapping sessionId uuid }
      if sessionId = 0 then
        pure (none, db)
      else do
        let db ← db.addSession env fiveTuple sessionId
        pure (some sessionId, db)

/-- The part of `add_flow` after the flow was entered in its table. -/
def addFlowToDataplane (env : Env) (db : FlowDb) (fiveTuple : FiveTuple) (flowId : Int)
    (uuid : String) (accepted : Bool) : Outcome (FlowDb × Option DataplaneCommand) := do
  match ← addFlowSession env db fiveTuple uuid with
  | (none, db) => pure (db, none)
  | (some sessionId, db) =>
      if accepted then
        pure (db, some (.addFlow fiveTuple flowId sessionId))
      else do
        let db ← db.pushFlowId fiveTuple.pipe flowId
        let (_, table) ← flowHashtableRemoveByValue env db.flowHashtable flowId
        pure ({ db with flowHashtable := table }, some (.addFlow fiveTuple flowId sessionId))

/-- `add_flow`, with the command it handed to the ring; `uuid` is the random one and
`accepted` the answer of the ring. -/
def addFlow (env : Env) (db : FlowDb) (fiveTuple : FiveTuple) (uuid : String) (accepted : Bool) :
    Outcome (FlowDb × Option DataplaneCommand) :=
  let egressPort := env.devportMapping.egress fiveTuple
  if egressPort = -1 then
    pure (db, none)
  else do
    let (flowId, db) ← db.popFlowId fiveTuple.pipe
    if flowId = 0 then
      pure (db, none)
    else do
      let fiveTuple := fiveTuple.withEgressOffset egressPort
      let (code, table) ← flowHashtableAdd env db.flowHashtable fiveTuple flowId
      let db := { db with flowHashtable := table }
      if code ≠ 0 then do
        let db ← db.pushFlowId fiveTuple.pipe flowId
        pure (db, none)
      else
        addFlowToDataplane env db fiveTuple flowId uuid accepted

/-- `session_cleanup_after_flow_remove`, where `sessionId` is what its uninitialised
variable holds. -/
def sessionCleanupAfterFlowRemove (env : Env) (db : FlowDb) (fiveTuple : FiveTuple)
    (sessionId : Int) : Outcome (FlowDb × Option DataplaneCommand) := do
  let (removed, table) ←
    sessionHashtableRemoveOrDecreaseFlowCount env db.sessionHashtable fiveTuple sessionId
  let db := { db with sessionHashtable := table }
  match removed with
  | none => pure (db, none)
  | some sessionId => do
      let db ← db.pushSessionId fiveTuple.pipe sessionId
      pure (db, some (.clearRegisters fiveTuple sessionId))

/-- `remove_flow_by_five_tuple` before its call of `dataplane_ringbuffer_put`: the
five-tuple and the flow id that it goes on with, and `none` for an unknown flow. -/
def releaseFlowByFiveTuple (env : Env) (db : FlowDb) (fiveTuple : FiveTuple) :
    Outcome (FlowDb × Option (FiveTuple × Int)) := do
  let (removed, table) ← flowHashtableRemove env db.flowHashtable fiveTuple
  let db := { db with flowHashtable := table }
  match removed with
  | none => pure (db, none)
  | some flowId => do
      let db ← db.pushFlowId fiveTuple.pipe flowId
      pure (db, some (fiveTuple, flowId))

/-- `remove_flow_by_flow_id` before its call of `dataplane_ringbuffer_ensure_put`: the
five-tuple and the flow id that it goes on with, and `none` for an unknown flow. -/
def releaseFlowByFlowId (env : Env) (db : FlowDb) (flowId : Int) :
    Outcome (FlowDb × Option (FiveTuple × Int)) := do
  let (removed, table) ← flowHashtableRemoveByValue env db.flowHashtable flowId
  let db := { db with flowHashtable := table }
  match removed with
  | none => pure (db, none)
  | some fiveTuple => do
      let db ← db.pushFlowId fiveTuple.pipe flowId
      pure (db, some (fiveTuple, flowId))

/-- What both removals do after the flow has left its table: hand `DP_REMOVE_FLOW` to
the ring, whose answer neither looks at, and clean up the session. -/
def finishRemoval (env : Env) (sessionId : Int) :
    FlowDb × Option (FiveTuple × Int) → Outcome (FlowDb × List DataplaneCommand)
  | (db, none) => pure (db, [])
  | (db, some (fiveTuple, flowId)) => do
      let (db, put) ← sessionCleanupAfterFlowRemove env db fiveTuple sessionId
      pure (db, .removeFlow fiveTuple flowId :: put.toList)

/-- `remove_flow_by_five_tuple`, with the commands it handed to the ring. -/
def removeFlowByFiveTuple (env : Env) (db : FlowDb) (fiveTuple : FiveTuple) (sessionId : Int) :
    Outcome (FlowDb × List DataplaneCommand) := do
  finishRemoval env sessionId (← releaseFlowByFiveTuple env db fiveTuple)

/-- `remove_flow_by_flow_id`, with the commands it handed to the ring. -/
def removeFlowByFlowId (env : Env) (db : FlowDb) (flowId sessionId : Int) :
    Outcome (FlowDb × List DataplaneCommand) := do
  finishRemoval env sessionId (← releaseFlowByFlowId env db flowId)

/-- The `switch` of the command loop of `flowdb_thread`, for the commands that concern
flows, with the commands handed to the ring. -/
def flowdbCommand (env : Env) (db : FlowDb) (input : FlowInput) :
    Outcome (FlowDb × List DataplaneCommand) :=
  match input.command with
  | .addFlow fiveTuple => do
      let (db, put) ← addFlow env db fiveTuple input.uuid input.accepted
      pure (db, put.toList)
  | .removeFlow fiveTuple => removeFlowByFiveTuple env db fiveTuple input.sessionId
  | .timeoutFlow flowId => removeFlowByFlowId env db flowId input.sessionId

/-! ## The initial state -/

/-- The globals after `flow_hashtable_init` and `session_hashtable_init`. -/
def FlowDb.zero : FlowDb where
  flowIdHeap _ := ⟨0, fun _ => 0⟩
  sessionIdHeap _ := ⟨0, fun _ => 0⟩
  flowHashtable := flowHashtableInit
  sessionHashtable := sessionHashtableInit
  uuidMapping _ := ""

/-- A pool filled with the ids of a pipe, before `heap_build`. -/
def HeapQueue.fill (heap : HeapQueue) (pipe : Nat) : HeapQueue :=
  { heap with
    data := fun index => if index < heapSize then ((index : Int) + 1) * 4 + pipe
      else heap.data index }

/-- One round of the loop that `flowdb_thread` starts with. -/
def flowdbInitPipe (db : FlowDb) (pipe : Nat) : Outcome FlowDb := do
  let flowHeap ← heapBuild ((db.flowIdHeap pipe).fill pipe) heapSize
  let sessionHeap ← heapBuild ((db.sessionIdHeap pipe).fill pipe) heapSize
  pure { db with
    flowIdHeap := Function.update db.flowIdHeap pipe flowHeap
    sessionIdHeap := Function.update db.sessionIdHeap pipe sessionHeap }

/-- `flowdb_thread` before its command loop. -/
def flowdbInit : Outcome FlowDb :=
  (List.range numPipes).foldlM flowdbInitPipe FlowDb.zero

end Marina
