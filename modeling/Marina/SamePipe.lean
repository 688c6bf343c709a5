import Marina.Residency

/-!
# Runs in which a flow keeps to one pipe

When all commands with the same key `h` come from ports of one pipe, and sessions are
not in use, every id goes back to the pool it came from, whatever the ring refuses. A
run of this kind overflows no pool, and its live sessions reside on the pipe that their
five-tuple was recorded with.
-/

namespace Marina

open Lib (Exec)

/-- The five-tuple a command carries. -/
def FlowCommand.fiveTuple? : FlowCommand → Option FiveTuple
  | .addFlow fiveTuple => some fiveTuple
  | .removeFlow fiveTuple => some fiveTuple
  | .timeoutFlow _ => none

/-- All commands with the same key carry ports of the same pipe. -/
def SamePipe (commands : List FlowCommand) : Prop :=
  ∀ first ∈ commands, ∀ second ∈ commands, ∀ a b, first.fiveTuple? = some a →
    second.fiveTuple? = some b → a.h = b.h → a.pipe = b.pipe

/-- The command's five-tuple comes from the pipe that `pipeOf` gives its key. -/
def FlowCommand.KeepsTo (pipeOf : FiveTupleForHash → Int) (command : FlowCommand) : Prop :=
  ∀ fiveTuple, command.fiveTuple? = some fiveTuple → fiveTuple.pipe = pipeOf fiveTuple.h

theorem SamePipe.exists_pipeOf {commands : List FlowCommand} (same : SamePipe commands) :
    ∃ pipeOf : FiveTupleForHash → Int, ∀ command ∈ commands, command.KeepsTo pipeOf := by
  classical
  refine ⟨fun h => if carried : ∃ command ∈ commands, ∃ a, command.fiveTuple? = some a ∧ a.h = h
    then carried.choose_spec.2.choose.pipe else 0, ?_⟩
  intro command member fiveTuple carries
  have carried : ∃ command ∈ commands, ∃ a, command.fiveTuple? = some a ∧ a.h = fiveTuple.h :=
    ⟨command, member, fiveTuple, carries, rfl⟩
  dsimp only
  rw [dif_pos carried]
  obtain ⟨carries', key⟩ := carried.choose_spec.2.choose_spec
  exact same command member _ carried.choose_spec.1 _ _ carries carries' key.symm

/-- The five-tuple was recorded by `add_flow` for a forwarded port that exists. -/
def Env.Recorded (env : Env) (fiveTuple : FiveTuple) : Prop :=
  ∃ packet, env.Mapped packet ∧ packet.devPort.toNat < maxDevPortId ∧
    fiveTuple = env.record packet

/-- Ids reside on the pipe of their five-tuple, which is the pipe of its key. -/
structure Ledger.Homed (env : Env) (pipeOf : FiveTupleForHash → Int) (ledger : Ledger) :
    Prop where
  resident : ledger.Resident
  flows : ∀ b ∈ ledger.flows, b.1.pipe = pipeOf b.1.h
  sessions : ∀ b ∈ ledger.sessions,
    env.Recorded b.1 ∧ flowIdToPipe b.2 = b.1.pipe ∧ b.1.pipe = pipeOf b.1.h

namespace Ledger

variable {env : Env} {pipeOf : FiveTupleForHash → Int} {input : FlowInput}
  {packet flow : FiveTuple} {accepted : Bool} {pipe value : Int} {ledger ledger' : Ledger}
  {b : FiveTuple × Int} {put : Option DataplaneCommand} {puts : List DataplaneCommand}

theorem initial_homed : initial.Homed env pipeOf where
  resident := initial_resident
  flows b member := absurd member (Multiset.notMem_zero b)
  sessions b member := absurd member (Multiset.notMem_zero b)

theorem TakeSession.homed {sessionId : Int} (recorded : env.Recorded flow)
    (key : flow.pipe = pipeOf flow.h)
    (session : TakeSession env flow sessionId ledger ledger') (homed : ledger.Homed env pipeOf) :
    ledger'.Homed env pipeOf := by
  have resident := session.resident homed.resident
  cases session with
  | join member known => exact ⟨resident, homed.flows, homed.sessions⟩
  | create absent takes count =>
      refine ⟨resident, homed.flows, ?_⟩
      intro b member
      rcases Multiset.mem_cons.mp member with rfl | member
      · exact ⟨recorded, homed.resident.sessionPool _ _ takes.mem, key⟩
      · exact homed.sessions b member

theorem Homed.placeFlow {flowId : Int} {rest : Multiset Int} (homed : ledger.Homed env pipeOf)
    (key : flow.pipe = pipeOf flow.h) (takes : Takes (ledger.flowPool flow.pipe) flowId rest) :
    (ledger.placeFlow flow flowId rest).Homed env pipeOf := by
  refine ⟨homed.resident.placeFlow takes, ?_, homed.sessions⟩
  intro b member
  rcases Multiset.mem_cons.mp member with rfl | member
  · exact key
  · exact homed.flows b member

theorem AddFlow.homed (port : packet.devPort.toNat < maxDevPortId)
    (key : packet.pipe = pipeOf packet.h)
    (step : AddFlow env packet accepted ledger ledger' put) (homed : ledger.Homed env pipeOf) :
    ledger'.Homed env pipeOf := by
  have key' : (env.record packet).pipe = pipeOf (env.record packet).h := key
  cases step with
  | unmapped _ => exact homed
  | noFlowId _ _ => exact homed
  | known _ _ _ _ => exact homed
  | noSessionId new _ _ => exact homed.placeFlow key' new.takes
  | placed new _ session =>
      apply (session.homed ⟨packet, new.mapped, port, rfl⟩ key' homed).placeFlow key'
      rw [session.flowPool_eq]
      exact new.takes
  | refused new _ session => exact session.homed ⟨packet, new.mapped, port, rfl⟩ key' homed

theorem ReleaseFlow.homed (step : ReleaseFlow pipe b ledger ledger')
    (homed : ledger.Homed env pipeOf) (home : flowIdToPipe b.2 = pipe) :
    ledger'.Homed env pipeOf := by
  have resident := step.resident homed.resident home
  cases step with
  | intro held =>
      refine ⟨resident, fun b member => homed.flows b ?_, homed.sessions⟩
      rw [held]
      exact Multiset.mem_cons_of_mem member

theorem Cleanup.homed (step : Cleanup env flow value ledger ledger' put)
    (homed : ledger.Homed env pipeOf)
    (home : ∀ session, ledger.Drops env flow value session →
      flowIdToPipe session.2 = flow.pipe) : ledger'.Homed env pipeOf := by
  have resident := step.resident homed.resident home
  cases step with
  | kept _ => exact ⟨resident, homed.flows, homed.sessions⟩
  | dropped drops held =>
      refine ⟨resident, homed.flows, fun b member => homed.sessions b ?_⟩
      rw [held]
      exact Multiset.mem_cons_of_mem member

/-- The five-tuple that a removal goes by has the key of the flow and lies on its pipe. -/
theorem Removes.keepsTo {command : FlowCommand} (keeps : command.KeepsTo pipeOf)
    (homed : ledger.Homed env pipeOf) (removes : ledger.Removes command flow b) :
    flow.h = b.1.h ∧ flow.pipe = pipeOf flow.h := by
  cases removes with
  | byFiveTuple _ same => exact ⟨same.symm, keeps _ rfl⟩
  | byFlowId member => exact ⟨rfl, homed.flows _ member⟩

/-- Without sessions, every id goes back to the pool it came from. -/
theorem Homed.releasesHome (noSessions : env.useSessions = false)
    (keeps : input.command.KeepsTo pipeOf) (homed : ledger.Homed env pipeOf) :
    ledger.ReleasesHome env input := by
  intro flow b removes
  obtain ⟨key, pipe⟩ := removes.keepsTo keeps homed
  refine ⟨?_, ?_⟩
  · rw [homed.resident.flows b removes.member, homed.flows b removes.member, pipe, key]
  · intro session drops
    obtain ⟨_, home, sessionPipe⟩ := homed.sessions session drops.member
    have known := drops.known
    simp only [sessionKey, noSessions, Bool.false_eq_true, if_false] at known
    rw [home, sessionPipe, pipe, Sum.inr.inj known]

theorem Step.homed (noSessions : env.useSessions = false)
    (keeps : input.command.KeepsTo pipeOf) (step : Step env input ledger ledger' puts)
    (homed : ledger.Homed env pipeOf) : ledger'.Homed env pipeOf := by
  have home := homed.releasesHome noSessions keeps
  have valid := input.command_valid
  cases step with
  | add command adds =>
      rw [command] at keeps valid
      exact adds.homed valid (keeps _ rfl) homed
  | missed _ _ => exact homed
  | remove removes release cleanup =>
      obtain ⟨flowHome, sessionHome⟩ := home _ _ removes
      refine cleanup.homed (release.homed homed flowHome) ?_
      intro session drops
      exact sessionHome session (release.drops_iff.mp drops)

end Ledger

/-- Without sessions, a command that keeps to its pipe returns to such a state again. -/
theorem flowdbStep_homed {env : Env} {pipeOf : FiveTupleForHash → Int} {db : FlowDb}
    {input : FlowInput} (noSessions : env.useSessions = false) (valid : db.Valid env)
    (homed : db.ledger.Homed env pipeOf) (keeps : input.command.KeepsTo pipeOf) :
    Exec.Returns (flowdbStep env db input) fun db' =>
      db'.Valid env ∧ db'.ledger.Homed env pipeOf ∧ db.EgressKept db' := by
  apply (flowdbStep_resident valid homed.resident (homed.releasesHome noSessions keeps)).mono
  intro db' facts
  obtain ⟨after, _, kept, puts, step⟩ := facts
  exact ⟨after, step.homed noSessions keeps homed, kept⟩

end Marina
