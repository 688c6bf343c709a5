import Marina.SamePipe

/-!
# Where packets are counted and where they are exported

The packets of a flow are counted, for a feature kept on the egress side, in the
register of its session on the pipe they leave on. `print_flow_data` reads the slot of
the session with the offset recorded by the flow that created it. `CountsWhereExported`
says that the two agree for every live flow that the data plane knows of.

They disagree after a flow joins a session whose first flow leaves on another pipe,
after a session got an id of another pipe, and after a session is taken away while a
flow assigned to it is live. These are all cases: `Ledger.SlotsAgree` excludes exactly
them.
-/

namespace Marina

open Lib (Exec)

/-- A flow database, and the session that each live flow was handed to the data plane
with. -/
structure TrackedDb where
  db : FlowDb
  assigned : Int → Option Int

/-- What the commands handed to the ring say about assignments: an accepted
`DP_ADD_FLOW` assigns a flow id, and `DP_REMOVE_FLOW` marks that its flow is gone. -/
def assign (accepted : Bool) (assigned : Int → Option Int) : DataplaneCommand → Int → Option Int
  | .addFlow _ flowId sessionId =>
      if accepted then Function.update assigned flowId (some sessionId) else assigned
  | .removeFlow _ flowId => Function.update assigned flowId none
  | _ => assigned

/-- One command, with its assignments. -/
def trackedStep (env : Env) (tracked : TrackedDb) (input : FlowInput) : Outcome TrackedDb := do
  let (db, puts) ← flowdbCommand env tracked.db input
  pure ⟨db, puts.foldl (assign input.accepted) tracked.assigned⟩

/-- The controller array slot that the packets of a flow increment for an egress
feature: register `r` on pipe `p` is read back at `4 * r + p`. -/
def countedSlot (env : Env) (flow : FiveTuple) (sessionId : Int) : Int :=
  4 * flowIdToRegisterIndex sessionId + devPortToPipe (env.devportMapping.egress flow)

/-- The session a flow is assigned to is live, and is exported from the slot the flow's
packets are counted in. -/
def Ledger.CountsWhereExported (env : Env) (ledger : Ledger) (assigned : Int → Option Int) :
    Prop :=
  ∀ b ∈ ledger.flows, ∀ sessionId, assigned b.2 = some sessionId →
    ∃ session, (session, sessionId) ∈ ledger.sessions ∧
      countedSlot env b.1 sessionId = egressSlot session sessionId

/-- Only live flows are assigned. -/
def Ledger.AssignedLive (ledger : Ledger) (assigned : Int → Option Int) : Prop :=
  ∀ flowId sessionId, assigned flowId = some sessionId → ∃ b ∈ ledger.flows, b.2 = flowId

/-- A new flow that the ring accepts joins a session whose first port is forwarded to the same
pipe as its own, or creates a session under an id of its own pipe. A session that strays, under
an id of another pipe than its own, is joined from ports that are forwarded as far away. -/
structure Ledger.SlotsAgreeOnAdd (env : Env) (ledger : Ledger) (packet : FiveTuple) : Prop where
  joins : ∀ b ∈ ledger.sessions, sessionKey env b.1 = sessionKey env packet →
    flowIdToPipe b.2 = b.1.pipe →
    devPortToPipe (env.devportMapping.egress packet) =
      devPortToPipe (env.devportMapping.egress b.1)
  strays : ∀ b ∈ ledger.sessions, sessionKey env b.1 = sessionKey env packet →
    flowIdToPipe b.2 ≠ b.1.pipe →
    devPortToPipe (env.devportMapping.egress packet) -
      devPortToPipe (env.devportMapping.egress b.1) = flowIdToPipe b.2 - b.1.pipe
  creates : (∀ b ∈ ledger.sessions, sessionKey env b.1 ≠ sessionKey env packet) →
    ∀ sessionId rest, Takes (ledger.sessionPool packet.pipe) sessionId rest →
      flowIdToPipe sessionId = packet.pipe

/-- The command keeps counting and export together. -/
structure Ledger.SlotsAgree (env : Env) (ledger : Ledger) (assigned : Int → Option Int)
    (input : FlowInput) : Prop where
  adds : ∀ packet flowId rest, input.command = .addFlow packet →
    NewFlow env packet flowId rest ledger → input.accepted = true →
    ledger.SlotsAgreeOnAdd env packet
  drops : ∀ flow b session, ledger.Removes input.command flow b →
    ledger.Drops env flow input.sessionId session →
    ∀ other ∈ ledger.flows, other ≠ b → assigned other.2 ≠ some session.2

namespace Ledger

section Steps

variable {env : Env} {input : FlowInput} {packet flow : FiveTuple} {sessionId value : Int}
  {ledger ledger' : Ledger} {assigned : Int → Option Int} {put : Option DataplaneCommand}
  {puts : List DataplaneCommand}

theorem TakeSession.sessions_subset (session : TakeSession env flow sessionId ledger ledger') :
    ∀ b ∈ ledger.sessions, b ∈ ledger'.sessions := by
  intro b member
  cases session with
  | join _ _ => exact member
  | create _ _ _ => exact Multiset.mem_cons_of_mem member

/-- The sessions are those that `add_flow` recorded. -/
def SessionsRecorded (env : Env) (ledger : Ledger) : Prop :=
  ∀ b ∈ ledger.sessions, env.Recorded b.1

theorem AddFlow.sessionsRecorded {accepted : Bool} (port : packet.devPort.toNat < maxDevPortId)
    (recorded : ledger.SessionsRecorded env)
    (step : AddFlow env packet accepted ledger ledger' put) : ledger'.SessionsRecorded env := by
  have taken : ∀ {sessionId : Int} {middle : Ledger}, env.Mapped packet →
      TakeSession env (env.record packet) sessionId ledger middle →
        middle.SessionsRecorded env := by
    intro sessionId middle mapped session
    cases session with
    | join _ _ => exact recorded
    | create _ _ _ =>
        intro b member
        rcases Multiset.mem_cons.mp member with rfl | member
        · exact ⟨packet, mapped, port, rfl⟩
        · exact recorded b member
  cases step with
  | unmapped _ => exact recorded
  | noFlowId _ _ => exact recorded
  | known _ _ _ _ => exact recorded
  | noSessionId _ _ _ => exact recorded
  | placed new _ session =>
      intro b member
      exact taken new.mapped session b member
  | refused new _ session => exact taken new.mapped session

theorem Step.sessionsRecorded (recorded : ledger.SessionsRecorded env)
    (step : Step env input ledger ledger' puts) : ledger'.SessionsRecorded env := by
  cases step with
  | add command adds =>
      have port := input.command_valid
      rw [command] at port
      exact adds.sessionsRecorded port recorded
  | missed _ _ => exact recorded
  | remove _ release cleanup =>
      intro b member
      apply recorded b
      rw [← release.frame.1]
      cases cleanup with
      | kept _ => exact member
      | dropped _ held =>
          rw [held]
          exact Multiset.mem_cons_of_mem member

/-- Where a flow that joins a recorded session is counted where the session is exported. -/
theorem countedSlot_eq_iff {session : FiveTuple} (recorded : env.Recorded session) :
    countedSlot env packet sessionId = egressSlot session sessionId ↔
      devPortToPipe (env.devportMapping.egress packet) -
        devPortToPipe (env.devportMapping.egress session) =
          flowIdToPipe sessionId - session.pipe := by
  obtain ⟨first, mapped, port, rfl⟩ := recorded
  unfold countedSlot egressSlot flowIdToRegisterIndex flowIdToPipe
  rw [env.record_offset mapped port, env.record_egress, env.record_pipe]
  omega

/-- The condition on a flow that joins is that it is counted where the session is exported. -/
theorem SlotsAgreeOnAdd.of_joined {b : FiveTuple × Int} (keyed : ledger.Keyed env)
    (recorded : ledger.SessionsRecorded env) (member : b ∈ ledger.sessions)
    (known : sessionKey env b.1 = sessionKey env packet)
    (same : countedSlot env packet b.2 = egressSlot b.1 b.2) :
    ledger.SlotsAgreeOnAdd env packet := by
  rw [countedSlot_eq_iff (recorded b member)] at same
  refine ⟨?_, ?_, fun absent => absurd known (absent b member)⟩
  · intro c member' known' home
    obtain rfl := keyed.sessions _ member _ member' (known.trans known'.symm)
    omega
  · intro c member' known' _
    obtain rfl := keyed.sessions _ member _ member' (known.trans known'.symm)
    exact same

theorem SlotsAgreeOnAdd.countedSlot_eq {b : FiveTuple × Int}
    (agree : ledger.SlotsAgreeOnAdd env packet) (recorded : ledger.SessionsRecorded env)
    (member : b ∈ ledger.sessions) (known : sessionKey env b.1 = sessionKey env packet) :
    countedSlot env packet b.2 = egressSlot b.1 b.2 := by
  rw [countedSlot_eq_iff (recorded b member)]
  by_cases home : flowIdToPipe b.2 = b.1.pipe
  · have exits := agree.joins b member known home
    omega
  · exact agree.strays b member known home

/-- The session of an accepted flow is exported from the flow's slot. -/
theorem TakeSession.countedSlot_eq (recorded : ledger.SessionsRecorded env)
    (mapped : env.Mapped packet) (port : packet.devPort.toNat < maxDevPortId)
    (agree : ledger.SlotsAgreeOnAdd env packet)
    (session : TakeSession env (env.record packet) sessionId ledger ledger') :
    ∃ exported, (exported, sessionId) ∈ ledger'.sessions ∧
      countedSlot env (env.record packet) sessionId = egressSlot exported sessionId := by
  cases session with
  | @join exported member known =>
      exact ⟨exported, member, agree.countedSlot_eq recorded member known⟩
  | create absent takes _ =>
      refine ⟨env.record packet, Multiset.mem_cons_self _ _, ?_⟩
      have home := agree.creates absent _ _ takes
      unfold countedSlot egressSlot flowIdToRegisterIndex
      unfold flowIdToPipe at home
      rw [env.record_offset mapped port, env.record_egress]
      omega

/-- A new flow id was not assigned before. -/
theorem AssignedLive.eq_none {flowId : Int} {rest : Multiset Int} (live : ledger.AssignedLive assigned)
    (sound : ledger.Sound) (port : packet.devPort.toNat < maxDevPortId)
    (new : NewFlow env packet flowId rest ledger) : assigned flowId = none := by
  cases known : assigned flowId with
  | none => rfl
  | some sessionId =>
      obtain ⟨b, member, same⟩ := live flowId sessionId known
      exact absurd same (sound.flow_fresh (pipe_mem port) new.takes.mem b member)

/-- More sessions and the same flows change nothing. -/
theorem CountsWhereExported.mono (counts : ledger.CountsWhereExported env assigned)
    (flows : ledger'.flows = ledger.flows)
    (sessions : ∀ b ∈ ledger.sessions, b ∈ ledger'.sessions) :
    ledger'.CountsWhereExported env assigned := by
  intro b member sessionId known
  rw [flows] at member
  obtain ⟨session, held, same⟩ := counts b member sessionId known
  exact ⟨session, sessions _ held, same⟩

theorem AddFlow.counts {accepted : Bool} (port : packet.devPort.toNat < maxDevPortId)
    (sound : ledger.Sound) (recorded : ledger.SessionsRecorded env)
    (counts : ledger.CountsWhereExported env assigned)
    (live : ledger.AssignedLive assigned)
    (agree : ∀ flowId rest, NewFlow env packet flowId rest ledger → accepted = true →
      ledger.SlotsAgreeOnAdd env packet)
    (step : AddFlow env packet accepted ledger ledger' put) :
    ledger'.CountsWhereExported env (put.toList.foldl (assign accepted) assigned) ∧
      ledger'.AssignedLive (put.toList.foldl (assign accepted) assigned) := by
  cases step with
  | unmapped _ => exact ⟨counts, live⟩
  | noFlowId _ _ => exact ⟨counts, live⟩
  | known _ _ _ _ => exact ⟨counts, live⟩
  | noSessionId new _ _ =>
      have unassigned := live.eq_none sound port new
      constructor
      · intro b member sessionId known
        rcases Multiset.mem_cons.mp member with rfl | member
        · exact absurd (unassigned.symm.trans known) (Option.some_ne_none _).symm
        · exact counts b member sessionId known
      · intro flowId sessionId known
        obtain ⟨b, member, same⟩ := live flowId sessionId known
        exact ⟨b, Multiset.mem_cons_of_mem member, same⟩
  | @placed newId newSession _ middle new enqueued session =>
      have fresh := sound.flow_fresh (pipe_mem port) new.takes.mem
      have assigns : (some (DataplaneCommand.addFlow (env.record packet) newId newSession)).toList.foldl
          (assign accepted) assigned = Function.update assigned newId (some newSession) := by
        rw [enqueued]
        rfl
      rw [assigns]
      constructor
      · intro b member sessionId known
        rcases Multiset.mem_cons.mp member with rfl | member
        · rw [Function.update_self] at known
          obtain rfl := Option.some.inj known
          obtain ⟨exported, held, same⟩ :=
            session.countedSlot_eq recorded new.mapped port (agree _ _ new enqueued)
          exact ⟨exported, held, same⟩
        · rw [session.flows_eq] at member
          rw [Function.update_of_ne (fresh b member)] at known
          obtain ⟨exported, held, same⟩ := counts b member sessionId known
          exact ⟨exported, session.sessions_subset _ held, same⟩
      · intro flowId sessionId known
        by_cases same : flowId = newId
        · subst same
          exact ⟨_, Multiset.mem_cons_self _ _, rfl⟩
        · rw [Function.update_of_ne same] at known
          obtain ⟨b, member, here⟩ := live flowId sessionId known
          refine ⟨b, Multiset.mem_cons_of_mem ?_, here⟩
          rw [session.flows_eq]
          exact member
  | @refused newId newSession _ middle new full session =>
      have assigns : (some (DataplaneCommand.addFlow (env.record packet) newId newSession)).toList.foldl
          (assign accepted) assigned = assigned := by
        rw [full]
        rfl
      rw [assigns]
      refine ⟨counts.mono session.flows_eq session.sessions_subset, ?_⟩
      intro flowId sessionId known
      rw [session.flows_eq]
      exact live flowId sessionId known

theorem foldl_assign_remove {accepted : Bool} {b : FiveTuple × Int}
    (cleanup : Cleanup env flow value ledger ledger' put) :
    (DataplaneCommand.removeFlow flow b.2 :: put.toList).foldl (assign accepted) assigned =
      Function.update assigned b.2 none := by
  cases cleanup <;> rfl

/-- A removal keeps the agreement when no other flow loses its session. -/
theorem remove_counts {b : FiveTuple × Int} {middle : Ledger} (sound : ledger.Sound)
    (counts : ledger.CountsWhereExported env assigned) (live : ledger.AssignedLive assigned)
    (spares : ∀ session, ledger.Drops env flow value session →
      ∀ other ∈ ledger.flows, other ≠ b → assigned other.2 ≠ some session.2)
    (release : ReleaseFlow flow.pipe b ledger middle)
    (cleanup : Cleanup env flow value middle ledger' put) :
    ledger'.CountsWhereExported env (Function.update assigned b.2 none) ∧
      ledger'.AssignedLive (Function.update assigned b.2 none) := by
  cases release with
  | @intro rest held =>
      have gone : b ∈ ledger.flows := by
        rw [held]
        exact Multiset.mem_cons_self _ _
      have stays : ∀ other ∈ rest, other ∈ ledger.flows := by
        intro other member
        rw [held]
        exact Multiset.mem_cons_of_mem member
      have apart : ∀ other ∈ rest, other.2 ≠ b.2 := by
        intro other member same
        have nodup := Multiset.Nodup.of_map _ (Lib.IdPool.used_nodup sound.flow_nodup)
        obtain rfl := sound.flow_unique (stays other member) gone same
        rw [held, Multiset.nodup_cons] at nodup
        exact nodup.1 member
      have flows : ledger'.flows = rest := cleanup.flows_eq.1
      constructor
      · intro other member sessionId known
        rw [flows] at member
        rw [Function.update_of_ne (apart other member)] at known
        obtain ⟨session, exported, same⟩ := counts other (stays other member) sessionId known
        refine ⟨session, ?_, same⟩
        cases cleanup with
        | kept _ => exact exported
        | @dropped dropped sessions _ drops heldSession =>
            change ledger.sessions = dropped ::ₘ sessions at heldSession
            rw [heldSession, Multiset.mem_cons] at exported
            refine exported.resolve_left ?_
            intro equal
            refine spares dropped ⟨drops.emptied, drops.member, drops.known⟩ other
              (stays other member) (fun isGone => apart other member (by rw [isGone])) ?_
            rw [known, ← equal]
      · intro flowId sessionId known
        by_cases same : flowId = b.2
        · rw [same, Function.update_self] at known
          cases known
        · rw [Function.update_of_ne same] at known
          obtain ⟨other, member, here⟩ := live flowId sessionId known
          rw [held, Multiset.mem_cons] at member
          rw [flows]
          refine ⟨other, member.resolve_left ?_, here⟩
          intro equal
          exact same (by rw [← here, equal])

/-- A command that meets the condition keeps the agreement. -/
theorem Step.counts (sound : ledger.Sound) (recorded : ledger.SessionsRecorded env)
    (counts : ledger.CountsWhereExported env assigned) (live : ledger.AssignedLive assigned)
    (agree : ledger.SlotsAgree env assigned input)
    (step : Step env input ledger ledger' puts) :
    ledger'.CountsWhereExported env (puts.foldl (assign input.accepted) assigned) ∧
      ledger'.AssignedLive (puts.foldl (assign input.accepted) assigned) := by
  cases step with
  | @add packet _ _ command adds =>
      have port := input.command_valid
      rw [command] at port
      exact adds.counts port sound recorded counts live
        fun flowId rest new enqueued => agree.adds packet flowId rest command new enqueued
  | missed _ _ => exact ⟨counts, live⟩
  | remove removes release cleanup =>
      rw [foldl_assign_remove cleanup]
      exact remove_counts sound counts live (fun session => agree.drops _ _ session removes)
        release cleanup

/-- A flow that was added with agreement met the condition. -/
theorem AddFlow.slotsAgree {flowId : Int} {rest : Multiset Int} (keyed : ledger.Keyed env)
    (sound : ledger'.Sound) (recorded : ledger.SessionsRecorded env)
    (new : NewFlow env packet flowId rest ledger) (port : packet.devPort.toNat < maxDevPortId)
    (counts : ledger'.CountsWhereExported env (put.toList.foldl (assign true) assigned))
    (step : AddFlow env packet true ledger ledger' put) :
    ledger.SlotsAgreeOnAdd env packet := by
  cases step with
  | unmapped unmapped => exact absurd new.mapped unmapped
  | noFlowId _ empty =>
      have free := new.takes.mem
      rw [empty] at free
      exact absurd free (Multiset.notMem_zero _)
  | known _ _ member same => exact absurd same (new.absent _ member)
  | noSessionId _ absent empty =>
      refine ⟨fun b member known => absurd known (absent b member),
        fun b member known => absurd known (absent b member), ?_⟩
      intro _ sessionId rest takes
      have free := takes.mem
      rw [empty] at free
      exact absurd free (Multiset.notMem_zero _)
  | @placed newId newSession _ middle _ _ session =>
      obtain ⟨exported, held, same⟩ := counts (env.record packet, newId)
        (Multiset.mem_cons_self _ _) newSession (Function.update_self _ _ _)
      cases session with
      | @join joined member known =>
          have same' := sound.session_unique held member rfl
          rw [(Prod.mk.inj same').1] at same
          exact .of_joined keyed recorded member known same
      | create absent takes _ =>
          refine ⟨fun b member known => absurd known (absent b member),
            fun b member known => absurd known (absent b member), ?_⟩
          intro _ sessionId rest takes'
          obtain rfl := takes.unique takes'
          have same' := sound.session_unique held (Multiset.mem_cons_self _ _) rfl
          rw [(Prod.mk.inj same').1] at same
          unfold countedSlot egressSlot flowIdToRegisterIndex at same
          rw [env.record_offset new.mapped port, env.record_egress] at same
          unfold flowIdToPipe
          omega
  | refused _ full _ => cases full

/-- A removal that left the agreement intact took no other flow's session away. -/
theorem remove_spares {b session other : FiveTuple × Int} {middle : Ledger}
    (keyed : ledger.Keyed env) (sound : ledger.Sound)
    (drops : ledger.Drops env flow value session) (member : other ∈ ledger.flows)
    (different : other ≠ b) (release : ReleaseFlow flow.pipe b ledger middle)
    (cleanup : Cleanup env flow value middle ledger' put)
    (counts : ledger'.CountsWhereExported env (Function.update assigned b.2 none)) :
    assigned other.2 ≠ some session.2 := by
  intro known
  have sessions := release.frame.1
  have keyed' := release.keyed keyed
  have drops' := release.drops_iff.mpr drops
  have here : b ∈ ledger.flows := by
    cases release with
    | intro held =>
        rw [held]
        exact Multiset.mem_cons_self _ _
  have live : other ∈ ledger'.flows := by
    rw [cleanup.flows_eq.1]
    cases release with
    | intro held =>
        rw [held, Multiset.mem_cons] at member
        exact member.resolve_left different
  have apart : other.2 ≠ b.2 := fun same => different (sound.flow_unique member here same)
  have known' := Function.update_of_ne apart none assigned
  obtain ⟨exported, held, _⟩ := counts other live session.2 (known'.trans known)
  cases cleanup with
  | kept stays => exact stays session drops'
  | @dropped dropped rest _ drops'' heldSession =>
      obtain rfl := drops'.unique keyed' drops''
      have nodup := Multiset.Nodup.of_map _ (Lib.IdPool.used_nodup sound.session_nodup)
      rw [sessions] at heldSession
      have before : (exported, session.2) ∈ ledger.sessions := by
        rw [heldSession]
        exact Multiset.mem_cons_of_mem held
      rw [sound.session_unique before drops.member rfl] at held
      rw [heldSession, Multiset.nodup_cons] at nodup
      exact nodup.1 held

/-- A command after which counting and export agree met the condition. -/
theorem Step.slotsAgree (keyed : ledger.Keyed env) (sound : ledger.Sound) (sound' : ledger'.Sound)
    (recorded : ledger.SessionsRecorded env) (step : Step env input ledger ledger' puts)
    (counts : ledger'.CountsWhereExported env (puts.foldl (assign input.accepted) assigned)) :
    ledger.SlotsAgree env assigned input := by
  constructor
  · intro packet flowId rest command new enqueued
    have port := input.command_valid
    rw [command] at port
    rw [enqueued] at counts
    cases step with
    | @add packet' _ _ command' adds =>
        obtain rfl := FlowCommand.addFlow.inj (command.symm.trans command')
        rw [enqueued] at adds
        exact adds.slotsAgree keyed sound' recorded new port counts
    | missed others _ => exact absurd command (others packet)
    | remove removes _ _ =>
        rw [command] at removes
        cases removes
  · intro flow b session removes drops other member different
    cases step with
    | add command _ =>
        rw [command] at removes
        cases removes
    | missed _ unknown => exact absurd removes (unknown flow b)
    | remove removes' release cleanup =>
        obtain ⟨rfl, rfl⟩ := removes.unique keyed sound removes'
        rw [foldl_assign_remove cleanup] at counts
        exact remove_spares keyed sound drops member different release cleanup counts

end Steps

end Ledger

/-! ## Runs -/

theorem trackedStep_returns {env : Env} (tracked : TrackedDb) (valid : tracked.db.Valid env)
    (input : FlowInput) :
    Exec.ReturnsUnless .heapOverflow (tracked.db.ledger.Overflows env input)
      (trackedStep env tracked input) fun tracked' =>
        tracked'.db.Valid env ∧ ∃ puts,
          Ledger.Step env input tracked.db.ledger tracked'.db.ledger puts ∧
          tracked'.assigned = puts.foldl (assign input.accepted) tracked.assigned := by
  unfold trackedStep
  apply (flowdbCommand_returns valid input).bind id
  intro result facts
  obtain ⟨after, _, step⟩ := facts
  exact Exec.Returns.unless (.pure ⟨after, result.2, step, rfl⟩)

/-- Up to the first push onto a full pool, the packets of every live flow are counted
where its session is exported exactly when every command that overflows no pool meets
the condition. -/
theorem flowdb_countsWhereExported_iff_slotsAgree (env : Env) (inputs : List FlowInput) :
    Exec.Returns flowdbInit fun db =>
      (Lib.StatesUntil .heapOverflow (trackedStep env)
          (fun tracked => tracked.db.ledger.CountsWhereExported env tracked.assigned)
          ⟨db, fun _ => none⟩ inputs ↔
        Lib.AllSteps (trackedStep env)
          (fun tracked input => ¬ tracked.db.ledger.Overflows env input →
            tracked.db.ledger.SlotsAgree env tracked.assigned input)
          ⟨db, fun _ => none⟩ inputs) := by
  apply (flowdbInit_returns env).mono
  intro db start
  obtain ⟨valid, initial, _⟩ := start
  refine Lib.statesUntil_iff_allSteps
    (I := fun tracked => tracked.db.Valid env ∧ tracked.db.ledger.SessionsRecorded env ∧
      tracked.db.ledger.CountsWhereExported env tracked.assigned ∧
      tracked.db.ledger.AssignedLive tracked.assigned) ?_ ?_ ?_ ⟨valid, ?_, ?_, ?_⟩
  · intro tracked input holds agree
    obtain ⟨valid, recorded, counts, live⟩ := holds
    by_cases overflows : tracked.db.ledger.Overflows env input
    · rcases trackedStep_returns tracked valid input with ⟨_, _, after, _, step, _⟩ | faulted
      · exact absurd overflows (step.not_overflows valid.keyed valid.sound after.fits)
      · exact Or.inr faulted.2
    · refine ((trackedStep_returns tracked valid input).returns overflows).orFault.mono ?_
      intro tracked' facts
      obtain ⟨after, puts, step, assigned⟩ := facts
      rw [assigned]
      exact ⟨after, step.sessionsRecorded recorded,
        step.counts valid.sound recorded counts live (agree overflows)⟩
  · intro tracked input holds broken
    obtain ⟨valid, recorded, counts, live⟩ := holds
    push Not at broken
    refine ((trackedStep_returns tracked valid input).returns broken.1).mono ?_
    intro tracked' facts counts'
    obtain ⟨after, puts, step, assigned⟩ := facts
    rw [assigned] at counts'
    exact broken.2 (step.slotsAgree valid.keyed valid.sound after.sound recorded counts')
  · intro tracked holds
    exact holds.2.2.1
  · intro b member
    change b ∈ db.ledger.sessions at member
    rw [initial] at member
    exact absurd member (Multiset.notMem_zero b)
  · intro b _ sessionId known
    cases known
  · intro flowId sessionId known
    cases known

/-- A client whose flows come in on ports 0 and 128: both flows belong to session 4,
which is exported from slot 5, while the packets of the second are counted in slot 4. -/
theorem flowdb_not_countsWhereExported_two_ports :
    ¬ Exec.Returns flowdbInit fun db =>
      Lib.StatesUntil .heapOverflow (trackedStep (.twoPorts true))
        (fun tracked => tracked.db.ledger.CountsWhereExported (.twoPorts true) tracked.assigned)
        ⟨db, fun _ => none⟩ [.add .zero (by decide), .add (.onPort 128 1) (by decide)] := by
  intro claimed
  obtain ⟨db, init, states⟩ := claimed
  obtain ⟨valid, initial, _⟩ := (flowdbInit_returns (.twoPorts true)).of_pure init
  obtain ⟨first, added, valid', _, step, assigned⟩ :=
    (trackedStep_returns ⟨db, fun _ => none⟩ valid (.add .zero (by decide))).returns
      (Ledger.not_overflows_of_add rfl)
  obtain ⟨_, rfl, adds⟩ := step.adds rfl
  dsimp only at adds
  rw [initial] at adds
  obtain ⟨rfl, _, _, ledger⟩ := adds.of_initial (by decide) (by decide)
  obtain ⟨second, added', valid'', _, step, assigned'⟩ :=
    (trackedStep_returns first valid' (.add (.onPort 128 1) (by decide))).returns
      (Ledger.not_overflows_of_add rfl)
  obtain ⟨_, rfl, adds⟩ := step.adds rfl
  have counts := ((states.2.of_pure added).2.of_pure added').head
  have port : (FiveTuple.onPort 128 1).devPort.toNat < maxDevPortId := by decide
  obtain ⟨flowPool, sessionPool⟩ := Ledger.pool_elsewhere port
    (show _ ≠ FiveTuple.zero.pipe by decide) (Ledger.residentsFrom FiveTuple.zero.pipe 1).val
  have pool : first.db.ledger.flowPool (FiveTuple.onPort 128 1).pipe =
      (Ledger.residentsFrom (FiveTuple.onPort 128 1).pipe 0).val := by
    rw [ledger]
    exact flowPool
  have served : first.db.ledger.sessionPool (FiveTuple.onPort 128 1).pipe ≠ 0 := by
    rw [ledger]
    dsimp only
    rw [sessionPool]
    exact Ledger.residentsFrom_ne_zero (Ledger.pipe_mem port) (by decide)
  have new : ∀ b ∈ first.db.ledger.flows, b.1.h ≠ (FiveTuple.onPort 128 1).h := by
    rw [ledger]
    intro b member
    rw [Multiset.mem_singleton.mp member]
    decide
  have member : ((Env.twoPorts true).record .zero, 4 + FiveTuple.zero.pipe) ∈
      first.db.ledger.sessions := by
    rw [ledger]
    exact Multiset.mem_singleton_self _
  obtain ⟨rfl, _, ledger'⟩ := adds.joins (by decide) (by decide) (by decide) pool served new
    valid'.keyed member rfl
  have live : ((Env.twoPorts true).record (.onPort 128 1), 5) ∈ second.db.ledger.flows := by
    rw [ledger']
    exact Multiset.mem_cons_self _ _
  obtain ⟨session, held, same⟩ := counts _ live 4 (by rw [assigned']; rfl)
  rw [ledger'] at held
  dsimp only at held
  rw [ledger] at held
  obtain ⟨rfl, _⟩ := Prod.mk.inj (Multiset.mem_singleton.mp held)
  exact absurd same (by decide)

end Marina
