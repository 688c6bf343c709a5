import Marina.FlowHashtable
import Marina.Lib.IdPool
import Marina.SessionHashtable

/-!
# The ledger of ids

What the flow database is for, without its heaps and hash tables: which flows and
sessions are live under which id, and which ids are free in the pool of which pipe. The
transitions below are the exits of the commands of `controller/flow_db/flow_db.c`, each
with the condition under which it is taken.

`Ledger.Sound` is the law every transition keeps: each id is either free in one pool or
the id of one live flow, and likewise for sessions.
-/

namespace Marina

/-- The live flows and sessions with their ids, the free ids of each pipe, and the number
of flows that joined each session. -/
structure Ledger where
  flows : Multiset (FiveTuple × Int)
  sessions : Multiset (FiveTuple × Int)
  flowPool : Int → Multiset Int
  sessionPool : Int → Multiset Int
  flowCount : Int → Int32

/-- The five-tuple under which a forwarded packet is recorded. -/
def Env.record (env : Env) (packet : FiveTuple) : FiveTuple :=
  packet.withEgressOffset (env.devportMapping.egress packet)

/-- The packet's port is forwarded. -/
def Env.Mapped (env : Env) (packet : FiveTuple) : Prop :=
  env.devportMapping.egress packet ≠ -1

instance (env : Env) (packet : FiveTuple) : Decidable (env.Mapped packet) :=
  inferInstanceAs (Decidable (_ ≠ _))

@[simp] theorem Env.record_h (env : Env) (packet : FiveTuple) :
    (env.record packet).h = packet.h := rfl

@[simp] theorem Env.record_sh (env : Env) (packet : FiveTuple) :
    (env.record packet).sh = packet.sh := rfl

@[simp] theorem Env.record_devPort (env : Env) (packet : FiveTuple) :
    (env.record packet).devPort = packet.devPort := rfl

@[simp] theorem Env.record_pipe (env : Env) (packet : FiveTuple) :
    (env.record packet).pipe = packet.pipe := rfl

@[simp] theorem Env.record_egress (env : Env) (packet : FiveTuple) :
    env.devportMapping.egress (env.record packet) = env.devportMapping.egress packet := rfl

@[simp] theorem Env.record_sessionKey (env : Env) (packet : FiveTuple) :
    sessionKey env (env.record packet) = sessionKey env packet := rfl

/-- The offset in a recorded five-tuple leads from the pipe it comes in on to the pipe it
leaves on; eight bits hold it. -/
theorem Env.record_offset {env : Env} {packet : FiveTuple} (mapped : env.Mapped packet)
    (port : packet.devPort.toNat < maxDevPortId) :
    (env.record packet).sessionIdEgressOffset.toInt =
      devPortToPipe (env.devportMapping.egress packet) - packet.pipe := by
  have range := (env.devportMapping.port_range packet.devPort.toNat).resolve_left mapped
  have pipe := packet.pipe_nonneg
  have pipe' := FiveTuple.pipe_lt port
  change 0 ≤ env.devportMapping.egress packet ∧ env.devportMapping.egress packet < _ at range
  unfold maxDevPortId at range
  unfold numPipes at pipe'
  apply Int8.toInt_ofInt_of_le
  · unfold devPortToPipe
    omega
  · unfold devPortToPipe
    omega

/-- A mapped port is forwarded to one of the pipes. -/
theorem DevportMapping.exit_range {mapping : DevportMapping} {port : Nat}
    (mapped : mapping.port port ≠ -1) :
    0 ≤ devPortToPipe (mapping.port port) ∧ devPortToPipe (mapping.port port) < numPipes := by
  have range := (mapping.port_range port).resolve_left mapped
  unfold maxDevPortId at range
  unfold devPortToPipe numPipes
  omega

theorem Env.egress_pipe {env : Env} {packet : FiveTuple} (mapped : env.Mapped packet) :
    0 ≤ devPortToPipe (env.devportMapping.egress packet) ∧
      devPortToPipe (env.devportMapping.egress packet) < numPipes :=
  DevportMapping.exit_range mapped

/-! ## Commands -/

/-- The commands of `packet_item_t` that concern flows. -/
inductive FlowCommand
  | addFlow (fiveTuple : FiveTuple)
  | removeFlow (fiveTuple : FiveTuple)
  | timeoutFlow (flowId : Int)
  deriving DecidableEq, Repr

/-- Ports and ids are inside the arrays they index. -/
def FlowCommand.Valid : FlowCommand → Prop
  | .addFlow fiveTuple => fiveTuple.devPort.toNat < maxDevPortId
  | .removeFlow fiveTuple => fiveTuple.devPort.toNat < maxDevPortId
  | .timeoutFlow flowId => 0 ≤ flowId ∧ flowId < featureSize

instance : (command : FlowCommand) → Decidable command.Valid
  | .addFlow fiveTuple => inferInstanceAs (Decidable (fiveTuple.devPort.toNat < maxDevPortId))
  | .removeFlow fiveTuple => inferInstanceAs (Decidable (fiveTuple.devPort.toNat < maxDevPortId))
  | .timeoutFlow flowId => inferInstanceAs (Decidable (0 ≤ flowId ∧ flowId < featureSize))

/-- A command, with what its surroundings decide while it runs: whether the ring takes
`DP_ADD_FLOW`, the uuid of a new session, and the value in `[0, FEATURE_SIZE)` that the
uninitialised `session_id` of `session_cleanup_after_flow_remove` happens to hold. -/
structure FlowInput where
  command : FlowCommand
  accepted : Bool
  uuid : String
  sessionId : Int
  command_valid : command.Valid
  sessionId_valid : 0 ≤ sessionId ∧ sessionId < featureSize

namespace Ledger

/-! ## Transitions -/

/-- The lowest free id of a pool, and what remains. -/
structure Takes (pool : Multiset Int) (id : Int) (rest : Multiset Int) : Prop where
  eq : pool = id ::ₘ rest
  least : ∀ other ∈ rest, id ≤ other

theorem Takes.mem {pool rest : Multiset Int} {id : Int} (takes : Takes pool id rest) :
    id ∈ pool := by
  rw [takes.eq]
  exact Multiset.mem_cons_self _ _

theorem Takes.unique {pool rest rest' : Multiset Int} {id id' : Int} (first : Takes pool id rest)
    (second : Takes pool id' rest') : id = id' := by
  have lower : ∀ {a b : Int} {x y : Multiset Int}, Takes pool a x → Takes pool b y → a ≤ b := by
    intro a b x y takes takes'
    have member := takes'.mem
    rw [takes.eq, Multiset.mem_cons] at member
    rcases member with same | later
    · exact same.ge
    · exact takes.least b later
  exact le_antisymm (lower first second) (lower second first)

/-- A flow gets its session: it joins the live one with its key, or the lowest free id of
its pipe becomes a new one. -/
inductive TakeSession (env : Env) (flow : FiveTuple) (sessionId : Int) (ledger : Ledger) :
    Ledger → Prop
  | join {session : FiveTuple} (member : (session, sessionId) ∈ ledger.sessions)
      (known : sessionKey env session = sessionKey env flow) :
      TakeSession env flow sessionId ledger
        { ledger with
          flowCount := if env.useSessions then
            Function.update ledger.flowCount sessionId (ledger.flowCount sessionId + 1)
          else ledger.flowCount }
  | create {rest : Multiset Int} {flowCount : Int → Int32}
      (absent : ∀ b ∈ ledger.sessions, sessionKey env b.1 ≠ sessionKey env flow)
      (takes : Takes (ledger.sessionPool flow.pipe) sessionId rest)
      (count : egressSlot flow sessionId < featureSize → flowCount = ledger.flowCount) :
      TakeSession env flow sessionId ledger
        { ledger with
          sessions := (flow, sessionId) ::ₘ ledger.sessions
          sessionPool := Function.update ledger.sessionPool flow.pipe rest
          flowCount := flowCount }

/-- A flow becomes live under the lowest free id of its pipe. -/
def placeFlow (ledger : Ledger) (flow : FiveTuple) (flowId : Int) (rest : Multiset Int) : Ledger :=
  { ledger with
    flows := (flow, flowId) ::ₘ ledger.flows
    flowPool := Function.update ledger.flowPool flow.pipe rest }

/-- A new flow of a forwarded port takes a flow id. -/
structure NewFlow (env : Env) (packet : FiveTuple) (flowId : Int) (rest : Multiset Int)
    (ledger : Ledger) : Prop where
  mapped : env.Mapped packet
  absent : ∀ b ∈ ledger.flows, b.1.h ≠ packet.h
  takes : Takes (ledger.flowPool packet.pipe) flowId rest

/-- The exits of `add_flow`, with the command handed to the data plane ring. -/
inductive AddFlow (env : Env) (packet : FiveTuple) (accepted : Bool) (ledger : Ledger) :
    Ledger → Option DataplaneCommand → Prop
  /-- The port is not forwarded. -/
  | unmapped (unmapped : ¬ env.Mapped packet) : AddFlow env packet accepted ledger ledger none
  /-- The pipe has no free flow id. -/
  | noFlowId (mapped : env.Mapped packet) (empty : ledger.flowPool packet.pipe = 0) :
      AddFlow env packet accepted ledger ledger none
  /-- The flow is live already. -/
  | known {b : FiveTuple × Int} (mapped : env.Mapped packet)
      (filled : ledger.flowPool packet.pipe ≠ 0) (member : b ∈ ledger.flows)
      (same : b.1.h = packet.h) : AddFlow env packet accepted ledger ledger none
  /-- The flow is placed, and the pipe has no free id for its session. -/
  | noSessionId {flowId : Int} {rest : Multiset Int} (new : NewFlow env packet flowId rest ledger)
      (absent : ∀ b ∈ ledger.sessions, sessionKey env b.1 ≠ sessionKey env packet)
      (empty : ledger.sessionPool packet.pipe = 0) :
      AddFlow env packet accepted ledger (ledger.placeFlow (env.record packet) flowId rest) none
  /-- The flow and its session are live and the data plane is told. -/
  | placed {flowId sessionId : Int} {rest : Multiset Int} {ledger' : Ledger}
      (new : NewFlow env packet flowId rest ledger) (enqueued : accepted = true)
      (session : TakeSession env (env.record packet) sessionId ledger ledger') :
      AddFlow env packet accepted ledger (ledger'.placeFlow (env.record packet) flowId rest)
        (some (.addFlow (env.record packet) flowId sessionId))
  /-- The ring is full: the flow is taken back, its session is not. -/
  | refused {flowId sessionId : Int} {rest : Multiset Int} {ledger' : Ledger}
      (new : NewFlow env packet flowId rest ledger) (full : accepted = false)
      (session : TakeSession env (env.record packet) sessionId ledger ledger') :
      AddFlow env packet accepted ledger ledger'
        (some (.addFlow (env.record packet) flowId sessionId))

/-- A live flow leaves, and its id goes to the pool of the given pipe. -/
inductive ReleaseFlow (pipe : Int) (flow : FiveTuple × Int) (ledger : Ledger) : Ledger → Prop
  | intro {rest : Multiset (FiveTuple × Int)} (held : ledger.flows = flow ::ₘ rest) :
      ReleaseFlow pipe flow ledger
        { ledger with
          flows := rest
          flowPool := Function.update ledger.flowPool pipe (flow.2 ::ₘ ledger.flowPool pipe) }

/-- Whether a removal goes on to the session table, by the value of the caller's
variable. -/
def Emptied (env : Env) (ledger : Ledger) (value : Int) : Prop :=
  env.useSessions = false ∨ ledger.flowCount value - 1 = 0

/-- The session that a removal for `flow` takes away. -/
structure Drops (env : Env) (flow : FiveTuple) (value : Int) (session : FiveTuple × Int)
    (ledger : Ledger) : Prop where
  emptied : ledger.Emptied env value
  member : session ∈ ledger.sessions
  known : sessionKey env session.1 = sessionKey env flow

/-- The exits of `session_cleanup_after_flow_remove`. -/
inductive Cleanup (env : Env) (flow : FiveTuple) (value : Int) (ledger : Ledger) :
    Ledger → Option DataplaneCommand → Prop
  | kept {flowCount : Int → Int32} (stays : ∀ b, ¬ ledger.Drops env flow value b) :
      Cleanup env flow value ledger { ledger with flowCount := flowCount } none
  | dropped {session : FiveTuple × Int} {rest : Multiset (FiveTuple × Int)}
      {flowCount : Int → Int32} (drops : ledger.Drops env flow value session)
      (held : ledger.sessions = session ::ₘ rest) :
      Cleanup env flow value ledger
        { ledger with
          sessions := rest
          sessionPool := Function.update ledger.sessionPool flow.pipe
            (session.2 ::ₘ ledger.sessionPool flow.pipe)
          flowCount := flowCount }
        (some (.clearRegisters flow session.2))

/-- The live flow that a command removes, and the five-tuple that says where its id
goes: that of the packet, or the one stored with the flow. -/
inductive Removes (ledger : Ledger) : FlowCommand → FiveTuple → FiveTuple × Int → Prop
  | byFiveTuple {packet : FiveTuple} {b : FiveTuple × Int} (member : b ∈ ledger.flows)
      (same : b.1.h = packet.h) : Removes ledger (.removeFlow packet) packet b
  | byFlowId {b : FiveTuple × Int} (member : b ∈ ledger.flows) :
      Removes ledger (.timeoutFlow b.2) b.1 b

/-- The exits of a command, with the commands handed to the data plane ring. -/
inductive Step (env : Env) (input : FlowInput) (ledger : Ledger) :
    Ledger → List DataplaneCommand → Prop
  | add {packet : FiveTuple} {ledger' : Ledger} {put : Option DataplaneCommand}
      (command : input.command = .addFlow packet)
      (adds : AddFlow env packet input.accepted ledger ledger' put) :
      Step env input ledger ledger' put.toList
  | missed (command : ∀ packet, input.command ≠ .addFlow packet)
      (unknown : ∀ flow b, ¬ ledger.Removes input.command flow b) : Step env input ledger ledger []
  | remove {flow : FiveTuple} {b : FiveTuple × Int} {middle ledger' : Ledger}
      {put : Option DataplaneCommand} (removes : ledger.Removes input.command flow b)
      (release : ReleaseFlow flow.pipe b ledger middle)
      (cleanup : Cleanup env flow input.sessionId middle ledger' put) :
      Step env input ledger ledger' (.removeFlow flow b.2 :: put.toList)

/-- A removal finds the pool that gets the flow id, or the one that gets the session id,
full. -/
inductive Overflows (env : Env) (input : FlowInput) (ledger : Ledger) : Prop
  | flow {flow : FiveTuple} {b : FiveTuple × Int} (removes : ledger.Removes input.command flow b)
      (full : (ledger.flowPool flow.pipe).card = heapSize)
  | session {flow : FiveTuple} {b session : FiveTuple × Int}
      (removes : ledger.Removes input.command flow b)
      (drops : ledger.Drops env flow input.sessionId session)
      (full : (ledger.sessionPool flow.pipe).card = heapSize)

/-! ## Conservation -/

/-- The pipes of the data plane. -/
noncomputable def pipes : Finset Int := Finset.Ico 0 numPipes

/-- The ids handed out over a run, for flows and for sessions. -/
@[irreducible] noncomputable def ids : Finset Int := Finset.Ico minSessionId featureSize

/-- Every id is free in exactly one pool or in use exactly once, and flows come in on
ports that exist. -/
structure Sound (ledger : Ledger) : Prop where
  flowIds : Lib.IdPool.total pipes ledger.flowPool (ledger.flows.map Prod.snd) = ids.val
  sessionIds : Lib.IdPool.total pipes ledger.sessionPool (ledger.sessions.map Prod.snd) = ids.val
  ports : ∀ b ∈ ledger.flows, b.1.devPort.toNat < maxDevPortId

theorem pipe_mem {packet : FiveTuple} (port : packet.devPort.toNat < maxDevPortId) :
    packet.pipe ∈ pipes :=
  Finset.mem_Ico.mpr ⟨packet.pipe_nonneg, FiveTuple.pipe_lt port⟩

theorem card_ids : ids.card = numPipes * heapSize := by
  unfold ids
  rw [Int.card_Ico]
  rfl

section Conservation

variable {env : Env} {packet flow : FiveTuple} {accepted : Bool} {pipe value : Int}
  {ledger ledger' : Ledger} {released : FiveTuple × Int} {put : Option DataplaneCommand}

theorem TakeSession.flows_eq {sessionId : Int}
    (session : TakeSession env flow sessionId ledger ledger') : ledger'.flows = ledger.flows := by
  cases session <;> rfl

theorem TakeSession.flowPool_eq {sessionId : Int}
    (session : TakeSession env flow sessionId ledger ledger') :
    ledger'.flowPool = ledger.flowPool := by
  cases session <;> rfl

theorem TakeSession.sound {sessionId : Int} (inside : flow.pipe ∈ pipes)
    (session : TakeSession env flow sessionId ledger ledger') (sound : ledger.Sound) :
    ledger'.Sound := by
  cases session with
  | join member known => exact ⟨sound.flowIds, sound.sessionIds, sound.ports⟩
  | create absent takes count =>
      refine ⟨sound.flowIds, ?_, sound.ports⟩
      dsimp only
      rw [Multiset.map_cons, Lib.IdPool.total_take inside takes.eq]
      exact sound.sessionIds

theorem Sound.placeFlow {flowId : Int} {rest : Multiset Int} (sound : ledger.Sound)
    (port : flow.devPort.toNat < maxDevPortId)
    (takes : Takes (ledger.flowPool flow.pipe) flowId rest) :
    (ledger.placeFlow flow flowId rest).Sound := by
  refine ⟨?_, sound.sessionIds, ?_⟩
  · unfold Ledger.placeFlow
    dsimp only
    rw [Multiset.map_cons, Lib.IdPool.total_take (pipe_mem port) takes.eq]
    exact sound.flowIds
  · intro b member
    rcases Multiset.mem_cons.mp member with rfl | member
    · exact port
    · exact sound.ports b member

theorem AddFlow.sound (port : packet.devPort.toNat < maxDevPortId)
    (step : AddFlow env packet accepted ledger ledger' put) (sound : ledger.Sound) :
    ledger'.Sound := by
  have port' : (env.record packet).devPort.toNat < maxDevPortId := port
  cases step with
  | unmapped _ => exact sound
  | noFlowId _ _ => exact sound
  | known _ _ _ _ => exact sound
  | noSessionId new _ _ => exact sound.placeFlow port' new.takes
  | placed new _ session =>
      apply (session.sound (pipe_mem port') sound).placeFlow port'
      rw [session.flowPool_eq]
      exact new.takes
  | refused _ _ session => exact session.sound (pipe_mem port') sound

theorem ReleaseFlow.sound (inside : pipe ∈ pipes)
    (step : ReleaseFlow pipe released ledger ledger') (sound : ledger.Sound) :
    ledger'.Sound := by
  cases step with
  | intro held =>
      refine ⟨?_, sound.sessionIds, fun b member => sound.ports b ?_⟩
      · have before := sound.flowIds
        rw [held, Multiset.map_cons] at before
        dsimp only
        rw [Lib.IdPool.total_give inside]
        exact before
      · rw [held]
        exact Multiset.mem_cons_of_mem member

/-- Releasing a flow leaves the sessions alone. -/
theorem ReleaseFlow.frame (step : ReleaseFlow pipe released ledger ledger') :
    ledger'.sessions = ledger.sessions ∧ ledger'.sessionPool = ledger.sessionPool ∧
      ledger'.flowCount = ledger.flowCount := by
  cases step
  exact ⟨rfl, rfl, rfl⟩

theorem ReleaseFlow.flows_eq (step : ReleaseFlow pipe released ledger ledger') :
    ledger.flows = released ::ₘ ledger'.flows ∧
      ledger'.flowPool =
        Function.update ledger.flowPool pipe (released.2 ::ₘ ledger.flowPool pipe) := by
  cases step with
  | intro held => exact ⟨held, rfl⟩

theorem ReleaseFlow.drops_iff {session : FiveTuple × Int}
    (step : ReleaseFlow pipe released ledger ledger') :
    ledger'.Drops env flow value session ↔ ledger.Drops env flow value session := by
  cases step
  exact ⟨fun drops => ⟨drops.emptied, drops.member, drops.known⟩,
    fun drops => ⟨drops.emptied, drops.member, drops.known⟩⟩

/-- Cleaning up a session leaves the flows alone. -/
theorem Cleanup.flows_eq (step : Cleanup env flow value ledger ledger' put) :
    ledger'.flows = ledger.flows ∧ ledger'.flowPool = ledger.flowPool := by
  cases step <;> exact ⟨rfl, rfl⟩

theorem Cleanup.sessionPool_le (step : Cleanup env flow value ledger ledger' put) :
    ledger.sessionPool flow.pipe ≤ ledger'.sessionPool flow.pipe := by
  cases step with
  | kept _ => exact le_refl _
  | dropped _ _ =>
      dsimp only
      rw [Function.update_self]
      exact Multiset.le_cons_self _ _

theorem Cleanup.sound (port : flow.devPort.toNat < maxDevPortId)
    (step : Cleanup env flow value ledger ledger' put) (sound : ledger.Sound) :
    ledger'.Sound := by
  cases step with
  | kept _ => exact ⟨sound.flowIds, sound.sessionIds, sound.ports⟩
  | dropped _ held =>
      refine ⟨sound.flowIds, ?_, sound.ports⟩
      have before := sound.sessionIds
      rw [held, Multiset.map_cons] at before
      dsimp only
      rw [Lib.IdPool.total_give (pipe_mem port)]
      exact before

/-- The five-tuple that a removal goes by has a port that exists. -/
theorem Removes.port {command : FlowCommand} (sound : ledger.Sound) (valid : command.Valid)
    (removes : ledger.Removes command flow released) : flow.devPort.toNat < maxDevPortId := by
  cases removes with
  | byFiveTuple _ _ => exact valid
  | byFlowId member => exact sound.ports _ member

/-- A flow key has one live flow, and a session key one live session. -/
structure Keyed (env : Env) (ledger : Ledger) : Prop where
  flows : ∀ a ∈ ledger.flows, ∀ b ∈ ledger.flows, a.1.h = b.1.h → a = b
  sessions : ∀ a ∈ ledger.sessions, ∀ b ∈ ledger.sessions,
    sessionKey env a.1 = sessionKey env b.1 → a = b

theorem Removes.key {command : FlowCommand} (removes : ledger.Removes command flow released) :
    flow.h = released.1.h := by
  cases removes with
  | byFiveTuple _ same => exact same.symm
  | byFlowId _ => rfl

theorem Removes.member {command : FlowCommand} (removes : ledger.Removes command flow released) :
    released ∈ ledger.flows := by
  cases removes with
  | byFiveTuple member _ => exact member
  | byFlowId member => exact member

theorem ReleaseFlow.keyed (keyed : ledger.Keyed env)
    (step : ReleaseFlow pipe released ledger ledger') : ledger'.Keyed env := by
  cases step with
  | intro held =>
      refine ⟨?_, keyed.sessions⟩
      intro x hx y hy same
      apply keyed.flows x _ y _ same
      · rw [held]
        exact Multiset.mem_cons_of_mem hx
      · rw [held]
        exact Multiset.mem_cons_of_mem hy

end Conservation

/-! ## What conservation gives -/

section Consequences

variable {ledger : Ledger} {pipe id : Int}

namespace Sound

theorem flow_nodup (sound : ledger.Sound) :
    (Lib.IdPool.total pipes ledger.flowPool (ledger.flows.map Prod.snd)).Nodup := by
  rw [sound.flowIds]
  exact ids.nodup

theorem session_nodup (sound : ledger.Sound) :
    (Lib.IdPool.total pipes ledger.sessionPool (ledger.sessions.map Prod.snd)).Nodup := by
  rw [sound.sessionIds]
  exact ids.nodup

theorem free_flow_id (sound : ledger.Sound) (inside : pipe ∈ pipes)
    (free : id ∈ ledger.flowPool pipe) : id ∈ ids := by
  rw [← Finset.mem_val, ← sound.flowIds]
  exact Multiset.mem_of_le (Multiset.le_add_right _ _)
    (Multiset.mem_of_le (Lib.IdPool.pool_le_sum inside) free)

theorem free_session_id (sound : ledger.Sound) (inside : pipe ∈ pipes)
    (free : id ∈ ledger.sessionPool pipe) : id ∈ ids := by
  rw [← Finset.mem_val, ← sound.sessionIds]
  exact Multiset.mem_of_le (Multiset.le_add_right _ _)
    (Multiset.mem_of_le (Lib.IdPool.pool_le_sum inside) free)

theorem flow_id (sound : ledger.Sound) {b : FiveTuple × Int} (member : b ∈ ledger.flows) :
    b.2 ∈ ids := by
  rw [← Finset.mem_val, ← sound.flowIds]
  exact Multiset.mem_of_le (Multiset.le_add_left _ _) (Multiset.mem_map_of_mem Prod.snd member)

theorem session_id (sound : ledger.Sound) {b : FiveTuple × Int}
    (member : b ∈ ledger.sessions) : b.2 ∈ ids := by
  rw [← Finset.mem_val, ← sound.sessionIds]
  exact Multiset.mem_of_le (Multiset.le_add_left _ _) (Multiset.mem_map_of_mem Prod.snd member)

/-- A free flow id is not in use. -/
theorem flow_fresh (sound : ledger.Sound) (inside : pipe ∈ pipes)
    (free : id ∈ ledger.flowPool pipe) : ∀ b ∈ ledger.flows, b.2 ≠ id := by
  intro b member same
  apply Lib.IdPool.notMem_used sound.flow_nodup inside free
  rw [← same]
  exact Multiset.mem_map_of_mem Prod.snd member

/-- A free session id is not in use. -/
theorem session_fresh (sound : ledger.Sound) (inside : pipe ∈ pipes)
    (free : id ∈ ledger.sessionPool pipe) : ∀ b ∈ ledger.sessions, b.2 ≠ id := by
  intro b member same
  apply Lib.IdPool.notMem_used sound.session_nodup inside free
  rw [← same]
  exact Multiset.mem_map_of_mem Prod.snd member

/-- A flow id has one live flow. -/
theorem flow_unique (sound : ledger.Sound) {a b : FiveTuple × Int} (ha : a ∈ ledger.flows)
    (hb : b ∈ ledger.flows) (same : a.2 = b.2) : a = b :=
  Multiset.inj_on_of_nodup_map (Lib.IdPool.used_nodup sound.flow_nodup) a ha b hb same

/-- A session id has one live session. -/
theorem session_unique (sound : ledger.Sound) {a b : FiveTuple × Int} (ha : a ∈ ledger.sessions)
    (hb : b ∈ ledger.sessions) (same : a.2 = b.2) : a = b :=
  Multiset.inj_on_of_nodup_map (Lib.IdPool.used_nodup sound.session_nodup) a ha b hb same

theorem card_flows_le (sound : ledger.Sound) :
    ledger.flows.card ≤ numPipes * heapSize := by
  rw [← card_ids, ← Finset.card_val, ← sound.flowIds,
    ← Multiset.card_map Prod.snd ledger.flows]
  exact Lib.IdPool.card_used_le

theorem card_sessions_le (sound : ledger.Sound) :
    ledger.sessions.card ≤ numPipes * heapSize := by
  rw [← card_ids, ← Finset.card_val, ← sound.sessionIds,
    ← Multiset.card_map Prod.snd ledger.sessions]
  exact Lib.IdPool.card_used_le

/-- The flow table never fills. -/
theorem flow_room (sound : ledger.Sound) : ledger.flows.card < flowHashtableSize := by
  apply sound.card_flows_le.trans_lt
  norm_num [flowHashtableSize, heapSize, maxFlows, numPipes, flowHashtableMultiplier]

/-- The session table never fills. -/
theorem session_room (sound : ledger.Sound) :
    ledger.sessions.card < sessionHashtableSize := by
  apply sound.card_sessions_le.trans_lt
  norm_num [sessionHashtableSize, heapSize, maxFlows, numPipes, flowHashtableMultiplier]

end Sound

/-- A command removes one flow, and goes by one five-tuple. -/
theorem Removes.unique {env : Env} {command : FlowCommand} {flow flow' : FiveTuple}
    {b b' : FiveTuple × Int} (keyed : ledger.Keyed env) (sound : ledger.Sound)
    (first : ledger.Removes command flow b) (second : ledger.Removes command flow' b') :
    flow = flow' ∧ b = b' := by
  cases first with
  | byFiveTuple member same =>
      cases second with
      | byFiveTuple member' same' =>
          exact ⟨rfl, keyed.flows _ member _ member' (same.trans same'.symm)⟩
  | byFlowId member =>
      generalize command_eq : FlowCommand.timeoutFlow b.2 = command at second
      cases second with
      | byFiveTuple _ _ => cases command_eq
      | byFlowId member' =>
          obtain rfl := sound.flow_unique member member' (FlowCommand.timeoutFlow.inj command_eq)
          exact ⟨rfl, rfl⟩

/-- What a command does that removes a live flow. -/
theorem Step.of_removes {env : Env} {input : FlowInput} {ledger' : Ledger}
    {flow : FiveTuple} {b : FiveTuple × Int} {puts : List DataplaneCommand}
    (keyed : ledger.Keyed env) (sound : ledger.Sound)
    (removes : ledger.Removes input.command flow b) (step : Step env input ledger ledger' puts) :
    ∃ middle put, ReleaseFlow flow.pipe b ledger middle ∧
      Cleanup env flow input.sessionId middle ledger' put ∧
      puts = .removeFlow flow b.2 :: put.toList := by
  cases step with
  | add command _ =>
      rw [command] at removes
      cases removes
  | missed _ unknown => exact absurd removes (unknown _ _)
  | remove removes' release cleanup =>
      obtain ⟨rfl, rfl⟩ := removes.unique keyed sound removes'
      exact ⟨_, _, release, cleanup, rfl⟩

/-- A removal takes exactly its flow out of the table. -/
theorem Step.flows_eq_of_removes {env : Env} {input : FlowInput} {ledger' : Ledger}
    {flow : FiveTuple} {b : FiveTuple × Int} {puts : List DataplaneCommand}
    (keyed : ledger.Keyed env) (sound : ledger.Sound)
    (removes : ledger.Removes input.command flow b) (step : Step env input ledger ledger' puts) :
    ledger.flows = b ::ₘ ledger'.flows := by
  obtain ⟨_, _, release, cleanup, _⟩ := step.of_removes keyed sound removes
  rw [cleanup.flows_eq.1]
  exact release.flows_eq.1

/-- A removal takes one session away. -/
theorem Drops.unique {env : Env} {flow : FiveTuple} {value : Int} {session session' : FiveTuple × Int}
    (keyed : ledger.Keyed env) (first : ledger.Drops env flow value session)
    (second : ledger.Drops env flow value session') : session = session' :=
  keyed.sessions _ first.member _ second.member (first.known.trans second.known.symm)

/-- Adding a flow gives nothing to a pool that it did not take. -/
theorem not_overflows_of_add {env : Env} {input : FlowInput} {packet : FiveTuple}
    (command : input.command = .addFlow packet) : ¬ ledger.Overflows env input := by
  intro overflows
  cases overflows with
  | flow removes _ =>
      rw [command] at removes
      cases removes
  | session removes _ _ =>
      rw [command] at removes
      cases removes

/-- A command that returns with pools that fit their arrays did not overflow one. -/
theorem Step.not_overflows {env : Env} {input : FlowInput} {ledger' : Ledger}
    {puts : List DataplaneCommand} (keyed : ledger.Keyed env) (sound : ledger.Sound)
    (fits : ∀ pipe, (ledger'.flowPool pipe).card ≤ heapSize ∧
      (ledger'.sessionPool pipe).card ≤ heapSize)
    (step : Step env input ledger ledger' puts) : ¬ ledger.Overflows env input := by
  have removal : ∀ {flow b}, ledger.Removes input.command flow b →
      (ledger.flowPool flow.pipe).card + 1 ≤ heapSize ∧
        ∀ session, ledger.Drops env flow input.sessionId session →
          (ledger.sessionPool flow.pipe).card + 1 ≤ heapSize := by
    intro flow b removes
    cases step with
    | add command _ =>
        rw [command] at removes
        cases removes
    | missed _ unknown => exact absurd removes (unknown flow b)
    | remove removes' release cleanup =>
        obtain ⟨rfl, rfl⟩ := removes.unique keyed sound removes'
        obtain ⟨flowFits, sessionFits⟩ := fits flow.pipe
        constructor
        · rw [cleanup.flows_eq.2] at flowFits
          cases release with
          | intro held =>
              dsimp only at flowFits
              rw [Function.update_self, Multiset.card_cons] at flowFits
              exact flowFits
        · intro session drops
          have drops' := release.drops_iff.mpr drops
          obtain ⟨_, pool, _⟩ := release.frame
          cases cleanup with
          | kept stays => exact absurd drops' (stays session)
          | dropped _ _ =>
              dsimp only at sessionFits
              rw [Function.update_self, Multiset.card_cons, pool] at sessionFits
              exact sessionFits
  intro overflows
  cases overflows with
  | flow removes full => exact absurd (removal removes).1 (by omega)
  | session removes drops full => exact absurd ((removal removes).2 _ drops) (by omega)

end Consequences

end Ledger

end Marina
