import Marina.SamePipe

/-!
# Egress slots

A session is exported at its id shifted by the offset recorded with it, and
`egress_feature_to_session_id` leads from such a slot back to the session. Over the runs
of `Marina.SamePipe`, slots never collide and the map is complete exactly when the
forwarding table never joins two ingress pipes in one egress pipe.
-/

namespace Marina

open Lib (Exec)

/-- No two mapped ports on different ingress pipes are forwarded to ports on the same
egress pipe. -/
def DevportMapping.PipeInjective (mapping : DevportMapping) : Prop :=
  ∀ p < maxDevPortId, ∀ q < maxDevPortId, mapping.port p ≠ -1 → mapping.port q ≠ -1 →
    devPortToPipe p ≠ devPortToPipe q →
    devPortToPipe (mapping.port p) ≠ devPortToPipe (mapping.port q)

/-- Live sessions have different egress slots, and each slot is mapped to its session. -/
structure FlowDb.EgressDistinct (db : FlowDb) : Prop where
  apart : ∀ v ∈ db.sessionHashtable.bindings, ∀ w ∈ db.sessionHashtable.bindings, v ≠ w →
    egressSlot v.1 v.2 ≠ egressSlot w.1 w.2
  mapped : ∀ v ∈ db.sessionHashtable.bindings,
    db.sessionHashtable.egressFeatureToSessionId (egressSlot v.1 v.2) = v.2

/-- The slot of a resident session: its register on the pipe its packets leave on. -/
theorem egressSlot_of_recorded {env : Env} {session : FiveTuple} {id : Int}
    (recorded : env.Recorded session) (home : flowIdToPipe id = session.pipe) :
    egressSlot session id = 4 * flowIdToRegisterIndex id +
      devPortToPipe (env.devportMapping.egress session) := by
  obtain ⟨packet, mapped, port, rfl⟩ := recorded
  unfold egressSlot
  rw [env.record_offset mapped port, env.record_egress]
  rw [env.record_pipe] at home
  unfold flowIdToRegisterIndex
  unfold flowIdToPipe at home
  omega

/-- A register behind a mapped port is the slot of a recorded session only if the port and the
session are of one pipe, and so the ids are the same. -/
theorem DevportMapping.PipeInjective.id_eq {env : Env}
    (injective : env.devportMapping.PipeInjective) {port : Nat} (inside : port < maxDevPortId)
    (mapped : env.devportMapping.port port ≠ -1) {id id' : Int} {session : FiveTuple}
    (here : flowIdToPipe id = devPortToPipe port) (recorded : env.Recorded session)
    (home : flowIdToPipe id' = session.pipe)
    (same : 4 * flowIdToRegisterIndex id + devPortToPipe (env.devportMapping.port port) =
      egressSlot session id') : id = id' := by
  rw [egressSlot_of_recorded recorded home] at same
  obtain ⟨packet, mapped', inside', rfl⟩ := recorded
  rw [env.record_egress] at same
  rw [env.record_pipe] at home
  have out := DevportMapping.exit_range mapped
  have out' := env.egress_pipe mapped'
  unfold numPipes at out out'
  have exit : devPortToPipe (env.devportMapping.port port) =
      devPortToPipe (env.devportMapping.egress packet) := by omega
  have entry : devPortToPipe port = packet.pipe := by
    by_contra apart
    exact injective _ inside _ inside' mapped mapped' apart exit
  unfold flowIdToRegisterIndex at same
  unfold flowIdToPipe at here home
  omega

/-- Sessions at the same slot come in on the same pipe, so they are the same. -/
theorem Ledger.Homed.egressInjective {env : Env} {pipeOf : FiveTupleForHash → Int}
    {ledger : Ledger} (injective : env.devportMapping.PipeInjective) (sound : ledger.Sound)
    (homed : ledger.Homed env pipeOf) : EgressInjective ledger.sessions where
  inj v hv w hw same := by
    obtain ⟨recorded, home, _⟩ := homed.sessions v hv
    obtain ⟨recorded', home', _⟩ := homed.sessions w hw
    rw [egressSlot_of_recorded recorded home] at same
    obtain ⟨packet, mapped, inside, record⟩ := recorded
    rw [record, env.record_egress] at same
    rw [record, env.record_pipe] at home
    exact sound.session_unique hv hw (injective.id_eq inside mapped home recorded' home' same)
  inside v hv := by
    obtain ⟨recorded, home, _⟩ := homed.sessions v hv
    rw [egressSlot_of_recorded recorded home]
    obtain ⟨p, mapped, port, vp⟩ := recorded
    have out := env.egress_pipe mapped
    rw [vp, env.record_egress]
    have id := sound.session_id hv
    unfold ids minSessionId featureSize maxFlows numPipes at id
    rw [Finset.mem_Ico] at id
    unfold numPipes at out
    unfold flowIdToRegisterIndex featureSize maxFlows numPipes
    omega

/-- The map is complete in every state of a run that keeps to its pipes. -/
theorem egressDistinct_of_pipeInjective {env : Env} (noSessions : env.useSessions = false)
    (injective : env.devportMapping.PipeInjective) {inputs : List FlowInput}
    (same : SamePipe (inputs.map FlowInput.command)) :
    Exec.Returns flowdbInit fun db =>
      Lib.AllStates (flowdbStep env) FlowDb.EgressDistinct db inputs := by
  obtain ⟨pipeOf, keeps⟩ := same.exists_pipeOf
  apply (flowdbInit_returns env).mono
  intro db start
  obtain ⟨valid, initial, table⟩ := start
  have homed : db.ledger.Homed env pipeOf := by
    rw [initial]
    exact Ledger.initial_homed
  have complete : db.sessionHashtable.EgressComplete := by
    intro b member
    rw [table, sessionHashtableInit_bindings] at member
    exact absurd member (Multiset.notMem_zero b)
  refine Lib.AllStates.of_invariant
    (I := fun db => db.Valid env ∧ db.ledger.Homed env pipeOf ∧
      db.sessionHashtable.EgressComplete) ?_ ?_ ⟨valid, homed, complete⟩
    (Lib.AllSteps.of_forall fun _ input member =>
      keeps input.command (List.mem_map_of_mem member))
  · intro db input holds keepsTo
    obtain ⟨valid, homed, complete⟩ := holds
    apply (flowdbStep_homed noSessions valid homed keepsTo).mono
    intro db' facts
    obtain ⟨valid', homed', kept⟩ := facts
    exact ⟨valid', homed', kept complete (homed.egressInjective injective valid.sound)
      (homed'.egressInjective injective valid'.sound)⟩
  · intro db holds
    obtain ⟨valid, homed, complete⟩ := holds
    refine ⟨?_, complete⟩
    intro v hv w hw different same
    exact different ((homed.egressInjective injective valid.sound).inj v hv w hw same)

/-! ## A collision for every other forwarding table -/

/-- The first flows of two pipes get the lowest sessions of their pipes. -/
theorem sessions_of_two_flows {env : Env} {a b : FiveTuple} {db first second : FlowDb}
    (valid : db.Valid env) (initial : db.ledger = Ledger.initial)
    (portA : a.devPort.toNat < maxDevPortId) (portB : b.devPort.toNat < maxDevPortId)
    (mappedA : env.Mapped a) (mappedB : env.Mapped b) (pipes : a.pipe ≠ b.pipe)
    (keys : a.h ≠ b.h) (noSessions : env.useSessions = false)
    (addedA : flowdbStep env db (.add a portA) = pure first)
    (addedB : flowdbStep env first (.add b portB) = pure second) :
    (env.record a, 4 + a.pipe) ∈ second.ledger.sessions ∧
      (env.record b, 4 + b.pipe) ∈ second.ledger.sessions := by
  obtain ⟨valid', _, _, step⟩ := (flowdbStep_returns valid _).of_pure addedA
  obtain ⟨_, _, adds⟩ := step.adds rfl
  rw [initial] at adds
  obtain ⟨_, count, _, ledger⟩ := adds.of_initial mappedA portA
  obtain ⟨_, _, _, step⟩ := (flowdbStep_returns valid' _).of_pure addedB
  obtain ⟨_, _, adds⟩ := step.adds rfl
  obtain ⟨flowPool, sessionPool⟩ :=
    Ledger.pool_elsewhere portB pipes.symm (Ledger.residentsFrom a.pipe 1).val
  rw [ledger] at adds
  have alone : sessionKey env (env.record a) ≠ sessionKey env b := by
    simp only [sessionKey, noSessions, Bool.false_eq_true, if_false]
    exact fun same => keys (Sum.inr.inj same)
  obtain ⟨_, _, _, ledger'⟩ := adds.creates mappedB portB (by decide) (by decide) flowPool
    sessionPool
    (fun x member => by rw [Multiset.mem_singleton.mp member]; exact keys)
    (fun x member => by rw [Multiset.mem_singleton.mp member]; exact alone)
  rw [ledger']
  refine ⟨Multiset.mem_cons_of_mem (Multiset.mem_singleton_self _), ?_⟩
  have lowest : 4 + b.pipe = 4 * ((0 : Nat) + 1) + b.pipe := by omega
  dsimp only
  rw [lowest]
  exact Multiset.mem_cons_self _ _

/-- Two mapped ports on different pipes whose packets leave on the same pipe give two
sessions with the same slot. -/
theorem pipeInjective_of_egressDistinct {env : Env} (noSessions : env.useSessions = false)
    (distinct : ∀ inputs : List FlowInput, SamePipe (inputs.map FlowInput.command) →
      Exec.Returns flowdbInit fun db =>
        Lib.AllStates (flowdbStep env) FlowDb.EgressDistinct db inputs) :
    env.devportMapping.PipeInjective := by
  intro p hp q hq mappedP mappedQ entries exits
  have portP := FiveTuple.onPort_devPort 0 hp
  have portQ := FiveTuple.onPort_devPort 1 hq
  have mappedA : env.Mapped (.onPort p 0) := by
    unfold Env.Mapped DevportMapping.egress
    rw [portP]
    exact mappedP
  have mappedB : env.Mapped (.onPort q 1) := by
    unfold Env.Mapped DevportMapping.egress
    rw [portQ]
    exact mappedQ
  have pipeA : (FiveTuple.onPort p 0).pipe = devPortToPipe p := by
    unfold FiveTuple.pipe
    rw [portP]
  have pipeB : (FiveTuple.onPort q 1).pipe = devPortToPipe q := by
    unfold FiveTuple.pipe
    rw [portQ]
  have keys : (FiveTuple.onPort p 0).h ≠ (FiveTuple.onPort q 1).h := by
    intro same
    have ports : (0 : UInt16) = 1 := congrArg FiveTupleForHash.srcPort same
    exact absurd ports (by decide)
  have same : SamePipe ([FlowInput.add _ (portP.trans_lt hp), .add _ (portQ.trans_lt hq)].map
      FlowInput.command) := by
    intro first hfirst second hsecond x y hx hy key
    simp only [FlowInput.add, List.map_cons, List.map_nil, List.mem_cons, List.not_mem_nil,
      or_false] at hfirst hsecond
    rcases hfirst with rfl | rfl
    · rcases hsecond with rfl | rfl
      · rw [Option.some.inj hx.symm, Option.some.inj hy.symm]
      · rw [Option.some.inj hx.symm, Option.some.inj hy.symm] at key
        exact absurd key keys
    · rcases hsecond with rfl | rfl
      · rw [Option.some.inj hx.symm, Option.some.inj hy.symm] at key
        exact absurd key.symm keys
      · rw [Option.some.inj hx.symm, Option.some.inj hy.symm]
  obtain ⟨db, init, states⟩ := distinct _ same
  obtain ⟨valid, initial, _⟩ := (flowdbInit_returns env).of_pure init
  obtain ⟨_, first, addedA, _, second, addedB, last⟩ := states
  obtain ⟨liveA, liveB⟩ := sessions_of_two_flows valid initial _ _ mappedA mappedB
    (by rw [pipeA, pipeB]; exact entries) keys noSessions addedA addedB
  refine last.apart _ liveA _ liveB ?_ ?_
  · intro equal
    exact keys (congrArg (fun b : FiveTuple × Int => b.1.h) equal)
  · dsimp only
    unfold egressSlot
    rw [env.record_offset mappedA (portP.trans_lt hp),
      env.record_offset mappedB (portQ.trans_lt hq)]
    unfold DevportMapping.egress
    rw [portP, portQ, exits]
    omega

/-- Without sessions, slots are distinct and mapped in every state of every run that
keeps to its pipes exactly when forwarding is injective on pipes. -/
theorem egressDistinct_iff_pipeInjective (env : Env) (noSessions : env.useSessions = false) :
    (∀ inputs : List FlowInput, SamePipe (inputs.map FlowInput.command) →
      Exec.Returns flowdbInit fun db =>
        Lib.AllStates (flowdbStep env) FlowDb.EgressDistinct db inputs) ↔
    env.devportMapping.PipeInjective :=
  ⟨pipeInjective_of_egressDistinct noSessions,
    fun injective _ same => egressDistinct_of_pipeInjective noSessions injective same⟩

/-- Two ports forwarded to each other. -/
theorem egressDistinct_iff_pipeInjective_twoPorts :
    (Env.twoPorts false).useSessions = false ∧
    ((∀ inputs : List FlowInput, SamePipe (inputs.map FlowInput.command) →
      Exec.Returns flowdbInit fun db =>
        Lib.AllStates (flowdbStep (.twoPorts false)) FlowDb.EgressDistinct db inputs) ↔
    (Env.twoPorts false).devportMapping.PipeInjective) :=
  ⟨rfl, egressDistinct_iff_pipeInjective (.twoPorts false) rfl⟩

end Marina
