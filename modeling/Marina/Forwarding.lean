import Marina.EgressSlots
import Marina.Sharing
import Marina.Traffic

/-!
# The forwarding of packets and of sessions

The last loop of `prepare_dataplane` fills two tables from one list: `forward_table` in the
switch, by which packets go out, and `DEVPORT_MAPPING` in the controller, by which `add_flow`
records where a session is exported. They agree after it (`prepareForwarding_agrees`),
because the switch refuses a second entry for a port and the controller exits.

So it is known where the packets of a live flow are counted: where its session is exported if
they leave on the pipe that was recorded with the session, and otherwise where no session is.
`live_packets_count_for_their_session` goes from the frame through the tables of the switch to
the slot of the session, in every interleaving of the threads.
-/

namespace Marina

open Lib (Exec)

/-! ## The loop -/

/-- `DEVPORT_MAPPING` and the entries of `forward_table`. -/
structure Forwarding where
  devportMapping : DevportMapping
  forwardTable : List ForwardEntry

/-- One turn of the loop. `accepts` says whether the driver adds the entry; the controller
exits when it does not. -/
def Forwarding.install (accepts : List ForwardEntry → ForwardEntry → Bool)
    (forwarding : Forwarding) (entry : ForwardEntry) : Option Forwarding :=
  if accepts forwarding.forwardTable entry then
    some ⟨forwarding.devportMapping.install entry, entry :: forwarding.forwardTable⟩
  else none

/-- The loop, after all entries of `forward_table` are cleared. -/
def prepareForwarding (accepts : List ForwardEntry → ForwardEntry → Bool)
    (forwardEntries : List ForwardEntry) : Option Forwarding :=
  forwardEntries.foldlM (Forwarding.install accepts) ⟨.unmapped, []⟩

/-- An exact table holds one entry for a port. -/
def RefusesDuplicates (accepts : List ForwardEntry → ForwardEntry → Bool) : Prop :=
  ∀ table entry, (∃ other ∈ table, other.fromPort = entry.fromPort) → accepts table entry = false

/-- What `forward_table` finds for a port. -/
def Forwarding.lookup (forwarding : Forwarding) (port : Fin maxDevPortId) :
    Option (Fin maxDevPortId) :=
  (forwarding.forwardTable.find? fun entry => entry.fromPort = port).map ForwardEntry.toPort

/-- The pipeline behind the table, with the port that the default action is given. -/
def Forwarding.config (forwarding : Forwarding) (tables : LogTables)
    (defaultPort : Fin maxDevPortId) : PipelineConfig where
  tables := tables
  ucastEgressPort port := (forwarding.lookup port).getD defaultPort

/-! ## Agreement -/

/-- Both tables say the same of every port. -/
def Forwarding.Agrees (forwarding : Forwarding) : Prop :=
  ∀ entry : ForwardEntry, entry ∈ forwarding.forwardTable ↔
    forwarding.devportMapping.port entry.fromPort.val = entry.toPort.val

section Agreement

variable {accepts : List ForwardEntry → ForwardEntry → Bool} {forwarding forwarding' : Forwarding}
  {entry : ForwardEntry} {entries : List ForwardEntry} {port toPort : Fin maxDevPortId}

theorem Forwarding.unmapped_agrees : Forwarding.Agrees ⟨.unmapped, []⟩ := by
  intro entry
  refine ⟨fun member => absurd member List.not_mem_nil, ?_⟩
  intro mapped
  change (-1 : Int) = entry.toPort.val at mapped
  omega

/-- A turn keeps the agreement, because the port of the new entry has no other entry. -/
theorem Forwarding.Agrees.install (refuses : RefusesDuplicates accepts)
    (agrees : forwarding.Agrees)
    (installed : forwarding.install accepts entry = some forwarding') : forwarding'.Agrees := by
  unfold Forwarding.install at installed
  split at installed
  · rename_i accepted
    rcases Option.some.inj installed with rfl
    intro other
    unfold DevportMapping.install
    dsimp only
    rw [List.mem_cons, agrees other]
    rcases eq_or_ne other.fromPort entry.fromPort with same | apart
    · have absent : other ∉ forwarding.forwardTable := by
        intro member
        rw [refuses _ _ ⟨other, member, same⟩] at accepted
        cases accepted
      rw [agrees other] at absent
      rw [same, Function.update_self]
      rw [same] at absent
      constructor
      · rintro (rfl | mapped)
        · rfl
        · exact absurd mapped absent
      · intro toPort
        refine Or.inl ?_
        rcases other with ⟨fromPort, otherPort⟩
        rcases entry with ⟨fromPort', entryPort⟩
        have ports : entryPort = otherPort := Fin.ext (by exact_mod_cast toPort)
        rw [ports]
        exact congrArg (ForwardEntry.mk · otherPort) same
    · have apart' : other.fromPort.val ≠ entry.fromPort.val := fun same => apart (Fin.ext same)
      rw [Function.update_of_ne apart']
      constructor
      · rintro (rfl | mapped)
        · exact absurd rfl apart
        · exact mapped
      · exact Or.inr
  · cases installed

/-- What is found is what is mapped. -/
theorem Forwarding.Agrees.lookup_eq_some_iff (agrees : forwarding.Agrees) :
    forwarding.lookup port = some toPort ↔ forwarding.devportMapping.port port.val = toPort.val := by
  unfold Forwarding.lookup
  constructor
  · intro found
    obtain ⟨entry, hit, rfl⟩ := Option.map_eq_some_iff.mp found
    have mapped := (agrees entry).mp (List.mem_of_find?_eq_some hit)
    have here : entry.fromPort = port := by simpa using List.find?_some hit
    rwa [here] at mapped
  · intro mapped
    have member := (agrees ⟨port, toPort⟩).mpr mapped
    cases hit : forwarding.forwardTable.find? fun entry => entry.fromPort = port with
    | none => simpa using List.find?_eq_none.mp hit _ member
    | some entry =>
        have here : entry.fromPort = port := by simpa using List.find?_some hit
        have mapped' := (agrees entry).mp (List.mem_of_find?_eq_some hit)
        rw [here, mapped] at mapped'
        rw [Option.map_some, Option.some.injEq]
        exact Fin.ext (by exact_mod_cast mapped'.symm)

/-- A loop that ends has made the tables agree, and the mapping is that of all entries. -/
theorem prepareForwarding_agrees (refuses : RefusesDuplicates accepts)
    (prepared : prepareForwarding accepts entries = some forwarding) :
    forwarding.Agrees ∧ forwarding.devportMapping = prepareDevportMapping entries := by
  unfold prepareForwarding at prepared
  unfold prepareDevportMapping
  have agrees := Forwarding.unmapped_agrees
  have same : (⟨.unmapped, []⟩ : Forwarding).devportMapping = .unmapped := rfl
  rw [← same]
  generalize (⟨.unmapped, []⟩ : Forwarding) = before at prepared agrees
  clear same
  induction entries generalizing before with
  | nil =>
      rcases Option.some.inj prepared with rfl
      exact ⟨agrees, rfl⟩
  | cons entry entries ih =>
      rw [List.foldlM_cons] at prepared
      obtain ⟨after, installed, rest⟩ := Option.bind_eq_some_iff.mp prepared
      have later := ih after rest (agrees.install refuses installed)
      have mapping : after.devportMapping = before.devportMapping.install entry := by
        unfold Forwarding.install at installed
        split at installed
        · rw [← Option.some.inj installed]
        · cases installed
      rw [mapping] at later
      exact later

end Agreement

/-! ## Ports -/

section Ports

variable {forwarding : Forwarding} {tables : LogTables} {defaultPort port : Fin maxDevPortId}

/-- A mapped port is forwarded where it is mapped. -/
theorem Forwarding.Agrees.ucastEgressPort_val (agrees : forwarding.Agrees)
    (mapped : forwarding.devportMapping.port port.val ≠ -1) :
    (((forwarding.config tables defaultPort).ucastEgressPort port).val : Int) =
      forwarding.devportMapping.port port.val := by
  obtain ⟨low, high⟩ := (forwarding.devportMapping.port_range port.val).resolve_left mapped
  have small : (forwarding.devportMapping.port port.val).toNat < maxDevPortId := by omega
  have found : forwarding.lookup port =
      some ⟨(forwarding.devportMapping.port port.val).toNat, small⟩ := by
    rw [agrees.lookup_eq_some_iff]
    exact (Int.toNat_of_nonneg low).symm
  unfold Forwarding.config
  dsimp only
  rw [found, Option.getD_some]
  exact Int.toNat_of_nonneg low

/-- Ports that the mapping keeps apart as the pipes do are aligned. -/
theorem Forwarding.Agrees.aligned (agrees : forwarding.Agrees) {ports : Set (Fin maxDevPortId)}
    (mapped : ∀ p ∈ ports, forwarding.devportMapping.port p.val ≠ -1)
    (out : ∀ p ∈ ports, forwarding.devportMapping.port p.val ≠ cpuPort.val)
    (pipes : ∀ p ∈ ports, ∀ q ∈ ports,
      devPortToPipe (forwarding.devportMapping.port p.val) =
          devPortToPipe (forwarding.devportMapping.port q.val) ↔
        devPortToPipe p.val = devPortToPipe q.val) :
    (forwarding.config tables defaultPort).Aligned ports where
  out p p_mem same := by
    have exit : (((forwarding.config tables defaultPort).ucastEgressPort p).val : Int) =
        forwarding.devportMapping.port p.val := agrees.ucastEgressPort_val (mapped p p_mem)
    apply out p p_mem
    rw [← exit, same]
  pipes p p_mem q q_mem := by
    rw [agrees.ucastEgressPort_val (mapped p p_mem), agrees.ucastEgressPort_val (mapped q q_mem)]
    exact pipes p p_mem q q_mem

end Ports

/-! ## Sessions -/

/-- A packet as the tables of the switch stamp and forward it. -/
def System.bridge (config : PipelineConfig) (system : System) (pipeline : Pipeline)
    (headers : ParsedHeaders) (frame : List UInt8) (ingressPort : Fin maxDevPortId)
    (ingressMacTstamp : Fin (2 ^ 48)) : BridgedPacket :=
  pipeline.bridge config (system.switch.classify (devPortToPipe ingressPort.val) headers) headers
    frame ingressPort ingressMacTstamp

/-- What the switch does with the packets of a flow `b` of session `c`. On every port of the
pipe of the flow they are stamped at the slot of the session. Behind a mapped port they add to
the slot that the session is exported from exactly when they leave on the pipe that was recorded
with it, and are not for the CPU; to the slot of another session they never add. -/
structure System.CountsFor (env : Env) (config : PipelineConfig) (system : System)
    (b c : FiveTuple × Int) : Prop where
  stamped : ∀ headers : ParsedHeaders, headers.classificationKey = some b.1.h.key →
    ∀ ingressPort : Fin maxDevPortId, devPortToPipe ingressPort.val = b.1.pipe →
      registerSlot ingressPort
        (system.switch.classify (devPortToPipe ingressPort.val) headers) = c.2
  counted : ∀ headers : ParsedHeaders, headers.classificationKey = some b.1.h.key →
    ∀ ingressPort : Fin maxDevPortId, devPortToPipe ingressPort.val = b.1.pipe →
    env.devportMapping.port ingressPort.val ≠ -1 →
    ∀ pipeline frame ingressMacTstamp feature,
      (system.bridge config pipeline headers frame ingressPort ingressMacTstamp).counted feature
          (egressSlot c.1 c.2) =
        if env.devportMapping.port ingressPort.val ≠ cpuPort.val ∧
            devPortToPipe (env.devportMapping.port ingressPort.val) =
              devPortToPipe (env.devportMapping.egress c.1) then
          (system.bridge config pipeline headers frame ingressPort ingressMacTstamp).amount feature
        else 0
  others : ∀ headers : ParsedHeaders, headers.classificationKey = some b.1.h.key →
    ∀ ingressPort : Fin maxDevPortId, devPortToPipe ingressPort.val = b.1.pipe →
    env.devportMapping.port ingressPort.val ≠ -1 →
    ∀ pipeline frame ingressMacTstamp feature,
    ∀ d ∈ system.db.sessionHashtable.bindings, d ≠ c →
      (system.bridge config pipeline headers frame ingressPort ingressMacTstamp).counted feature
        (egressSlot d.1 d.2) = 0

/-- Every live flow has a session, and its packets are counted for it. -/
def System.CountsForSessions (env : Env) (config : PipelineConfig) (system : System) : Prop :=
  ∀ b ∈ system.db.flowHashtable.bindings, ∃ c ∈ system.db.sessionHashtable.bindings,
    sessionKey env c.1 = sessionKey env b.1 ∧ system.CountsFor env config b c

section Sessions

variable {env : Env} {keyOf : FiveTupleForHash → SessionKey} {pipeOf : SessionKey → Int}
  {forwarding : Forwarding} {tables : LogTables} {defaultPort ingressPort : Fin maxDevPortId}
  {system : System}

/-- What a packet of a mapped port adds to a slot. -/
theorem Forwarding.Agrees.bridge_counted (agrees : forwarding.Agrees)
    (filled : env.devportMapping = forwarding.devportMapping)
    (mapped : env.devportMapping.port ingressPort.val ≠ -1) (pipeline : Pipeline)
    (headers : ParsedHeaders) (frame : List UInt8) (ingressMacTstamp : Fin (2 ^ 48))
    (feature : Feature) (slot : Int) :
    (system.bridge (forwarding.config tables defaultPort) pipeline headers frame ingressPort
        ingressMacTstamp).counted feature slot =
      if env.devportMapping.port ingressPort.val ≠ cpuPort.val ∧
          4 * system.switch.classify (devPortToPipe ingressPort.val) headers +
            devPortToPipe (env.devportMapping.port ingressPort.val) = slot then
        (system.bridge (forwarding.config tables defaultPort) pipeline headers frame ingressPort
          ingressMacTstamp).amount feature
      else 0 := by
  rw [filled] at mapped ⊢
  have exit : (((forwarding.config tables defaultPort).ucastEgressPort ingressPort).val : Int) =
      forwarding.devportMapping.port ingressPort.val := agrees.ucastEgressPort_val mapped
  have out : (forwarding.config tables defaultPort).ucastEgressPort ingressPort ≠ cpuPort ↔
      forwarding.devportMapping.port ingressPort.val ≠ cpuPort.val := by
    rw [← exit, ne_eq, ne_eq, Fin.ext_iff, Nat.cast_inj]
  unfold BridgedPacket.counted
  refine if_congr (and_congr out ?_) rfl rfl
  rw [← exit]
  rfl

/-- The tables of the switch lead to the slots of the sessions. -/
theorem System.Joined.countsForSessions (agrees : forwarding.Agrees)
    (filled : env.devportMapping = forwarding.devportMapping)
    (injective : env.devportMapping.PipeInjective) (joined : system.Joined env keyOf pipeOf)
    (quiet : system.Quiet) :
    system.CountsForSessions env (forwarding.config tables defaultPort) := by
  intro b flow
  have hits := @System.Joined.hit env keyOf pipeOf system joined quiet b
  rcases joined with ⟨_, installed, final, shares⟩
  rcases (shares.inShare.waiting quiet.waiting).1 b flow with ⟨c, session, known⟩
  have belong := shares.belong
  have home := belong.session_home (belong.flows b flow) session known
  rcases belong.sessions c session with ⟨_, home', recorded⟩
  have index : ∀ headers : ParsedHeaders, headers.classificationKey = some b.1.h.key →
      ∀ port : Fin maxDevPortId, devPortToPipe port.val = b.1.pipe →
        system.switch.classify (devPortToPipe port.val) headers = flowIdToRegisterIndex c.2 := by
    intro headers key port pipe
    rw [pipe]
    exact (hits flow session known key).1
  refine ⟨c, session, known, ?_, ?_, ?_⟩
  · intro headers key port pipe
    rw [index headers key port pipe]
    rw [← pipe] at home
    unfold registerSlot flowIdToRegisterIndex
    unfold flowIdToPipe at home
    omega
  · intro headers key port pipe mapped pipeline frame ingressMacTstamp feature
    rw [agrees.bridge_counted filled mapped, index headers key port pipe,
      egressSlot_of_recorded recorded home']
    exact if_congr (and_congr_right fun _ => Int.add_right_inj _) rfl rfl
  · intro headers key port pipe mapped pipeline frame ingressMacTstamp feature d other apart
    rw [agrees.bridge_counted filled mapped, index headers key port pipe, if_neg]
    rintro ⟨_, same⟩
    rcases belong.sessions d other with ⟨_, homeD, recordedD⟩
    have ids := injective.id_eq port.isLt mapped (home.trans pipe.symm) recordedD homeD same
    exact apart (shares.valid.db.sound.session_unique other session ids.symm)

end Sessions

/-- In either mode, when `prepare_dataplane` has filled both tables and ports of different pipes
are forwarded to different pipes: in every interleaving of both threads in which the five-tuples
of a flow have one session and those of a session one pipe, addresses are clean, nothing is
refused, and no session goes away under its flows, whenever the flow database waits and the
ring is drained, the packets of the live flows are counted for their sessions. -/
theorem live_packets_count_for_their_session (env : Env)
    {accepts : List ForwardEntry → ForwardEntry → Bool} (refuses : RefusesDuplicates accepts)
    {forwardEntries : List ForwardEntry} {forwarding : Forwarding}
    (prepared : prepareForwarding accepts forwardEntries = some forwarding)
    (filled : env.devportMapping = prepareDevportMapping forwardEntries)
    (injective : env.devportMapping.PipeInjective) (tables : LogTables)
    (defaultPort : Fin maxDevPortId) (events : List SystemEvent)
    (same : SameSession env (events.filterMap SystemEvent.command?))
    (clean : ∀ command ∈ events.filterMap SystemEvent.command?, command.Clean) :
    Exec.Returns flowdbInit fun db =>
      Lib.AllSteps (systemStep env) (System.Lasting env) (.start db) events →
        Lib.AllStates (systemStep env)
          (fun system => system.Quiet →
            system.CountsForSessions env (forwarding.config tables defaultPort))
          (.start db) events := by
  rcases prepareForwarding_agrees refuses prepared with ⟨agrees, mapping⟩
  exact System.Joined.run
    (fun _ _ _ joined => joined.countsForSessions agrees (filled.trans mapping.symm) injective)
    same clean

/-- A driver that only refuses duplicates. -/
def acceptsNew (table : List ForwardEntry) (entry : ForwardEntry) : Bool :=
  table.all fun other => other.fromPort ≠ entry.fromPort

theorem acceptsNew_refuses : RefusesDuplicates acceptsNew := by
  intro table entry known
  obtain ⟨other, member, same⟩ := known
  unfold acceptsNew
  rw [List.all_eq_false]
  exact ⟨other, member, by simp [same]⟩

/-- The entries of `Env.twoPorts`, and what the loop makes of them. -/
def twoWayEntries : List ForwardEntry :=
  [⟨lowPort, highPort⟩, ⟨highPort, lowPort⟩]

def twoWay : Forwarding := ⟨(Env.twoPorts true).devportMapping, twoWayEntries.reverse⟩

theorem twoWay_prepared : prepareForwarding acceptsNew twoWayEntries = some twoWay := rfl

theorem twoPorts_pipeInjective : (Env.twoPorts true).devportMapping.PipeInjective := by
  intro p _ q _ mappedP mappedQ entries
  have port : ∀ p : Nat, (Env.twoPorts true).devportMapping.port p =
      if p = 128 then 0 else if p = 0 then 128 else -1 := by
    intro p
    change Function.update (Function.update (fun _ => (-1 : Int)) 0 128) 128 0 p = _
    simp only [Function.update_apply]
  rw [port] at mappedP mappedQ ⊢
  rw [port]
  unfold devPortToPipe at entries ⊢
  split at mappedP <;> split at mappedQ <;> simp_all

/-- Two flows of one client are added and installed between two ports that are forwarded to
each other. -/
theorem live_packets_count_for_their_session_client :
    Exec.Returns flowdbInit fun db =>
      Lib.AllStates (systemStep (.twoPorts true))
        (fun system => system.Quiet →
          system.CountsForSessions (.twoPorts true) (twoWay.config ⟨[], []⟩ lowPort))
        (.start db) twoFlows := by
  rcases live_packets_count_for_their_session (.twoPorts true) acceptsNew_refuses twoWay_prepared
    rfl twoPorts_pipeInjective ⟨[], []⟩ lowPort twoFlows twoFlows_sameSession twoFlows_clean with
    ⟨db, init, counts⟩
  rcases (flowdbInit_returns (.twoPorts true)).of_pure init with ⟨valid, initial, _⟩
  exact ⟨db, init, counts (twoFlows_lasting valid initial)⟩

end Marina
