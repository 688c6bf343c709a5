import Marina.Lockstep
import Marina.Orientation
import Marina.SameKey

/-!
# Classification of packets

`p4/include/classification.p4`: the tables that map a packet to `m.flow_id`, the index of
its registers, over the entries that the controller has installed.

The two sides name a flow differently. The controller goes by the five-tuple in its hash
tables, the data plane by addresses in the other byte order, the ports behind the IP
header, and whether there is a TCP header. `System.Classifies` says that they mean the
same flows, and `classification_follows_flows` that they do whenever the flow database
waits and the ring is drained. `copied_packet_is_classified` closes the loop from a copied
packet through the controller to the tables.
-/

namespace Marina

open Lib (Exec byteAt bytesAt)

/-! ## The tables -/

/-- `tcp: valid`. -/
def ParsedHeaders.tcpValid (headers : ParsedHeaders) : L4Proto :=
  if headers.tcp.isSome then .tcp else .udp

/-- What the tables read, with the addresses as in a `MatchSpec`. -/
def ParsedHeaders.matchSpec (headers : ParsedHeaders) (srcAddr dstAddr : List UInt8) :
    MatchSpec where
  srcAddr := srcAddr.reverse
  dstAddr := dstAddr.reverse
  l4LookupSrc := headers.l4Lookup.src
  l4LookupDst := headers.l4Lookup.dst
  tcpValid := headers.tcpValid

/-- The table that `ingress` applies, and the key it looks up. -/
def ParsedHeaders.classificationKey (headers : ParsedHeaders) : Option (L3Proto × MatchSpec) :=
  match headers.ipv4, headers.ipv6 with
  | some ipv4, _ => some (.ipv4, headers.matchSpec ipv4.srcAddr ipv4.dstAddr)
  | .none, some ipv6 => some (.ipv6, headers.matchSpec ipv6.srcAddr ipv6.dstAddr)
  | .none, .none => .none

/-- The table and the key of an entry. -/
def ClassificationEntry.key (entry : ClassificationEntry) : L3Proto × MatchSpec :=
  (entry.table, entry.matchSpec)

/-- The table and the key that the controller gives to the entry of a flow. -/
def FiveTupleForHash.key (h : FiveTupleForHash) : L3Proto × MatchSpec := (h.l3Proto, h.matchSpec)

/-- `m.flow_id` of a packet on one pipe. A miss leaves it zero, and it is 20 bits wide. -/
def Switch.classify (switch : Switch) (pipe : Int) (headers : ParsedHeaders) : Int :=
  match headers.classificationKey with
  | none => 0
  | some key =>
      match switch.entries.find? fun entry => entry.pipe = pipe ∧ entry.key = key with
      | none => 0
      | some entry => entry.registerIndex % 2 ^ 20

/-! ## Keys -/

/-- The bytes behind an IPv4 address are clear, as `packet_handler` leaves them. -/
def FiveTupleForHash.Clean (h : FiveTupleForHash) : Prop :=
  h.l3Proto = .ipv4 → h.srcAddr = .ofBytes (h.srcAddr.bytes.toList.take 4) ∧
    h.dstAddr = .ofBytes (h.dstAddr.bytes.toList.take 4)

section Keys

variable {h h' : FiveTupleForHash} {headers : ParsedHeaders}

theorem Address.toList_ofBytes_ipv4 {bytes : List UInt8} (length : bytes.length = 4) :
    (Address.ofBytes bytes).bytes.toList.take 4 = bytes := by
  obtain ⟨a, b, c, d, rfl⟩ := List.length_eq_four.mp length
  rfl

theorem Address.toList_ofBytes_ipv6 {bytes : List UInt8} (length : bytes.length = 16) :
    (Address.ofBytes bytes).bytes.toList = bytes := by
  unfold Address.ofBytes
  dsimp only
  rw [Vector.toList_ofFn]
  refine List.ext_getElem ?_ ?_
  · rw [List.length_ofFn, length]
  · intro i _ inside
    rw [List.getElem_ofFn, List.getD_eq_getElem _ _ inside]

/-- Flows with clean addresses have different keys. -/
theorem FiveTupleForHash.key_injective (clean : h.Clean) (clean' : h'.Clean)
    (same : h.key = h'.key) : h = h' := by
  unfold FiveTupleForHash.key FiveTupleForHash.matchSpec at same
  simp only [Prod.mk.injEq, MatchSpec.mk.injEq] at same
  obtain ⟨proto, src, dst, srcPort, dstPort, l4Proto⟩ := same
  rw [← proto] at src dst
  have addresses : h.srcAddr = h'.srcAddr ∧ h.dstAddr = h'.dstAddr := by
    cases version : h.l3Proto with
    | ipv4 =>
        rw [version] at src dst proto
        obtain ⟨srcClean, dstClean⟩ := clean version
        obtain ⟨srcClean', dstClean'⟩ := clean' proto.symm
        rw [srcClean, dstClean, srcClean', dstClean', List.reverse_injective src,
          List.reverse_injective dst]
        exact ⟨rfl, rfl⟩
    | ipv6 =>
        rw [version] at src dst
        have whole : ∀ a b : Address, a.swapped .ipv6 = b.swapped .ipv6 → a = b := by
          intro a b reversed
          have lists : a.bytes.toList = b.bytes.toList := List.reverse_injective reversed
          rcases a with ⟨a⟩
          rcases b with ⟨b⟩
          exact congrArg Address.mk (Vector.toList_inj.mp lists)
        exact ⟨whole _ _ src, whole _ _ dst⟩
  rcases h with ⟨hsrc, hdst, hsp, hdp, hl3, hl4⟩
  rcases h' with ⟨hsrc', hdst', hsp', hdp', hl3', hl4'⟩
  simp_all

/-- The addresses of a parsed packet have the length of their protocol. -/
theorem length_addresses {frame : List UInt8} (parsed : parseStart frame = some headers)
    (valid : headers.tcp.isSome = true ∨ headers.udp.isSome = true) :
    (∀ ipv4, headers.ipv4 = some ipv4 → ipv4.srcAddr.length = 4 ∧ ipv4.dstAddr.length = 4) ∧
      ∀ ipv6, headers.ipv6 = some ipv6 → ipv6.srcAddr.length = 16 ∧ ipv6.dstAddr.length = 16 := by
  rcases parseStart_eq_some parsed valid with ⟨_, ipv4, ipv6, _⟩ | ⟨_, ipv6, ipv4, _⟩
  · rw [ipv4, ipv6]
    refine ⟨fun header present => ?_, fun header present => nomatch present⟩
    cases present
    exact ⟨rfl, rfl⟩
  · rw [ipv4, ipv6]
    refine ⟨fun header present => (nomatch present), fun header present => ?_⟩
    cases present
    exact ⟨rfl, rfl⟩

/-- Where controller and data plane read the same fields, they look up the same key, and it
is clean. -/
theorem SameKey.classificationKey {frame : List UInt8} {ingressPort : Fin maxDevPortId}
    {ingressMacTstamp : Fin (2 ^ 48)} {fiveTuple : FiveTuple}
    (same : SameKey headers ingressPort ingressMacTstamp fiveTuple)
    (parsed : parseStart frame = some headers)
    (valid : headers.tcp.isSome = true ∨ headers.udp.isSome = true) :
    headers.classificationKey = some fiveTuple.h.key ∧ fiveTuple.h.Clean := by
  obtain ⟨length4, length6⟩ := length_addresses parsed valid
  have tcpValid : headers.tcpValid = fiveTuple.h.l4Proto := by
    unfold ParsedHeaders.tcpValid
    split
    · rename_i present
      exact (same.tcpValid.mpr present).symm
    · rename_i absent
      cases proto : fiveTuple.h.l4Proto with
      | udp => rfl
      | tcp => exact absurd (same.tcpValid.mp proto) absent
  unfold ParsedHeaders.classificationKey ParsedHeaders.matchSpec FiveTupleForHash.key
    FiveTupleForHash.matchSpec FiveTupleForHash.Clean
  rcases parseStart_eq_some parsed valid with ⟨_, ipv4, _⟩ | ⟨_, ipv6, ipv4, _⟩
  · obtain ⟨proto, src, dst⟩ := same.ipv4 _ ipv4
    obtain ⟨srcLength, dstLength⟩ := length4 _ ipv4
    rw [ipv4]
    dsimp only
    rw [proto, src, dst, same.srcPort, same.dstPort, tcpValid]
    unfold Address.swapped
    dsimp only
    rw [Address.toList_ofBytes_ipv4 srcLength, Address.toList_ofBytes_ipv4 dstLength]
    exact ⟨rfl, fun _ => ⟨rfl, rfl⟩⟩
  · obtain ⟨proto, src, dst⟩ := same.ipv6 _ ipv6
    obtain ⟨srcLength, dstLength⟩ := length6 _ ipv6
    rw [ipv4, ipv6]
    dsimp only
    rw [proto, src, dst, same.srcPort, same.dstPort, tcpValid]
    unfold Address.swapped
    dsimp only
    rw [Address.toList_ofBytes_ipv6 srcLength, Address.toList_ofBytes_ipv6 dstLength]
    exact ⟨rfl, fun impossible => by cases impossible⟩

end Keys

/-! ## Looking a packet up -/

section Lookup

variable {switch : Switch} {installed : Installed} {headers : ParsedHeaders}

/-- A packet with the key of an installed five-tuple gets its session, if no other session is
installed under that key. -/
theorem Switch.Matches.classify_of_held (matched : switch.Matches installed) {flowId : Int}
    {owner : FiveTuple × Int} (held : installed flowId = some owner)
    (alone : ∀ id other, installed id = some other → other.1.h.key = owner.1.h.key →
      other.2 = owner.2)
    (key : headers.classificationKey = some owner.1.h.key) :
    switch.classify owner.1.pipe headers = flowIdToRegisterIndex owner.2 % 2 ^ 20 := by
  have entry := matched.complete flowId owner held
  unfold Switch.classify
  rw [key]
  dsimp only
  cases found : switch.entries.find? fun entry =>
      entry.pipe = owner.1.pipe ∧ entry.key = owner.1.h.key with
  | none =>
      have missed := List.find?_eq_none.mp found _ entry
      simp [classificationEntry, ClassificationEntry.key, FiveTupleForHash.key] at missed
  | some other =>
      have hit := List.find?_some found
      rw [decide_eq_true_iff] at hit
      rcases matched.follows other (List.mem_of_find?_eq_some found) with ⟨owner', held', eq⟩
      have keys : owner'.1.h.key = owner.1.h.key := by
        rw [← hit.2, eq]
        rfl
      have index : other.registerIndex = flowIdToRegisterIndex owner.2 := by
        rw [eq, ← alone _ _ held' keys]
        rfl
      dsimp only
      rw [index]

/-- A packet with the key of nothing that is installed on the pipe misses. -/
theorem Switch.Matches.classify_of_unheld (matched : switch.Matches installed) {pipe : Int}
    (absent : ∀ id owner, installed id = some owner → owner.1.pipe = pipe →
      headers.classificationKey ≠ some owner.1.h.key) : switch.classify pipe headers = 0 := by
  unfold Switch.classify
  cases looked : headers.classificationKey with
  | none => rfl
  | some key =>
      dsimp only
      cases found : switch.entries.find? fun entry => entry.pipe = pipe ∧ entry.key = key with
      | none => rfl
      | some entry =>
          have hit := List.find?_some found
          rw [decide_eq_true_iff] at hit
          rcases matched.follows entry (List.mem_of_find?_eq_some found) with ⟨owner, held, eq⟩
          rw [eq] at hit
          refine absurd ?_ (absent _ owner held hit.1)
          rw [looked, ← hit.2]
          rfl

end Lookup

/-! ## Tables and flows -/

/-- The command adds only flows with clean addresses. -/
def FlowCommand.Clean (command : FlowCommand) : Prop :=
  ∀ packet, command = .addFlow packet → packet.h.Clean

/-- The tables mean the live flows: a packet of one is classified to the registers of its
session, every other packet misses, and no two flows of a pipe share their registers. -/
structure System.Classifies (system : System) : Prop where
  hit : ∀ b ∈ system.db.flowHashtable.bindings, ∀ c ∈ system.db.sessionHashtable.bindings,
    c.1.h = b.1.h → ∀ headers : ParsedHeaders, headers.classificationKey = some b.1.h.key →
      system.switch.classify b.1.pipe headers = flowIdToRegisterIndex c.2 ∧
        0 < flowIdToRegisterIndex c.2
  miss : ∀ pipe (headers : ParsedHeaders),
    (∀ b ∈ system.db.flowHashtable.bindings, b.1.pipe = pipe →
      headers.classificationKey ≠ some b.1.h.key) → system.switch.classify pipe headers = 0
  apart : ∀ b ∈ system.db.sessionHashtable.bindings, ∀ c ∈ system.db.sessionHashtable.bindings,
    b.1.pipe = c.1.pipe → flowIdToRegisterIndex b.2 = flowIdToRegisterIndex c.2 → b = c

namespace System

variable {env : Env} {pipeOf : FiveTupleForHash → Int} {system system' : System}
  {event : SystemEvent} {installed final : Installed} {b : FiveTuple × Int}

/-- The flows of the next state are live already, or added with the event. -/
theorem flows_of_move (move : ThreadMove env system event system')
    (member : b ∈ system'.db.ledger.flows) :
    b ∈ system.db.ledger.flows ∨
      ∃ packet, event.command? = some (.addFlow packet) ∧ b.1.h = packet.h := by
  cases move with
  | stays _ => exact Or.inl member
  | @add input packet db put _ command adds =>
      have carries : SystemEvent.command? (.packet input) = some (.addFlow packet) :=
        congrArg some command
      rw [putAny_db] at member
      have placed : ∀ {ledger flowId rest},
          ledger.flows = system.db.ledger.flows →
          b ∈ (Ledger.placeFlow ledger (env.record packet) flowId rest).flows →
          b ∈ system.db.ledger.flows ∨ ∃ packet,
            SystemEvent.command? (.packet input) = some (.addFlow packet) ∧ b.1.h = packet.h := by
        intro ledger flowId rest same live
        rcases Multiset.mem_cons.mp live with rfl | old
        · exact Or.inr ⟨packet, carries, rfl⟩
        · rw [same] at old
          exact Or.inl old
      change b ∈ db.ledger.flows at member
      generalize db.ledger = ledger' at adds member
      cases adds with
      | unmapped _ => exact Or.inl member
      | noFlowId _ _ => exact Or.inl member
      | known _ _ _ _ => exact Or.inl member
      | noSessionId _ _ _ => exact placed rfl member
      | placed _ _ session => exact placed session.flows_eq member
      | refused _ _ session =>
          rw [session.flows_eq] at member
          exact Or.inl member
  | release _ _ release =>
      refine Or.inl ?_
      rw [release.flows_eq.1]
      exact Multiset.mem_cons_of_mem member
  | put _ _ =>
      rw [put_db] at member
      exact Or.inl member
  | clean _ cleanup =>
      dsimp only at member
      rw [putAny_db] at member
      change b ∈ Ledger.flows _ at member
      refine Or.inl ?_
      rw [← cleanup.flows_eq.1]
      exact member
  | bloomFilter _ _ _ =>
      rw [put_db] at member
      exact Or.inl member
  | dataplane _ _ => exact Or.inl member

/-- Every live flow has clean addresses. -/
def Clean (system : System) : Prop := ∀ b ∈ system.db.ledger.flows, b.1.h.Clean

theorem Clean.move (clean : system.Clean)
    (adds : ∀ command, event.command? = some command → command.Clean)
    (move : ThreadMove env system event system') : system'.Clean := by
  intro b member
  rcases flows_of_move move member with live | ⟨packet, command, key⟩
  · exact clean b live
  · rw [key]
    exact adds _ command packet rfl

/-- Ids of one pipe have different registers, none of them the first. -/
theorem register_of_id {id : Int} (member : id ∈ Ledger.ids) :
    0 < flowIdToRegisterIndex id ∧ flowIdToRegisterIndex id % 2 ^ 20 = flowIdToRegisterIndex id := by
  unfold Ledger.ids at member
  obtain ⟨low, high⟩ := Finset.mem_Ico.mp member
  unfold minSessionId at low
  unfold featureSize maxFlows numPipes at high
  unfold flowIdToRegisterIndex
  constructor
  · omega
  · apply Int.emod_eq_of_lt <;> omega

/-- A flow that the tables hold is found by its own key. -/
theorem Follows.classify_of_mem (follows : system.Follows env pipeOf installed final)
    (clean : system.Clean) (place : system.pc = .waiting) (drained : system.ring = [])
    (member : b ∈ system.db.ledger.flows) {headers : ParsedHeaders}
    (key : headers.classificationKey = some b.1.h.key) :
    system.switch.classify b.1.pipe headers = flowIdToRegisterIndex b.2 := by
  obtain ⟨_, holds⟩ := follows.inStep.waiting place
  have drains := follows.drains
  rw [drained] at drains
  obtain rfl := drains.eq_of_nil
  have held := (holds b.2 b).mpr ⟨rfl, member⟩
  have found := follows.matched.classify_of_held held (fun id other held' keys => ?_) key
  · rw [found]
    exact (register_of_id (follows.valid.db.sound.flow_id member)).2
  · obtain ⟨same, live⟩ := (holds id other).mp held'
    have flow := FiveTupleForHash.key_injective (clean _ live) (clean _ member) keys
    rw [same, ← follows.valid.db.keyed.flows _ live _ member flow]

theorem Follows.classify_of_absent (follows : system.Follows env pipeOf installed final)
    (place : system.pc = .waiting) (drained : system.ring = []) {pipe : Int}
    {headers : ParsedHeaders}
    (absent : ∀ b ∈ system.db.ledger.flows, b.1.pipe = pipe →
      headers.classificationKey ≠ some b.1.h.key) : system.switch.classify pipe headers = 0 := by
  obtain ⟨_, holds⟩ := follows.inStep.waiting place
  have drains := follows.drains
  rw [drained] at drains
  obtain rfl := drains.eq_of_nil
  apply follows.matched.classify_of_unheld
  intro id owner held
  obtain ⟨_, live⟩ := (holds id owner).mp held
  exact absent (owner.1, id) live

theorem Follows.classifies (follows : system.Follows env pipeOf installed final)
    (clean : system.Clean) (place : system.pc = .waiting) (drained : system.ring = []) :
    system.Classifies := by
  obtain ⟨twin, _⟩ := follows.inStep.waiting place
  have tables : system.db.sessionHashtable.bindings = system.db.flowHashtable.bindings :=
    twin.sessions
  refine ⟨?_, ?_, ?_⟩
  · intro b member c session same headers key
    rw [tables] at session
    obtain rfl := follows.valid.db.keyed.flows c session b member same
    exact ⟨follows.classify_of_mem clean place drained member key,
      (register_of_id (follows.valid.db.sound.flow_id member)).1⟩
  · intro pipe headers absent
    exact follows.classify_of_absent place drained absent
  · intro b hb c hc pipe index
    obtain ⟨_, home, _⟩ := follows.homed.sessions b hb
    obtain ⟨_, home', _⟩ := follows.homed.sessions c hc
    apply follows.valid.db.sound.session_unique hb hc
    unfold flowIdToRegisterIndex at index
    unfold flowIdToPipe at home home'
    omega

end System

/-! ## Runs -/

section Runs

variable {env : Env} {pipeOf : FiveTupleForHash → Int} {system system' : System}
  {event : SystemEvent}

/-- What an undisturbed run keeps. -/
def System.Tracked (env : Env) (pipeOf : FiveTupleForHash → Int) (system : System) : Prop :=
  system.Clean ∧ ∃ installed final, system.Follows env pipeOf installed final

/-- The commands of the event keep to their pipes and add clean addresses. -/
def SystemEvent.Proper (pipeOf : FiveTupleForHash → Int) (event : SystemEvent) : Prop :=
  ∀ command, event.command? = some command → command.KeepsTo pipeOf ∧ command.Clean

theorem System.start_tracked {db : FlowDb} (valid : db.Valid env)
    (initial : db.ledger = Ledger.initial) : (System.start db).Tracked env pipeOf := by
  refine ⟨?_, _, _, System.start_follows valid initial⟩
  intro b member
  change b ∈ db.ledger.flows at member
  rw [initial] at member
  exact absurd member (Multiset.notMem_zero b)

theorem System.Tracked.step (noSessions : env.useSessions = false)
    (tracked : system.Tracked env pipeOf) (proper : event.Proper pipeOf)
    (calm : system.Undisturbed env event) :
    Exec.Returns (systemStep env system event) fun system' =>
      system'.Tracked env pipeOf ∧ ThreadMove env system event system' := by
  obtain ⟨clean, installed, final, follows⟩ := tracked
  have keeps := fun command carries => (proper command carries).1
  obtain ⟨system', next, valid', move⟩ := (systemStep_moves follows.valid event).returns
    (follows.not_overflows noSessions keeps)
  refine ⟨system', next, ⟨clean.move (fun command carries => (proper command carries).2) move, ?_⟩,
    move⟩
  exact follows.move noSessions keeps valid' (calm.accepted system' next) calm.fresh move

theorem System.Tracked.classifies (tracked : system.Tracked env pipeOf)
    (place : system.pc = .waiting) (drained : system.ring = []) : system.Classifies := by
  obtain ⟨clean, installed, final, follows⟩ := tracked
  exact follows.classifies clean place drained

/-- All commands of a run keep to one pipe for each key, and add clean addresses. -/
theorem SamePipe.exists_proper {events : List SystemEvent}
    (same : SamePipe (events.filterMap SystemEvent.command?))
    (clean : ∀ command ∈ events.filterMap SystemEvent.command?, command.Clean) :
    ∃ pipeOf, ∀ event ∈ events, event.Proper pipeOf := by
  obtain ⟨pipeOf, keeps⟩ := same.exists_pipeOf
  refine ⟨pipeOf, fun event member command carries => ?_⟩
  have held := List.mem_filterMap.mpr ⟨event, member, carries⟩
  exact ⟨keeps command held, clean command held⟩

/-- An undisturbed run leads to a tracked system. -/
theorem System.Tracked.of_run (noSessions : env.useSessions = false) {db : FlowDb}
    (valid : db.Valid env) (initial : db.ledger = Ledger.initial) {events : List SystemEvent}
    (proper : ∀ event ∈ events, event.Proper pipeOf)
    (undisturbed : Lib.AllSteps (systemStep env) (System.Undisturbed env) (.start db) events)
    (run : events.foldlM (systemStep env) (.start db) = pure system) :
    system.Tracked env pipeOf := by
  have properly : Lib.AllSteps (systemStep env) (fun _ event => event.Proper pipeOf)
      (.start db) events := .of_forall fun _ event member => proper event member
  refine Lib.AllSteps.holds_after (I := System.Tracked env pipeOf) ?_
    (System.start_tracked valid initial) (undisturbed.and properly) run
  intro system event system' tracked ok next
  exact ((tracked.step noSessions ok.2 ok.1).of_pure next).1

/-- Without sessions, what holds of every tracked system holds in every state of every
undisturbed run in which flows keep to their pipes and addresses are clean. -/
theorem System.Tracked.run (noSessions : env.useSessions = false) {p : System → Prop}
    (holds : ∀ pipeOf system, System.Tracked env pipeOf system → p system)
    {events : List SystemEvent} (same : SamePipe (events.filterMap SystemEvent.command?))
    (clean : ∀ command ∈ events.filterMap SystemEvent.command?, command.Clean) :
    Exec.Returns flowdbInit fun db =>
      Lib.AllSteps (systemStep env) (System.Undisturbed env) (.start db) events →
        Lib.AllStates (systemStep env) p (.start db) events := by
  obtain ⟨pipeOf, proper⟩ := same.exists_proper clean
  apply (flowdbInit_returns env).mono
  intro db start undisturbed
  obtain ⟨valid, initial, _⟩ := start
  have properly : Lib.AllSteps (systemStep env) (fun _ event => event.Proper pipeOf)
      (.start db) events := .of_forall fun _ event member => proper event member
  refine Lib.AllStates.of_invariant (I := System.Tracked env pipeOf) ?_ (holds pipeOf)
    (System.start_tracked valid initial) (undisturbed.and properly)
  intro system event tracked ok
  exact (tracked.step noSessions ok.2 ok.1).mono fun _ kept => kept.1

end Runs

/-- Nothing disturbs the first add and its installation. -/
theorem System.undisturbed_first {env : Env} {db : FlowDb} (valid : db.Valid env)
    (input : FlowInput) (entryHdl : UInt32) :
    Lib.AllSteps (systemStep env) (System.Undisturbed env) (.start db)
      [.packet input, .dataplane entryHdl] := by
  have start := System.start_valid valid
  have room : (System.start db).HasRoom := by
    show 0 < dataplaneRingbufferSize
    decide
  refine ⟨System.undisturbed_of_room start room (fun _ _ _ other => by cases other), ?_⟩
  intro middle next
  obtain ⟨valid', move⟩ := (systemStep_moves start _).of_pure next
  have short : middle.ring.length ≤ 1 := move.ring_length_le
  have bound : 1 < dataplaneRingbufferSize := by decide
  refine ⟨System.undisturbed_of_room valid' (short.trans_lt bound) ?_, fun _ _ => True.intro⟩
  intro hdl command rest _ _
  rw [move.switch_eq (fun _ other => by cases other)]
  cases command with
  | addFlow _ _ _ =>
      intro entry member
      cases member
  | _ => exact True.intro

/-- A run with one command for one flow keeps to its pipe. -/
theorem samePipe_single (input : FlowInput) (entryHdl : UInt32) :
    SamePipe ([SystemEvent.packet input, .dataplane entryHdl].filterMap SystemEvent.command?) := by
  have only : [SystemEvent.packet input, .dataplane entryHdl].filterMap SystemEvent.command? =
      [input.command] := rfl
  rw [only]
  intro first hfirst second hsecond a b ha hb _
  rw [List.mem_singleton.mp hfirst] at ha
  rw [List.mem_singleton.mp hsecond, ha] at hb
  rw [Option.some.inj hb]

/-- The five-tuple that a command carries. -/
def PacketCommand.fiveTuple : PacketCommand → FiveTuple
  | .addFlow fiveTuple => fiveTuple
  | .removeFlow fiveTuple => fiveTuple
  | .fixBloomFilterRelevant fiveTuple => fiveTuple
  | .addBloomFilterIrrelevant fiveTuple => fiveTuple

/-- A frame is copied to the CPU, and `packet_handler` answers the copy with the command. -/
structure CopyAnswered (env : Env) (frame : List UInt8) (headers : ParsedHeaders)
    (ingressPort : Fin maxDevPortId) (command : PacketCommand) : Prop where
  parsed : parseStart frame = some headers
  copied : ∃ flowId notIn reason, ingressCopies headers flowId notIn = some reason
  inPlace : PortsInPlace headers frame
  handled : ∃ ingressMacTstamp flows murmur table now uninitialised commands items,
    packetHandler env flows murmur table now uninitialised
        (cpuFrame frame ingressPort ingressMacTstamp) = pure (commands, items) ∧
      command ∈ commands

/-- Packets with the key of `headers` on the port are classified, and copied with FIN only. -/
def System.Learned (ingressPort : Fin maxDevPortId) (headers : ParsedHeaders) (system : System) :
    Prop :=
  ∀ later : ParsedHeaders, later.classificationKey = headers.classificationKey →
    0 < system.switch.classify (devPortToPipe ingressPort) later ∧
      ∀ notIn reason,
        ingressCopies later (system.switch.classify (devPortToPipe ingressPort) later).toNat notIn =
          some reason → reason = .tcpFin

section Learning

variable {env : Env} {pipeOf : FiveTupleForHash → Int} {system : System} {frame : List UInt8}
  {headers : ParsedHeaders} {ingressPort : Fin maxDevPortId} {fiveTuple : FiveTuple}
  {input : FlowInput}

/-- All commands for a packet carry its five-tuple. -/
theorem processPacket_fiveTuple {flows : FlowHashtable} {murmur : DnsHashtableKey → UInt32}
    {table : DnsHashtable} {now : Int} {tcpFlags : Option UInt8} {commands : List PacketCommand}
    {items : List DnsItem} (processed : processPacket env flows murmur table now fiveTuple tcpFlags =
      pure (commands, items)) : ∀ command ∈ commands, command.fiveTuple = fiveTuple := by
  rcases processPacket_cases processed with ⟨rfl, _⟩ | ⟨rfl, _⟩ | ⟨relevant, _, rfl⟩
  · simp
  · simp [PacketCommand.fiveTuple]
  · cases relevant <;> split <;> simp [PacketCommand.fiveTuple]

/-- The command is for the packet's key, and the port it came in on. -/
theorem CopyAnswered.key {command : PacketCommand}
    (answered : CopyAnswered env frame headers ingressPort command) :
    headers.classificationKey = some command.fiveTuple.h.key ∧ command.fiveTuple.h.Clean ∧
      command.fiveTuple.pipe = devPortToPipe ingressPort := by
  obtain ⟨flowId, notIn, reason, copied⟩ := answered.copied
  obtain ⟨ingressMacTstamp, flows, murmur, table, now, uninitialised, commands, items, handled,
    put⟩ := answered.handled
  have valid := ingressCopies_valid copied
  obtain ⟨original, tcpFlags, read, passes⟩ :=
    (passesSameKey_iff answered.parsed valid ingressPort ingressMacTstamp uninitialised).mpr
      answered.inPlace
  unfold packetHandler at handled
  rw [read, pure_bind] at handled
  obtain ⟨passed, setup, processed⟩ := Exec.bind_eq_pure.mp handled
  rw [processPacket_fiveTuple processed command put]
  have same := passes murmur table _ setup
  obtain ⟨key, clean⟩ := same.classificationKey answered.parsed valid
  refine ⟨key, clean, ?_⟩
  unfold FiveTuple.pipe
  rw [same.devPort]

/-- With an id to spare, an undisturbed add leaves the flow live, and at most one command to
execute. -/
theorem System.Tracked.add (noSessions : env.useSessions = false)
    (tracked : system.Tracked env pipeOf) (place : system.pc = .waiting)
    (drained : system.ring = []) (command : input.command = .addFlow fiveTuple)
    (mapped : env.Mapped fiveTuple) (free : system.db.ledger.flowPool fiveTuple.pipe ≠ 0)
    (proper : (SystemEvent.packet input).Proper pipeOf)
    (calm : system.Undisturbed env (.packet input)) :
    Exec.Returns (systemStep env system (.packet input)) fun system' =>
      system'.Tracked env pipeOf ∧ system'.pc = .waiting ∧ system'.ring.length ≤ 1 ∧
        ∃ b ∈ system'.db.ledger.flows, b.1.h = fiveTuple.h := by
  apply (tracked.step noSessions proper calm).mono
  intro system' facts
  obtain ⟨tracked', move⟩ := facts
  obtain ⟨db, put, rfl, adds⟩ := move.adds place command
  have short : (System.putAny { system with db := db } put).ring.length ≤ 1 := by
    have bound := move.ring_length_le
    rw [drained] at bound
    rw [drained]
    exact bound
  have room : system.HasRoom := by
    unfold System.HasRoom
    rw [drained]
    decide
  refine ⟨tracked', ?_, short, ?_⟩
  · rw [System.putAny_pc]
    exact place
  · rw [System.putAny_db]
    change ∃ b ∈ db.ledger.flows, b.1.h = fiveTuple.h
    obtain ⟨_, _, _, follows⟩ := tracked
    obtain ⟨twin, _⟩ := follows.inStep.waiting place
    generalize db.ledger = ledger at adds
    cases adds with
    | unmapped unmapped => exact absurd mapped unmapped
    | noFlowId _ empty => exact absurd empty free
    | known _ _ member same => exact ⟨_, member, same⟩
    | noSessionId _ _ empty =>
        rw [twin.pools] at empty
        exact absurd empty free
    | placed _ _ _ => exact ⟨_, Multiset.mem_cons_self _ _, rfl⟩
    | refused _ full _ => exact absurd room (of_decide_eq_false full)

/-- The data plane thread executes the last command. -/
theorem System.Tracked.drain (noSessions : env.useSessions = false)
    (tracked : system.Tracked env pipeOf) (short : system.ring.length ≤ 1) {entryHdl : UInt32}
    (calm : system.Undisturbed env (.dataplane entryHdl)) :
    Exec.Returns (systemStep env system (.dataplane entryHdl)) fun system' =>
      system'.Tracked env pipeOf ∧ system'.pc = system.pc ∧ system'.ring = [] ∧
        system'.db = system.db := by
  have proper : (SystemEvent.dataplane entryHdl).Proper pipeOf := by
    intro _ carries
    cases carries
  apply (tracked.step noSessions proper calm).mono
  intro system' facts
  obtain ⟨tracked', move⟩ := facts
  refine ⟨tracked', ?_⟩
  cases move with
  | stays stays =>
      cases stays with
      | empty _ nothing => exact ⟨rfl, nothing, rfl⟩
  | dataplane _ taken =>
      rw [taken, List.length_cons] at short
      have rest := Nat.le_of_succ_le_succ short
      exact ⟨rfl, List.length_eq_zero_iff.mp (Nat.le_zero.mp rest), rfl⟩

/-- A live flow is classified on its pipe. -/
theorem System.Classifies.learned (classifies : system.Classifies)
    (twin : system.db.ledger.Twin) {b : FiveTuple × Int} (member : b ∈ system.db.ledger.flows)
    (pipe : b.1.pipe = devPortToPipe ingressPort)
    (key : headers.classificationKey = some b.1.h.key) : system.Learned ingressPort headers := by
  intro later same
  have session : b ∈ system.db.sessionHashtable.bindings := by
    change b ∈ system.db.ledger.sessions
    rw [twin.sessions]
    exact member
  obtain ⟨index, positive⟩ := classifies.hit b member b session rfl later (same.trans key)
  rw [pipe] at index
  rw [index]
  refine ⟨positive, ?_⟩
  intro notIn reason copied
  unfold ingressCopies at copied
  rw [if_neg (by omega)] at copied
  split at copied
  · exact (Option.some.inj copied).symm
  · cases copied

end Learning

/-- In every undisturbed run without sessions, when a copied packet is answered with an add of
its flow while the flow database waits and the ring is drained, the flow database and the
data plane thread need one step each until all packets of the flow are classified to
registers of their own, and copied to the CPU with FIN only. -/
theorem copied_packet_is_classified (env : Env) (noSessions : env.useSessions = false)
    (before : List SystemEvent) (input : FlowInput) (entryHdl : UInt32)
    (same : SamePipe ((before ++ [SystemEvent.packet input, .dataplane entryHdl]).filterMap
      SystemEvent.command?))
    (clean : ∀ command ∈ before.filterMap SystemEvent.command?, command.Clean)
    (frame : List UInt8) (headers : ParsedHeaders) (ingressPort : Fin maxDevPortId)
    (fiveTuple : FiveTuple) (command : input.command = .addFlow fiveTuple)
    (adds : CopyAnswered env frame headers ingressPort (.addFlow fiveTuple))
    (mapped : env.Mapped fiveTuple) :
    Exec.Returns flowdbInit fun db =>
      Lib.AllSteps (systemStep env) (System.Undisturbed env) (.start db)
        (before ++ [.packet input, .dataplane entryHdl]) →
      ∀ system, before.foldlM (systemStep env) (.start db) = pure system →
        system.pc = .waiting → system.ring = [] → (system.db.flowIdHeap fiveTuple.pipe).ids ≠ 0 →
        Exec.Returns ([SystemEvent.packet input, .dataplane entryHdl].foldlM (systemStep env) system)
          (System.Learned ingressPort headers) := by
  obtain ⟨key, cleanTuple, pipe⟩ := adds.key
  have clean' : ∀ command ∈ (before ++ [SystemEvent.packet input, .dataplane entryHdl]).filterMap
      SystemEvent.command?, command.Clean := by
    intro other member packet isAdd
    rw [List.filterMap_append, List.mem_append] at member
    rcases member with earlier | last
    · exact clean other earlier packet isAdd
    · have only : [SystemEvent.packet input, .dataplane entryHdl].filterMap SystemEvent.command? =
          [input.command] := rfl
      rw [only, List.mem_singleton] at last
      rw [last, command] at isAdd
      cases isAdd
      exact cleanTuple
  obtain ⟨pipeOf, proper⟩ := same.exists_proper clean'
  have properPacket : (SystemEvent.packet input).Proper pipeOf :=
    proper _ (List.mem_append_right _ List.mem_cons_self)
  apply (flowdbInit_returns env).mono
  intro db start undisturbed system run place drained free
  obtain ⟨valid, initial, _⟩ := start
  have tracked : system.Tracked env pipeOf := System.Tracked.of_run noSessions valid initial
    (fun event member => proper event (List.mem_append_left _ member)) undisturbed.of_append run
  obtain ⟨calm, later⟩ := undisturbed.after run
  obtain ⟨middle, next, tracked', place', short, b, member, flow⟩ :=
    tracked.add noSessions place drained command mapped free properPacket calm
  obtain ⟨final, next', tracked'', samePlace, drained', sameDb⟩ :=
    tracked'.drain noSessions short (later middle next).1
  refine ⟨final, ?_, ?_⟩
  · rw [List.foldlM_cons, next, pure_bind, List.foldlM_cons, next', pure_bind, List.foldlM_nil]
  · have waiting : final.pc = .waiting := samePlace.trans place'
    rw [← sameDb] at member
    have classifies := tracked''.classifies waiting drained'
    obtain ⟨_, _, _, follows⟩ := tracked''
    refine classifies.learned (follows.inStep.waiting waiting).1 member ?_ ?_
    · rw [follows.homed.flows b member, flow, ← pipe]
      exact ((properPacket _ rfl).1 fiveTuple (by rw [command]; rfl)).symm
    · rw [flow]
      exact key

/-! ## A first packet -/

/-- What the controller reads from `sampleFrame []`, copied on port `0` at time `7`. -/
def samplePacket : FiveTuple :=
  { FiveTuple.zero with
    h := ⟨.ofBytes [10, 0, 0, 1], .ofBytes [10, 0, 0, 2], 0x1234, 443, .ipv4, .tcp⟩
    ingressTs := 7 }

theorem sampleFrame_read :
    readPacket 0 (cpuFrame (sampleFrame []) ⟨0, by decide⟩ 7) =
      pure (.flow samplePacket (some 2)) := by
  have tuple : ((etherFiveTuple 0 (cpuFrame (sampleFrame []) ⟨0, by decide⟩ 7)).withAddresses .ipv4
      [10, 0, 0, 1] [10, 0, 0, 2]).withPorts (cpuFrame (sampleFrame []) ⟨0, by decide⟩ 7) 34 .tcp =
      samplePacket := by decide
  rw [← tuple]
  rfl

/-- The packet is relevant with an entry for its destination. -/
theorem sampleFrame_adds :
    CopyAnswered (.twoPorts false) (sampleFrame []) (sampleHeaders 5) ⟨0, by decide⟩
      (.addFlow (samplePacket.withClient samplePacket.h.srcAddr true)) := by
  obtain ⟨table, valid, bindings⟩ := destination_table
  have src : dnsHashtableGet (fun _ => 0) table udpSource = pure none := by
    apply dnsHashtableGet_of_absent
    · rw [bindings]
      unfold dnsHashtableSize
      decide
    · rw [bindings]
      intro b member
      rw [Multiset.mem_singleton.mp member]
      decide
  have dst : dnsHashtableGet (fun _ => 0) table udpDestination = pure (some 100) := by
    apply dnsHashtableGet_of_mem valid
    rw [bindings]
    exact Multiset.mem_singleton_self _
  have setup : setupSessionHash (fun _ => 0) table samplePacket =
      pure (samplePacket.withClient samplePacket.h.srcAddr true) := by
    unfold setupSessionHash isInDnsHashtable
    change (dnsHashtableGet _ table udpSource >>= _) >>= _ = _
    rw [src]
    change (dnsHashtableGet _ table udpDestination >>= _) >>= _ = _
    rw [dst]
    rfl
  have judged : heuristic (fun _ => 0) table
      (samplePacket.withClient samplePacket.h.srcAddr true) 50 = pure (true, []) := by
    unfold heuristic heuristicLookup
    change (dnsHashtableGet _ table udpSource >>= _) >>= _ = _
    rw [src]
    change (dnsHashtableGet _ table udpDestination >>= _) >>= _ = _
    rw [dst]
    rfl
  refine ⟨by decide, ⟨0, fun _ => false, .tcpSyn, by decide⟩,
    ⟨fun ipv4 present => Or.inl ?_, fun udp => ?_⟩, ?_⟩
  · cases present
    rfl
  · cases udp
  · have unknown : flowHashtableGet (.twoPorts false) flowHashtableInit
        (samplePacket.withClient samplePacket.h.srcAddr true) = pure none := by
      apply flowHashtableGet_of_absent
      · rw [flowHashtableInit_bindings]
        unfold flowHashtableSize
        decide
      · rw [flowHashtableInit_bindings]
        exact fun b member => absurd member (Multiset.notMem_zero b)
    refine ⟨7, flowHashtableInit, fun _ => 0, table, 50, 0,
      [.addFlow (samplePacket.withClient samplePacket.h.srcAddr true)], [], ?_, List.mem_cons_self⟩
    unfold packetHandler processPacket
    rw [sampleFrame_read, pure_bind]
    dsimp only
    rw [setup, pure_bind, unknown, judged]
    rfl

/-- The flow of that packet is classified once its entry is installed. -/
theorem copied_packet_is_classified_first :
    CopyAnswered (.twoPorts false) (sampleFrame []) (sampleHeaders 5) ⟨0, by decide⟩
      (.addFlow (samplePacket.withClient samplePacket.h.srcAddr true)) ∧
    Exec.Returns flowdbInit fun db =>
      Exec.Returns
        ([SystemEvent.packet (.add (samplePacket.withClient samplePacket.h.srcAddr true)
          (by decide)), .dataplane 1].foldlM (systemStep (.twoPorts false)) (.start db))
        (System.Learned ⟨0, by decide⟩ (sampleHeaders 5)) := by
  refine ⟨sampleFrame_adds, ?_⟩
  obtain ⟨db, init, learns⟩ := copied_packet_is_classified (.twoPorts false) rfl []
    (.add (samplePacket.withClient samplePacket.h.srcAddr true) (by decide)) 1
    (samePipe_single _ _) (fun _ member => by cases member) (sampleFrame []) (sampleHeaders 5)
    ⟨0, by decide⟩ (samplePacket.withClient samplePacket.h.srcAddr true) rfl sampleFrame_adds
    (by decide)
  obtain ⟨valid, initial, _⟩ := (flowdbInit_returns (.twoPorts false)).of_pure init
  refine ⟨db, init, learns (System.undisturbed_first valid _ _) _ rfl rfl rfl ?_⟩
  change db.ledger.flowPool 0 ≠ 0
  rw [initial]
  intro empty
  have free : (4 : Int) ∈ (Ledger.residents 0).val := by
    rw [Finset.mem_val, Ledger.mem_residents]
    unfold Ledger.ids
    exact ⟨Finset.mem_Ico.mpr ⟨le_rfl, by decide⟩, rfl⟩
  change (Ledger.residents 0).val = 0 at empty
  rw [empty] at free
  exact absurd free (Multiset.notMem_zero _)

end Marina
