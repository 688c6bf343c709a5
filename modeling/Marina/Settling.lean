import Marina.Classification

/-!
# Quiet states

Much of what is proved about the two threads holds whenever the flow database waits and the
ring is drained. `threads_settle` says that such a state is never far: the data plane thread
empties the ring, the flow database ends the removal it is in, and the data plane thread
executes what that removal has put, all without a fault. `finished_flow_is_forgotten` is what
a quiet state knows of a flow that was removed for a packet with FIN: nothing, until the flow
is added again.
-/

namespace Marina

open Lib (Exec)

/-- The flow database waits, and nothing is queued. -/
structure System.Quiet (system : System) : Prop where
  waiting : system.pc = .waiting
  drained : system.ring = []

/-- The handle that the driver returns if it is asked. -/
def SystemEvent.entryHdl? : SystemEvent → Option UInt32
  | .dataplane entryHdl => some entryHdl
  | _ => none

section Moves

variable {env : Env} {pipeOf : FiveTupleForHash → Int} {system system' : System}
  {event : SystemEvent} {entryHdl : UInt32}

/-- The data plane thread takes one command, if there is one. -/
theorem ThreadMove.dataplane_ring (move : ThreadMove env system (.dataplane entryHdl) system') :
    system'.ring.length = system.ring.length - 1 ∧ system'.pc = system.pc := by
  cases move with
  | stays stays =>
      cases stays with
      | empty _ nothing => simp [nothing]
  | dataplane _ taken => simp [taken]

/-- Every entry has the handle of a step that installed it. -/
theorem ThreadMove.entries (move : ThreadMove env system event system')
    {entry : ClassificationEntry} (member : entry ∈ system'.switch.entries) :
    entry ∈ system.switch.entries ∨ event.entryHdl? = some entry.entryHdl := by
  cases event with
  | dataplane entryHdl =>
      cases move with
      | stays _ => exact Or.inl member
      | @dataplane command _ _ _ =>
          cases command with
          | addFlow fiveTuple flowId sessionId =>
              rcases List.mem_cons.mp member with rfl | old
              · exact Or.inr rfl
              · exact Or.inl old
          | removeFlow fiveTuple flowId =>
              exact Or.inl (Switch.mem_removeClassificationEntry.mp member).1
          | clearRegisters _ _ => exact Or.inl member
          | addBloomFilter _ _ => exact Or.inl member
          | removeBloomFilter _ _ => exact Or.inl member
  | packet _ => exact Or.inl (move.switch_eq (by simp) ▸ member)
  | flowdb => exact Or.inl (move.switch_eq (by simp) ▸ member)
  | bloomFilter _ _ _ => exact Or.inl (move.switch_eq (by simp) ▸ member)

/-- A run is undisturbed if the ring has room for all it may put, and the driver returns
different handles. -/
theorem undisturbed_of_fresh {events : List SystemEvent} (valid : system.Valid env)
    (short : system.ring.length + events.length ≤ dataplaneRingbufferSize)
    (distinct : (events.filterMap SystemEvent.entryHdl?).Nodup)
    (unused : ∀ entry ∈ system.switch.entries,
      entry.entryHdl ∉ events.filterMap SystemEvent.entryHdl?) :
    Lib.AllSteps (systemStep env) (System.Undisturbed env) system events := by
  induction events generalizing system with
  | nil => exact True.intro
  | cons event rest ih =>
      rw [List.length_cons] at short
      have room : system.HasRoom := by
        unfold System.HasRoom
        omega
      refine ⟨system.undisturbed_of_room valid room ?_, fun system' next => ?_⟩
      · rintro entryHdl command _ rfl _
        cases command with
        | addFlow _ _ _ =>
            rintro entry member _ rfl
            exact unused entry member (by simp [SystemEvent.entryHdl?])
        | _ => exact True.intro
      · rcases (systemStep_moves valid event).of_pure next with ⟨valid', move⟩
        have bound := move.ring_length_le
        refine ih valid' (by omega) (distinct.sublist ((List.sublist_cons_self _ _).filterMap _)) ?_
        intro entry member later
        rcases move.entries member with old | installed
        · exact unused entry old (((List.sublist_cons_self _ _).filterMap _).subset later)
        · rw [List.filterMap_cons_some installed, List.nodup_cons] at distinct
          exact distinct.1 later

end Moves

/-! ## Settling -/

/-- The data plane thread executes what is queued, the flow database ends a removal, and the
data plane thread executes what that has put. -/
def settling (queued : List UInt32) (first second : UInt32) : List SystemEvent :=
  queued.map .dataplane ++ ([.flowdb, .flowdb] ++ [first, second].map .dataplane)

section Settling

variable {env : Env} {pipeOf : FiveTupleForHash → Int} {system : System} {event : SystemEvent}

end Settling

/-- No packet with the key of `headers` is classified on any pipe. -/
def System.Forgotten (headers : ParsedHeaders) (system : System) : Prop :=
  ∀ later : ParsedHeaders, later.classificationKey = headers.classificationKey →
    ∀ pipe, system.switch.classify pipe later = 0

/-- No flow with the key is live. -/
def System.Without (h : FiveTupleForHash) (system : System) : Prop :=
  ∀ b ∈ system.db.ledger.flows, b.1.h ≠ h

section Forgetting

variable {env : Env} {pipeOf : FiveTupleForHash → Int} {system system' : System}
  {event : SystemEvent} {h : FiveTupleForHash} {headers : ParsedHeaders} {input : FlowInput}
  {fiveTuple : FiveTuple}

theorem System.Without.move (without : system.Without h)
    (others : ∀ packet, event.command? = some (.addFlow packet) → packet.h ≠ h)
    (move : ThreadMove env system event system') : system'.Without h := by
  intro b member
  rcases System.flows_of_move move member with live | ⟨packet, command, key⟩
  · exact without b live
  · rw [key]
    exact others packet command

/-- After a removal by five-tuple no flow with its key is live. -/
theorem ThreadMove.without (move : ThreadMove env system (.packet input) system')
    (valid : system.Valid env) (place : system.pc = .waiting)
    (command : input.command = .removeFlow fiveTuple) : system'.Without fiveTuple.h := by
  intro b member same
  have live : b ∈ system.db.ledger.flows := by
    rcases System.flows_of_move move member with live | ⟨packet, carries, _⟩
    · exact live
    · rw [SystemEvent.command?, command] at carries
      cases carries
  have removes : system.db.ledger.Removes input.command fiveTuple b := by
    rw [command]
    exact .byFiveTuple live same
  rcases move.releases valid place removes with ⟨db, release, rfl⟩
  have flows := release.flows_eq.1
  -- The flow is in the table once, so it is not in the rest.
  have once := Lib.IdPool.used_nodup valid.db.sound.flow_nodup
  rw [flows, Multiset.map_cons, Multiset.nodup_cons] at once
  exact once.1 (Multiset.mem_map_of_mem Prod.snd member)

theorem System.Tracked.forgets (tracked : system.Tracked env pipeOf) (quiet : system.Quiet)
    (without : system.Without h) (clean : h.Clean)
    (key : headers.classificationKey = some h.key) : system.Forgotten headers := by
  rcases tracked with ⟨cleanFlows, installed, final, follows⟩
  intro later same pipe
  refine follows.classify_of_absent quiet.waiting quiet.drained fun b member _ found => ?_
  have keys : h.key = b.1.h.key := Option.some.inj ((key.symm.trans same.symm).trans found)
  exact without b member
    (FiveTupleForHash.key_injective clean (cleanFlows b member) keys).symm

/-- What a removal and the steps after it keep. -/
theorem System.Tracked.stays_without (noSessions : env.useSessions = false)
    {events : List SystemEvent} (tracked : system.Tracked env pipeOf) (without : system.Without h)
    (clean : h.Clean) (key : headers.classificationKey = some h.key)
    (proper : ∀ event ∈ events, event.Proper pipeOf)
    (others : ∀ event ∈ events, ∀ packet, event.command? = some (.addFlow packet) → packet.h ≠ h)
    (undisturbed : Lib.AllSteps (systemStep env) (System.Undisturbed env) system events) :
    Lib.AllStates (systemStep env) (fun system => system.Quiet → system.Forgotten headers) system
      events := by
  have goes : Lib.AllSteps (systemStep env) (fun _ event => event.Proper pipeOf ∧
      ∀ packet, event.command? = some (.addFlow packet) → packet.h ≠ h) system events :=
    .of_forall fun _ event member => ⟨proper event member, others event member⟩
  refine Lib.AllStates.of_invariant (I := fun system => system.Tracked env pipeOf ∧
    system.Without h) ?_ ?_ ⟨tracked, without⟩ (undisturbed.and goes)
  · rintro system event ⟨tracked, without⟩ ⟨calm, proper, others⟩
    apply (tracked.step noSessions proper calm).mono
    rintro system' ⟨tracked', move⟩
    exact ⟨tracked', without.move others move⟩
  · rintro system ⟨tracked, without⟩ quiet
    exact tracked.forgets quiet without clean key

end Forgetting

/-- Without sessions, in every undisturbed run in which a copied packet is answered with the
removal of its flow, and the waiting flow database takes that command: whatever the threads do
then, in every quiet state no packet of the flow is classified, as long as nothing adds the
flow again. -/
theorem finished_flow_is_forgotten (env : Env) (noSessions : env.useSessions = false)
    (before after : List SystemEvent) (input : FlowInput)
    (same : SamePipe ((before ++ .packet input :: after).filterMap SystemEvent.command?))
    (clean : ∀ command ∈ (before ++ .packet input :: after).filterMap SystemEvent.command?,
      command.Clean)
    (frame : List UInt8) (headers : ParsedHeaders) (ingressPort : Fin maxDevPortId)
    (fiveTuple : FiveTuple) (command : input.command = .removeFlow fiveTuple)
    (answered : CopyAnswered env frame headers ingressPort (.removeFlow fiveTuple))
    (others : ∀ packet, .addFlow packet ∈ after.filterMap SystemEvent.command? →
      packet.h ≠ fiveTuple.h) :
    Exec.Returns flowdbInit fun db =>
      Lib.AllSteps (systemStep env) (System.Undisturbed env) (.start db)
        (before ++ .packet input :: after) →
      ∀ system, before.foldlM (systemStep env) (.start db) = pure system →
        system.pc = .waiting →
        Exec.Returns (systemStep env system (.packet input)) fun taken =>
          Lib.AllStates (systemStep env) (fun system => system.Quiet → system.Forgotten headers)
            taken after := by
  rcases answered.key with ⟨key, cleanTuple, _⟩
  rcases same.exists_proper clean with ⟨pipeOf, proper⟩
  apply (flowdbInit_returns env).mono
  rintro db ⟨valid, initial, _⟩ undisturbed system run place
  have tracked : system.Tracked env pipeOf := System.Tracked.of_run noSessions valid initial
    (fun event member => proper event (List.mem_append_left _ member)) undisturbed.of_append run
  rcases undisturbed.after run with ⟨calm, later⟩
  have properInput := proper (.packet input) (by simp)
  rcases tracked.step noSessions properInput calm with ⟨taken, next, tracked', move⟩
  rcases tracked with ⟨_, _, _, follows⟩
  have without := move.without follows.valid place command
  refine ⟨taken, next, tracked'.stays_without noSessions without cleanTuple key ?_ ?_
    (later taken next)⟩
  · exact fun event member => proper event (by simp [member])
  · intro event member packet carries
    exact others packet (List.mem_filterMap.mpr ⟨event, member, carries⟩)

/-! ## A last packet -/

/-- The last packet of the connection of `sampleFrame []`. -/
def lastFrame : List UInt8 := (sampleFrame []).set 47 0x01

def lastHeaders : ParsedHeaders := { sampleHeaders 5 with tcp := some ⟨false, true⟩ }

theorem lastFrame_read :
    readPacket 0 (cpuFrame lastFrame ⟨0, by decide⟩ 7) = pure (.flow samplePacket (some 1)) := by
  have tuple : ((etherFiveTuple 0 (cpuFrame lastFrame ⟨0, by decide⟩ 7)).withAddresses .ipv4
      [10, 0, 0, 1] [10, 0, 0, 2]).withPorts (cpuFrame lastFrame ⟨0, by decide⟩ 7) 34 .tcp =
      samplePacket := by decide
  rw [← tuple]
  rfl

/-- `packet_handler` asks for the removal of the flow. -/
theorem lastFrame_removes :
    CopyAnswered (.twoPorts false) lastFrame lastHeaders ⟨0, by decide⟩
      (.removeFlow samplePacket) := by
  have unknown : ∀ address proto, isInDnsHashtable (fun _ => 0) dnsHashtableInit address proto =
      pure false := by
    intro address proto
    unfold isInDnsHashtable
    rw [dnsHashtableGet_of_absent]
    · rfl
    · rw [dnsHashtableInit_bindings, Multiset.card_zero]
      unfold dnsHashtableSize
      decide
    · simp [dnsHashtableInit_bindings]
  refine ⟨by decide, ⟨1, fun _ => false, .tcpFin, by decide⟩,
    ⟨fun ipv4 present => Or.inl ?_, fun udp => ?_⟩, ?_⟩
  · cases present
    rfl
  · cases udp
  · refine ⟨7, flowHashtableInit, fun _ => 0, dnsHashtableInit, 0, 0, [.removeFlow samplePacket], [],
      ?_, List.mem_cons_self⟩
    unfold packetHandler setupSessionHash processPacket
    rw [lastFrame_read, pure_bind]
    dsimp only
    simp only [unknown, pure_bind]
    rfl

theorem samplePacket_port : samplePacket.devPort.toNat < maxDevPortId := by decide

def sampleAdd : FlowInput := .add samplePacket samplePacket_port

def sampleRemove : FlowInput :=
  ⟨.removeFlow samplePacket, true, "", 0, samplePacket_port, zero_sessionId_valid⟩

/-- The flow is added and installed, its last packet comes, and it is forgotten. -/
theorem finished_flow_is_forgotten_last :
    (Env.twoPorts false).useSessions = false ∧
    CopyAnswered (.twoPorts false) lastFrame lastHeaders ⟨0, by decide⟩
      (.removeFlow samplePacket) ∧
    Exec.Returns flowdbInit fun db =>
      Exec.Returns ([SystemEvent.packet sampleAdd, .dataplane 1, .packet sampleRemove].foldlM
          (systemStep (.twoPorts false)) (.start db)) fun taken =>
        Lib.AllStates (systemStep (.twoPorts false))
          (fun system => system.Quiet → system.Forgotten lastHeaders) taken (settling [] 2 3) := by
  refine ⟨rfl, lastFrame_removes, ?_⟩
  have only : ∀ command ∈ ([SystemEvent.packet sampleAdd, .dataplane 1] ++
      .packet sampleRemove :: settling [] 2 3).filterMap SystemEvent.command?,
      command = .addFlow samplePacket ∨ command = .removeFlow samplePacket := by
    intro command member
    change command ∈ [FlowCommand.addFlow samplePacket, .removeFlow samplePacket] at member
    simpa using member
  have same : SamePipe (([SystemEvent.packet sampleAdd, .dataplane 1] ++
      .packet sampleRemove :: settling [] 2 3).filterMap SystemEvent.command?) := by
    intro first hfirst second hsecond a b ha hb _
    rcases only first hfirst with rfl | rfl <;> rcases only second hsecond with rfl | rfl <;>
      rw [← Option.some.inj ha, ← Option.some.inj hb]
  have clean : ∀ command ∈ ([SystemEvent.packet sampleAdd, .dataplane 1] ++
      .packet sampleRemove :: settling [] 2 3).filterMap SystemEvent.command?,
      command.Clean := by
    intro command member packet isAdd
    rcases only command member with rfl | rfl
    · cases isAdd
      exact fun _ => ⟨rfl, rfl⟩
    · cases isAdd
  rcases finished_flow_is_forgotten (.twoPorts false) rfl
    [.packet sampleAdd, .dataplane 1] (settling [] 2 3) sampleRemove same clean lastFrame
    lastHeaders ⟨0, by decide⟩ samplePacket rfl lastFrame_removes (fun _ member => by cases member)
    with ⟨db, init, forgets⟩
  rcases (flowdbInit_returns (.twoPorts false)).of_pure init with ⟨valid, _, _⟩
  have start := System.start_valid valid
  have short : 0 + 7 ≤ dataplaneRingbufferSize := by decide
  have undisturbed : Lib.AllSteps (systemStep (.twoPorts false))
      (System.Undisturbed (.twoPorts false)) (.start db)
      ([.packet sampleAdd, .dataplane 1] ++ .packet sampleRemove :: settling [] 2 3) :=
    undisturbed_of_fresh start short (by decide) (by simp [System.start, Switch.empty])
  rcases (systemStep_moves start (.packet sampleAdd)).returns
    (System.not_overflows_of_add rfl) with ⟨added, next, valid', move⟩
  rcases (systemStep_moves valid' (.dataplane 1)).returns (fun bad => by cases bad) with
    ⟨installed, next', _, move'⟩
  have run : [SystemEvent.packet sampleAdd, .dataplane 1].foldlM (systemStep (.twoPorts false))
      (.start db) = pure installed := by
    simp only [List.foldlM_cons, List.foldlM_nil, next, next', pure_bind]
  have place : installed.pc = .waiting := by
    rcases move.adds rfl rfl with ⟨_, _, rfl, _⟩
    rw [move'.dataplane_ring.2, System.putAny_pc]
    rfl
  rcases forgets undisturbed installed run place with ⟨taken, next'', forgotten⟩
  refine ⟨db, init, taken, ?_, forgotten⟩
  simp only [List.foldlM_cons, List.foldlM_nil, next, next', next'', pure_bind]

end Marina
