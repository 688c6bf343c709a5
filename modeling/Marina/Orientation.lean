import Marina.PacketHandler

/-!
# The client of a new flow

Two functions of the packet handler ask the DNS table about the addresses of a packet, the
source first. `heuristic` takes the packet for relevant when it finds an entry that has not
expired; `setup_session_hash` takes the first address that has any entry for the server, and
the other one for the client.

They agree unless the source has an expired entry while that of the destination is fresh
(`session_orientation_iff`). The packet is relevant because of its destination then, and the
command to add its flow names the destination as the client.
-/

namespace Marina

open Lib (Exec bytesAt)
open Lib.Exec

inductive Endpoint
  | source
  | destination
  deriving DecidableEq, Repr

def Endpoint.address (h : FiveTupleForHash) : Endpoint → Address
  | .source => h.srcAddr
  | .destination => h.dstAddr

def Endpoint.other : Endpoint → Endpoint
  | .source => .destination
  | .destination => .source

section Table

variable (murmur : DnsHashtableKey → UInt32) (table : DnsHashtable) (now : Int)

/-- The table has an entry for the endpoint that has not expired at second `now`. -/
def Fresh (h : FiveTupleForHash) (endpoint : Endpoint) : Prop :=
  ∃ timeout, dnsHashtableGet murmur table (toDnsHashtableKey (endpoint.address h) h.l3Proto) =
    pure (some timeout) ∧ now ≤ timeout

/-- It has an entry that has. -/
def Expired (h : FiveTupleForHash) (endpoint : Endpoint) : Prop :=
  ∃ timeout, dnsHashtableGet murmur table (toDnsHashtableKey (endpoint.address h) h.l3Proto) =
    pure (some timeout) ∧ timeout < now

/-- The endpoint whose entry makes `heuristic` return true: the source, and the destination
when the source has no fresh entry. -/
def MakesRelevant (h : FiveTupleForHash) : Endpoint → Prop
  | .source => Fresh murmur table now h .source
  | .destination => ¬ Fresh murmur table now h .source ∧ Fresh murmur table now h .destination

/-- The endpoint that made the packet relevant is the server of the five-tuple. -/
def Oriented (fiveTuple : FiveTuple) : Prop :=
  ∃ server, MakesRelevant murmur table now fiveTuple.h server ∧
    fiveTuple.sh.clientAddr = server.other.address fiveTuple.h ∧
    (fiveTuple.sh.toServer = true ↔ server = .destination)

end Table

section Lookups

variable {murmur : DnsHashtableKey → UInt32} {table : DnsHashtable} {now : Int}
  {h : FiveTupleForHash} {endpoint : Endpoint}

/-- Two lookups of one address see the same entry. -/
theorem Expired.not_fresh (expired : Expired murmur table now h endpoint) :
    ¬ Fresh murmur table now h endpoint := by
  intro fresh
  obtain ⟨timeout, found, passed⟩ := expired
  obtain ⟨timeout', found', later⟩ := fresh
  rw [found, pure_inj, Option.some_inj] at found'
  omega

theorem not_fresh_of_none
    (absent : dnsHashtableGet murmur table (toDnsHashtableKey (endpoint.address h) h.l3Proto) =
      pure none) : ¬ Fresh murmur table now h endpoint := by
  intro fresh
  obtain ⟨timeout, found, _⟩ := fresh
  rw [absent, pure_inj] at found
  cases found

theorem not_expired_of_none
    (absent : dnsHashtableGet murmur table (toDnsHashtableKey (endpoint.address h) h.l3Proto) =
      pure none) : ¬ Expired murmur table now h endpoint := by
  intro expired
  obtain ⟨timeout, found, _⟩ := expired
  rw [absent, pure_inj] at found
  cases found

/-- What a lookup of `heuristic` that returns has seen. -/
theorem heuristicLookup_fresh (endpoint : Endpoint)
    (lookup : heuristicLookup murmur table (toDnsHashtableKey (endpoint.address h) h.l3Proto) now =
      pure .fresh) : Fresh murmur table now h endpoint := by
  unfold heuristicLookup at lookup
  rw [bind_eq_pure] at lookup
  obtain ⟨found, get, expiry⟩ := lookup
  cases found with
  | none =>
      rw [pure_inj] at expiry
      cases expiry
  | some timeout =>
      refine ⟨timeout, get, ?_⟩
      rw [pure_inj] at expiry
      by_contra passed
      rw [if_pos (by omega)] at expiry
      cases expiry

end Lookups

/-! ## What is put -/

section Handler

variable {env : Env} {flows : FlowHashtable} {murmur : DnsHashtableKey → UInt32}
  {table : DnsHashtable} {now : Int} {fiveTuple fiveTuple' : FiveTuple} {tcpFlags : Option UInt8}
  {commands : List PacketCommand} {items : List DnsItem}

/-- What `process_packet` puts: nothing for a known flow, a removal, or what `heuristic`
says. -/
theorem processPacket_cases
    (processed : processPacket env flows murmur table now fiveTuple tcpFlags =
      pure (commands, items)) :
    commands = [] ∧ items = [] ∨ commands = [.removeFlow fiveTuple] ∧ items = [] ∨
    ∃ relevant, heuristic murmur table fiveTuple now = pure (relevant, items) ∧
      commands = if relevant then
        .addFlow fiveTuple ::
          (if fiveTuple.h.l4Proto = .udp then [.fixBloomFilterRelevant fiveTuple] else [])
        else if fiveTuple.h.l4Proto = .udp then [.addBloomFilterIrrelevant fiveTuple] else [] := by
  unfold processPacket at processed
  dsimp only at processed
  -- With and without a lookup of the flow, the rest is the same.
  split at processed
  all_goals
    rw [bind_eq_pure] at processed
    obtain ⟨known, _, processed⟩ := processed
    split at processed
    · cases pure_inj.mp processed
      exact Or.inl ⟨rfl, rfl⟩
    · split at processed
      · cases pure_inj.mp processed
        exact Or.inr (Or.inl ⟨rfl, rfl⟩)
      · rw [bind_eq_pure] at processed
        obtain ⟨⟨relevant, items'⟩, judged, processed⟩ := processed
        cases relevant with
        | false =>
            cases pure_inj.mp processed
            exact Or.inr (Or.inr ⟨false, judged, rfl⟩)
        | true =>
            cases pure_inj.mp processed
            exact Or.inr (Or.inr ⟨true, judged, rfl⟩)

/-- A flow is added for the five-tuple itself, when `heuristic` finds it relevant. -/
theorem processPacket_addFlow
    (processed : processPacket env flows murmur table now fiveTuple tcpFlags =
      pure (commands, items)) (added : .addFlow fiveTuple' ∈ commands) :
    fiveTuple' = fiveTuple ∧ heuristic murmur table fiveTuple now = pure (true, items) := by
  rcases processPacket_cases processed with ⟨rfl, _⟩ | ⟨rfl, _⟩ | ⟨relevant, judged, rfl⟩
  · cases added
  · rw [List.mem_singleton] at added
    cases added
  · cases relevant with
    | false =>
        rw [if_neg Bool.false_ne_true] at added
        split at added
        · rw [List.mem_singleton] at added
          cases added
        · cases added
    | true =>
        rw [if_pos rfl] at added
        refine ⟨?_, judged⟩
        rcases List.mem_cons.mp added with same | other
        · exact PacketCommand.addFlow.inj same
        · split at other
          · rw [List.mem_singleton] at other
            cases other
          · cases other

/-- A relevant packet has a fresh entry at one of its ends. -/
theorem heuristic_true (judged : heuristic murmur table fiveTuple now = pure (true, items))
    (stale : ¬ Fresh murmur table now fiveTuple.h .source) :
    Fresh murmur table now fiveTuple.h .destination := by
  unfold heuristic at judged
  rw [bind_eq_pure] at judged
  obtain ⟨src, looked, judged⟩ := judged
  split at judged
  · rename_i fresh
    rw [fresh] at looked
    exact absurd (heuristicLookup_fresh .source looked) stale
  · rw [bind_eq_pure] at judged
    obtain ⟨dst, looked', judged⟩ := judged
    have fresh := of_decide_eq_true (congrArg Prod.fst (pure_inj.mp judged))
    rw [fresh] at looked'
    exact heuristicLookup_fresh .destination looked'

/-- `setup_session_hash` orients a five-tuple by the first endpoint with an entry. -/
theorem setupSessionHash_cases (setup : setupSessionHash murmur table fiveTuple = pure fiveTuple') :
    (∃ timeout, dnsHashtableGet murmur table
        (toDnsHashtableKey fiveTuple.h.srcAddr fiveTuple.h.l3Proto) = pure (some timeout) ∧
      fiveTuple' = fiveTuple.withClient fiveTuple.h.dstAddr false) ∨
    (dnsHashtableGet murmur table
        (toDnsHashtableKey fiveTuple.h.srcAddr fiveTuple.h.l3Proto) = pure none ∧
      fiveTuple' = fiveTuple.withClient fiveTuple.h.srcAddr true) ∨
    (dnsHashtableGet murmur table
        (toDnsHashtableKey fiveTuple.h.srcAddr fiveTuple.h.l3Proto) = pure none ∧
      dnsHashtableGet murmur table
        (toDnsHashtableKey fiveTuple.h.dstAddr fiveTuple.h.l3Proto) = pure none ∧
      fiveTuple' = fiveTuple) := by
  unfold setupSessionHash isInDnsHashtable at setup
  simp only [bind_assoc, pure_bind] at setup
  rw [bind_eq_pure] at setup
  obtain ⟨found, get, setup⟩ := setup
  cases found with
  | some timeout =>
      exact Or.inl ⟨timeout, get, (pure_inj.mp setup).symm⟩
  | none =>
      simp only [Option.isSome_none, Bool.false_eq_true, if_false] at setup
      rw [bind_eq_pure] at setup
      obtain ⟨found', get', setup⟩ := setup
      cases found' with
      | some timeout => exact Or.inr (Or.inl ⟨get, (pure_inj.mp setup).symm⟩)
      | none => exact Or.inr (Or.inr ⟨get, get', (pure_inj.mp setup).symm⟩)

/-- The command to add a flow comes from the five-tuple of the frame, with its session part
set up, and a packet that is relevant. -/
theorem packetHandler_addFlow {uninitialised : Int8} {frame : List UInt8}
    (handled : packetHandler env flows murmur table now uninitialised frame =
      pure (commands, items)) (added : .addFlow fiveTuple' ∈ commands) :
    ∃ fiveTuple, setupSessionHash murmur table fiveTuple = pure fiveTuple' ∧
      heuristic murmur table fiveTuple' now = pure (true, items) := by
  unfold packetHandler at handled
  rw [bind_eq_pure] at handled
  obtain ⟨read, _, handled⟩ := handled
  cases read with
  | ignored =>
      cases pure_inj.mp handled
      cases added
  | dnsResponse pkt =>
      cases pure_inj.mp handled
      cases added
  | flow fiveTuple tcpFlags =>
      dsimp only at handled
      rw [bind_eq_pure] at handled
      obtain ⟨completed, setup, processed⟩ := handled
      obtain ⟨rfl, judged⟩ := processPacket_addFlow processed added
      exact ⟨fiveTuple, setup, judged⟩

/-- A flow to a server whose peer has an expired entry goes the wrong way. -/
theorem not_oriented_of_expired (expired : Expired murmur table now fiveTuple.h .source)
    (fromServer : fiveTuple.sh.toServer = false) : ¬ Oriented murmur table now fiveTuple := by
  intro oriented
  obtain ⟨server, makes, -, direction⟩ := oriented
  cases server with
  | source => exact expired.not_fresh makes
  | destination =>
      rw [fromServer] at direction
      exact Bool.false_ne_true (direction.mpr rfl)

end Handler

/-- A flow is added with the endpoint as the server whose entry made the packet relevant, if
and only if the source has no expired entry or the destination no fresh one. -/
theorem session_orientation_iff (env : Env) (flows : FlowHashtable)
    (murmur : DnsHashtableKey → UInt32) (table : DnsHashtable) (now : Int) (uninitialised : Int8)
    (frame : List UInt8) (commands : List PacketCommand) (items : List DnsItem)
    (fiveTuple : FiveTuple)
    (handled : packetHandler env flows murmur table now uninitialised frame =
      pure (commands, items)) (added : .addFlow fiveTuple ∈ commands) :
    Oriented murmur table now fiveTuple ↔
      ¬ (Expired murmur table now fiveTuple.h .source ∧
        Fresh murmur table now fiveTuple.h .destination) := by
  obtain ⟨original, setup, judged⟩ := packetHandler_addFlow handled added
  have relevant := heuristic_true judged
  rcases setupSessionHash_cases setup with ⟨timeout, get, rfl⟩ | ⟨get, rfl⟩ | ⟨get, get', rfl⟩
  · by_cases passed : timeout < now
    · -- The destination made the packet relevant, and is the client.
      have expired : Expired murmur table now original.h .source := ⟨timeout, get, passed⟩
      exact iff_of_false (not_oriented_of_expired expired rfl)
        (not_not.mpr ⟨expired, relevant expired.not_fresh⟩)
    · have fresh : Fresh murmur table now original.h .source := ⟨timeout, get, not_lt.mp passed⟩
      refine iff_of_true ⟨.source, fresh, rfl, ?_⟩ fun both => both.1.not_fresh fresh
      exact iff_of_false Bool.false_ne_true (by decide)
  · have stale : ¬ Fresh murmur table now original.h .source := not_fresh_of_none get
    have absent : ¬ Expired murmur table now original.h .source := not_expired_of_none get
    refine iff_of_true ⟨.destination, ⟨stale, relevant stale⟩, rfl, ?_⟩ fun both => absent both.1
    exact iff_of_true rfl rfl
  · have stale : ¬ Fresh murmur table now fiveTuple.h .source := not_fresh_of_none get
    have stale' : ¬ Fresh murmur table now fiveTuple.h .destination := not_fresh_of_none get'
    exact absurd (relevant stale) stale'

/-! ## Two packets -/

/-- A UDP packet from `10.0.0.1` to `10.0.0.2`. -/
def udpFrame : List UInt8 :=
  List.replicate 12 0 ++ [8, 0] ++ List.replicate 9 0 ++ [17] ++ List.replicate 2 0 ++
    [10, 0, 0, 1] ++ [10, 0, 0, 2] ++ List.replicate 8 0

def udpPacket : FiveTuple :=
  { FiveTuple.zero with
    h :=
      { FiveTuple.zero.h with
        srcAddr := .ofBytes [10, 0, 0, 1]
        dstAddr := .ofBytes [10, 0, 0, 2] } }

def udpSource : DnsHashtableKey := toDnsHashtableKey udpPacket.h.srcAddr .ipv4

def udpDestination : DnsHashtableKey := toDnsHashtableKey udpPacket.h.dstAddr .ipv4

theorem udpFrame_read : readPacket 0 udpFrame = pure (.flow udpPacket none) := by
  have tuple : ((etherFiveTuple 0 udpFrame).withAddresses .ipv4 (bytesAt udpFrame 26 4)
      (bytesAt udpFrame 30 4)).withPorts udpFrame 34 .udp = udpPacket := by decide
  rw [← tuple]
  rfl

/-- A table with an entry for the destination, until second `100`. -/
theorem destination_table :
    ∃ table : DnsHashtable, table.Valid (fun _ => 0) ∧
      table.bindings = {(udpDestination, 100)} := by
  have added : Exec.Returns
      (dnsHashtableAddOrChange (fun _ => 0) dnsHashtableInit udpDestination 100) _ :=
    dnsHashtableAddOrChange_of_absent (dnsHashtableInit_valid _)
      (by rw [dnsHashtableInit_bindings]; unfold dnsHashtableSize; decide)
      (by rw [dnsHashtableInit_bindings]; exact fun b member => absurd member (Multiset.notMem_zero b))
  obtain ⟨⟨code, table⟩, _, -, valid, bindings⟩ := added
  rw [dnsHashtableInit_bindings] at bindings
  exact ⟨table, valid, bindings⟩

/-- And with one for the source, until second `10`. -/
theorem both_table :
    ∃ table : DnsHashtable, table.Valid (fun _ => 0) ∧
      table.bindings = (udpSource, 10) ::ₘ {(udpDestination, 100)} := by
  obtain ⟨first, firstValid, firstBindings⟩ := destination_table
  have added : Exec.Returns (dnsHashtableAddOrChange (fun _ => 0) first udpSource 10) _ :=
    dnsHashtableAddOrChange_of_absent firstValid
      (by rw [firstBindings]; unfold dnsHashtableSize; decide)
      (by
        rw [firstBindings]
        intro b member
        rw [Multiset.mem_singleton.mp member]
        decide)
  obtain ⟨⟨code, table⟩, _, -, valid, bindings⟩ := added
  rw [firstBindings] at bindings
  exact ⟨table, valid, bindings⟩

/-- The commands for that packet when it is relevant. -/
theorem udpFrame_adds {table : DnsHashtable} {fiveTuple : FiveTuple}
    (setup : setupSessionHash (fun _ => 0) table udpPacket = pure fiveTuple)
    (header : fiveTuple.h = udpPacket.h) {items : List DnsItem}
    (judged : heuristic (fun _ => 0) table fiveTuple 50 = pure (true, items)) :
    packetHandler (.twoPorts true) flowHashtableInit (fun _ => 0) table 50 0 udpFrame =
      pure ([.addFlow fiveTuple, .fixBloomFilterRelevant fiveTuple], items) := by
  have udp : fiveTuple.h.l4Proto = .udp := by
    rw [header]
    rfl
  unfold packetHandler processPacket
  rw [udpFrame_read, pure_bind]
  dsimp only
  rw [setup, pure_bind, judged]
  simp only [Option.any_none, Bool.false_eq_true, if_false, pure_bind, if_true, udp]

/-- An entry for the destination alone. -/
theorem session_orientation_to_server :
    ∃ table : DnsHashtable, table.Valid (fun _ => 0) ∧
      packetHandler (.twoPorts true) flowHashtableInit (fun _ => 0) table 50 0 udpFrame =
        pure ([.addFlow (udpPacket.withClient udpPacket.h.srcAddr true),
          .fixBloomFilterRelevant (udpPacket.withClient udpPacket.h.srcAddr true)], []) ∧
      Oriented (fun _ => 0) table 50 (udpPacket.withClient udpPacket.h.srcAddr true) := by
  obtain ⟨table, valid, bindings⟩ := destination_table
  have src : dnsHashtableGet (fun _ => 0) table udpSource = pure none := by
    apply dnsHashtableGet_of_absent
    · rw [bindings]
      unfold dnsHashtableSize
      decide
    · rw [bindings]
      intro b member
      rw [Multiset.mem_singleton.mp member]
      decide
  have dst : dnsHashtableGet (fun _ => 0) table udpDestination = pure (some 100) := by
    apply dnsHashtableGet_of_mem valid
    rw [bindings]
    exact Multiset.mem_singleton_self _
  have setup : setupSessionHash (fun _ => 0) table udpPacket =
      pure (udpPacket.withClient udpPacket.h.srcAddr true) := by
    unfold setupSessionHash isInDnsHashtable
    change (dnsHashtableGet _ table udpSource >>= _) >>= _ = _
    rw [src]
    change (dnsHashtableGet _ table udpDestination >>= _) >>= _ = _
    rw [dst]
    rfl
  have judged : heuristic (fun _ => 0) table (udpPacket.withClient udpPacket.h.srcAddr true) 50 =
      pure (true, []) := by
    unfold heuristic heuristicLookup
    change (dnsHashtableGet _ table udpSource >>= _) >>= _ = _
    rw [src]
    change (dnsHashtableGet _ table udpDestination >>= _) >>= _ = _
    rw [dst]
    rfl
  have handled := udpFrame_adds setup rfl judged
  refine ⟨table, valid, handled, ?_⟩
  rw [session_orientation_iff _ _ _ _ _ _ _ _ _ _ handled List.mem_cons_self]
  intro both
  have absent : ¬ Expired (fun _ => 0) table 50 udpPacket.h .source := not_expired_of_none src
  exact absent both.1

/-- With an expired entry for the source as well, the server is taken for the client. -/
theorem session_orientation_reversed :
    ∃ table : DnsHashtable, table.Valid (fun _ => 0) ∧
      packetHandler (.twoPorts true) flowHashtableInit (fun _ => 0) table 50 0 udpFrame =
        pure ([.addFlow (udpPacket.withClient udpPacket.h.dstAddr false),
          .fixBloomFilterRelevant (udpPacket.withClient udpPacket.h.dstAddr false)],
          [.removeIp udpSource]) ∧
      ¬ Oriented (fun _ => 0) table 50 (udpPacket.withClient udpPacket.h.dstAddr false) := by
  obtain ⟨table, valid, bindings⟩ := both_table
  have src : dnsHashtableGet (fun _ => 0) table udpSource = pure (some 10) := by
    apply dnsHashtableGet_of_mem valid
    rw [bindings]
    exact Multiset.mem_cons_self _ _
  have dst : dnsHashtableGet (fun _ => 0) table udpDestination = pure (some 100) := by
    apply dnsHashtableGet_of_mem valid
    rw [bindings]
    exact Multiset.mem_cons_of_mem (Multiset.mem_singleton_self _)
  have expired : Expired (fun _ => 0) table 50 udpPacket.h .source := ⟨10, src, by decide⟩
  have setup : setupSessionHash (fun _ => 0) table udpPacket =
      pure (udpPacket.withClient udpPacket.h.dstAddr false) := by
    unfold setupSessionHash isInDnsHashtable
    change (dnsHashtableGet _ table udpSource >>= _) >>= _ = _
    rw [src]
    rfl
  have judged : heuristic (fun _ => 0) table (udpPacket.withClient udpPacket.h.dstAddr false) 50 =
      pure (true, [.removeIp udpSource]) := by
    unfold heuristic heuristicLookup
    change (dnsHashtableGet _ table udpSource >>= _) >>= _ = _
    rw [src]
    change (dnsHashtableGet _ table udpDestination >>= _) >>= _ = _
    rw [dst]
    rfl
  exact ⟨table, valid, udpFrame_adds setup rfl judged, not_oriented_of_expired expired rfl⟩

end Marina
