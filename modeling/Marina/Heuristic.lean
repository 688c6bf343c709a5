import Marina.DnsDb

/-!
# The flow classification heuristic

`toDnsHashtableKey`, `isInDnsHashtable` and `heuristic` of
`controller/packet_handler/packet_handler.c`, with `USE_DNS_DB` defined as in
`p4/config.p4`. A packet belongs to a relevant flow when one of its addresses has an
entry in the DNS hash table that has not expired; an expired entry met on the way is
handed to the DNS thread for removal.

The keys built here carry the address family, and the keys stored by `parse_dns_packet`
do not. `learned_addresses_never_found` is what follows: no address the DNS thread has
learned is ever found again.
-/

namespace Marina

open Lib (Exec)

/-- The value of `L3_IPV4 = AF_INET` and `L3_IPV6 = AF_INET6`. -/
def L3Proto.number : L3Proto → UInt32
  | .ipv4 => 2
  | .ipv6 => 10

/-- Of an IPv4 address only the first four bytes of the union are copied. -/
def toDnsHashtableKey (address : Address) (proto : L3Proto) : DnsHashtableKey where
  type := proto.number
  address :=
    match proto with
    | .ipv4 => .ofBytes (address.bytes.toList.take 4)
    | .ipv6 => .ofBytes address.bytes.toList

theorem toDnsHashtableKey_type_ne_zero (address : Address) (proto : L3Proto) :
    (toDnsHashtableKey address proto).type ≠ 0 := by
  change proto.number ≠ 0
  cases proto <;> decide

/-- What a lookup of `heuristic` sees. -/
inductive Expiry
  | unknown
  | expired
  | fresh
  deriving DecidableEq, Repr

section Heuristic

variable (murmur : DnsHashtableKey → UInt32)

def isInDnsHashtable (table : DnsHashtable) (address : Address) (proto : L3Proto) :
    Outcome Bool := do
  let value ← dnsHashtableGet murmur table (toDnsHashtableKey address proto)
  pure value.isSome

/-- One of the two lookups of `heuristic`, at second `now`. -/
def heuristicLookup (table : DnsHashtable) (key : DnsHashtableKey) (now : Int) :
    Outcome Expiry := do
  match ← dnsHashtableGet murmur table key with
  | none => pure .unknown
  | some timeout => pure (if timeout < now then .expired else .fresh)

/-- The removal an expired entry causes. -/
def Expiry.removal (key : DnsHashtableKey) : Expiry → List DnsItem
  | .expired => [.removeIp key]
  | .unknown => []
  | .fresh => []

/-- `heuristic` at second `now`: its result, and the items it puts into the DNS ring. -/
def heuristic (table : DnsHashtable) (fiveTuple : FiveTuple) (now : Int) :
    Outcome (Bool × List DnsItem) := do
  let srcKey := toDnsHashtableKey fiveTuple.h.srcAddr fiveTuple.h.l3Proto
  let src ← heuristicLookup murmur table srcKey now
  if src = .fresh then
    pure (true, [])
  else do
    let dstKey := toDnsHashtableKey fiveTuple.h.dstAddr fiveTuple.h.l3Proto
    let dst ← heuristicLookup murmur table dstKey now
    pure (decide (dst = .fresh), src.removal srcKey ++ dst.removal dstKey)

end Heuristic

section Untyped

variable {murmur : DnsHashtableKey → UInt32} {db : DnsDb}

theorem DnsDb.Untyped.get_typed (untyped : db.Untyped murmur)
    (room : db.table.numEntries < dnsHashtableSize) {key : DnsHashtableKey}
    (typed : key.type ≠ 0) : dnsHashtableGet murmur db.table key = pure none := by
  apply dnsHashtableGet_of_absent
  · rw [← untyped.valid.count]
    exact room
  · intro b member same
    exact typed (same ▸ untyped.untyped b member)

theorem DnsDb.Untyped.isInDnsHashtable (untyped : db.Untyped murmur)
    (room : db.table.numEntries < dnsHashtableSize) (address : Address) (proto : L3Proto) :
    isInDnsHashtable murmur db.table address proto = pure false := by
  unfold Marina.isInDnsHashtable
  rw [untyped.get_typed room (toDnsHashtableKey_type_ne_zero address proto)]
  rfl

theorem DnsDb.Untyped.heuristic (untyped : db.Untyped murmur)
    (room : db.table.numEntries < dnsHashtableSize) (fiveTuple : FiveTuple) (now : Int) :
    heuristic murmur db.table fiveTuple now = pure (false, []) := by
  have lookup : ∀ address proto,
      heuristicLookup murmur db.table (toDnsHashtableKey address proto) now = pure .unknown := by
    intro address proto
    unfold heuristicLookup
    rw [untyped.get_typed room (toDnsHashtableKey_type_ne_zero address proto)]
    rfl
  unfold Marina.heuristic
  simp only [lookup, pure_bind, reduceCtorEq, if_false, decide_false, Expiry.removal,
    List.append_nil]

end Untyped

/-- Whatever responses and removals the DNS thread has handled, and so after every
response whose address it has stored: while the table is not full, no address of either
family is found in it, and `heuristic` takes no packet for relevant, at any time. -/
theorem learned_addresses_never_found (murmur : DnsHashtableKey → UInt32)
    (beyond : Nat → Outcome (List UInt8)) (resolver : Resolver) (items : List (Int × DnsItem))
    (db : DnsDb) (reached : dnsDbRun murmur beyond resolver dnsDbInit items = pure db)
    (room : db.table.numEntries < dnsHashtableSize) :
    (∀ address proto, isInDnsHashtable murmur db.table address proto = pure false) ∧
    ∀ fiveTuple now, heuristic murmur db.table fiveTuple now = pure (false, []) := by
  have untyped := (DnsDb.Untyped.init murmur).run reached
  exact ⟨untyped.isInDnsHashtable room, untyped.heuristic room⟩

/-! ## A learned address -/

/-- An answer that gives the relevant domain the address `10.0.0.1` for a minute. -/
def sampleAnswer : ResourceRecord where
  type := nsTA
  name := relevantDomain
  ttl := 60
  rdata := (Address.ofBytes [10, 0, 0, 1]).bytes

/-- A packet from that address. -/
def sampleFiveTuple : FiveTuple :=
  { FiveTuple.zero with
    h := { FiveTuple.zero.h with srcAddr := .ofBytes [10, 0, 0, 1] } }

def sampleResolver : Resolver := fun _ => some [some sampleAnswer]

def sampleBeyond : Nat → Outcome (List UInt8) := fun _ => throw .outOfBounds

/-- The response is stored at second `100`. -/
theorem sampleAnswer_stored :
    Exec.Returns (dnsDbRun (fun _ => 0) sampleBeyond sampleResolver dnsDbInit [(100, .addPkt [])])
      fun db => db.table.bindings = {(answerKey sampleAnswer, 160)} ∧
        db.pipe = [⟨nsTA, .ofBytes [10, 0, 0, 1], 60⟩] ∧
        db.table.numEntries < dnsHashtableSize := by
  have size : 1 < dnsHashtableSize := by unfold dnsHashtableSize; decide
  have relevant : matchesRelevantDomain sampleBeyond sampleAnswer.name
      (List.range relevantDomainNamesSize) = pure true := by
    have entries : List.range relevantDomainNamesSize =
        0 :: (List.range (relevantDomainNamesSize - 1)).map (· + 1) :=
      List.range_succ_eq_map
    have suffix : relevantDomain.isSuffixOf sampleAnswer.name = true :=
      List.isSuffixOf_iff_suffix.mpr List.suffix_rfl
    rw [entries, matchesRelevantDomain, relevantDomainNames, if_pos rfl, pure_bind, if_pos suffix]
  have added : Exec.Returns
      (dnsHashtableAddOrChange (fun _ => 0) dnsHashtableInit (answerKey sampleAnswer) 160) _ :=
    dnsHashtableAddOrChange_of_absent (dnsHashtableInit_valid _)
      (by rw [dnsHashtableInit_bindings, Multiset.card_zero]; omega)
      (by rw [dnsHashtableInit_bindings]; intro b member; exact absurd member (Multiset.notMem_zero b))
  obtain ⟨⟨code, table⟩, stored, -, valid, bindings⟩ := added
  refine ⟨⟨table, [⟨nsTA, .ofBytes [10, 0, 0, 1], 60⟩]⟩, ?_, ?_, rfl, ?_⟩
  · simp only [dnsDbRun, List.foldlM_cons, List.foldlM_nil, bind_pure, dnsDbThread,
      parseDnsPacket, sampleResolver, storeFirstAnswer]
    rw [if_neg (by decide)]
    simp only [relevant, pure_bind, if_true]
    change (dnsHashtableAddOrChange (fun _ => 0) dnsHashtableInit (answerKey sampleAnswer) 160 >>=
      _) = _
    rw [stored]
    rfl
  · dsimp only
    rw [bindings, dnsHashtableInit_bindings]
    rfl
  · dsimp only
    rw [valid.count, bindings, dnsHashtableInit_bindings, Multiset.card_cons, Multiset.card_zero]
    exact size

/-- In the very second it is stored, the address is not found. -/
theorem learned_address_not_found :
    Exec.Returns (dnsDbRun (fun _ => 0) sampleBeyond sampleResolver dnsDbInit [(100, .addPkt [])])
      fun db => db.table.bindings = {(answerKey sampleAnswer, 160)} ∧
        isInDnsHashtable (fun _ => 0) db.table sampleFiveTuple.h.srcAddr .ipv4 = pure false ∧
        heuristic (fun _ => 0) db.table sampleFiveTuple 100 = pure (false, []) := by
  obtain ⟨db, reached, stored, -, room⟩ := sampleAnswer_stored
  have untyped := (DnsDb.Untyped.init _).run reached
  exact ⟨db, reached, stored, untyped.isInDnsHashtable room _ _, untyped.heuristic room _ _⟩

/-- The general statement at the table that holds the sample answer. -/
theorem learned_addresses_never_found_sample :
    Exec.Returns (dnsDbRun (fun _ => 0) sampleBeyond sampleResolver dnsDbInit [(100, .addPkt [])])
      fun db => (answerKey sampleAnswer, 160) ∈ db.table.bindings ∧
        (∀ address proto, isInDnsHashtable (fun _ => 0) db.table address proto = pure false) ∧
        ∀ fiveTuple now, heuristic (fun _ => 0) db.table fiveTuple now = pure (false, []) := by
  obtain ⟨db, reached, stored, -, room⟩ := sampleAnswer_stored
  refine ⟨db, reached, ?_, learned_addresses_never_found _ _ _ _ db reached room⟩
  rw [stored]
  exact Multiset.mem_singleton_self _

end Marina
