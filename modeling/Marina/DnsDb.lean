import Marina.DnsHashtable

/-!
# The DNS database thread

`parse_dns_packet` and `dns_db_thread` of `controller/dns_db/dns_db.c`. The thread takes
items off the DNS ring: a captured DNS response, whose first relevant answer it stores
in the DNS hash table and writes to the DNS pipe, or a key to remove.

The resolver library that takes a response apart is a parameter, and so is the memory
behind `RELEVANT_DOMAIN_NAMES`, which the search loop reads: its bound is the size of the
array in bytes, not the number of its entries.
-/

namespace Marina

open Lib (Exec)

/-! ## Responses -/

/-- `ns_t_a`. -/
def nsTA : Nat := 1

/-- `ns_t_aaaa`. -/
def nsTAaaa : Nat := 28

/-- What the resolver library reads off one record: its type, owner name and time to
live, and the bytes from the record's data on. -/
structure ResourceRecord where
  type : Nat
  name : List UInt8
  ttl : UInt32
  rdata : Vector UInt8 16
  deriving DecidableEq, Repr

/-- `ns_initparse` with `ns_parserr` over the answer section: nothing when the response
is refused as a whole, and otherwise one result for every answer record. -/
abbrev Resolver : Type := List UInt8 → Option (List (Option ResourceRecord))

/-! ## The names of interest -/

def maxDnsdbDomainLength : Nat := 64

/-- The bytes of `"googlevideo.com"`, the only entry of `RELEVANT_DOMAIN_NAMES`. -/
def relevantDomain : List UInt8 := "googlevideo.com".toList.map fun c => UInt8.ofNat c.toNat

/-- `RELEVANT_DOMAIN_NAMES[entry]`. Entries past the only one are whatever follows the
array in memory. -/
def relevantDomainNames (beyond : Nat → Outcome (List UInt8)) (entry : Nat) :
    Outcome (List UInt8) :=
  if entry = 0 then pure relevantDomain else beyond entry

/-- The search through the entries for one the owner name ends in. -/
def matchesRelevantDomain (beyond : Nat → Outcome (List UInt8)) (name : List UInt8) :
    List Nat → Outcome Bool
  | [] => pure false
  | entry :: entries => do
      let domain ← relevantDomainNames beyond entry
      if domain.isSuffixOf name then pure true else matchesRelevantDomain beyond name entries

/-- `sizeof(RELEVANT_DOMAIN_NAMES)`, the bound of the search. -/
def relevantDomainNamesSize : Nat := 1 * maxDnsdbDomainLength

/-! ## The thread -/

/-- One line written to the DNS pipe by `export_key`. -/
structure DnsExport where
  type : Nat
  address : Address
  ttl : UInt32
  deriving DecidableEq, Repr

/-- The state of the thread: the hash table, and what it has written to the pipe. -/
structure DnsDb where
  table : DnsHashtable
  pipe : List DnsExport

/-- `dns_item_t`. -/
inductive DnsItem
  | addPkt (pkt : List UInt8)
  | removeIp (address : DnsHashtableKey)
  deriving DecidableEq, Repr

/-- The key of a relevant answer. It starts as `{0}`, and only the address is copied into
it. -/
def answerKey (record : ResourceRecord) : DnsHashtableKey :=
  { DnsHashtableKey.zero with
    address :=
      if record.type = nsTA then .ofBytes (record.rdata.toList.take 4)
      else .ofBytes record.rdata.toList }

section Thread

variable (murmur : DnsHashtableKey → UInt32) (beyond : Nat → Outcome (List UInt8))

/-- The loop over the answer records. It ends at the first record that cannot be parsed
and at the first relevant address. -/
def storeFirstAnswer (db : DnsDb) (now : Int) : List (Option ResourceRecord) → Outcome DnsDb
  | [] => pure db
  | none :: _ => pure db
  | some record :: records =>
      if record.type ≠ nsTA ∧ record.type ≠ nsTAaaa then
        storeFirstAnswer db now records
      else do
        let relevant ← matchesRelevantDomain beyond record.name (List.range relevantDomainNamesSize)
        if relevant then do
          let key := answerKey record
          let (_, table) ← dnsHashtableAddOrChange murmur db.table key (now + record.ttl.toNat)
          pure
            { table := table
              pipe := db.pipe ++ [⟨record.type, key.address, record.ttl⟩] }
        else
          storeFirstAnswer db now records

/-- `parse_dns_packet`, at the second `now` of the monotonic clock. -/
def parseDnsPacket (resolver : Resolver) (db : DnsDb) (now : Int) (pkt : List UInt8) :
    Outcome DnsDb :=
  match resolver pkt with
  | none => pure db
  | some answers => storeFirstAnswer murmur beyond db now answers

/-- One item handled by `dns_db_thread`. -/
def dnsDbThread (resolver : Resolver) (db : DnsDb) (now : Int) : DnsItem → Outcome DnsDb
  | .addPkt pkt => parseDnsPacket murmur beyond resolver db now pkt
  | .removeIp address => do
      let (_, table) ← dnsHashtableRemove murmur db.table address
      pure { db with table := table }

/-- The thread over a sequence of items, each with the second it is handled in. -/
def dnsDbRun (resolver : Resolver) (db : DnsDb) (items : List (Int × DnsItem)) : Outcome DnsDb :=
  items.foldlM (fun db item => dnsDbThread murmur beyond resolver db item.1 item.2) db

/-- An empty table and nothing written. -/
def dnsDbInit : DnsDb := ⟨dnsHashtableInit, []⟩

end Thread

/-! ## Every stored key has type zero -/

/-- The table is valid, and no key in it has an address family. -/
structure DnsDb.Untyped (murmur : DnsHashtableKey → UInt32) (db : DnsDb) : Prop where
  valid : db.table.Valid murmur
  untyped : ∀ b ∈ db.table.bindings, b.1.type = 0

section Untyped

variable {murmur : DnsHashtableKey → UInt32} {beyond : Nat → Outcome (List UInt8)}
  {resolver : Resolver} {db db' : DnsDb} {now : Int}

theorem DnsDb.Untyped.init (murmur : DnsHashtableKey → UInt32) : dnsDbInit.Untyped murmur where
  valid := dnsHashtableInit_valid murmur
  untyped b member := by
    change b ∈ dnsHashtableInit.bindings at member
    rw [dnsHashtableInit_bindings] at member
    exact absurd member (Multiset.notMem_zero b)

theorem DnsDb.Untyped.storeFirstAnswer (untyped : db.Untyped murmur)
    {answers : List (Option ResourceRecord)}
    (returned : storeFirstAnswer murmur beyond db now answers = pure db') :
    db'.Untyped murmur := by
  induction answers with
  | nil =>
      rw [Marina.storeFirstAnswer, Exec.pure_inj] at returned
      exact returned ▸ untyped
  | cons answer answers ih =>
      cases answer with
      | none =>
          rw [Marina.storeFirstAnswer, Exec.pure_inj] at returned
          exact returned ▸ untyped
      | some record =>
          rw [Marina.storeFirstAnswer] at returned
          split at returned
          · exact ih returned
          · obtain ⟨relevant, _, rest⟩ := Exec.bind_eq_pure.mp returned
            split at rest
            · obtain ⟨⟨code, table⟩, stored, final⟩ := Exec.bind_eq_pure.mp rest
              rw [Exec.pure_inj] at final
              subst final
              obtain ⟨valid, bindings⟩ := dnsHashtableAddOrChange_sound untyped.valid stored
              refine ⟨valid, fun b member => ?_⟩
              rcases bindings b member with old | rfl
              · exact untyped.untyped b old
              · rfl
            · exact ih rest

theorem DnsDb.Untyped.step (untyped : db.Untyped murmur) {item : DnsItem}
    (returned : dnsDbThread murmur beyond resolver db now item = pure db') :
    db'.Untyped murmur := by
  cases item with
  | addPkt pkt =>
      simp only [dnsDbThread, parseDnsPacket] at returned
      cases parsed : resolver pkt with
      | none =>
          rw [parsed, Exec.pure_inj] at returned
          exact returned ▸ untyped
      | some answers =>
          rw [parsed] at returned
          exact untyped.storeFirstAnswer returned
  | removeIp address =>
      obtain ⟨⟨code, table⟩, removed, final⟩ := Exec.bind_eq_pure.mp returned
      rw [Exec.pure_inj] at final
      subst final
      obtain ⟨valid, bindings⟩ := dnsHashtableRemove_sound untyped.valid removed
      exact ⟨valid, fun b member => untyped.untyped b ((bindings b).mp member).1⟩

/-- Whatever responses and removals the thread handles, no key it stores has an address
family. -/
theorem DnsDb.Untyped.run {items : List (Int × DnsItem)} :
    ∀ {db db' : DnsDb}, db.Untyped murmur →
      dnsDbRun murmur beyond resolver db items = pure db' → db'.Untyped murmur := by
  induction items with
  | nil =>
      intro db db' untyped returned
      rw [dnsDbRun, List.foldlM_nil, Exec.pure_inj] at returned
      exact returned ▸ untyped
  | cons item items ih =>
      intro db db' untyped returned
      rw [dnsDbRun, List.foldlM_cons] at returned
      obtain ⟨middle, first, rest⟩ := Exec.bind_eq_pure.mp returned
      exact ih (untyped.step first) rest

end Untyped

end Marina
