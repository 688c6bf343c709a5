import Marina.Heuristic

/-!
# What a DNS response teaches

All addresses of the answer section whose owner is a relevant domain should be stored, each
until its time to live has passed, and nothing else. `parse_dns_packet` returns after the
first address it stores, and it looks for the owner of an address among as many names as
`RELEVANT_DOMAIN_NAMES` has bytes: for an owner that does not end in the only name there is,
it reads past the array.

So everything depends on the first answer record with an address, and
`parse_dns_packet_learns_iff` says when that is enough.
-/

namespace Marina

open Lib (Exec)
open Lib.Exec

/-! ## The specification -/

namespace ResourceRecord

/-- An A or an AAAA record. -/
def hasAddress (record : ResourceRecord) : Bool := record.type = nsTA ∨ record.type = nsTAaaa

/-- It has an address, and its owner ends in the name of interest. -/
def Relevant (record : ResourceRecord) : Prop :=
  record.hasAddress = true ∧ relevantDomain <:+ record.name

/-- The entry for it in the table, of a response that comes at second `now`. -/
def learned (record : ResourceRecord) (now : Int) : DnsHashtableKey × Int :=
  (answerKey record, now + record.ttl.toNat)

end ResourceRecord

/-- The entries of the table before and after: the relevant records among `records` are
stored, and besides them only what was there. -/
structure LearnsExactly (now : Int) (records : List ResourceRecord)
    (before after : Multiset (DnsHashtableKey × Int)) : Prop where
  stored : ∀ record ∈ records, record.Relevant → record.learned now ∈ after
  only : ∀ b ∈ after, b ∈ before ∨ ∃ record ∈ records, record.Relevant ∧ b = record.learned now
  kept : ∀ b ∈ before, (∀ record ∈ records, record.Relevant → answerKey record ≠ b.1) → b ∈ after

/-- Storing the first record with an address is enough: it is relevant, the table takes it or
has it, and the other relevant records say the same or are known already. -/
structure FirstSuffices (now : Int) (records : List ResourceRecord)
    (before : Multiset (DnsHashtableKey × Int)) (record : ResourceRecord) : Prop where
  relevant : record.Relevant
  room : before.card < dnsHashtableSize ∨ record.learned now ∈ before
  others : ∀ other ∈ records, other.Relevant → other.learned now = record.learned now ∨
    answerKey other ≠ answerKey record ∧ other.learned now ∈ before

/-- An access past the end of `RELEVANT_DOMAIN_NAMES`. -/
def pastTheNames : Nat → Outcome (List UInt8) := fun _ => throw .outOfBounds

/-! ## The loop over the answer records -/

section Loop

variable {murmur : DnsHashtableKey → UInt32} {db : DnsDb} {now : Int}
  {records : List ResourceRecord} {record : ResourceRecord}

/-- The search finds the only name at once, or goes past the array. -/
theorem matchesRelevantDomain_eq (name : List UInt8) :
    matchesRelevantDomain pastTheNames name (List.range relevantDomainNamesSize) =
      if relevantDomain <:+ name then pure true else throw .outOfBounds := by
  have entries : ∃ rest, List.range relevantDomainNamesSize = 0 :: 1 :: rest := ⟨_, rfl⟩
  obtain ⟨rest, entries⟩ := entries
  rw [entries, matchesRelevantDomain, relevantDomainNames, if_pos rfl, pure_bind]
  by_cases suffix : relevantDomain <:+ name
  · rw [if_pos suffix, if_pos (List.isSuffixOf_iff_suffix.mpr suffix)]
  · rw [if_neg suffix, if_neg fun found => suffix (List.isSuffixOf_iff_suffix.mp found),
      matchesRelevantDomain, relevantDomainNames, if_neg Nat.one_ne_zero]
    exact throw_bind _ _

/-- Records without an address are passed over. -/
theorem storeFirstAnswer_skip {before : List ResourceRecord}
    (none : ∀ record ∈ before, record.hasAddress = false)
    (rest : List (Option ResourceRecord)) :
    storeFirstAnswer murmur pastTheNames db now (before.map some ++ rest) =
      storeFirstAnswer murmur pastTheNames db now rest := by
  induction before with
  | nil => rfl
  | cons record before ih =>
      have skipped := none record List.mem_cons_self
      have neither : record.type ≠ nsTA ∧ record.type ≠ nsTAaaa := by
        simpa [ResourceRecord.hasAddress] using skipped
      rw [List.map_cons, List.cons_append, storeFirstAnswer, if_pos neither]
      exact ih fun other member => none other (List.mem_cons_of_mem record member)

/-- Without an address there is nothing to store. -/
theorem storeFirstAnswer_of_none (none : records.find? ResourceRecord.hasAddress = none) :
    storeFirstAnswer murmur pastTheNames db now (records.map some) = pure db := by
  rw [List.find?_eq_none] at none
  rw [← List.append_nil (records.map some), storeFirstAnswer_skip fun record member =>
    Bool.eq_false_of_not_eq_true (none record member)]
  rfl

/-- The first record with an address is stored, or its owner leads past the array. -/
theorem storeFirstAnswer_of_first
    (first : records.find? ResourceRecord.hasAddress = some record) :
    storeFirstAnswer murmur pastTheNames db now (records.map some) =
      if relevantDomain <:+ record.name then do
        let (_, table) ← dnsHashtableAddOrChange murmur db.table (answerKey record)
          (now + record.ttl.toNat)
        pure
          { table := table
            pipe := db.pipe ++ [⟨record.type, (answerKey record).address, record.ttl⟩] }
      else throw .outOfBounds := by
  rw [List.find?_eq_some_iff_append] at first
  obtain ⟨address, before, after, rfl, none⟩ := first
  have some : ¬ (record.type ≠ nsTA ∧ record.type ≠ nsTAaaa) := by
    simpa [ResourceRecord.hasAddress, or_iff_not_imp_left] using address
  rw [List.map_append, List.map_cons,
    storeFirstAnswer_skip fun other member => by simpa using none other member,
    storeFirstAnswer, if_neg some, matchesRelevantDomain_eq]
  split
  · rfl
  · rfl

end Loop

/-! ## When the first address is enough -/

section Learning

variable {murmur : DnsHashtableKey → UInt32} {table : DnsHashtable} {now : Int}
  {records : List ResourceRecord} {record : ResourceRecord}
  {before after : Multiset (DnsHashtableKey × Int)}

/-- A response without addresses teaches nothing. -/
theorem learnsExactly_of_none (none : records.find? ResourceRecord.hasAddress = none) :
    LearnsExactly now records before before := by
  rw [List.find?_eq_none] at none
  refine ⟨?_, fun b bound => Or.inl bound, fun b bound _ => bound⟩
  intro record member relevant
  exact absurd relevant.1 (none record member)

/-- In a full table nothing changes, so everything has to be there. -/
theorem learnsExactly_self_iff (valid : table.Valid murmur)
    (full : ¬ table.bindings.card < dnsHashtableSize) (member : record ∈ records)
    (relevant : record.Relevant) :
    LearnsExactly now records table.bindings table.bindings ↔
      FirstSuffices now records table.bindings record := by
  constructor
  · intro learns
    have known := learns.stored record member relevant
    refine ⟨relevant, Or.inr known, fun other member' relevant' => ?_⟩
    have known' := learns.stored other member' relevant'
    by_cases same : answerKey other = answerKey record
    · exact Or.inl (valid.key_unique known' known same)
    · exact Or.inr ⟨same, known'⟩
  · intro first
    have known := first.room.resolve_left full
    refine ⟨?_, fun b bound => Or.inl bound, fun b bound _ => bound⟩
    intro other member' relevant'
    rcases first.others other member' relevant' with same | ⟨_, known'⟩
    · rw [same]
      exact known
    · exact known'

/-- A table with room holds what was stored, and of the rest what has another key. -/
theorem learnsExactly_stored_iff (room : before.card < dnsHashtableSize)
    (member : record ∈ records) (relevant : record.Relevant)
    (holds : ∀ b, b ∈ after ↔ b = record.learned now ∨ b ∈ before ∧ b.1 ≠ answerKey record) :
    LearnsExactly now records before after ↔ FirstSuffices now records before record := by
  constructor
  · intro learns
    refine ⟨relevant, Or.inl room, ?_⟩
    intro other member' relevant'
    rcases (holds _).mp (learns.stored other member' relevant') with same | ⟨known, key⟩
    · exact Or.inl same
    · exact Or.inr ⟨key, known⟩
  · intro first
    constructor
    · intro other member' relevant'
      rw [holds]
      rcases first.others other member' relevant' with same | ⟨key, known⟩
      · exact Or.inl same
      · exact Or.inr ⟨known, key⟩
    · intro b bound
      rcases (holds b).mp bound with rfl | ⟨known, _⟩
      · exact Or.inr ⟨record, member, relevant, rfl⟩
      · exact Or.inl known
    · intro b bound others
      exact (holds b).mpr (Or.inr ⟨bound, (others record member relevant).symm⟩)

end Learning

/-- All accesses are inside the array and the relevant addresses are learned, exactly when
storing the first address of the response is enough. -/
theorem parse_dns_packet_learns_iff (murmur : DnsHashtableKey → UInt32) (resolver : Resolver)
    (db : DnsDb) (valid : db.table.Valid murmur) (now : Int) (pkt : List UInt8)
    (records : List ResourceRecord) (parsed : resolver pkt = some (records.map some)) :
    Returns (parseDnsPacket murmur pastTheNames resolver db now pkt)
        (fun db' => LearnsExactly now records db.table.bindings db'.table.bindings) ↔
      ∀ record, records.find? ResourceRecord.hasAddress = some record →
        FirstSuffices now records db.table.bindings record := by
  unfold parseDnsPacket
  rw [parsed]
  dsimp only
  cases first : records.find? ResourceRecord.hasAddress with
  | none =>
      rw [storeFirstAnswer_of_none first]
      refine iff_of_true (.pure (learnsExactly_of_none first)) ?_
      intro record same
      cases same
  | some record =>
      have member := List.mem_of_find?_eq_some first
      simp only [Option.some_inj, forall_eq']
      rw [storeFirstAnswer_of_first first]
      by_cases suffix : relevantDomain <:+ record.name
      · have relevant : record.Relevant := ⟨List.find?_some first, suffix⟩
        rw [if_pos suffix]
        by_cases room : db.table.bindings.card < dnsHashtableSize
        · obtain ⟨⟨code, table⟩, stored, holds⟩ := dnsHashtableAddOrChange_returns valid room
            (answerKey record) (now + record.ttl.toNat)
          rw [stored, pure_bind]
          exact returns_pure.trans (learnsExactly_stored_iff room member relevant holds)
        · have full := db.table.room_or_full.resolve_left room
          rw [dnsHashtableAddOrChange_of_full valid full, pure_bind]
          exact returns_pure.trans (learnsExactly_self_iff valid room member relevant)
      · rw [if_neg suffix]
        refine iff_of_false ?_ fun suffices' => suffix suffices'.relevant.2
        intro given
        rcases given with ⟨db', returned, _⟩
        exact throw_ne_pure returned

/-! ## One and two addresses -/

/-- A second answer for the relevant domain, with the address `10.0.0.2`. -/
def secondAnswer : ResourceRecord :=
  { sampleAnswer with rdata := (Address.ofBytes [10, 0, 0, 2]).bytes }

theorem sampleAnswer_relevant : sampleAnswer.Relevant := ⟨by decide, List.suffix_rfl⟩

theorem secondAnswer_relevant : secondAnswer.Relevant := ⟨by decide, List.suffix_rfl⟩

/-- A response with one address is learned. -/
theorem parse_dns_packet_learns_one :
    Returns (parseDnsPacket (fun _ => 0) pastTheNames (fun _ => some [some sampleAnswer])
        dnsDbInit 100 [])
      fun db => LearnsExactly 100 [sampleAnswer] dnsDbInit.table.bindings db.table.bindings := by
  rw [parse_dns_packet_learns_iff (fun _ => 0) _ dnsDbInit (dnsHashtableInit_valid _) 100 []
    [sampleAnswer] rfl]
  intro record first
  have same : sampleAnswer = record := Option.some.inj first
  subst same
  refine ⟨sampleAnswer_relevant, Or.inl ?_, ?_⟩
  · change dnsHashtableInit.bindings.card < dnsHashtableSize
    rw [dnsHashtableInit_bindings]
    unfold dnsHashtableSize
    decide
  · intro other member _
    rw [List.mem_singleton.mp member]
    exact Or.inl rfl

/-- Of a response with two addresses the second one is not. -/
theorem parse_dns_packet_misses_second :
    ¬ Returns (parseDnsPacket (fun _ => 0) pastTheNames
        (fun _ => some [some sampleAnswer, some secondAnswer]) dnsDbInit 100 [])
      fun db => LearnsExactly 100 [sampleAnswer, secondAnswer] dnsDbInit.table.bindings
        db.table.bindings := by
  intro given
  rcases given with ⟨db, parsed, learns⟩
  have first : [sampleAnswer, secondAnswer].find? ResourceRecord.hasAddress =
      some sampleAnswer := List.find?_cons_of_pos sampleAnswer_relevant.1
  have loop : storeFirstAnswer (fun _ => 0) pastTheNames dnsDbInit 100
      ([sampleAnswer, secondAnswer].map some) = pure db := parsed
  rw [storeFirstAnswer_of_first first, if_pos sampleAnswer_relevant.2] at loop
  obtain ⟨result, stored, rest⟩ := bind_eq_pure.mp loop
  have bindings := (dnsHashtableAddOrChange_sound (dnsHashtableInit_valid _) stored).2
  have second := learns.stored secondAnswer (List.mem_cons_of_mem _ List.mem_cons_self)
    secondAnswer_relevant
  rw [← pure_inj.mp rest] at second
  rcases bindings _ second with old | same
  · change _ ∈ dnsHashtableInit.bindings at old
    rw [dnsHashtableInit_bindings] at old
    exact absurd old (Multiset.notMem_zero _)
  · exact absurd (congrArg (fun b => b.1.address) same) (by decide)

end Marina
