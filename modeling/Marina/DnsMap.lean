import Marina.DnsHashtable

/-!
# The DNS hash table is a bounded map while it has a free slot

`DnsMap` says what the DNS hash table is for: a map from keys to expiry times that holds
at most `DNS_HASHTABLE_SIZE` keys. `DnsMap.call` is the meaning of each operation on it.

The table gives the map's replies as long as it has a free slot. In a full table it
still serves known keys of `dns_hashtable_get` and `dns_hashtable_remove`, but a search
for an unknown key never ends, and `dns_hashtable_add_or_change` refuses to change the
value of a known key. `DnsMap.Served` is the resulting condition on a sequence of calls,
and `dnsHashtable_boundedMap_iff` shows that it is exact.
-/

namespace Marina

open Lib (Exec)

/-- A finite map from keys to expiry times. -/
abbrev DnsMap : Type := Finmap fun _ : DnsHashtableKey => Int

/-- A call of one of the three operations of the DNS hash table. -/
inductive DnsCall
  | addOrChange (key : DnsHashtableKey) (value : Int)
  | get (key : DnsHashtableKey)
  | remove (key : DnsHashtableKey)

/-- What a call returns: a code, or what it wrote through its output pointer when it
returned `0`. -/
inductive DnsReply
  | code (code : Int)
  | value (value : Option Int)
  deriving DecidableEq

/-! ## Meaning of the operations -/

/-- The reply of the bounded map to a call, and the map after it. -/
def DnsMap.call (map : DnsMap) : DnsCall → DnsReply × DnsMap
  | .addOrChange key value =>
      if key ∈ map ∨ map.keys.card < dnsHashtableSize then
        (.code 0, map.insert key value)
      else
        (.code 1, map)
  | .get key => (.value (map.lookup key), map)
  | .remove key => (.code (if key ∈ map then 0 else 1), map.erase key)

/-- The replies to a sequence of calls, and the map after them. -/
def DnsMap.run (map : DnsMap) : List DnsCall → List DnsReply × DnsMap
  | [] => ([], map)
  | call :: calls =>
      ((map.call call).1 :: ((map.call call).2.run calls).1, ((map.call call).2.run calls).2)

/-- The same on the table. -/
def DnsHashtable.call (murmur : DnsHashtableKey → UInt32) (table : DnsHashtable) :
    DnsCall → Outcome (DnsReply × DnsHashtable)
  | .addOrChange key value => do
      let (code, table) ← dnsHashtableAddOrChange murmur table key value
      pure (.code code, table)
  | .get key => do
      let value ← dnsHashtableGet murmur table key
      pure (.value value, table)
  | .remove key => do
      let (code, table) ← dnsHashtableRemove murmur table key
      pure (.code code, table)

def DnsHashtable.run (murmur : DnsHashtableKey → UInt32) (table : DnsHashtable) :
    List DnsCall → Outcome (List DnsReply × DnsHashtable)
  | [] => pure ([], table)
  | call :: calls => do
      let (reply, table) ← table.call murmur call
      let (replies, table) ← table.run murmur calls
      pure (reply :: replies, table)

/-! ## Representation -/

/-- The table is valid and holds exactly the bindings of the map. -/
structure DnsHashtable.Represents (murmur : DnsHashtableKey → UInt32) (table : DnsHashtable)
    (map : DnsMap) : Prop where
  valid : table.Valid murmur
  lookup_iff : ∀ key value, map.lookup key = some value ↔ (key, value) ∈ table.bindings
  card : table.bindings.card = map.keys.card

/-- Every call returns with the reply of the bounded map, and afterwards the table holds
exactly the map's bindings. -/
def DnsHashtable.BoundedMap (murmur : DnsHashtableKey → UInt32) (calls : List DnsCall) : Prop :=
  Exec.Returns (dnsHashtableInit.run murmur calls) fun result =>
    result.1 = (DnsMap.run ∅ calls).1 ∧
    (∀ key value, (DnsMap.run ∅ calls).2.lookup key = some value ↔
      (key, value) ∈ result.2.bindings) ∧
    result.2.numEntries = (DnsMap.run ∅ calls).2.keys.card

/-- There is a free slot, or the call looks up or removes a known key, or stores an
unknown one. -/
def DnsCall.Served (map : DnsMap) : DnsCall → Prop
  | .addOrChange key _ => map.keys.card < dnsHashtableSize ∨ key ∉ map
  | .get key => map.keys.card < dnsHashtableSize ∨ key ∈ map
  | .remove key => map.keys.card < dnsHashtableSize ∨ key ∈ map

/-- Every call is served when it is made. -/
def DnsMap.Served (map : DnsMap) : List DnsCall → Prop
  | [] => True
  | call :: calls => call.Served map ∧ (map.call call).2.Served calls

namespace DnsHashtable.Represents

variable {murmur : DnsHashtableKey → UInt32} {table table' : DnsHashtable} {map : DnsMap}
  {key : DnsHashtableKey} {value old : Int}

theorem init (murmur : DnsHashtableKey → UInt32) : dnsHashtableInit.Represents murmur ∅ where
  valid := dnsHashtableInit_valid murmur
  lookup_iff key value := by
    rw [dnsHashtableInit_bindings, Finmap.lookup_empty]
    simp
  card := by
    rw [dnsHashtableInit_bindings, Finmap.keys_empty, Multiset.card_zero, Finset.card_empty]

theorem mem (rep : table.Represents murmur map) (known : key ∈ map) :
    ∃ value, map.lookup key = some value ∧ (key, value) ∈ table.bindings := by
  obtain ⟨value, bound⟩ := Finmap.mem_iff.mp known
  exact ⟨value, bound, (rep.lookup_iff key value).mp bound⟩

theorem absent (rep : table.Represents murmur map) (unknown : key ∉ map) :
    ∀ b ∈ table.bindings, b.1 ≠ key := by
  intro b member same
  subst same
  exact unknown (Finmap.mem_of_lookup_eq_some ((rep.lookup_iff b.1 b.2).mpr member))

/-- Binding a key on both sides. -/
theorem insert (rep : table.Represents murmur map) (valid : table'.Valid murmur)
    {others : Multiset (DnsHashtableKey × Int)} (bindings : table'.bindings = (key, value) ::ₘ others)
    (kept : ∀ k v, (k, v) ∈ others ↔ (k, v) ∈ table.bindings ∧ k ≠ key)
    (count : table'.bindings.card = (map.insert key value).keys.card) :
    table'.Represents murmur (map.insert key value) where
  valid := valid
  lookup_iff k v := by
    rw [bindings, Multiset.mem_cons, kept]
    by_cases same : k = key
    · subst same
      rw [Finmap.lookup_insert]
      simp [eq_comm]
    · rw [Finmap.lookup_insert_of_ne _ same, rep.lookup_iff]
      simp [same]
  card := count

theorem keys_insert (map : DnsMap) (key : DnsHashtableKey) (value : Int) :
    (map.insert key value).keys = Insert.insert key map.keys := by
  ext k
  rw [Finset.mem_insert, Finmap.mem_keys, Finmap.mem_keys, Finmap.mem_insert]

/-- A value is changed. -/
theorem change (rep : table.Represents murmur map) (valid : table'.Valid murmur)
    {others : Multiset (DnsHashtableKey × Int)} (before : table.bindings = (key, old) ::ₘ others)
    (after : table'.bindings = (key, value) ::ₘ others) :
    table'.Represents murmur (map.insert key value) := by
  have nodup := rep.valid.nodup
  rw [before, Multiset.nodup_cons] at nodup
  have here : (key, old) ∈ table.bindings := by
    rw [before]
    exact Multiset.mem_cons_self _ _
  apply rep.insert valid after
  · intro k v
    rw [before, Multiset.mem_cons]
    constructor
    · intro member
      refine ⟨Or.inr member, ?_⟩
      intro same
      rcases same with rfl
      have there : (k, v) ∈ table.bindings := by
        rw [before]
        exact Multiset.mem_cons_of_mem member
      rw [rep.valid.key_unique there here rfl] at member
      exact nodup.1 member
    · intro given
      rcases given with ⟨member | member, other⟩
      · exact absurd (congrArg Prod.fst member) other
      · exact member
  · have known : key ∈ map.keys :=
      Finmap.mem_keys.mpr (Finmap.mem_of_lookup_eq_some ((rep.lookup_iff key old).mpr here))
    rw [keys_insert, Finset.insert_eq_of_mem known, ← rep.card, before, after,
      Multiset.card_cons, Multiset.card_cons]

/-- An unknown key is bound. -/
theorem add (rep : table.Represents murmur map) (unknown : key ∉ map)
    (valid : table'.Valid murmur) (bindings : table'.bindings = (key, value) ::ₘ table.bindings) :
    table'.Represents murmur (map.insert key value) := by
  apply rep.insert valid bindings
  · intro k v
    constructor
    · intro member
      exact ⟨member, rep.absent unknown (k, v) member⟩
    · exact And.left
  · have new : key ∉ map.keys := fun known => unknown (Finmap.mem_keys.mp known)
    rw [keys_insert, Finset.card_insert_of_notMem new, bindings, Multiset.card_cons, rep.card]

/-- Unbinding a key on both sides. -/
theorem erase (rep : table.Represents murmur map) (valid : table'.Valid murmur)
    (bindings : table.bindings = (key, old) ::ₘ table'.bindings) :
    table'.Represents murmur (map.erase key) where
  valid := valid
  lookup_iff k v := by
    have nodup := rep.valid.nodup
    rw [bindings, Multiset.nodup_cons] at nodup
    have here : (key, old) ∈ table.bindings := by
      rw [bindings]
      exact Multiset.mem_cons_self _ _
    by_cases same : k = key
    · subst same
      rw [Finmap.lookup_erase]
      constructor
      · intro impossible
        cases impossible
      · intro member
        have there : (k, v) ∈ table.bindings := by
          rw [bindings]
          exact Multiset.mem_cons_of_mem member
        rw [rep.valid.key_unique there here rfl] at member
        exact absurd member nodup.1
    · rw [Finmap.lookup_erase_ne same, rep.lookup_iff, bindings, Multiset.mem_cons]
      constructor
      · intro given
        rcases given with member | member
        · exact absurd (congrArg Prod.fst member) same
        · exact member
      · exact Or.inr
  card := by
    have here : key ∈ map.keys := by
      rw [Finmap.mem_keys]
      apply Finmap.mem_of_lookup_eq_some
      exact (rep.lookup_iff key old).mpr (by rw [bindings]; exact Multiset.mem_cons_self _ _)
    have card := rep.card
    rw [bindings, Multiset.card_cons] at card
    rw [Finmap.keys_erase, Finset.card_erase_of_mem here]
    omega

/-- The table holds at most as many entries as it has slots. -/
theorem card_le (rep : table.Represents murmur map) : map.keys.card ≤ dnsHashtableSize := by
  rw [← rep.card]
  exact Lib.LinearProbing.card_live_le

theorem numEntries (rep : table.Represents murmur map) : table.numEntries = map.keys.card :=
  rep.valid.count.trans rep.card

theorem room (rep : table.Represents murmur map) (free : map.keys.card < dnsHashtableSize) :
    table.bindings.card < dnsHashtableSize := by
  rw [rep.card]
  exact free

theorem full (rep : table.Represents murmur map) (filled : ¬ map.keys.card < dnsHashtableSize) :
    table.bindings.card = dnsHashtableSize := by
  have most := rep.card_le
  rw [rep.card]
  omega

/-! ## One call -/

theorem call_addOrChange (rep : table.Represents murmur map)
    (served : (DnsCall.addOrChange key value).Served map) :
    Exec.Returns (table.call murmur (.addOrChange key value)) fun result =>
      result.1 = (map.call (.addOrChange key value)).1 ∧
      result.2.Represents murmur (map.call (.addOrChange key value)).2 := by
  simp only [DnsHashtable.call, DnsMap.call]
  by_cases free : map.keys.card < dnsHashtableSize
  · rw [if_pos (Or.inr free)]
    by_cases known : key ∈ map
    · obtain ⟨old, bound, member⟩ := rep.mem known
      apply (dnsHashtableAddOrChange_of_mem rep.valid (rep.room free) member).bind
      intro result post
      rcases result with ⟨code, table'⟩
      rcases post with ⟨rfl, valid, others, before, after⟩
      exact .pure ⟨rfl, rep.change valid before after⟩
    · apply (dnsHashtableAddOrChange_of_absent rep.valid (rep.room free) (rep.absent known)).bind
      intro result post
      rcases result with ⟨code, table'⟩
      rcases post with ⟨rfl, valid, bindings⟩
      exact .pure ⟨rfl, rep.add known valid bindings⟩
  · have unknown : key ∉ map := served.resolve_left free
    rw [if_neg (by simp [unknown, free]), dnsHashtableAddOrChange_of_full rep.valid (rep.full free)]
    exact .pure ⟨rfl, rep⟩

theorem call_get (rep : table.Represents murmur map) (served : (DnsCall.get key).Served map) :
    Exec.Returns (table.call murmur (.get key)) fun result =>
      result.1 = (map.call (.get key)).1 ∧ result.2.Represents murmur (map.call (.get key)).2 := by
  simp only [DnsHashtable.call, DnsMap.call]
  by_cases known : key ∈ map
  · obtain ⟨value, bound, member⟩ := rep.mem known
    rw [dnsHashtableGet_of_mem rep.valid member, bound]
    exact .pure ⟨rfl, rep⟩
  · have free : map.keys.card < dnsHashtableSize := served.resolve_right known
    rw [dnsHashtableGet_of_absent (rep.room free) (rep.absent known),
      Finmap.lookup_eq_none.mpr known]
    exact .pure ⟨rfl, rep⟩

theorem erase_of_notMem (unknown : key ∉ map) : map.erase key = map := by
  apply Finmap.ext_lookup
  intro k
  by_cases same : k = key
  · rw [same, Finmap.lookup_erase, Finmap.lookup_eq_none.mpr unknown]
  · rw [Finmap.lookup_erase_ne same]

theorem call_remove (rep : table.Represents murmur map)
    (served : (DnsCall.remove key).Served map) :
    Exec.Returns (table.call murmur (.remove key)) fun result =>
      result.1 = (map.call (.remove key)).1 ∧
      result.2.Represents murmur (map.call (.remove key)).2 := by
  simp only [DnsHashtable.call, DnsMap.call]
  by_cases known : key ∈ map
  · obtain ⟨old, bound, member⟩ := rep.mem known
    rw [if_pos known]
    apply (dnsHashtableRemove_of_mem rep.valid member).bind
    intro result post
    rcases result with ⟨code, table'⟩
    rcases post with ⟨rfl, valid, bindings⟩
    exact .pure ⟨rfl, rep.erase valid bindings⟩
  · have free : map.keys.card < dnsHashtableSize := served.resolve_right known
    rw [if_neg known, dnsHashtableRemove_of_absent (rep.room free) (rep.absent known),
      erase_of_notMem known]
    exact .pure ⟨rfl, rep⟩

/-- A served call keeps the representation and gives the reply of the bounded map. -/
theorem call (rep : table.Represents murmur map) {request : DnsCall}
    (served : request.Served map) :
    Exec.Returns (table.call murmur request) fun result =>
      result.1 = (map.call request).1 ∧ result.2.Represents murmur (map.call request).2 := by
  cases request with
  | addOrChange key value => exact rep.call_addOrChange served
  | get key => exact rep.call_get served
  | remove key => exact rep.call_remove served

/-- Any other call does not return with that reply. -/
theorem call_unserved (rep : table.Represents murmur map) {request : DnsCall}
    (unserved : ¬ request.Served map) {result : DnsReply × DnsHashtable}
    (returned : table.call murmur request = pure result) :
    result.1 ≠ (map.call request).1 := by
  cases request with
  | addOrChange key value =>
      obtain ⟨filled, known⟩ := not_or.mp unserved
      simp only [DnsHashtable.call, dnsHashtableAddOrChange_of_full rep.valid (rep.full filled),
        pure_bind, Exec.pure_inj] at returned
      subst returned
      simp only [DnsMap.call]
      rw [if_pos (Or.inl (not_not.mp known))]
      simp
  | get key =>
      obtain ⟨filled, unknown⟩ := not_or.mp unserved
      simp only [DnsHashtable.call] at returned
      rw [dnsHashtableGet_of_full (rep.full filled) (rep.absent unknown)] at returned
      cases returned
  | remove key =>
      obtain ⟨filled, unknown⟩ := not_or.mp unserved
      simp only [DnsHashtable.call] at returned
      rw [dnsHashtableRemove_of_full (rep.full filled) (rep.absent unknown)] at returned
      cases returned

/-! ## Whole sequences of calls -/

theorem run (rep : table.Represents murmur map) {calls : List DnsCall}
    (served : map.Served calls) :
    Exec.Returns (table.run murmur calls) fun result =>
      result.1 = (map.run calls).1 ∧ result.2.Represents murmur (map.run calls).2 := by
  induction calls generalizing table map with
  | nil => exact .pure ⟨rfl, rep⟩
  | cons request calls ih =>
      unfold DnsHashtable.run DnsMap.run
      apply (rep.call served.1).bind
      intro result post
      rcases result with ⟨reply, table'⟩
      rcases post with ⟨rfl, rep'⟩
      apply (ih rep' served.2).bind
      intro result post
      rcases result with ⟨replies, table''⟩
      rcases post with ⟨rfl, rep''⟩
      exact .pure ⟨rfl, rep''⟩

/-- Replies of the bounded map show that every call was served. -/
theorem served_of_run (rep : table.Represents murmur map) {calls : List DnsCall}
    (returned : Exec.Returns (table.run murmur calls) fun result =>
      result.1 = (map.run calls).1) : map.Served calls := by
  induction calls generalizing table map with
  | nil => exact True.intro
  | cons request calls ih =>
      obtain ⟨⟨replies, last⟩, equal, same⟩ := returned
      unfold DnsHashtable.run at equal
      obtain ⟨⟨reply, table'⟩, first, rest⟩ := Exec.bind_eq_pure.mp equal
      obtain ⟨⟨later, table''⟩, second, final⟩ := Exec.bind_eq_pure.mp rest
      rw [Exec.pure_inj, Prod.mk.injEq] at final
      obtain ⟨rfl, rfl⟩ := final
      unfold DnsMap.run at same
      obtain ⟨sameReply, sameLater⟩ := List.cons.inj same
      have served : request.Served map := by
        by_contra unserved
        exact rep.call_unserved unserved first sameReply
      have rep' := ((rep.call served).of_pure first).2
      exact ⟨served, ih rep' ⟨(later, table''), second, sameLater⟩⟩

end DnsHashtable.Represents

/-- Over every sequence of calls after `dns_hashtable_init`, the table returns with the
replies and the bindings of the bounded map if and only if every call is made with a
free slot in the table, or looks up or removes a known key, or stores an unknown one. -/
theorem dnsHashtable_boundedMap_iff (murmur : DnsHashtableKey → UInt32) (calls : List DnsCall) :
    DnsHashtable.BoundedMap murmur calls ↔ DnsMap.Served ∅ calls := by
  constructor
  · intro bounded
    exact (DnsHashtable.Represents.init murmur).served_of_run
      (bounded.mono fun _ facts => facts.1)
  · intro served
    apply ((DnsHashtable.Represents.init murmur).run served).mono
    intro result post
    rcases result with ⟨replies, table⟩
    rcases post with ⟨same, rep⟩
    exact ⟨same, rep.lookup_iff, rep.numEntries⟩

/-! ## Filling the table -/

/-- The `n`-th of a row of IPv4 addresses, as a key. -/
def DnsHashtableKey.host (n : Nat) : DnsHashtableKey where
  type := 2
  address := .ofBytes [UInt8.ofNat (n / 65536), UInt8.ofNat (n / 256), UInt8.ofNat n]

theorem DnsHashtableKey.host_inj {m n : Nat} (hm : m ≤ 65536) (hn : n ≤ 65536)
    (same : host m = host n) : m = n := by
  have bytes := congrArg (fun key => key.address.bytes) same
  have high := congrArg (fun b : Vector UInt8 16 => b[0].toNat) bytes
  have middle := congrArg (fun b : Vector UInt8 16 => b[1].toNat) bytes
  have low := congrArg (fun b : Vector UInt8 16 => b[2].toNat) bytes
  simp [host, Address.ofBytes] at high middle low
  omega

/-- Store the first `n` hosts. -/
def fillCalls (n : Nat) : List DnsCall :=
  (List.range n).map fun i => .addOrChange (.host i) 0

theorem DnsMap.run_append (map : DnsMap) (calls rest : List DnsCall) :
    (map.run (calls ++ rest)).2 = ((map.run calls).2.run rest).2 := by
  induction calls generalizing map with
  | nil => rfl
  | cons call calls ih => exact ih _

theorem DnsMap.Served.suffix {map : DnsMap} {calls rest : List DnsCall}
    (served : map.Served (calls ++ rest)) : (map.run calls).2.Served rest := by
  induction calls generalizing map with
  | nil => exact served
  | cons call calls ih => exact ih served.2

/-- The hosts stored so far are the keys of the map. -/
theorem DnsMap.keys_run_fillCalls {n : Nat} (fits : n ≤ dnsHashtableSize)
    (size : dnsHashtableSize = 65536) :
    (DnsMap.run ∅ (fillCalls n)).2.keys = (Finset.range n).image DnsHashtableKey.host := by
  induction n with
  | zero => rfl
  | succ n ih =>
      have before := ih (by omega)
      have card : (DnsMap.run ∅ (fillCalls n)).2.keys.card < dnsHashtableSize := by
        rw [before]
        have most := Finset.card_image_le (s := Finset.range n) (f := DnsHashtableKey.host)
        rw [Finset.card_range] at most
        omega
      have stored : (DnsMap.run ∅ (fillCalls (n + 1))).2 =
          (DnsMap.run ∅ (fillCalls n)).2.insert (.host n) 0 := by
        have last : fillCalls (n + 1) = fillCalls n ++ [.addOrChange (.host n) 0] := by
          unfold fillCalls
          rw [List.range_succ, List.map_append]
          rfl
        rw [last, DnsMap.run_append]
        change (DnsMap.call _ _).2 = _
        simp only [DnsMap.call]
        rw [if_pos (Or.inr card)]
      rw [stored, DnsHashtable.Represents.keys_insert, before, Finset.range_add_one,
        Finset.image_insert]

/-- With all slots taken by other hosts, looking up one more host is not served. -/
theorem dnsHashtable_not_boundedMap :
    ¬ DnsHashtable.BoundedMap (fun _ => 0)
      (fillCalls dnsHashtableSize ++ [.get (.host dnsHashtableSize)]) := by
  have size : dnsHashtableSize = 65536 := by unfold dnsHashtableSize; decide
  intro bounded
  have served := ((DnsHashtable.Represents.init _).served_of_run
    (bounded.mono fun _ facts => facts.1)).suffix.1
  have keys := DnsMap.keys_run_fillCalls le_rfl size
  rcases served with free | known
  · rw [keys, Finset.card_image_of_injOn, Finset.card_range] at free
    · omega
    · intro m hm n hn same
      rw [Finset.coe_range, Set.mem_Iio] at hm hn
      exact DnsHashtableKey.host_inj (by omega) (by omega) same
  · rw [← Finmap.mem_keys, keys, Finset.mem_image] at known
    obtain ⟨n, member, same⟩ := known
    rw [Finset.mem_range] at member
    have equal := DnsHashtableKey.host_inj (by omega) (by omega) same
    omega

end Marina
