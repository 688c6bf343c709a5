import Marina.FlowHashtable

/-!
# The flow hash table is a finite map

`FlowMap` says what the flow hash table is for: a finite map from the `h` part of a
five-tuple to the full five-tuple and the flow id of a live flow. `FlowMap.call` is the
meaning of each operation on it, and `flowHashtable_refines_flowMap` shows that the
table of `flow_hashtable.c` gives the same replies over every sequence of calls.
-/

namespace Marina

open Lib (Exec)

/-- A finite map from flows to their five-tuple and flow id. -/
abbrev FlowMap : Type := Finmap fun _ : FiveTupleForHash => FiveTuple × Int

/-- A call of one of the four operations of the flow hash table. -/
inductive FlowCall
  | add (key : FiveTuple) (value : Int)
  | get (key : FiveTuple)
  | remove (key : FiveTuple)
  | removeByValue (value : Int)

/-- What a call returns: a code, or what it wrote through its output pointer when it
returned `0`. -/
inductive FlowReply
  | code (code : Int)
  | value (value : Option Int)
  | key (key : Option FiveTuple)

/-! ## Meaning of the operations -/

/-- The binding of a flow id. -/
def FlowMap.Binds (map : FlowMap) (value : Int) (binding : FiveTuple × Int) : Prop :=
  map.lookup binding.1.h = some binding ∧ binding.2 = value

open Classical in
/-- The reply of a finite map to a call, and the map after it. -/
noncomputable def FlowMap.call (map : FlowMap) : FlowCall → FlowReply × FlowMap
  | .add key value =>
      if map.lookup key.h = none then (.code 0, map.insert key.h (key, value)) else (.code 1, map)
  | .get key => (.value ((map.lookup key.h).map Prod.snd), map)
  | .remove key => (.value ((map.lookup key.h).map Prod.snd), map.erase key.h)
  | .removeByValue value =>
      if bound : ∃ binding, map.Binds value binding then
        (.key (some bound.choose.1), map.erase bound.choose.1.h)
      else
        (.key none, map)

/-- The replies to a sequence of calls, and the map after them. -/
noncomputable def FlowMap.run (map : FlowMap) : List FlowCall → List FlowReply × FlowMap
  | [] => ([], map)
  | call :: calls =>
      ((map.call call).1 :: ((map.call call).2.run calls).1, ((map.call call).2.run calls).2)

/-- The same on the table. -/
def FlowHashtable.call (env : Env) (table : FlowHashtable) :
    FlowCall → Outcome (FlowReply × FlowHashtable)
  | .add key value => do
      let (code, table) ← flowHashtableAdd env table key value
      pure (.code code, table)
  | .get key => do
      let value ← flowHashtableGet env table key
      pure (.value value, table)
  | .remove key => do
      let (value, table) ← flowHashtableRemove env table key
      pure (.value value, table)
  | .removeByValue value => do
      let (key, table) ← flowHashtableRemoveByValue env table value
      pure (.key key, table)

def FlowHashtable.run (env : Env) (table : FlowHashtable) :
    List FlowCall → Outcome (List FlowReply × FlowHashtable)
  | [] => pure ([], table)
  | call :: calls => do
      let (reply, table) ← table.call env call
      let (replies, table) ← table.run env calls
      pure (reply :: replies, table)

/-! ## What callers promise -/

/-- A value is a valid index of the reverse map, and an added one is not in use. -/
def FlowCall.Admissible (map : FlowMap) : FlowCall → Prop
  | .add _ value =>
      (0 ≤ value ∧ value < featureSize) ∧
        ∀ h binding, map.lookup h = some binding → binding.2 ≠ value
  | .get _ => True
  | .remove _ => True
  | .removeByValue value => 0 ≤ value ∧ value < featureSize

/-- Every call is admissible when it is made, and fewer flows than slots are live at
all times. -/
def FlowMap.Admissible (map : FlowMap) : List FlowCall → Prop
  | [] => map.keys.card < flowHashtableSize
  | call :: calls =>
      map.keys.card < flowHashtableSize ∧ call.Admissible map ∧
        (map.call call).2.Admissible calls

theorem FlowMap.Admissible.room {map : FlowMap} {calls : List FlowCall}
    (admissible : map.Admissible calls) : map.keys.card < flowHashtableSize := by
  cases calls with
  | nil => exact admissible
  | cons call calls => exact admissible.1

/-! ## Refinement -/

/-- The table is valid and holds exactly the bindings of the map. -/
structure FlowHashtable.Represents (env : Env) (table : FlowHashtable) (map : FlowMap) : Prop where
  valid : table.Valid env
  lookup_iff : ∀ h binding,
    map.lookup h = some binding ↔ binding ∈ table.bindings ∧ binding.1.h = h
  card : table.bindings.card = map.keys.card

namespace FlowHashtable.Represents

variable {env : Env} {table table' : FlowHashtable} {map : FlowMap} {key : FiveTuple}
  {value : Int} {binding : FiveTuple × Int}

theorem init (env : Env) : flowHashtableInit.Represents env ∅ where
  valid := flowHashtableInit_valid env
  lookup_iff h binding := by
    rw [flowHashtableInit_bindings, Finmap.lookup_empty]
    simp
  card := by
    rw [flowHashtableInit_bindings, Finmap.keys_empty, Multiset.card_zero, Finset.card_empty]

theorem numEntries (rep : table.Represents env map) : table.numEntries = map.keys.card :=
  rep.valid.count.trans rep.card

theorem absent (rep : table.Represents env map) (unbound : map.lookup key.h = none) :
    ∀ b ∈ table.bindings, b.1.h ≠ key.h := by
  intro b member same
  have bound := (rep.lookup_iff b.1.h b).mpr ⟨member, rfl⟩
  rw [same, unbound] at bound
  cases bound

/-- Binding a new key on both sides. -/
theorem insert (rep : table.Represents env map) (unbound : map.lookup key.h = none)
    (valid : table'.Valid env) (bindings : table'.bindings = (key, value) ::ₘ table.bindings) :
    table'.Represents env (map.insert key.h (key, value)) where
  valid := valid
  lookup_iff h b := by
    rw [bindings, Multiset.mem_cons]
    by_cases same : h = key.h
    · subst same
      rw [Finmap.lookup_insert, Option.some.injEq]
      constructor
      · intro same
        rcases same with rfl
        exact ⟨Or.inl rfl, rfl⟩
      · intro given
        rcases given with ⟨rfl | member, part⟩
        · rfl
        · exact absurd part (rep.absent unbound b member)
    · rw [Finmap.lookup_insert_of_ne _ same, rep.lookup_iff]
      constructor
      · intro given
        rcases given with ⟨member, part⟩
        exact ⟨Or.inr member, part⟩
      · intro given
        rcases given with ⟨rfl | member, part⟩
        · exact absurd part.symm same
        · exact ⟨member, part⟩
  card := by
    have keys : (map.insert key.h (key, value)).keys = Insert.insert key.h map.keys := by
      ext h
      rw [Finset.mem_insert, Finmap.mem_keys, Finmap.mem_keys, Finmap.mem_insert]
    have new : key.h ∉ map.keys := by
      rw [Finmap.mem_keys, ← Finmap.lookup_eq_none]
      exact unbound
    rw [bindings, Multiset.card_cons, rep.card, keys, Finset.card_insert_of_notMem new]

/-- Unbinding a key on both sides. -/
theorem erase (rep : table.Represents env map) (valid : table'.Valid env)
    (bindings : table.bindings = binding ::ₘ table'.bindings) :
    table'.Represents env (map.erase binding.1.h) where
  valid := valid
  lookup_iff h b := by
    have nodup := rep.valid.nodup
    rw [bindings, Multiset.nodup_cons] at nodup
    have here : binding ∈ table.bindings := by
      rw [bindings]
      exact Multiset.mem_cons_self _ _
    by_cases same : h = binding.1.h
    · subst same
      rw [Finmap.lookup_erase]
      constructor
      · intro impossible
        cases impossible
      · intro given
        rcases given with ⟨member, part⟩
        have there : b ∈ table.bindings := by
          rw [bindings]
          exact Multiset.mem_cons_of_mem member
        rw [rep.valid.key_unique there here part] at member
        exact absurd member nodup.1
    · rw [Finmap.lookup_erase_ne same, rep.lookup_iff, bindings, Multiset.mem_cons]
      constructor
      · intro given
        rcases given with ⟨rfl | member, part⟩
        · exact absurd part.symm same
        · exact ⟨member, part⟩
      · intro given
        rcases given with ⟨member, part⟩
        exact ⟨Or.inr member, part⟩
  card := by
    have here : binding.1.h ∈ map.keys := by
      rw [Finmap.mem_keys]
      apply Finmap.mem_of_lookup_eq_some
      exact (rep.lookup_iff _ binding).mpr ⟨by rw [bindings]; exact Multiset.mem_cons_self _ _, rfl⟩
    have card := rep.card
    rw [bindings, Multiset.card_cons] at card
    rw [Finmap.keys_erase, Finset.card_erase_of_mem here]
    omega

theorem call_add (rep : table.Represents env map) (room : map.keys.card < flowHashtableSize)
    (admissible : (FlowCall.add key value).Admissible map) :
    Exec.Returns (table.call env (.add key value)) fun result =>
      result.1 = (map.call (.add key value)).1 ∧
      result.2.Represents env (map.call (.add key value)).2 := by
  simp only [FlowHashtable.call, FlowMap.call]
  by_cases unbound : map.lookup key.h = none
  · rw [if_pos unbound]
    have space : table.bindings.card < flowHashtableSize := by rw [rep.card]; exact room
    have fresh : ∀ b ∈ table.bindings, b.2 ≠ value := fun b member =>
      admissible.2 b.1.h b ((rep.lookup_iff _ b).mpr ⟨member, rfl⟩)
    apply (flowHashtableAdd_of_absent rep.valid space (rep.absent unbound) fresh).bind
    intro result post
    rcases result with ⟨code, table'⟩
    rcases post with ⟨rfl, valid, bindings⟩
    exact .pure ⟨rfl, rep.insert unbound valid bindings⟩
  · rw [if_neg unbound]
    obtain ⟨binding, bound⟩ := Option.ne_none_iff_exists'.mp unbound
    obtain ⟨member, known⟩ := (rep.lookup_iff _ _).mp bound
    rw [flowHashtableAdd_of_mem rep.valid member known]
    exact .pure ⟨rfl, rep⟩

theorem call_get (rep : table.Represents env map) (room : map.keys.card < flowHashtableSize) :
    Exec.Returns (table.call env (.get key)) fun result =>
      result.1 = (map.call (.get key)).1 ∧ result.2.Represents env (map.call (.get key)).2 := by
  simp only [FlowHashtable.call, FlowMap.call]
  cases bound : map.lookup key.h with
  | none =>
      rw [flowHashtableGet_of_absent (by rw [rep.card]; exact room) (rep.absent bound)]
      exact .pure ⟨rfl, rep⟩
  | some binding =>
      obtain ⟨member, known⟩ := (rep.lookup_iff _ _).mp bound
      rw [flowHashtableGet_of_mem rep.valid member known]
      exact .pure ⟨rfl, rep⟩

theorem call_remove (rep : table.Represents env map)
    (room : map.keys.card < flowHashtableSize) :
    Exec.Returns (table.call env (.remove key)) fun result =>
      result.1 = (map.call (.remove key)).1 ∧
      result.2.Represents env (map.call (.remove key)).2 := by
  simp only [FlowHashtable.call, FlowMap.call]
  cases bound : map.lookup key.h with
  | none =>
      have same : map.erase key.h = map := by
        apply Finmap.ext_lookup
        intro h
        by_cases isKey : h = key.h
        · rw [isKey, Finmap.lookup_erase, bound]
        · rw [Finmap.lookup_erase_ne isKey]
      rw [flowHashtableRemove_of_absent (by rw [rep.card]; exact room) (rep.absent bound), same]
      exact .pure ⟨rfl, rep⟩
  | some binding =>
      obtain ⟨member, known⟩ := (rep.lookup_iff _ _).mp bound
      apply (flowHashtableRemove_of_mem rep.valid member known).bind
      intro result post
      rcases result with ⟨value, table'⟩
      rcases post with ⟨rfl, valid, bindings⟩
      rw [← known]
      exact .pure ⟨rfl, rep.erase valid bindings⟩

theorem call_removeByValue (rep : table.Represents env map) :
    Exec.Returns (table.call env (.removeByValue value)) fun result =>
      result.1 = (map.call (.removeByValue value)).1 ∧
      result.2.Represents env (map.call (.removeByValue value)).2 := by
  simp only [FlowHashtable.call, FlowMap.call]
  by_cases bound : ∃ binding, map.Binds value binding
  · rw [dif_pos bound]
    obtain ⟨lookup, holds⟩ := bound.choose_spec
    obtain ⟨member, _⟩ := (rep.lookup_iff _ _).mp lookup
    have removed := flowHashtableRemoveByValue_of_mem rep.valid member
    rw [holds] at removed
    apply removed.bind
    intro result post
    rcases result with ⟨key, table'⟩
    rcases post with ⟨rfl, valid, bindings⟩
    exact .pure ⟨rfl, rep.erase valid bindings⟩
  · rw [dif_neg bound]
    have absent : ∀ b ∈ table.bindings, b.2 ≠ value := fun b member same =>
      bound ⟨b, (rep.lookup_iff _ b).mpr ⟨member, rfl⟩, same⟩
    rw [flowHashtableRemoveByValue_of_absent rep.valid absent]
    exact .pure ⟨rfl, rep⟩

/-- A call keeps the representation and gives the reply of the finite map. -/
theorem call (rep : table.Represents env map) (room : map.keys.card < flowHashtableSize)
    {request : FlowCall} (admissible : request.Admissible map) :
    Exec.Returns (table.call env request) fun result =>
      result.1 = (map.call request).1 ∧ result.2.Represents env (map.call request).2 := by
  cases request with
  | add key value => exact rep.call_add room admissible
  | get key => exact rep.call_get room
  | remove key => exact rep.call_remove room
  | removeByValue value => exact rep.call_removeByValue

theorem run (rep : table.Represents env map) {calls : List FlowCall}
    (admissible : map.Admissible calls) :
    Exec.Returns (table.run env calls) fun result =>
      result.1 = (map.run calls).1 ∧ result.2.Represents env (map.run calls).2 := by
  induction calls generalizing table map with
  | nil => exact .pure ⟨rfl, rep⟩
  | cons request calls ih =>
      obtain ⟨room, first, rest⟩ := admissible
      unfold FlowHashtable.run FlowMap.run
      apply (rep.call room first).bind
      intro result post
      rcases result with ⟨reply, table'⟩
      rcases post with ⟨rfl, rep'⟩
      apply (ih rep' rest).bind
      intro result post
      rcases result with ⟨replies, table''⟩
      rcases post with ⟨rfl, rep''⟩
      exact .pure ⟨rfl, rep''⟩

end FlowHashtable.Represents

/-- Over every admissible sequence of calls after `flow_hashtable_init`, every call
returns, with the reply of the finite map; afterwards the table holds exactly the map's
bindings, and `num_entries` is their number. -/
theorem flowHashtable_refines_flowMap (env : Env) (calls : List FlowCall)
    (admissible : FlowMap.Admissible ∅ calls) :
    Exec.Returns (flowHashtableInit.run env calls) fun result =>
      result.1 = (FlowMap.run ∅ calls).1 ∧
      (∀ h binding, (FlowMap.run ∅ calls).2.lookup h = some binding ↔
        binding ∈ result.2.bindings ∧ binding.1.h = h) ∧
      result.2.numEntries = (FlowMap.run ∅ calls).2.keys.card := by
  apply ((FlowHashtable.Represents.init env).run admissible).mono
  intro result post
  rcases result with ⟨replies, table⟩
  rcases post with ⟨same, rep⟩
  exact ⟨same, rep.lookup_iff, rep.numEntries⟩

/-- The single-key sequence of `tests/test_hashtable.c`. -/
theorem flowHashtable_single_key :
    Exec.Returns (flowHashtableInit.run (.twoPorts true)
      [.add .zero 11, .get .zero, .remove .zero, .remove .zero]) fun result =>
      result.1 = [.code 0, .value (some 11), .value (some 11), .value none] ∧
      result.2.numEntries = 0 := by
  have room : 1 < flowHashtableSize := by
    norm_num [flowHashtableSize, maxFlows, numPipes, flowHashtableMultiplier]
  have added : FlowMap.call ∅ (.add .zero 11) =
      (.code 0, Finmap.insert FiveTuple.zero.h (FiveTuple.zero, 11) ∅) := by
    simp [FlowMap.call]
  have got : FlowMap.call (Finmap.insert FiveTuple.zero.h (FiveTuple.zero, 11) ∅)
      (.get .zero) =
      (.value (some 11), Finmap.insert FiveTuple.zero.h (FiveTuple.zero, 11) ∅) := by
    simp [FlowMap.call]
  have removed : FlowMap.call (Finmap.insert FiveTuple.zero.h (FiveTuple.zero, 11) ∅)
      (.remove .zero) = (.value (some 11), ∅) := by
    simp [FlowMap.call]
    decide
  have missing : FlowMap.call ∅ (.remove .zero) = (.value none, ∅) := by
    simp [FlowMap.call]
    decide
  have single : (Finmap.insert FiveTuple.zero.h (FiveTuple.zero, (11 : Int))
      (∅ : FlowMap)).keys.card = 1 := by decide
  have result := flowHashtable_refines_flowMap (.twoPorts true)
    [.add .zero 11, .get .zero, .remove .zero, .remove .zero]
    (by simp [FlowMap.Admissible, FlowCall.Admissible, added, got, removed, missing, single,
          featureSize, maxFlows, numPipes]; omega)
  simp only [FlowMap.run, added, got, removed, missing] at result
  exact result.mono fun _ facts => ⟨facts.1, facts.2.2⟩

end Marina
