import Marina.Features
import Marina.Lib.Run
import Marina.SessionHashtable

/-!
# The sessions of an export

The loop of `print_flow_data` in `controller/export/export_features.c` goes over all
feature indices, and finds the sessions through `feature_index_to_entry_map`.
`ReverseMaps` says that this map and `egress_feature_to_session_id` tell exactly where
the live sessions are, so that every live session has one row.

`session_reverse_maps` is about every sequence of calls of the session hash table in
which a new session brings an id and an egress slot of its own. The ids of live sessions
are then different, and there are far fewer ids than slots, so the table never fills.
-/

namespace Marina

open Lib Lib.LinearProbing

/-- What a row of an export is about. -/
structure FlowDataRow where
  sessionId : Int
  fiveTuple : FiveTuple
  flowCount : Int32

/-- The body of the loop of `print_flow_data`, up to printing. -/
def flowDataRow (table : SessionHashtable) (i : Int) : Option FlowDataRow :=
  let entryIndex := table.featureIndexToEntryMap i
  if entryIndex = -1 then none
  else
    let entry := table.entries entryIndex.toNat
    some ⟨entry.value, entry.key, table.flowCount entry.value⟩

/-- The rows that `print_flow_data` prints. -/
def flowDataRows (table : SessionHashtable) : List FlowDataRow :=
  featureSlots.filterMap (flowDataRow table)

/-- The row of a live session. -/
def sessionRow (table : SessionHashtable) (session : FiveTuple × Int) : FlowDataRow :=
  ⟨session.2, session.1, table.flowCount session.2⟩

/-- The reverse maps, `session_hashtable_get` and the export all know exactly the live
sessions. -/
structure SessionHashtable.ReverseMaps (env : Env) (table : SessionHashtable) : Prop where
  entries : ∀ v i : Int, (table.featureIndexToEntryMap v = i ∧ i ≠ -1) ↔
    ∃ n < sessionHashtableSize, i = n ∧ (table.entries n).occupied = true ∧
      (table.entries n).value = v
  egress : ∀ e v : Int, (table.egressFeatureToSessionId e = v ∧ v ≠ -1) ↔
    ∃ b ∈ table.bindings, b.2 = v ∧ egressSlot b.1 b.2 = e
  get : ∀ key, Exec.Returns (sessionHashtableGet env table key) fun found =>
    ∀ v, found = some v ↔ ∃ b ∈ table.bindings, sessionKey env b.1 = sessionKey env key ∧ b.2 = v
  rows : (flowDataRows table : Multiset FlowDataRow) = table.bindings.map (sessionRow table)

/-! ## Calls -/

inductive SessionCall
  | addOrIncreaseFlowCount (key : FiveTuple) (value : Int)
  | removeOrDecreaseFlowCount (key : FiveTuple) (value : Int)
  | removeOrDecreaseFlowCountByValue (value : Int)

def SessionHashtable.call (env : Env) (table : SessionHashtable) :
    SessionCall → Outcome SessionHashtable
  | .addOrIncreaseFlowCount key value =>
      Prod.snd <$> sessionHashtableAddOrIncreaseFlowCount env table key value
  | .removeOrDecreaseFlowCount key value =>
      Prod.snd <$> sessionHashtableRemoveOrDecreaseFlowCount env table key value
  | .removeOrDecreaseFlowCountByValue value =>
      Prod.snd <$> sessionHashtableRemoveOrDecreaseFlowCountByValue env table value

/-- A new session brings an id and an egress slot of its own, both inside the arrays. -/
structure SessionHashtable.BringsOwnId (table : SessionHashtable) (key : FiveTuple) (value : Int) :
    Prop where
  id : minSessionId ≤ value ∧ value < featureSize
  fresh : ∀ b ∈ table.bindings, b.2 ≠ value
  slot : 0 ≤ egressSlot key value ∧ egressSlot key value < featureSize
  apart : ∀ b ∈ table.bindings, egressSlot b.1 b.2 ≠ egressSlot key value

/-- What callers promise: that, and the id of the session from a flow that joins one. -/
def SessionCall.Admissible (env : Env) (table : SessionHashtable) : SessionCall → Prop
  | .addOrIncreaseFlowCount key value =>
      (∀ b ∈ table.bindings, sessionKey env b.1 = sessionKey env key → b.2 = value) ∧
        ((∀ b ∈ table.bindings, sessionKey env b.1 ≠ sessionKey env key) →
          table.BringsOwnId key value)
  | _ => True

/-! ## The invariant -/

structure SessionHashtable.Exportable (env : Env) (table : SessionHashtable) : Prop where
  valid : table.Valid env
  complete : table.EgressComplete
  injective : EgressInjective table.bindings
  ids : ∀ b ∈ table.bindings, minSessionId ≤ b.2 ∧ b.2 < featureSize

section Exportable

variable {env : Env} {table table' : SessionHashtable}

namespace SessionHashtable

theorem sessionHashtableInit_exportable (env : Env) : sessionHashtableInit.Exportable env where
  valid := sessionHashtableInit_valid env
  complete b member := by
    rw [sessionHashtableInit_bindings] at member
    exact absurd member (Multiset.notMem_zero b)
  injective := by
    rw [sessionHashtableInit_bindings]
    exact ⟨fun a member => absurd member (Multiset.notMem_zero a),
      fun a member => absurd member (Multiset.notMem_zero a)⟩
  ids b member := by
    rw [sessionHashtableInit_bindings] at member
    exact absurd member (Multiset.notMem_zero b)

/-- There are fewer ids than slots. -/
theorem Exportable.room (exportable : table.Exportable env) :
    table.bindings.card < sessionHashtableSize := by
  have distinct : (table.bindings.map Prod.snd).Nodup := by
    refine Multiset.Nodup.map_on ?_ exportable.valid.nodup
    intro a ha b hb same
    exact exportable.valid.value_unique ha hb same
  -- A named bound keeps the interval from being evaluated.
  obtain ⟨bound, isBound⟩ : ∃ bound : Int, bound = featureSize := ⟨_, rfl⟩
  have ids : table.bindings.map Prod.snd ⊆ (Finset.Ico minSessionId bound).val := by
    intro v member
    obtain ⟨b, live, rfl⟩ := Multiset.mem_map.mp member
    rw [Finset.mem_val, Finset.mem_Ico, isBound]
    exact exportable.ids b live
  have card := Multiset.card_le_card ((Multiset.le_iff_subset distinct).mpr ids)
  rw [Multiset.card_map, Finset.card_val, Int.card_Ico, isBound] at card
  unfold sessionHashtableSize
  unfold minSessionId featureSize maxFlows numPipes at card
  unfold maxFlows numPipes flowHashtableMultiplier
  omega

/-- A call that binds nothing new. -/
theorem Exportable.of_le (exportable : table.Exportable env) (valid : table'.Valid env)
    (bindings : table'.bindings ≤ table.bindings) (complete : table'.EgressComplete) :
    table'.Exportable env where
  valid := valid
  complete := complete
  injective :=
    ⟨fun a ha b hb => exportable.injective.inj a (Multiset.mem_of_le bindings ha) b
      (Multiset.mem_of_le bindings hb),
      fun a ha => exportable.injective.inside a (Multiset.mem_of_le bindings ha)⟩
  ids b member := exportable.ids b (Multiset.mem_of_le bindings member)

theorem Exportable.increase (exportable : table.Exportable env) (value : Int) :
    (table.increase env value).Exportable env := by
  refine exportable.of_le (exportable.valid.increase value) increase_bindings.le ?_
  intro b member
  rw [increase_bindings] at member
  rw [increase_egress]
  exact exportable.complete b member

theorem Exportable.decrease (exportable : table.Exportable env) (value : Int) :
    (table.decrease env value).Exportable env := by
  refine exportable.of_le (exportable.valid.decrease value) (decrease_bindings env table value).le ?_
  intro b member
  rw [decrease_bindings] at member
  rw [decrease_egress]
  exact exportable.complete b member

theorem Exportable.removeByIndex (exportable : table.Exportable env) {i : Nat}
    (inside : i < sessionHashtableSize) (occupied : (table.entries i).occupied = true) :
    Exec.Returns (sessionHashtableRemoveByIndex env table i) fun table' =>
      table'.Exportable env := by
  refine (sessionHashtableRemoveByIndex_returns exportable.valid inside occupied).mono ?_
  intro table' returned
  obtain ⟨valid, bindings, complete⟩ := returned
  refine exportable.of_le valid ?_ (complete exportable.complete exportable.injective)
  rw [bindings]
  exact Multiset.le_cons_self _ _

/-! ## The calls keep it -/

theorem Exportable.add (exportable : table.Exportable env) {key : FiveTuple} {value : Int}
    (admissible : (SessionCall.addOrIncreaseFlowCount key value).Admissible env table) :
    Exec.Returns (sessionHashtableAddOrIncreaseFlowCount env table key value) fun result =>
      result.2.Exportable env := by
  by_cases known : ∃ b ∈ table.bindings, sessionKey env b.1 = sessionKey env key
  · obtain ⟨b, member, same⟩ := known
    rw [sessionHashtableAdd_of_mem exportable.valid member same exportable.room]
    exact .pure (exportable.increase value)
  · push Not at known
    obtain ⟨id, fresh, slot, apart⟩ := admissible.2 known
    refine (sessionHashtableAdd_of_absent exportable.valid exportable.room known fresh).mono ?_
    intro result returned
    obtain ⟨_, valid, bindings, _, complete⟩ := returned
    have injective : EgressInjective ((key, value) ::ₘ table.bindings) := by
      constructor
      · intro a ha b hb same
        rcases Multiset.mem_cons.mp ha with rfl | ha <;> rcases Multiset.mem_cons.mp hb with rfl | hb
        · rfl
        · exact absurd same.symm (apart b hb)
        · exact absurd same (apart a ha)
        · exact exportable.injective.inj a ha b hb same
      · intro a ha
        rcases Multiset.mem_cons.mp ha with rfl | ha
        · exact slot.2
        · exact exportable.injective.inside a ha
    refine ⟨valid, complete exportable.complete injective, bindings ▸ injective, ?_⟩
    intro b member
    rw [bindings] at member
    rcases Multiset.mem_cons.mp member with rfl | member
    · exact id
    · exact exportable.ids b member

theorem Exportable.remove (exportable : table.Exportable env) (key : FiveTuple) (value : Int) :
    Exec.Returns (sessionHashtableRemoveOrDecreaseFlowCount env table key value) fun result =>
      result.2.Exportable env := by
  by_cases emptied : table.Emptied env value
  · by_cases known : ∃ b ∈ table.bindings, sessionKey env b.1 = sessionKey env key
    · obtain ⟨b, member, same⟩ := known
      refine (sessionHashtableRemove_of_mem exportable.valid emptied member same).mono ?_
      intro result returned
      obtain ⟨_, valid, bindings, complete⟩ := returned
      refine exportable.of_le valid ?_ (complete exportable.complete exportable.injective)
      rw [bindings]
      exact Multiset.le_cons_self _ _
    · push Not at known
      rw [sessionHashtableRemove_of_absent exportable.room known]
      exact .pure (exportable.decrease value)
  · rw [sessionHashtableRemove_of_not_emptied emptied]
    exact .pure (exportable.decrease value)

theorem Exportable.removeByValue (exportable : table.Exportable env) (value : Int) :
    Exec.Returns (sessionHashtableRemoveOrDecreaseFlowCountByValue env table value) fun result =>
      result.2.Exportable env := by
  have decreased := exportable.decrease value
  unfold sessionHashtableRemoveOrDecreaseFlowCountByValue
  split
  · dsimp only
    split
    · exact .pure decreased
    · rename_i held
      obtain ⟨i, inside, occupied, _, index⟩ := decreased.valid.indexed.to_slot value held
      rw [index, Int.toNat_natCast]
      refine (decreased.removeByIndex inside occupied).bind ?_
      intro table' exportable'
      exact .pure exportable'
  · exact .pure decreased

theorem Exportable.call (exportable : table.Exportable env) {call : SessionCall}
    (admissible : call.Admissible env table) :
    Exec.Returns (table.call env call) fun table' => table'.Exportable env := by
  cases call with
  | addOrIncreaseFlowCount key value => exact (exportable.add admissible).map
  | removeOrDecreaseFlowCount key value => exact (exportable.remove key value).map
  | removeOrDecreaseFlowCountByValue value => exact (exportable.removeByValue value).map

/-! ## What it says about the maps -/

theorem Exportable.entries_iff (exportable : table.Exportable env) (v i : Int) :
    (table.featureIndexToEntryMap v = i ∧ i ≠ -1) ↔
      ∃ n < sessionHashtableSize, i = n ∧ (table.entries n).occupied = true ∧
        (table.entries n).value = v := by
  constructor
  · intro given
    rcases given with ⟨rfl, held⟩
    obtain ⟨n, inside, occupied, value, index⟩ := exportable.valid.indexed.to_slot v held
    exact ⟨n, inside, index, occupied, value⟩
  · intro given
    rcases given with ⟨n, inside, rfl, occupied, rfl⟩
    exact ⟨exportable.valid.indexed.of_slot n inside occupied, by omega⟩

theorem Exportable.egress_iff (exportable : table.Exportable env) (e v : Int) :
    (table.egressFeatureToSessionId e = v ∧ v ≠ -1) ↔
      ∃ b ∈ table.bindings, b.2 = v ∧ egressSlot b.1 b.2 = e := by
  constructor
  · intro given
    rcases given with ⟨rfl, held⟩
    obtain ⟨_, b, member, place⟩ := exportable.valid.egress e held
    exact ⟨b, member, place⟩
  · intro given
    rcases given with ⟨b, member, rfl, rfl⟩
    have id := exportable.ids b member
    unfold minSessionId at id
    exact ⟨exportable.complete b member, by omega⟩

theorem Exportable.get (exportable : table.Exportable env) (key : FiveTuple) :
    Exec.Returns (sessionHashtableGet env table key) fun found =>
      ∀ v, found = some v ↔
        ∃ b ∈ table.bindings, sessionKey env b.1 = sessionKey env key ∧ b.2 = v := by
  by_cases known : ∃ b ∈ table.bindings, sessionKey env b.1 = sessionKey env key
  · obtain ⟨b, member, same⟩ := known
    rw [sessionHashtableGet_of_mem exportable.valid member same]
    refine .pure fun v => ?_
    rw [Option.some.injEq]
    constructor
    · intro value
      exact ⟨b, member, same, value⟩
    · intro given
      rcases given with ⟨b', member', same', rfl⟩
      rw [exportable.valid.key_unique member member' (same.trans same'.symm)]
  · push Not at known
    rw [sessionHashtableGet_of_absent exportable.room known]
    refine .pure fun v => ?_
    constructor
    · intro impossible
      cases impossible
    · intro given
      rcases given with ⟨b, member, same, _⟩
      exact absurd same (known b member)

/-- The loop finds a row at the ids of live sessions only. -/
theorem Exportable.flowDataRow_eq_some (exportable : table.Exportable env) {i : Int}
    {row : FlowDataRow} :
    flowDataRow table i = some row ↔ ∃ b ∈ table.bindings, b.2 = i ∧ sessionRow table b = row := by
  unfold flowDataRow
  constructor
  · intro found
    dsimp only at found
    split at found
    · cases found
    · rename_i held
      obtain ⟨n, inside, occupied, value, index⟩ := exportable.valid.indexed.to_slot i held
      rw [index, Int.toNat_natCast, Option.some.injEq] at found
      exact ⟨_, entry_mem_live inside occupied, value, found⟩
  · intro given
    rcases given with ⟨b, member, rfl, rfl⟩
    obtain ⟨n, inside, occupied, key, value⟩ := mem_live.mp member
    have index := exportable.valid.indexed.of_slot n inside occupied
    rw [value] at index
    dsimp only
    rw [index, if_neg (by omega), Int.toNat_natCast, key, value]
    rfl

theorem Exportable.rows (exportable : table.Exportable env) :
    (flowDataRows table : Multiset FlowDataRow) = table.bindings.map (sessionRow table) := by
  have rowsDistinct : (flowDataRows table).Nodup := by
    refine List.Nodup.filterMap ?_ nodup_featureSlots
    intro i j row first second
    obtain ⟨a, _, rfl, rfl⟩ := exportable.flowDataRow_eq_some.mp first
    obtain ⟨b, _, rfl, same⟩ := exportable.flowDataRow_eq_some.mp second
    exact (congrArg FlowDataRow.sessionId same).symm
  have sessionsDistinct : (table.bindings.map (sessionRow table)).Nodup := by
    refine Multiset.Nodup.map_on ?_ exportable.valid.nodup
    intro a ha b hb same
    exact exportable.valid.value_unique ha hb (congrArg FlowDataRow.sessionId same)
  rw [Multiset.Nodup.ext (Multiset.coe_nodup.mpr rowsDistinct) sessionsDistinct]
  intro row
  unfold flowDataRows
  rw [Multiset.mem_coe, List.mem_filterMap, Multiset.mem_map]
  constructor
  · intro given
    rcases given with ⟨i, _, found⟩
    obtain ⟨b, member, _, same⟩ := exportable.flowDataRow_eq_some.mp found
    exact ⟨b, member, same⟩
  · intro given
    rcases given with ⟨b, member, same⟩
    exact ⟨b.2, mem_featureSlots.mpr (exportable.ids b member),
      exportable.flowDataRow_eq_some.mpr ⟨b, member, rfl, same⟩⟩

theorem Exportable.reverseMaps (exportable : table.Exportable env) : table.ReverseMaps env where
  entries := exportable.entries_iff
  egress := exportable.egress_iff
  get := exportable.get
  rows := exportable.rows

end SessionHashtable

end Exportable

/-- In every state of every sequence of calls, the reverse maps, `session_hashtable_get` and
the rows of an export are those of the live sessions. -/
theorem session_reverse_maps (env : Env) (calls : List SessionCall)
    (admissible : AllSteps (SessionHashtable.call env)
      (fun table call => call.Admissible env table) sessionHashtableInit calls) :
    AllStates (SessionHashtable.call env) (SessionHashtable.ReverseMaps env)
      sessionHashtableInit calls := by
  refine AllStates.of_invariant ?_ ?_
    (SessionHashtable.sessionHashtableInit_exportable env) admissible
  · intro table call exportable meets
    exact exportable.call meets
  · intro table exportable
    exact exportable.reverseMaps

theorem session_reverse_maps_one_session :
    AllStates (SessionHashtable.call (.twoPorts true)) (SessionHashtable.ReverseMaps (.twoPorts true))
      sessionHashtableInit
      [.addOrIncreaseFlowCount .zero 4, .removeOrDecreaseFlowCountByValue 4] := by
  have none : ∀ b ∈ sessionHashtableInit.bindings, False := by
    intro b member
    rw [sessionHashtableInit_bindings] at member
    exact Multiset.notMem_zero b member
  apply session_reverse_maps
  refine ⟨⟨fun b member => (none b member).elim, fun _ => ⟨by decide, fun b member =>
    (none b member).elim, by decide, fun b member => (none b member).elim⟩⟩, ?_⟩
  exact fun _ _ => ⟨True.intro, fun _ _ => True.intro⟩

end Marina
