import Marina.Structs

/-!
# Features and their ageing

The shadow copies of the data plane registers of `controller/dataplane/features.c`, and
the ageing of sessions that goes with the packet counter. A round swaps the two buffers
of a register, reads the data plane into one of them, and adds the difference to the
values; `process_and_age_feature` also notes when a slot last changed and enqueues a
timeout for the session of a slot that has been idle for too long.

The loop visits every slot once and touches nothing else, so what it does is said slot
by slot: `mem_processAndAgeFeature_iff` and `processAndAgeFeature_lastFlowUpdate`.
-/

namespace Marina

/-- Seconds without a packet after which a session times out. -/
def flowTimeout : UInt32 := 30

/-- The buffers and values of a `feature_register_t`. -/
structure FeatureRegister where
  dataPlaneValues : Int → UInt32
  lastDataPlaneValue : Int → UInt32
  values : Int → UInt64

/-- The register with the packet counts, and `last_flow_update`. -/
structure FeatureState where
  registerCount : FeatureRegister
  lastFlowUpdate : Int → UInt32

/-- The arrays that `prepare_feature` clears. -/
def prepareFeature : FeatureState where
  registerCount := ⟨fun _ => 0, fun _ => 0, fun _ => 0⟩
  lastFlowUpdate _ := 0

def FeatureRegister.swapDpBuffer (register : FeatureRegister) : FeatureRegister :=
  { register with
    dataPlaneValues := register.lastDataPlaneValue
    lastDataPlaneValue := register.dataPlaneValues }

/-- `read_feature`: `read` is what the data plane returns, and `none` for an error that
leaves the buffer as it is. -/
def readFeature (read : Option (Int → UInt32)) (register : FeatureRegister) : FeatureRegister :=
  { register.swapDpBuffer with
    dataPlaneValues := read.getD register.swapDpBuffer.dataPlaneValues }

/-- The difference of a slot to the round before, modulo `2^32`. -/
def FeatureRegister.difference (register : FeatureRegister) (i : Int) : UInt32 :=
  register.dataPlaneValues i - register.lastDataPlaneValue i

/-- What a round of `process_and_age_feature` looks at besides the register: the egress
map of the session table, the seconds of the clock, and whether the packet ring takes a
timeout for a slot. -/
structure AgeingRound where
  egressFeatureToSessionId : Int → Int
  now : UInt32
  accepted : Int → Bool

/-- The condition of the first branch of `process_and_age_feature`. -/
def FeatureState.Updated (round : AgeingRound) (state : FeatureState) (i : Int) : Prop :=
  state.registerCount.dataPlaneValues i ≠ state.registerCount.lastDataPlaneValue i ∨
    (state.lastFlowUpdate i = 0 ∧ round.egressFeatureToSessionId i ≠ -1)

/-- The condition of the second branch of `process_and_age_feature`. -/
def FeatureState.TimedOut (round : AgeingRound) (state : FeatureState) (i : Int) : Prop :=
  state.lastFlowUpdate i < round.now - flowTimeout ∧ round.egressFeatureToSessionId i ≠ -1

instance (round : AgeingRound) (state : FeatureState) (i : Int) :
    Decidable (state.Updated round i) :=
  inferInstanceAs (Decidable (_ ∨ _))

instance (round : AgeingRound) (state : FeatureState) (i : Int) :
    Decidable (state.TimedOut round i) :=
  inferInstanceAs (Decidable (_ ∧ _))

/-- The time noted for a slot when the loop is past it. -/
def FeatureState.agedUpdate (round : AgeingRound) (state : FeatureState) (i : Int) : UInt32 :=
  if state.Updated round i then round.now
  else if state.TimedOut round i ∧ round.accepted i = true then 0
  else state.lastFlowUpdate i

/-- The timeout that the loop enqueues at a slot: the session of the slot takes the place
of a flow id. -/
def FeatureState.agedItem (round : AgeingRound) (state : FeatureState) (i : Int) : Option Int :=
  if ¬ state.Updated round i ∧ state.TimedOut round i ∧ round.accepted i = true then
    some (round.egressFeatureToSessionId i)
  else none

/-- The body of the loop of `process_and_age_feature`, with the flow ids of the timeouts
enqueued so far. -/
def processAndAgeSlot (round : AgeingRound) (done : FeatureState × List Int) (i : Int) :
    FeatureState × List Int :=
  let state := done.1
  ({ registerCount :=
      { state.registerCount with
        values := Function.update state.registerCount.values i
          (state.registerCount.values i + (state.registerCount.difference i).toUInt64) }
     lastFlowUpdate := Function.update state.lastFlowUpdate i (state.agedUpdate round i) },
   done.2 ++ (state.agedItem round i).toList)

/-- The `n` slots from `MIN_SESSION_ID` on, in order. -/
def slotsFromMin (n : Nat) : List Int := (List.range n).map fun k : Nat => (k : Int) + minSessionId

/-- The slots that the loop visits. -/
@[irreducible] def featureSlots : List Int := slotsFromMin (featureSize - 4)

/-- `process_and_age_feature`, with the flow ids of the timeouts it enqueued. -/
@[irreducible] def processAndAgeFeature (round : AgeingRound) (state : FeatureState) :
    FeatureState × List Int :=
  featureSlots.foldl (processAndAgeSlot round) (state, [])

/-! ## Slot by slot -/

section Slots

variable {round : AgeingRound} {state state' : FeatureState} {i : Int}

theorem mem_slotsFromMin {n : Nat} : i ∈ slotsFromMin n ↔ 4 ≤ i ∧ i < n + 4 := by
  unfold slotsFromMin minSessionId
  rw [List.mem_map]
  constructor
  · intro found
    obtain ⟨k, inside, rfl⟩ := found
    rw [List.mem_range] at inside
    omega
  · intro range
    refine ⟨(i - 4).toNat, ?_, by omega⟩
    rw [List.mem_range]
    omega

theorem nodup_slotsFromMin (n : Nat) : (slotsFromMin n).Nodup := by
  refine List.Nodup.map ?_ List.nodup_range
  intro a b same
  dsimp only at same
  omega

theorem mem_featureSlots : i ∈ featureSlots ↔ 4 ≤ i ∧ i < featureSize := by
  unfold featureSlots
  rw [mem_slotsFromMin]
  unfold featureSize maxFlows numPipes
  omega

theorem nodup_featureSlots : featureSlots.Nodup := by
  unfold featureSlots
  exact nodup_slotsFromMin _

/-- Two states that agree on what the loop reads at a slot. -/
structure AgreeAt (i : Int) (state state' : FeatureState) : Prop where
  register : state.registerCount.dataPlaneValues = state'.registerCount.dataPlaneValues ∧
    state.registerCount.lastDataPlaneValue = state'.registerCount.lastDataPlaneValue
  update : state.lastFlowUpdate i = state'.lastFlowUpdate i

theorem AgreeAt.updated_iff (agree : AgreeAt i state state') :
    state.Updated round i ↔ state'.Updated round i := by
  unfold FeatureState.Updated
  rw [agree.register.1, agree.register.2, agree.update]

theorem AgreeAt.timedOut_iff (agree : AgreeAt i state state') :
    state.TimedOut round i ↔ state'.TimedOut round i := by
  unfold FeatureState.TimedOut
  rw [agree.update]

theorem AgreeAt.agedItem (agree : AgreeAt i state state') :
    state.agedItem round i = state'.agedItem round i := by
  simp only [FeatureState.agedItem, agree.updated_iff, agree.timedOut_iff]

theorem AgreeAt.agedUpdate (agree : AgreeAt i state state') :
    state.agedUpdate round i = state'.agedUpdate round i := by
  simp only [FeatureState.agedUpdate, agree.updated_iff, agree.timedOut_iff, agree.update]

/-- Visiting one slot changes no other. -/
theorem processAndAgeSlot_agree {items : List Int} {j : Int} (apart : i ≠ j)
    (agree : AgreeAt i state state') :
    AgreeAt i (processAndAgeSlot round (state, items) j).1 state' := by
  refine ⟨agree.register, ?_⟩
  unfold processAndAgeSlot
  dsimp only
  rw [Function.update_of_ne apart]
  exact agree.update

/-- The loop treats every slot as it found it. -/
theorem foldl_processAndAgeSlot {slots : List Int} (nodup : slots.Nodup) {start : FeatureState} :
    ∀ {state : FeatureState} {items : List Int}, (∀ i ∈ slots, AgreeAt i state start) →
      (slots.foldl (processAndAgeSlot round) (state, items)).2 =
        items ++ slots.flatMap (fun i => (start.agedItem round i).toList) ∧
      ∀ i, (slots.foldl (processAndAgeSlot round) (state, items)).1.lastFlowUpdate i =
        if i ∈ slots then start.agedUpdate round i else state.lastFlowUpdate i := by
  induction slots with
  | nil =>
      intro state items _
      exact ⟨(List.append_nil items).symm, fun i => by simp⟩
  | cons j rest ih =>
      intro state items agree
      rw [List.nodup_cons] at nodup
      have here := agree j List.mem_cons_self
      have later : ∀ i ∈ rest, AgreeAt i (processAndAgeSlot round (state, items) j).1 start := by
        intro i member
        refine processAndAgeSlot_agree ?_ (agree i (List.mem_cons_of_mem j member))
        intro same
        exact nodup.1 (same ▸ member)
      obtain ⟨enqueued, updated⟩ := ih nodup.2 later
      rw [List.foldl_cons]
      constructor
      · refine enqueued.trans ?_
        rw [List.flatMap_cons, ← List.append_assoc, ← here.agedItem]
      · intro i
        refine (updated i).trans ?_
        by_cases inRest : i ∈ rest
        · rw [if_pos inRest, if_pos (List.mem_cons_of_mem j inRest)]
        · rw [if_neg inRest]
          by_cases same : i = j
          · subst same
            rw [if_pos List.mem_cons_self, ← here.agedUpdate]
            exact Function.update_self _ _ _
          · rw [if_neg (by simp [same, inRest])]
            exact Function.update_of_ne same _ _

-- Rewriting with this equation keeps the kernel from running the loop to reach the
-- components of its result.
theorem processAndAgeFeature_eq (round : AgeingRound) (state : FeatureState) :
    processAndAgeFeature round state =
      featureSlots.foldl (processAndAgeSlot round) (state, []) := by
  unfold processAndAgeFeature
  rfl

/-- A timeout is enqueued for the session of every slot that is idle and whose item the
ring takes, and for no other. -/
theorem mem_processAndAgeFeature_iff {item : Int} :
    item ∈ (processAndAgeFeature round state).2 ↔
      ∃ i : Int, 4 ≤ i ∧ i < featureSize ∧ state.agedItem round i = some item := by
  rw [processAndAgeFeature_eq,
    (foldl_processAndAgeSlot nodup_featureSlots fun i _ => ⟨⟨rfl, rfl⟩, rfl⟩).1,
    List.nil_append, List.mem_flatMap]
  constructor
  · intro found
    obtain ⟨i, member, enqueued⟩ := found
    rw [mem_featureSlots] at member
    exact ⟨i, member.1, member.2, Option.mem_toList.mp enqueued⟩
  · intro found
    obtain ⟨i, low, high, enqueued⟩ := found
    exact ⟨i, mem_featureSlots.mpr ⟨low, high⟩, Option.mem_toList.mpr enqueued⟩

theorem foldl_lastFlowUpdate {slots : List Int} (nodup : slots.Nodup) (member : i ∈ slots) :
    (slots.foldl (processAndAgeSlot round) (state, [])).1.lastFlowUpdate i =
      state.agedUpdate round i := by
  rw [(foldl_processAndAgeSlot nodup fun i _ => ⟨⟨rfl, rfl⟩, rfl⟩).2 i, if_pos member]

theorem processAndAgeFeature_lastFlowUpdate (low : 4 ≤ i) (high : i < featureSize) :
    (processAndAgeFeature round state).1.lastFlowUpdate i = state.agedUpdate round i := by
  rw [processAndAgeFeature_eq]
  exact foldl_lastFlowUpdate nodup_featureSlots (mem_featureSlots.mpr ⟨low, high⟩)

end Slots

end Marina
