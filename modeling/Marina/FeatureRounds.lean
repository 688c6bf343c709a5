import Marina.Features
import Marina.Lib.Run
import Marina.Lib.Slices

/-!
# What the exported values count

All features of `controller/dataplane/features.c` over the registers of the switch, in any
interleaving of increments by the data plane, rounds of `read_features`, and
`DP_CLEAR_REGISTERS` commands.

A round adds to the values of a slot what its register has gained since the round before.
`clear_registers` sets the values to zero and leaves the register and the buffers as they
are, so the round after it also adds what was counted between the last round and the
clear. The first round adds whatever `prepare_features` left in the register, which is
something for `iat_log` only: its `reset_fn` resets `iat_log_square`.
`exported_values_count_session_iff` shows that nothing else goes wrong.
-/

namespace Marina

open Lib

/-! ## The features -/

/-- The entries of `STATIC_FEATURES_ARRAY`. -/
inductive Feature
  | count
  | sizeLog
  | sizeLogSquare
  | sizeLogCube
  | iatLog
  | iatLogSquare
  | iatLogCube
  deriving DecidableEq, Repr

def staticFeaturesArray : List Feature :=
  [.count, .sizeLog, .sizeLogSquare, .sizeLogCube, .iatLog, .iatLogSquare, .iatLogCube]

/-- The register that the `reset_fn` of each feature resets. -/
def Feature.resetFn : Feature → Feature
  | .count => .count
  | .sizeLog => .sizeLog
  | .sizeLogSquare => .sizeLogSquare
  | .sizeLogCube => .sizeLogCube
  | .iatLog => .iatLogSquare
  | .iatLogSquare => .iatLogSquare
  | .iatLogCube => .iatLogCube

/-- The register of each feature, at the slots at which a read of all pipes returns it. -/
abbrev SwitchRegisters : Type := Feature → Int → UInt32

/-- `p4_pd_..._register_reset_all` on one pipe. -/
def SwitchRegisters.resetAll (switch : SwitchRegisters) (feature : Feature) (pipe : Int) :
    SwitchRegisters :=
  fun other i => if other = feature ∧ flowIdToPipe i = pipe then 0 else switch other i

/-- The array of `feature_register_t`, and `last_flow_update`. -/
structure FeatureBank where
  registers : Feature → FeatureRegister
  lastFlowUpdate : Int → UInt32

structure FeatureSystem where
  switch : SwitchRegisters
  bank : FeatureBank

/-! ## The operations -/

/-- One pass of `prepare_features`: `reset_fn`, and `prepare_feature`. -/
def prepareFeaturePass (feature : Feature) (system : FeatureSystem) (pipe : Nat) : FeatureSystem where
  switch := system.switch.resetAll feature.resetFn pipe
  bank :=
    { registers := Function.update system.bank.registers feature prepareFeature.registerCount
      lastFlowUpdate := prepareFeature.lastFlowUpdate }

def prepareFeatures (system : FeatureSystem) : FeatureSystem :=
  staticFeaturesArray.foldl
    (fun system feature => (List.range numPipes).foldl (prepareFeaturePass feature) system) system

/-- The body of the loop of `process_feature`. -/
def processSlot (register : FeatureRegister) (i : Int) : FeatureRegister :=
  { register with
    values := Function.update register.values i
      (register.values i + (register.difference i).toUInt64) }

@[irreducible] def processFeature (register : FeatureRegister) : FeatureRegister :=
  featureSlots.foldl processSlot register

/-- `read_feature` of every feature, when the switch reports success. -/
def FeatureBank.read (switch : SwitchRegisters) (bank : FeatureBank) (feature : Feature) :
    FeatureBank :=
  { bank with
    registers := Function.update bank.registers feature
      (readFeature (some (switch feature)) (bank.registers feature)) }

/-- `process_register` of every feature. -/
def FeatureBank.process (round : AgeingRound) (bank : FeatureBank) : Feature → FeatureBank
  | .count =>
      let state := (processAndAgeFeature round ⟨bank.registers .count, bank.lastFlowUpdate⟩).1
      { registers := Function.update bank.registers .count state.registerCount
        lastFlowUpdate := state.lastFlowUpdate }
  | feature =>
      { bank with
        registers := Function.update bank.registers feature
          (processFeature (bank.registers feature)) }

def readFeatures (round : AgeingRound) (system : FeatureSystem) : FeatureSystem :=
  let bank := staticFeaturesArray.foldl (FeatureBank.read system.switch) system.bank
  { system with bank := staticFeaturesArray.foldl (FeatureBank.process round) bank }

/-- `read_feature` of every feature, when `reads` is what the switch returns for it. -/
def FeatureBank.readWith (reads : Feature → Option (Int → UInt32)) (bank : FeatureBank)
    (feature : Feature) : FeatureBank :=
  { bank with
    registers := Function.update bank.registers feature
      (readFeature (reads feature) (bank.registers feature)) }

/-- `read_features`, which does not look at the status of a read. -/
def readFeaturesWith (reads : Feature → Option (Int → UInt32)) (round : AgeingRound)
    (bank : FeatureBank) : FeatureBank :=
  staticFeaturesArray.foldl (FeatureBank.process round)
    (staticFeaturesArray.foldl (FeatureBank.readWith reads) bank)

theorem readFeatures_eq (round : AgeingRound) (system : FeatureSystem) :
    readFeatures round system =
      { system with
        bank := readFeaturesWith (fun feature => some (system.switch feature)) round
          system.bank } := rfl

/-- The slot of a session for a feature. -/
def Feature.slot (onEgress : Feature → Bool) (fiveTuple : FiveTuple) (sessionId : Int)
    (feature : Feature) : Int :=
  sessionId + (if onEgress feature then 1 else 0) * fiveTuple.sessionIdEgressOffset.toInt

/-- The loop of `clear_registers`. The register it writes afterwards belongs to no feature. -/
def clearRegisters (onEgress : Feature → Bool) (fiveTuple : FiveTuple) (sessionId : Int)
    (bank : FeatureBank) : FeatureBank :=
  staticFeaturesArray.foldl
    (fun bank feature =>
      { bank with
        registers := Function.update bank.registers feature
          { bank.registers feature with
            values := Function.update (bank.registers feature).values
              (feature.slot onEgress fiveTuple sessionId) 0 } })
    bank

/-- What happens to the registers. -/
inductive FeatureEvent
  /-- The data plane counts at a slot. -/
  | increment (feature : Feature) (i : Int) (amount : Nat)
  | round (ageing : AgeingRound)
  | clear (fiveTuple : FiveTuple) (sessionId : Int)

def FeatureSystem.step (onEgress : Feature → Bool) (system : FeatureSystem) :
    FeatureEvent → FeatureSystem
  | .increment feature i amount =>
      { system with
        switch := Function.update system.switch feature
          (Function.update (system.switch feature) i
            (system.switch feature i + UInt32.ofNat amount)) }
  | .round ageing => readFeatures ageing system
  | .clear fiveTuple sessionId =>
      { system with bank := clearRegisters onEgress fiveTuple sessionId system.bank }

/-! ## Slot by slot -/

/-- What a register holds for one slot: the two buffers and the value. -/
structure SlotValues where
  current : UInt32
  last : UInt32
  value : UInt64

def FeatureRegister.at (register : FeatureRegister) (i : Int) : SlotValues :=
  ⟨register.dataPlaneValues i, register.lastDataPlaneValue i, register.values i⟩

/-- The value after the loop has been at the slot. -/
def SlotValues.processed (slot : SlotValues) : SlotValues :=
  { slot with value := slot.value + (slot.current - slot.last).toUInt64 }

section Slots

variable {i : Int} {feature other : Feature}

theorem at_processSlot_self (register : FeatureRegister) (i : Int) :
    (processSlot register i).at i = (register.at i).processed := by
  unfold FeatureRegister.at processSlot SlotValues.processed
  simp only [Function.update_self]
  rfl

theorem at_processSlot_of_ne (register : FeatureRegister) (j k : Int) (ne : k ≠ j) :
    (processSlot register j).at k = register.at k := by
  unfold FeatureRegister.at processSlot
  simp only [Function.update_of_ne ne]

theorem at_processFeature (member : i ∈ featureSlots) (register : FeatureRegister) :
    (processFeature register).at i = (register.at i).processed := by
  unfold processFeature
  exact foldl_slice FeatureRegister.at (fun _ => SlotValues.processed) at_processSlot_self
    at_processSlot_of_ne register nodup_featureSlots member

/-- Ageing does the same to the register. -/
theorem at_processAndAgeFeature (member : i ∈ featureSlots) (round : AgeingRound)
    (state : FeatureState) :
    (processAndAgeFeature round state).1.registerCount.at i =
      (state.registerCount.at i).processed := by
  rw [processAndAgeFeature_eq]
  exact foldl_slice (fun done : FeatureState × List Int => done.1.registerCount.at)
    (fun _ => SlotValues.processed)
    (fun done => at_processSlot_self done.1.registerCount)
    (fun done => at_processSlot_of_ne done.1.registerCount) (state, []) nodup_featureSlots member

theorem nodup_staticFeaturesArray : staticFeaturesArray.Nodup := by decide

theorem mem_staticFeaturesArray (feature : Feature) : feature ∈ staticFeaturesArray := by
  cases feature <;> decide

theorem process_registers_self (member : i ∈ featureSlots) (round : AgeingRound)
    (bank : FeatureBank) (feature : Feature) :
    ((bank.process round feature).registers feature).at i =
      ((bank.registers feature).at i).processed := by
  cases feature with
  | count =>
      unfold FeatureBank.process
      dsimp only
      rw [Function.update_self]
      exact at_processAndAgeFeature member round _
  | _ =>
      unfold FeatureBank.process
      dsimp only
      rw [Function.update_self]
      exact at_processFeature member _

theorem process_registers_of_ne (round : AgeingRound) (bank : FeatureBank)
    (feature other : Feature) (ne : other ≠ feature) :
    (bank.process round feature).registers other = bank.registers other := by
  cases feature <;> exact Function.update_of_ne ne _ _

theorem registers_readWith (reads : Feature → Option (Int → UInt32)) (bank : FeatureBank)
    (feature : Feature) :
    (staticFeaturesArray.foldl (FeatureBank.readWith reads) bank).registers feature =
      readFeature (reads feature) (bank.registers feature) :=
  foldl_slice FeatureBank.registers (fun feature register => readFeature (reads feature) register)
    (fun _ _ => Function.update_self _ _ _) (fun _ _ _ ne => Function.update_of_ne ne _ _)
    bank nodup_staticFeaturesArray (mem_staticFeaturesArray feature)

/-- A round swaps the buffers, reads into one of them if the switch returns anything, and
adds the difference. -/
theorem at_readFeaturesWith (member : i ∈ featureSlots) (reads : Feature → Option (Int → UInt32))
    (round : AgeingRound) (bank : FeatureBank) (feature : Feature) :
    ((readFeaturesWith reads round bank).registers feature).at i =
      SlotValues.processed
        ⟨(reads feature).getD (bank.registers feature).lastDataPlaneValue i,
          ((bank.registers feature).at i).current, ((bank.registers feature).at i).value⟩ := by
  have process := foldl_slice
    (fun (bank : FeatureBank) feature => (bank.registers feature).at i)
    (fun _ => SlotValues.processed) (process_registers_self member round)
    (fun bank feature other ne =>
      congrArg (FeatureRegister.at · i) (process_registers_of_ne round bank feature other ne))
    (staticFeaturesArray.foldl (FeatureBank.readWith reads) bank)
    nodup_staticFeaturesArray (mem_staticFeaturesArray feature)
  refine process.trans ?_
  rw [registers_readWith]
  rfl

/-- A round reads the register, and adds what it has gained since the round before. -/
theorem at_readFeatures (member : i ∈ featureSlots) (round : AgeingRound)
    (system : FeatureSystem) (feature : Feature) :
    ((readFeatures round system).bank.registers feature).at i =
      SlotValues.processed
        ⟨system.switch feature i, ((system.bank.registers feature).at i).current,
          ((system.bank.registers feature).at i).value⟩ := by
  rw [readFeatures_eq]
  exact at_readFeaturesWith member _ round system.bank feature

/-- A clear sets the value to zero and leaves the buffers. -/
theorem at_clearRegisters (onEgress : Feature → Bool) (fiveTuple : FiveTuple) (sessionId : Int)
    (bank : FeatureBank) (feature : Feature) (i : Int) :
    ((clearRegisters onEgress fiveTuple sessionId bank).registers feature).at i =
      if feature.slot onEgress fiveTuple sessionId = i then
        { (bank.registers feature).at i with value := 0 }
      else (bank.registers feature).at i := by
  have cleared : (clearRegisters onEgress fiveTuple sessionId bank).registers feature =
      { bank.registers feature with
        values := Function.update (bank.registers feature).values
          (feature.slot onEgress fiveTuple sessionId) 0 } :=
    foldl_slice FeatureBank.registers
      (fun feature register =>
        { register with
          values := Function.update register.values (feature.slot onEgress fiveTuple sessionId) 0 })
      (fun _ _ => Function.update_self _ _ _) (fun _ _ _ ne => Function.update_of_ne ne _ _)
      bank nodup_staticFeaturesArray (mem_staticFeaturesArray feature)
  refine (congrArg (FeatureRegister.at · i) cleared).trans ?_
  unfold FeatureRegister.at
  dsimp only
  split
  · rename_i here
    rw [← here, Function.update_self]
  · rename_i elsewhere
    rw [Function.update_of_ne (Ne.symm elsewhere)]

/-- All pipes together are the whole register. -/
theorem prepareFeaturePasses (feature : Feature) (system : FeatureSystem) :
    (List.range numPipes).foldl (prepareFeaturePass feature) system =
      { switch := fun other i => if other = feature.resetFn then 0 else system.switch other i
        bank :=
          { registers := Function.update system.bank.registers feature prepareFeature.registerCount
            lastFlowUpdate := prepareFeature.lastFlowUpdate } } := by
  have pipes : List.range numPipes = [0, 1, 2, 3] := rfl
  rw [pipes]
  simp only [List.foldl_cons, List.foldl_nil, prepareFeaturePass, Function.update_idem,
    FeatureSystem.mk.injEq, and_true]
  funext other i
  unfold SwitchRegisters.resetAll flowIdToPipe
  by_cases reset : other = feature.resetFn
  · have pipe : i % 4 = 0 ∨ i % 4 = 1 ∨ i % 4 = 2 ∨ i % 4 = 3 := by omega
    rcases pipe with pipe | pipe | pipe | pipe <;> simp [reset, pipe]
  · simp [reset]

theorem prepareFeatures_at (system : FeatureSystem) (feature : Feature) (i : Int) :
    ((prepareFeatures system).bank.registers feature).at i = ⟨0, 0, 0⟩ := by
  unfold prepareFeatures
  simp only [prepareFeaturePasses]
  cases feature <;> rfl

/-- No feature resets the register of `iat_log`. -/
theorem prepareFeatures_switch (system : FeatureSystem) (feature : Feature) (i : Int) :
    (prepareFeatures system).switch feature i =
      if feature = .iatLog then system.switch .iatLog i else 0 := by
  unfold prepareFeatures
  simp only [prepareFeaturePasses]
  cases feature <;> rfl

end Slots

/-! ## What a slot has counted -/

/-- What has been counted at a slot, from the events alone. -/
structure SlotHistory where
  /-- Since the slot was last initialised. -/
  counted : Nat
  /-- Since the last round, or since `prepare_features`. -/
  recent : Nat
  /-- The part of `recent` from before the slot was last initialised. -/
  before : Nat
  /-- What was in the register before `prepare_features` and has not been read yet. -/
  left : Nat

def SlotHistory.start (left : SwitchRegisters) (feature : Feature) (i : Int) : SlotHistory :=
  ⟨0, 0, 0, if feature = .iatLog then (left .iatLog i).toNat else 0⟩

def SlotHistory.step (onEgress : Feature → Bool) (feature : Feature) (i : Int)
    (history : SlotHistory) : FeatureEvent → SlotHistory
  | .increment other j amount =>
      if other = feature ∧ j = i then
        { history with counted := history.counted + amount, recent := history.recent + amount }
      else history
  | .round _ => { history with recent := 0, before := 0, left := 0 }
  | .clear fiveTuple sessionId =>
      if feature.slot onEgress fiveTuple sessionId = i then
        { history with counted := 0, before := history.recent }
      else history

/-- The system together with the history of one slot. -/
structure CountedSystem where
  system : FeatureSystem
  history : SlotHistory

section Counted

variable (onEgress : Feature → Bool) (feature : Feature) (i : Int)

def CountedSystem.step (counted : CountedSystem) (event : FeatureEvent) : Outcome CountedSystem :=
  pure ⟨counted.system.step onEgress event, counted.history.step onEgress feature i event⟩

/-- After `prepare_features` on a switch that holds `left`. -/
def CountedSystem.start (left : SwitchRegisters) (bank : FeatureBank) : CountedSystem :=
  ⟨prepareFeatures ⟨left, bank⟩, .start left feature i⟩

/-- A round ends with what was counted since the slot was last initialised. -/
def CountedSystem.RoundCounts (counted : CountedSystem) : FeatureEvent → Prop
  | .round ageing =>
      (((counted.system.step onEgress (.round ageing)).bank.registers feature).values i).toNat =
        counted.history.counted
  | _ => True

/-- Fewer than `2^32` are counted between two rounds. -/
def CountedSystem.Bounded (counted : CountedSystem) : FeatureEvent → Prop
  | .round _ => counted.history.recent < 2 ^ 32
  | _ => True

/-- A round finds nothing in the register from before the slot was last initialised, and the
sum fits in the value. -/
def CountedSystem.RoundFresh (counted : CountedSystem) : FeatureEvent → Prop
  | .round _ => (counted.history.left + counted.history.before) % 2 ^ 32 = 0 ∧
      counted.history.counted < 2 ^ 64
  | _ => True

/-- What the buffers and the value have to do with the history. -/
structure CountedSystem.Tracks (counted : CountedSystem) : Prop where
  register : counted.system.switch feature i =
    ((counted.system.bank.registers feature).at i).current +
      UInt32.ofNat (counted.history.left + counted.history.recent)
  value : ((counted.system.bank.registers feature).at i).value.toNat + counted.history.recent =
    counted.history.counted + counted.history.before
  before_le : counted.history.before ≤ counted.history.recent

end Counted

section Runs

variable {onEgress : Feature → Bool} {feature : Feature} {i : Int} {counted : CountedSystem}

namespace CountedSystem

theorem start_tracks (feature : Feature) (i : Int) (left : SwitchRegisters) (bank : FeatureBank) :
    (start feature i left bank).Tracks feature i where
  register := by
    unfold start SlotHistory.start
    dsimp only
    rw [prepareFeatures_switch, prepareFeatures_at]
    split <;> simp
  value := by
    unfold start SlotHistory.start
    dsimp only
    rw [prepareFeatures_at]
    rfl
  before_le := le_rfl

/-- What a round makes of a slot. -/
theorem Tracks.round_value (tracks : counted.Tracks feature i) (onEgress : Feature → Bool)
    (member : i ∈ featureSlots) (ageing : AgeingRound) :
    (((counted.system.step onEgress (.round ageing)).bank.registers feature).at i).value.toNat =
      (((counted.system.bank.registers feature).at i).value.toNat +
        (counted.history.left + counted.history.recent) % 2 ^ 32) % 2 ^ 64 := by
  have gained : (counted.system.switch feature i -
      ((counted.system.bank.registers feature).at i).current).toNat =
      (counted.history.left + counted.history.recent) % 2 ^ 32 := by
    rw [tracks.register, add_sub_cancel_left]
    exact UInt32.toNat_ofNat'
  unfold FeatureSystem.step
  dsimp only
  rw [at_readFeatures member]
  unfold SlotValues.processed
  dsimp only
  rw [UInt64.toNat_add, UInt32.toNat_toUInt64, gained]

/-- A round is right exactly when it finds nothing from before. -/
theorem Tracks.roundCounts_iff (tracks : counted.Tracks feature i) (member : i ∈ featureSlots)
    {event : FeatureEvent} (bounded : counted.Bounded event) :
    counted.RoundCounts onEgress feature i event ↔ counted.RoundFresh event := by
  cases event with
  | round ageing =>
      have small : counted.history.recent < 2 ^ 32 := bounded
      have value := tracks.round_value onEgress member ageing
      have fits := ((counted.system.bank.registers feature).at i).value.toNat_lt
      have tracked := tracks.value
      have part := tracks.before_le
      change (((counted.system.step onEgress (.round ageing)).bank.registers feature).at
        i).value.toNat = _ ↔ _ ∧ _
      rw [value]
      omega
  | increment other j amount => exact Iff.rfl
  | clear fiveTuple sessionId => exact Iff.rfl

theorem Tracks.increment (tracks : counted.Tracks feature i) (onEgress : Feature → Bool)
    (other : Feature) (j : Int) (amount : Nat) :
    Tracks feature i ⟨counted.system.step onEgress (.increment other j amount),
      counted.history.step onEgress feature i (.increment other j amount)⟩ := by
  dsimp only [FeatureSystem.step, SlotHistory.step]
  split
  · rename_i here
    obtain ⟨rfl, rfl⟩ := here
    refine ⟨?_, ?_, ?_⟩
    · dsimp only
      rw [Function.update_self, Function.update_self, tracks.register, add_assoc,
        ← UInt32.ofNat_add, Nat.add_assoc]
    · have := tracks.value
      dsimp only
      omega
    · exact tracks.before_le.trans (Nat.le_add_right _ _)
  · rename_i elsewhere
    refine ⟨?_, tracks.value, tracks.before_le⟩
    dsimp only
    rw [← tracks.register]
    by_cases same : other = feature
    · subst same
      rw [Function.update_self, Function.update_of_ne fun at_i => elsewhere ⟨rfl, at_i.symm⟩]
    · rw [Function.update_of_ne (Ne.symm same)]

theorem Tracks.clear (tracks : counted.Tracks feature i) (onEgress : Feature → Bool)
    (fiveTuple : FiveTuple) (sessionId : Int) :
    Tracks feature i ⟨counted.system.step onEgress (.clear fiveTuple sessionId),
      counted.history.step onEgress feature i (.clear fiveTuple sessionId)⟩ := by
  dsimp only [FeatureSystem.step, SlotHistory.step]
  split
  · rename_i here
    refine ⟨?_, ?_, le_rfl⟩
    · dsimp only
      rw [at_clearRegisters, if_pos here]
      exact tracks.register
    · dsimp only
      rw [at_clearRegisters, if_pos here]
      rfl
  · rename_i elsewhere
    refine ⟨?_, ?_, tracks.before_le⟩
    · dsimp only
      rw [at_clearRegisters, if_neg elsewhere]
      exact tracks.register
    · dsimp only
      rw [at_clearRegisters, if_neg elsewhere]
      exact tracks.value

theorem tracks_round (member : i ∈ featureSlots) (ageing : AgeingRound)
    (counts : counted.RoundCounts onEgress feature i (.round ageing)) :
    Tracks feature i ⟨counted.system.step onEgress (.round ageing),
      counted.history.step onEgress feature i (.round ageing)⟩ where
  register := by
    unfold FeatureSystem.step SlotHistory.step
    dsimp only
    rw [at_readFeatures member]
    exact (add_zero _).symm
  value := counts
  before_le := le_rfl

theorem Tracks.step (tracks : counted.Tracks feature i) (member : i ∈ featureSlots)
    {event : FeatureEvent} (counts : counted.RoundCounts onEgress feature i event)
    {next : CountedSystem} (stepped : counted.step onEgress feature i event = pure next) :
    next.Tracks feature i := by
  unfold CountedSystem.step at stepped
  rw [Exec.pure_inj] at stepped
  subst stepped
  cases event with
  | increment other j amount => exact tracks.increment onEgress other j amount
  | round ageing => exact tracks_round member ageing counts
  | clear fiveTuple sessionId => exact tracks.clear onEgress fiveTuple sessionId

end CountedSystem

end Runs

/-- In every run, the value of a slot is after every round what was counted since the slot was
last initialised, exactly when no round finds anything from before that in the register. -/
theorem exported_values_count_session_iff (onEgress : Feature → Bool) (feature : Feature) (i : Int)
    (low : minSessionId ≤ i) (high : i < featureSize) (left : SwitchRegisters) (bank : FeatureBank)
    (events : List FeatureEvent)
    (bounded : AllSteps (CountedSystem.step onEgress feature i) CountedSystem.Bounded
      (.start feature i left bank) events) :
    AllSteps (CountedSystem.step onEgress feature i)
        (CountedSystem.RoundCounts onEgress feature i) (.start feature i left bank) events ↔
      AllSteps (CountedSystem.step onEgress feature i) CountedSystem.RoundFresh
        (.start feature i left bank) events := by
  have member : i ∈ featureSlots := mem_featureSlots.mpr ⟨low, high⟩
  have start := CountedSystem.start_tracks feature i left bank
  constructor
  · intro counts
    refine AllSteps.of_invariant (I := CountedSystem.Tracks feature i) ?_ ?_ start
      (bounded.and counts)
    · intro counted event next tracks met stepped
      exact tracks.step member met.2 stepped
    · intro counted event tracks met
      exact (tracks.roundCounts_iff member met.1).mp met.2
  · intro fresh
    refine AllSteps.of_invariant (I := CountedSystem.Tracks feature i) ?_ ?_ start
      (bounded.and fresh)
    · intro counted event next tracks met stepped
      exact tracks.step member ((tracks.roundCounts_iff member met.1).mpr met.2) stepped
    · intro counted event tracks met
      exact (tracks.roundCounts_iff member met.1).mpr met.2

/-! ## Counts of others -/

/-- Features that are all counted on ingress. -/
def allIngress : Feature → Bool := fun _ => false

def emptyBank : FeatureBank := ⟨fun _ => prepareFeature.registerCount, prepareFeature.lastFlowUpdate⟩

/-- A round without sessions. -/
def quietRound : FeatureEvent := .round ⟨fun _ => -1, 0, fun _ => true⟩

theorem exported_values_count_session_plain :
    AllSteps (CountedSystem.step allIngress .count 4)
      (CountedSystem.RoundCounts allIngress .count 4) (.start .count 4 (fun _ _ => 0) emptyBank)
      [.increment .count 4 5, quietRound] := by
  rw [exported_values_count_session_iff allIngress .count 4 (by decide) (by decide)]
  · exact .cons True.intro rfl (.cons (show _ ∧ _ from ⟨rfl, by decide⟩) rfl True.intro)
  · exact .cons True.intro rfl (.cons (show 5 < 2 ^ 32 by decide) rfl True.intro)

/-- Five packets of the session before are counted for the next one, and so is what an earlier
run of the controller has left in the register of `iat_log`. -/
theorem exported_values_count_others :
    ¬ AllSteps (CountedSystem.step allIngress .count 4)
        (CountedSystem.RoundCounts allIngress .count 4) (.start .count 4 (fun _ _ => 0) emptyBank)
        [.increment .count 4 5, .clear .zero 4, quietRound] ∧
      ¬ AllSteps (CountedSystem.step allIngress .iatLog 4)
        (CountedSystem.RoundCounts allIngress .iatLog 4) (.start .iatLog 4 (fun _ _ => 1) emptyBank)
        [quietRound] := by
  have member : (4 : Int) ∈ featureSlots := mem_featureSlots.mpr ⟨le_rfl, by decide⟩
  constructor
  · intro counts
    have tracks := ((CountedSystem.start_tracks .count 4 (fun _ _ => 0) emptyBank).increment
      allIngress .count 4 5).clear allIngress .zero 4
    have bounded : ∀ system, CountedSystem.Bounded ⟨system, ⟨0, 5, 5, 0⟩⟩ quietRound :=
      fun _ => show 5 < 2 ^ 32 by decide
    have fresh := (tracks.roundCounts_iff member (bounded _)).mp ((counts.2 _ rfl).2 _ rfl).1
    exact absurd fresh.1 (by decide)
  · intro counts
    have tracks := CountedSystem.start_tracks .iatLog 4 (fun _ _ => 1) emptyBank
    have bounded : ∀ system, CountedSystem.Bounded ⟨system, ⟨0, 0, 0, 1⟩⟩ quietRound :=
      fun _ => show 0 < 2 ^ 32 by decide
    have fresh := (tracks.roundCounts_iff member (bounded _)).mp counts.1
    exact absurd fresh.1 (by decide)

end Marina
