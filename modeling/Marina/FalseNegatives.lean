import Marina.BloomIndices
import Marina.Lib.Run

/-!
# No false negatives in the bloom filter

The counters, the ring of commands and the bits of the data plane, in any interleaving of
calls of `bloom_filter_set_irrelevant` and `bloom_filter_set_relevant`, commands of other
threads, steps of `bloom_filter_maintenance` and commands executed by `dataplane_thread`.
A call is one step; maintenance stops between any two filters and before its put.

A positive counter should have its bit set, or a command on the way that sets it
(`BloomSystem.Covered`). Only a put that the ring refuses breaks this: the counters stay
raised, and no later call sends the command again. A sweep whose put is refused raises
the counters at all four indices in its command, of which it lowered only some.
`no_false_negatives` is about the runs in which the counters raised in this way are
covered already.
-/

namespace Marina

open Lib Exec

/-! ## The system -/

/-- The variables of `bloom_filter_maintenance`. -/
structure Sweep where
  pipe : Nat
  index : Nat
  i : Nat
  indices : Fin numBloomfilters → Int
  send : Bool

/-- The next index, and after the last index the next pipe. -/
def Sweep.next (sweep : Sweep) : Sweep :=
  if sweep.index + 1 < bloomfilterWidth then { sweep with index := sweep.index + 1, i := 0 }
  else if sweep.pipe + 1 < numPipes then { sweep with pipe := sweep.pipe + 1, index := 0, i := 0 }
  else { sweep with pipe := 0, index := 0, i := 0 }

structure BloomSystem where
  counters : BloomCounters
  ring : List DataplaneCommand
  bits : BloomBits
  sweep : Sweep

inductive BloomEvent
  | setIrrelevant (fiveTuple : FiveTuple)
  | setRelevant (fiveTuple : FiveTuple)
  /-- Another thread puts a command. -/
  | otherPut (command : DataplaneCommand)
  /-- A step of maintenance, with the outcome of `random() < sub_threshold`. -/
  | maintenance (below : Bool)
  | dataplane

namespace BloomSystem

/-- After `bloom_filter_init`, with clear registers. -/
def start : BloomSystem where
  counters := bloomFilterInit
  ring := []
  bits := fun _ _ _ => false
  sweep := ⟨0, 0, 0, zeroIndices, false⟩

/-- `dataplane_ringbuffer_put` is not refused. -/
def HasRoom (system : BloomSystem) : Prop := system.ring.length < dataplaneRingbufferSize

instance (system : BloomSystem) : Decidable system.HasRoom :=
  inferInstanceAs (Decidable (_ < _))

/-- A put whose return code is ignored. -/
def put (system : BloomSystem) (command : Option DataplaneCommand) : BloomSystem :=
  if system.HasRoom then { system with ring := system.ring ++ command.toList } else system

/-- A call that has changed the counters and puts a command. -/
def call (system : BloomSystem) (result : BloomCounters × Option DataplaneCommand) : BloomSystem :=
  { system with counters := result.1 }.put result.2

/-- The body of the loop over the filters. -/
def sweepFilter (system : BloomSystem) (i : Fin numBloomfilters) (below : Bool) : BloomSystem :=
  let sweep := system.sweep
  let loop := BloomLoop.pass sweep.pipe (fun _ => sweep.index) (maintenanceRule fun _ => below)
    ⟨system.counters, sweep.indices, sweep.send⟩ i
  { system with
    counters := loop.counters
    sweep := { sweep with i := sweep.i + 1, indices := loop.indices, send := loop.send } }

/-- `entries[pipe][i][indices[i]]++` for every filter, after a refused put. -/
def revert (system : BloomSystem) : BloomCounters :=
  (BloomLoop.run system.sweep.pipe (fun i => (system.sweep.indices i).toNat)
    (fun _ entry => (entry + 1, false)) ⟨system.counters, system.sweep.indices, false⟩).counters

/-- The put of maintenance, and the way to the next index. -/
def sweepSend (system : BloomSystem) : BloomSystem :=
  let sweep := { system.sweep with send := false }.next
  if system.sweep.send then
    if system.HasRoom then
      { system with
        ring := system.ring ++
          [.removeBloomFilter (Vector.ofFn system.sweep.indices) system.sweep.pipe]
        sweep := sweep }
    else { system with counters := system.revert, sweep := sweep }
  else { system with sweep := sweep }

/-- The bloom filter commands of `dataplane_thread`. Clearing bits is commented out. -/
def execute (bits : BloomBits) : DataplaneCommand → BloomBits
  | .addBloomFilter indices pipeId => switchWriteBloomFilter bits pipeId.toNat indices true
  | _ => bits

def step (system : BloomSystem) : BloomEvent → BloomSystem
  | .setIrrelevant fiveTuple => system.call (bloomFilterSetIrrelevant system.counters fiveTuple)
  | .setRelevant fiveTuple => system.call (bloomFilterSetRelevant system.counters fiveTuple)
  | .otherPut command => system.put (some command)
  | .maintenance below =>
      if h : system.sweep.i < numBloomfilters then system.sweepFilter ⟨system.sweep.i, h⟩ below
      else system.sweepSend
  | .dataplane =>
      match system.ring with
      | [] => system
      | command :: ring => { system with ring := ring, bits := execute system.bits command }

/-! ## What a run should keep -/

/-- `check_bloom`: the bits `bloom_m.not_in` of a packet. -/
def checkBloom (bits : BloomBits) (pipe : Nat) (index : Fin numBloomfilters → Nat)
    (i : Fin numBloomfilters) : Bool := !bits pipe i (index i)

/-- While no command is under way, the data plane knows every flow that the controller
counts. -/
structure NoFalseNegatives (system : BloomSystem) : Prop where
  bits : system.ring = [] → ∀ pipe i index,
    system.counters pipe i index ≠ 0 → system.bits pipe i index = true
  known : system.ring = [] → ∀ fiveTuple : FiveTuple,
    (∀ i, system.counters fiveTuple.pipeIndex i (getHashes fiveTuple.h i) ≠ 0) →
      ∀ i, checkBloom system.bits fiveTuple.pipeIndex (getHashes fiveTuple.h) i = false
  /-- The packets of such a flow are not copied as unknown when the data plane computes the
  same indices, as for IPv4. -/
  notCopied : system.ring = [] → ∀ (fiveTuple : FiveTuple) headers flowId,
    CarriesFields headers fiveTuple.h → fiveTuple.h.l3Proto = .ipv4 →
    (∀ i, system.counters fiveTuple.pipeIndex i (getHashes fiveTuple.h i) ≠ 0) →
      ingressCopies headers flowId
        (checkBloom system.bits fiveTuple.pipeIndex (hashCrc headers)) ≠ some .udpUnknown

/-- The bit is set, or a command in the ring is going to set it. -/
def Covered (system : BloomSystem) (pipe : Nat) (i : Fin numBloomfilters) (index : Nat) : Prop :=
  system.bits pipe i index = true ∨
    ∃ (indices : Vector Int numBloomfilters) (pipeId : Int),
      .addBloomFilter indices pipeId ∈ system.ring ∧ pipeId.toNat = pipe ∧ indices.get i = index

/-- A refused put leaves only counters raised that were raised before or are covered. -/
def RefusesCovered (system : BloomSystem) : BloomEvent → Prop
  | .setIrrelevant fiveTuple => ¬ system.HasRoom →
      ∀ i, system.counters fiveTuple.pipeIndex i (getHashes fiveTuple.h i) = 0 →
        system.Covered fiveTuple.pipeIndex i (getHashes fiveTuple.h i)
  | .maintenance _ =>
      ¬ system.sweep.i < numBloomfilters → system.sweep.send = true → ¬ system.HasRoom →
      ∀ i, system.counters system.sweep.pipe i (system.sweep.indices i).toNat = 0 →
        system.Covered system.sweep.pipe i (system.sweep.indices i).toNat
  | _ => True

/-- The invariant. -/
def AllCovered (system : BloomSystem) : Prop :=
  ∀ pipe i index, system.counters pipe i index ≠ 0 → system.Covered pipe i index

/-! ## Steps -/

section Steps

variable {system system' : BloomSystem} {pipe index : Nat} {i : Fin numBloomfilters}

/-- A step that only puts commands keeps a bit covered. -/
theorem Covered.mono (covered : system.Covered pipe i index) (bits : system'.bits = system.bits)
    (ring : ∀ command ∈ system.ring, command ∈ system'.ring) :
    system'.Covered pipe i index := by
  rcases covered with set | ⟨indices, pipeId, pending, samePipe, place⟩
  · exact Or.inl (bits ▸ set)
  · exact Or.inr ⟨indices, pipeId, ring _ pending, samePipe, place⟩

/-- So does a step that raises no counter from zero that is not covered. -/
theorem AllCovered.mono (all : system.AllCovered) (bits : system'.bits = system.bits)
    (ring : ∀ command ∈ system.ring, command ∈ system'.ring)
    (raised : ∀ pipe i index, system.counters pipe i index = 0 →
      system'.counters pipe i index ≠ 0 → system'.Covered pipe i index) :
    system'.AllCovered := by
  intro pipe i index positive
  by_cases zero : system.counters pipe i index = 0
  · exact raised pipe i index zero positive
  · exact (all pipe i index zero).mono bits ring

section Call

variable {command : Option DataplaneCommand} {result : BloomCounters × Option DataplaneCommand}

theorem put_bits : (system.put command).bits = system.bits := by
  unfold put
  split <;> rfl

theorem put_counters : (system.put command).counters = system.counters := by
  unfold put
  split <;> rfl

theorem put_ring (room : system.HasRoom) :
    (system.put command).ring = system.ring ++ command.toList := by
  unfold put
  rw [if_pos room]

theorem put_ring_of_full (full : ¬ system.HasRoom) : (system.put command).ring = system.ring := by
  unfold put
  rw [if_neg full]

theorem put_ring_subset : ∀ other ∈ system.ring, other ∈ (system.put command).ring := by
  intro other member
  by_cases room : system.HasRoom
  · rw [put_ring room]
    exact List.mem_append_left _ member
  · rw [put_ring_of_full room]
    exact member

theorem call_bits : (system.call result).bits = system.bits := put_bits

theorem call_counters : (system.call result).counters = result.1 := put_counters

theorem call_ring (room : system.HasRoom) :
    (system.call result).ring = system.ring ++ result.2.toList := put_ring room

theorem call_of_room (room : system.HasRoom) :
    system.call result =
      { system with counters := result.1, ring := system.ring ++ result.2.toList } :=
  if_pos room

theorem call_ring_of_full (full : ¬ system.HasRoom) : (system.call result).ring = system.ring :=
  put_ring_of_full full

/-- A call that covers the counters it raises from zero. -/
theorem AllCovered.call (all : system.AllCovered)
    (raised : ∀ pipe i index, system.counters pipe i index = 0 → result.1 pipe i index ≠ 0 →
      (system.call result).Covered pipe i index) :
    (system.call result).AllCovered := by
  refine all.mono call_bits (fun other member => put_ring_subset other member) ?_
  intro pipe i index zero positive
  rw [call_counters] at positive
  exact raised pipe i index zero positive

end Call

/-- A call that changes no counter. -/
theorem AllCovered.put (all : system.AllCovered) (command : Option DataplaneCommand) :
    (system.put command).AllCovered := by
  change (system.call (system.counters, command)).AllCovered
  exact all.call fun _ _ _ zero positive => absurd zero positive

theorem setRelevant_counters (counters : BloomCounters) (fiveTuple : FiveTuple) :
    (bloomFilterSetRelevant counters fiveTuple).1 = counters := by
  funext pipe i index
  unfold bloomFilterSetRelevant
  dsimp only
  rw [BloomLoop.run_counters]
  split
  · rename_i here
    rw [here.1, here.2]
    rfl
  · rfl

/-- Only the counters of an irrelevant flow are raised. -/
theorem setIrrelevant_raises {counters : BloomCounters} {fiveTuple : FiveTuple}
    (zero : counters pipe i index = 0)
    (positive : (bloomFilterSetIrrelevant counters fiveTuple).1 pipe i index ≠ 0) :
    pipe = fiveTuple.pipeIndex ∧ index = getHashes fiveTuple.h i := by
  by_contra elsewhere
  apply positive
  unfold bloomFilterSetIrrelevant
  dsimp only
  rw [BloomLoop.run_counters, if_neg elsewhere]
  exact zero

/-- The command covers those that are raised from zero. -/
theorem setIrrelevant_command {counters : BloomCounters} {fiveTuple : FiveTuple}
    (zero : counters fiveTuple.pipeIndex i (getHashes fiveTuple.h i) = 0) :
    ∃ indices, (bloomFilterSetIrrelevant counters fiveTuple).2 =
        some (.addBloomFilter indices fiveTuple.pipeIndex) ∧
      indices.get i = getHashes fiveTuple.h i := by
  have needs : (BloomRequest.setIrrelevant fiveTuple).Needs counters i := zero
  exact ⟨_, BloomRequest.serve_of_needs needs,
    BloomRequest.get_indices.trans (BloomRequest.loop_indices_of_needs needs)⟩

theorem setIrrelevant_counts {counters : BloomCounters} {fiveTuple : FiveTuple}
    (zero : counters fiveTuple.pipeIndex i (getHashes fiveTuple.h i) = 0) :
    (bloomFilterSetIrrelevant counters fiveTuple).1 fiveTuple.pipeIndex i
      (getHashes fiveTuple.h i) = 1 := by
  have needs : (BloomRequest.setIrrelevant fiveTuple).Needs counters i := zero
  exact BloomRequest.loop_counters_of_needs needs

theorem AllCovered.setIrrelevant (all : system.AllCovered) {fiveTuple : FiveTuple}
    (refuses : system.RefusesCovered (.setIrrelevant fiveTuple)) :
    (system.step (.setIrrelevant fiveTuple)).AllCovered := by
  apply all.call
  intro pipe i index zero positive
  obtain ⟨rfl, rfl⟩ := setIrrelevant_raises zero positive
  by_cases room : system.HasRoom
  · obtain ⟨indices, command, place⟩ := setIrrelevant_command zero
    refine Or.inr ⟨indices, _, ?_, Int.toNat_natCast fiveTuple.pipeIndex, place⟩
    rw [call_ring room, command]
    exact List.mem_append_right _ (List.mem_singleton.mpr rfl)
  · exact (refuses room i zero).mono call_bits fun other member => put_ring_subset other member

/-- A pass of maintenance raises no counter. -/
theorem maintenanceRule_zero (chosen : Fin numBloomfilters → Bool) (i : Fin numBloomfilters) :
    (maintenanceRule chosen i 0).1 = 0 := by
  unfold maintenanceRule
  split <;> rfl

theorem AllCovered.sweepFilter (all : system.AllCovered) (i : Fin numBloomfilters) (below : Bool) :
    (system.sweepFilter i below).AllCovered := by
  refine all.mono rfl (fun _ member => member) ?_
  intro pipe k index zero positive
  unfold BloomSystem.sweepFilter BloomLoop.pass at positive
  dsimp only at positive
  rw [BloomArray.set_apply] at positive
  split at positive
  · rename_i here
    obtain ⟨rfl, rfl, rfl⟩ := here
    rw [zero, maintenanceRule_zero] at positive
    exact absurd rfl positive
  · exact absurd zero positive

theorem AllCovered.sweepSend (all : system.AllCovered)
    (refuses : system.sweep.send = true → ¬ system.HasRoom →
      ∀ i, system.counters system.sweep.pipe i (system.sweep.indices i).toNat = 0 →
        system.Covered system.sweep.pipe i (system.sweep.indices i).toNat) :
    system.sweepSend.AllCovered := by
  unfold BloomSystem.sweepSend
  dsimp only
  split
  · rename_i sends
    split
    · refine all.mono rfl (fun _ member => List.mem_append_left _ member) ?_
      intro pipe i index zero positive
      exact absurd zero positive
    · rename_i full
      refine all.mono rfl (fun _ member => member) ?_
      intro pipe i index zero positive
      unfold revert at positive
      dsimp only at positive
      rw [BloomLoop.run_counters] at positive
      split at positive
      · rename_i here
        obtain ⟨rfl, rfl⟩ := here
        exact (refuses sends full i zero).mono rfl fun _ member => member
      · exact absurd zero positive
  · refine all.mono rfl (fun _ member => member) ?_
    intro pipe i index zero positive
    exact absurd zero positive

theorem AllCovered.dataplane (all : system.AllCovered) : (system.step .dataplane).AllCovered := by
  unfold step
  dsimp only
  split
  · exact all
  · rename_i command ring isRing
    intro pipe i index positive
    rcases all pipe i index positive with set | ⟨indices, pipeId, pending, samePipe, place⟩
    · left
      cases command <;> try exact set
      rename_i indices pipeId
      change switchWriteBloomFilter _ _ _ _ _ _ _ = true
      rw [switchWriteBloomFilter_apply]
      split
      · rfl
      · exact set
    · rw [isRing, List.mem_cons] at pending
      rcases pending with rfl | pending
      · left
        change switchWriteBloomFilter _ _ _ _ _ _ _ = true
        rw [switchWriteBloomFilter_apply, if_pos ⟨samePipe.symm, place⟩]
      · exact Or.inr ⟨indices, pipeId, pending, samePipe, place⟩

theorem dataplane_counters : (system.step .dataplane).counters = system.counters := by
  unfold step
  dsimp only
  split <;> rfl

theorem AllCovered.step (all : system.AllCovered) {event : BloomEvent}
    (refuses : system.RefusesCovered event) : (system.step event).AllCovered := by
  cases event with
  | setIrrelevant fiveTuple => exact all.setIrrelevant refuses
  | setRelevant fiveTuple =>
      apply all.call
      intro pipe i index zero positive
      rw [setRelevant_counters] at positive
      exact absurd zero positive
  | otherPut command => exact all.put _
  | maintenance below =>
      unfold BloomSystem.step
      dsimp only
      split
      · exact all.sweepFilter _ below
      · rename_i last
        exact all.sweepSend (refuses last)
  | dataplane => exact all.dataplane

theorem AllCovered.noFalseNegatives (all : system.AllCovered) : system.NoFalseNegatives := by
  have bits : system.ring = [] → ∀ pipe i index,
      system.counters pipe i index ≠ 0 → system.bits pipe i index = true := by
    intro drained pipe i index positive
    rcases all pipe i index positive with set | ⟨_, _, pending, _⟩
    · exact set
    · rw [drained] at pending
      cases pending
  have known : system.ring = [] → ∀ fiveTuple : FiveTuple,
      (∀ i, system.counters fiveTuple.pipeIndex i (getHashes fiveTuple.h i) ≠ 0) →
        ∀ i, checkBloom system.bits fiveTuple.pipeIndex (getHashes fiveTuple.h) i = false := by
    intro drained fiveTuple positive i
    unfold checkBloom
    rw [bits drained _ _ _ (positive i)]
    rfl
  refine ⟨bits, known, ?_⟩
  intro drained fiveTuple headers flowId carries isIpv4 positive
  have same : hashCrc headers = getHashes fiveTuple.h := funext (hashCrc_ipv4 carries isIpv4)
  rw [same]
  unfold ingressCopies
  split_ifs with _ _ _ _ unknown <;> try simp
  obtain ⟨i, notIn⟩ := unknown
  rw [known drained fiveTuple positive i] at notIn
  cases notIn

end Steps

/-! ## Runs -/

theorem start_allCovered : start.AllCovered := fun _ _ _ positive => absurd rfl positive

/-- The step function of the runs. -/
def bloomStep (system : BloomSystem) (event : BloomEvent) : Outcome BloomSystem :=
  pure (system.step event)

/-- In every run in which refused puts leave only counters raised that are covered, there is no
false negative whenever the ring is empty. -/
theorem no_false_negatives (events : List BloomEvent)
    (refuses : AllSteps bloomStep RefusesCovered start events) :
    AllStates bloomStep NoFalseNegatives start events := by
  refine AllStates.of_invariant ?_ ?_ start_allCovered refuses
  · intro system event all meets
    exact ⟨_, rfl, all.step meets⟩
  · intro system all
    exact all.noFalseNegatives

/-! ## A flow that may be refused -/

theorem lastFilter_lt : 3 < numBloomfilters := by decide

def lastFilter : Fin numBloomfilters := ⟨3, lastFilter_lt⟩

/-- The zero flow has the first index in the last filter. -/
theorem getHashes_zero_last : getHashes FiveTuple.zero.h lastFilter = 0 := by decide +kernel

theorem zero_pipeIndex : FiveTuple.zero.pipeIndex = 0 := by decide

/-- The zero flow is known, and maintenance has come to a filter at the first index. -/
structure Sweeping (i : Nat) (system : BloomSystem) : Prop where
  pipe : system.sweep.pipe = 0
  index : system.sweep.index = 0
  filter : system.sweep.i = i
  ring : system.ring = []
  bits : ∀ k, system.bits 0 k (getHashes FiveTuple.zero.h k) = true
  counter : system.counters 0 lastFilter 0 = if i ≤ 3 then 1 else 0

/-- The zero flow is made known. -/
def knownRun : List BloomEvent := [.setIrrelevant .zero, .dataplane]

theorem knownRun_sweeping : (knownRun.foldl BloomSystem.step start).Sweeping 0 := by
  have room : start.HasRoom := show 0 < dataplaneRingbufferSize by decide
  have one := fun k : Fin numBloomfilters => @setIrrelevant_counts k start.counters .zero rfl
  rw [zero_pipeIndex] at one
  have zero : start.counters FiveTuple.zero.pipeIndex lastFilter
      (getHashes FiveTuple.zero.h lastFilter) = 0 := rfl
  rcases setIrrelevant_command zero with ⟨indices, command, _⟩
  have first : start.step (.setIrrelevant .zero) =
      { start with
        counters := (bloomFilterSetIrrelevant start.counters .zero).1
        ring := [.addBloomFilter indices FiveTuple.zero.pipeIndex] } := by
    change start.call _ = _
    rw [call_of_room room, command]
    rfl
  have refuses : start.RefusesCovered (.setIrrelevant .zero) := fun full => absurd room full
  have covered := (start_allCovered.step refuses).dataplane
  unfold knownRun
  rw [List.foldl_cons, List.foldl_cons, List.foldl_nil]
  rw [first] at covered ⊢
  refine ⟨rfl, rfl, rfl, rfl, fun k => covered.noFalseNegatives.bits rfl 0 k _ ?_, ?_⟩
  · exact (one k).trans_ne (by decide)
  · have last := one lastFilter
    rw [getHashes_zero_last] at last
    rw [dataplane_counters, if_pos (Nat.zero_le 3)]
    dsimp only
    rw [last]

/-- A pass of maintenance at the first index: it lowers the counter of the last filter. -/
theorem Sweeping.pass {system : BloomSystem} {i : Nat} (sweeping : system.Sweeping i)
    (low : i < numBloomfilters) : (system.step (.maintenance true)).Sweeping (i + 1) := by
  rcases sweeping with ⟨pipe, index, rfl, ring, bits, counter⟩
  have step : system.step (.maintenance true) =
      system.sweepFilter ⟨system.sweep.i, low⟩ true := dif_pos low
  rw [step]
  refine ⟨pipe, index, rfl, ring, bits, ?_⟩
  unfold sweepFilter BloomLoop.pass
  dsimp only
  rw [BloomArray.set_apply, pipe, index]
  unfold numBloomfilters at low
  by_cases last : system.sweep.i = 3
  · have here : lastFilter = ⟨system.sweep.i, low⟩ := Fin.ext last.symm
    rw [if_pos ⟨rfl, here, rfl⟩, ← here, counter, last]
    decide
  · have other : lastFilter ≠ ⟨system.sweep.i, low⟩ := fun here =>
      last (congrArg Fin.val here).symm
    rw [if_neg fun here => other here.2.1, counter, if_pos (by omega), if_pos (by omega)]

/-- Commands of other threads fill the ring, and nothing else changes. -/
theorem crowd (command : DataplaneCommand) (count : Nat) {system : BloomSystem}
    (room : system.ring.length + count ≤ dataplaneRingbufferSize) :
    ∃ ring : List DataplaneCommand, ring.length = system.ring.length + count ∧
      (List.replicate count (.otherPut command)).foldl BloomSystem.step system =
        { system with ring := ring } := by
  induction count generalizing system with
  | zero => exact ⟨system.ring, rfl, rfl⟩
  | succ count ih =>
      have next : system.step (.otherPut command) =
          { system with ring := system.ring ++ [command] } := by
        unfold BloomSystem.step put
        exact if_pos (show system.ring.length < dataplaneRingbufferSize by omega)
      have length : (system.ring ++ [command]).length = system.ring.length + 1 :=
        List.length_append
      rw [List.replicate_succ, List.foldl_cons, next]
      rcases @ih { system with ring := system.ring ++ [command] } (by dsimp only; omega) with
        ⟨ring, count', run⟩
      exact ⟨ring, by dsimp only at count'; omega, run⟩

theorem Sweeping.passes {system : BloomSystem} (sweeping : system.Sweeping 0) {count : Nat}
    (low : count ≤ numBloomfilters) :
    ((List.replicate count (.maintenance true)).foldl BloomSystem.step system).Sweeping count := by
  induction count with
  | zero => exact sweeping
  | succ count ih =>
      rw [List.replicate_succ', List.foldl_append]
      exact (ih (by omega)).pass low

/-- The zero flow is made known, maintenance lowers its counter in the last filter, and other
threads fill the ring. -/
def crowdedRun : List BloomEvent :=
  knownRun ++ List.replicate numBloomfilters (.maintenance true) ++
    List.replicate dataplaneRingbufferSize (.otherPut (.clearRegisters .zero 0))

/-- After it a call for the zero flow is refused, raises a counter from zero, and its bits are
set. -/
theorem crowdedRun_refuses {system : BloomSystem}
    (run : crowdedRun.foldl BloomSystem.step start = system) : ¬ system.HasRoom ∧
      system.counters 0 lastFilter (getHashes FiveTuple.zero.h lastFilter) = 0 ∧
      ∀ i, system.bits 0 i (getHashes FiveTuple.zero.h i) = true := by
  unfold crowdedRun at run
  rw [List.foldl_append, List.foldl_append] at run
  have sweeping := knownRun_sweeping.passes le_rfl
  rcases crowd (.clearRegisters .zero 0) dataplaneRingbufferSize (by rw [sweeping.ring]; rfl) with
    ⟨ring, length, after⟩
  rw [after] at run
  rw [sweeping.ring] at length
  subst run
  refine ⟨?_, ?_, sweeping.bits⟩
  · unfold HasRoom
    rw [length]
    exact lt_irrefl _
  · dsimp only
    rw [getHashes_zero_last, sweeping.counter]
    exact if_neg (by decide)

theorem bloomStep_run (system : BloomSystem) (events : List BloomEvent) :
    events.foldlM bloomStep system = pure (events.foldl BloomSystem.step system) :=
  List.foldlM_pure

theorem Sweeping.meets {system : BloomSystem} {i count : Nat} (sweeping : system.Sweeping i)
    (low : i + count ≤ numBloomfilters) :
    AllSteps bloomStep RefusesCovered system (List.replicate count (.maintenance true)) := by
  induction count generalizing system i with
  | zero => exact True.intro
  | succ count ih =>
      rw [List.replicate_succ]
      refine .cons ?_ rfl (ih (sweeping.pass (by omega)) (by omega))
      intro high
      rw [sweeping.filter] at high
      omega

theorem crowdedRun_meets : AllSteps bloomStep RefusesCovered start crowdedRun := by
  have room : start.HasRoom := show 0 < dataplaneRingbufferSize by decide
  unfold crowdedRun
  refine .append (.append ?_ fun system run => ?_) fun system _ => ?_
  · exact ⟨fun full => absurd room full, fun _ _ => ⟨True.intro, fun _ _ => True.intro⟩⟩
  · rw [bloomStep_run, Exec.pure_inj] at run
    subst run
    exact knownRun_sweeping.meets (Nat.zero_add _).le
  · refine .of_forall fun _ event member => ?_
    rw [List.eq_of_mem_replicate member]
    exact True.intro

/-- The flow is counted again while the ring is full: a counter is raised from zero with no
command for it, and its bit is still set. -/
theorem no_false_negatives_refused :
    (¬ (crowdedRun.foldl BloomSystem.step start).HasRoom ∧
      (crowdedRun.foldl BloomSystem.step start).counters 0 lastFilter
        (getHashes FiveTuple.zero.h lastFilter) = 0) ∧
    AllStates bloomStep NoFalseNegatives start (crowdedRun ++ [.setIrrelevant .zero]) := by
  rcases crowdedRun_refuses rfl with ⟨full, zero, set⟩
  refine ⟨⟨full, zero⟩, no_false_negatives _ ?_⟩
  refine crowdedRun_meets.append fun system run => ⟨fun _ i _ => Or.inl ?_, fun _ _ => True.intro⟩
  rw [bloomStep_run, Exec.pure_inj] at run
  rw [zero_pipeIndex, ← run]
  exact set i

/-! ## A flow that is refused -/

/-- The flows from the zero address and port, one for each destination port. -/
def portFlow (port : Nat) : FiveTuple :=
  { FiveTuple.zero with h := { FiveTuple.zero.h with dstPort := UInt16.ofNat port } }

theorem portFlow_pipeIndex (port : Nat) : (portFlow port).pipeIndex = 0 := by
  change FiveTuple.zero.pipeIndex = 0
  decide

def firstFilter : Fin numBloomfilters := ⟨0, numBloomfilters_pos⟩

/-- Where such a flow is in the first filter. -/
def portIndex (port : Nat) : Nat := getHashes (portFlow port).h firstFilter

/-- The hashed bytes of such a flow. -/
def portData (word : BitVec 16) : List UInt8 :=
  List.replicate 10 0 ++ [⟨(word >>> 8).setWidth 8⟩, ⟨word.setWidth 8⟩]

/-- What a difference in the port makes in the first index. -/
def portDifference (word : BitVec 16) : BitVec 20 :=
  ((portData word).foldl (crcStep firstFilter) 0).setWidth 20

theorem portData_xor (word word' : BitVec 16) :
    List.zipWith (· ^^^ ·) (portData word) (portData word') = portData (word ^^^ word') := by
  unfold portData
  rw [List.zipWith_append rfl, BitVec.ushiftRight_xor_distrib, BitVec.setWidth_xor,
    BitVec.setWidth_xor]
  rfl

theorem length_portData (word word' : BitVec 16) :
    (portData word).length = (portData word').length := rfl

theorem portDifference_linear : XorLinear portDifference := by
  intro word word'
  have loop := crcLoop_xor firstFilter (length_portData word word') 0 0
  rw [portData_xor, BitVec.xor_self] at loop
  unfold portDifference
  rw [← BitVec.setWidth_xor, ← loop]
  rfl

/-- The inverse of `portDifference`. -/
def portRows : List (BitVec 16) :=
  [0x5894#16, 0x7298#16, 0x4758#16, 0x1494#16, 0xea98#16, 0xed7d#16, 0x40df#16, 0x23d6#16,
    0xe5c4#16, 0x0839#16, 0x8a56#16, 0x14ad#16, 0x8b32#16, 0x1665#16, 0x2cca#16, 0x0000#16,
    0x0000#16, 0x61d8#16]

theorem portRows_decode : ∀ i < 16,
    selectRows portRows (portDifference (BitVec.twoPow 16 i)) = BitVec.twoPow 16 i := by
  decide +kernel

theorem littleEndian16_swapEndian16_bits (word : UInt16) :
    littleEndian16 (swapEndian16 word) =
      [⟨(word.toBitVec >>> 8).setWidth 8⟩, ⟨word.toBitVec.setWidth 8⟩] := by
  have high : UInt8.ofNat (word.toNat / 256) = ⟨(word.toBitVec >>> 8).setWidth 8⟩ := by
    apply UInt8.toNat_inj.mp
    change _ = ((word.toBitVec >>> 8).setWidth 8).toNat
    rw [UInt8.toNat_ofNat', BitVec.toNat_setWidth, BitVec.toNat_ushiftRight,
      Nat.shiftRight_eq_div_pow]
    rfl
  have low : UInt8.ofNat word.toNat = ⟨word.toBitVec.setWidth 8⟩ := by
    apply UInt8.toNat_inj.mp
    change _ = (word.toBitVec.setWidth 8).toNat
    rw [UInt8.toNat_ofNat', BitVec.toNat_setWidth]
    rfl
  rw [littleEndian16_swapEndian16, ← high, ← low]
  simp [bigEndian, List.range_succ]

theorem portIndex_eq (port : Nat) :
    portIndex port = cappedHash (crcFn firstFilter (portData (UInt16.ofNat port).toBitVec)) := by
  have data : dpFiveTuple ((portFlow port).h.srcAddr.bytes.toList.take 4)
      ((portFlow port).h.dstAddr.bytes.toList.take 4) (portFlow port).h =
      portData (UInt16.ofNat port).toBitVec := by
    have zeros : (portFlow port).h.srcAddr.bytes.toList.take 4 ++
        (portFlow port).h.dstAddr.bytes.toList.take 4 ++
        littleEndian16 (swapEndian16 (portFlow port).h.srcPort) = List.replicate 10 0 := by
      change List.take 4 (Vector.replicate 16 0).toList ++
        List.take 4 (Vector.replicate 16 0).toList ++ littleEndian16 (swapEndian16 0) = _
      decide
    unfold dpFiveTuple portData
    rw [← littleEndian16_swapEndian16_bits, zeros]
    rfl
  rw [← data]
  rfl

/-- Different ports have different indices. -/
theorem portIndex_inj {port port' : Nat} (small : port < 65536) (small' : port' < 65536)
    (same : portIndex port = portIndex port') : port = port' := by
  rw [portIndex_eq, portIndex_eq, cappedHash_eq_iff, crcFn_xor firstFilter (length_portData _ _),
    portData_xor] at same
  have zero := portDifference_linear.eq_zero_of_decode portRows portRows_decode same
  have words : (UInt16.ofNat port).toNat = (UInt16.ofNat port').toNat :=
    congrArg BitVec.toNat (BitVec.xor_eq_zero_iff.mp zero)
  rwa [UInt16.toNat_ofNat_of_lt' small, UInt16.toNat_ofNat_of_lt' small'] at words

theorem dataplaneRingbufferSize_lt : dataplaneRingbufferSize < 65536 := by decide

/-- The first flows have filled the ring with their additions, and none is executed yet. -/
structure Filled (count : Nat) (system : BloomSystem) : Prop where
  length : system.ring.length = count
  counters : ∀ index, system.counters 0 firstFilter index ≠ 0 → ∃ k < count, index = portIndex k
  commands : ∀ command ∈ system.ring, ∃ indices pipeId, ∃ k < count,
    command = .addBloomFilter indices pipeId ∧ indices.get firstFilter = portIndex k
  bits : ∀ pipe index, system.bits pipe firstFilter index = false

section Refused

variable {system : BloomSystem} {count : Nat}

theorem Filled.fresh (filled : system.Filled count) (small : count < 65536) :
    system.counters (portFlow count).pipeIndex firstFilter
      (getHashes (portFlow count).h firstFilter) = 0 := by
  rw [portFlow_pipeIndex]
  by_contra positive
  obtain ⟨k, before, same⟩ := filled.counters _ positive
  have := portIndex_inj small (by omega) same
  omega

theorem Filled.step (filled : system.Filled count) (room : count < dataplaneRingbufferSize) :
    (system.step (.setIrrelevant (portFlow count))).Filled (count + 1) := by
  have small : count < 65536 := room.trans dataplaneRingbufferSize_lt
  have hasRoom : system.HasRoom := by
    unfold HasRoom
    rw [filled.length]
    exact room
  obtain ⟨indices, command, place⟩ := setIrrelevant_command (filled.fresh small)
  have ring : (system.step (.setIrrelevant (portFlow count))).ring =
      system.ring ++ [.addBloomFilter indices (portFlow count).pipeIndex] := by
    unfold BloomSystem.step
    rw [call_ring hasRoom, command]
    rfl
  refine ⟨?_, ?_, ?_, ?_⟩
  · rw [ring, List.length_append, filled.length]
    rfl
  · intro index positive
    by_cases zero : system.counters 0 firstFilter index = 0
    · unfold BloomSystem.step at positive
      rw [call_counters] at positive
      exact ⟨count, by omega, (setIrrelevant_raises zero positive).2⟩
    · obtain ⟨k, before, same⟩ := filled.counters index zero
      exact ⟨k, by omega, same⟩
  · intro other member
    rw [ring, List.mem_append, List.mem_singleton] at member
    rcases member with member | rfl
    · obtain ⟨indices, pipeId, k, before, same⟩ := filled.commands other member
      exact ⟨indices, pipeId, k, by omega, same⟩
    · exact ⟨indices, _, count, by omega, rfl, place⟩
  · intro pipe index
    unfold BloomSystem.step
    rw [call_bits]
    exact filled.bits pipe index

theorem start_filled : start.Filled 0 where
  length := rfl
  counters _ positive := absurd rfl positive
  commands _ member := nomatch member
  bits _ _ := rfl

/-- The calls for the first flows. -/
def portCalls (count : Nat) : List BloomEvent :=
  (List.range count).map fun port => .setIrrelevant (portFlow port)

theorem filled_portCalls (count : Nat) (room : count ≤ dataplaneRingbufferSize) :
    ((portCalls count).foldl BloomSystem.step start).Filled count := by
  induction count with
  | zero => exact start_filled
  | succ count ih =>
      unfold portCalls
      rw [List.range_succ, List.map_append, List.foldl_append]
      exact (ih (by omega)).step (by omega)

/-- Executing everything in the ring. -/
theorem foldl_dataplane (ring : List DataplaneCommand) :
    ∀ {system : BloomSystem}, system.ring = ring →
      (List.replicate ring.length BloomEvent.dataplane).foldl BloomSystem.step system =
        { system with ring := [], bits := ring.foldl execute system.bits } := by
  induction ring with
  | nil =>
      intro system isRing
      rw [List.length_nil, List.replicate_zero, List.foldl_nil, List.foldl_nil, ← isRing]
  | cons command ring ih =>
      intro system isRing
      have next : system.step .dataplane =
          { system with ring := ring, bits := execute system.bits command } := by
        unfold BloomSystem.step
        rw [isRing]
      rw [List.length_cons, List.replicate_succ, List.foldl_cons, next, ih rfl]
      rfl

/-- Additions with other indices leave a bit as it is. -/
theorem foldl_execute {pipe index : Nat} {i : Fin numBloomfilters} (ring : List DataplaneCommand)
    (others : ∀ command ∈ ring, ∃ indices pipeId,
      command = .addBloomFilter indices pipeId ∧ indices.get i ≠ index) :
    ∀ bits : BloomBits, ring.foldl execute bits pipe i index = bits pipe i index := by
  induction ring with
  | nil =>
      intro bits
      rfl
  | cons command ring ih =>
      intro bits
      obtain ⟨indices, pipeId, rfl, other⟩ := others command List.mem_cons_self
      rw [List.foldl_cons, ih fun command member => others command (List.mem_cons_of_mem _ member)]
      change switchWriteBloomFilter _ _ _ _ _ _ _ = _
      rw [switchWriteBloomFilter_apply, if_neg fun here => other here.2]

/-- One flow more is counted, and nothing else changes. -/
theorem Filled.refused (filled : system.Filled dataplaneRingbufferSize) :
    ∃ system', system.step (.setIrrelevant (portFlow dataplaneRingbufferSize)) = system' ∧
      system'.ring = system.ring ∧ system'.bits = system.bits ∧
      system'.counters 0 firstFilter (portIndex dataplaneRingbufferSize) ≠ 0 := by
  have full : ¬ system.HasRoom := by
    unfold HasRoom
    rw [filled.length]
    exact lt_irrefl _
  have one := setIrrelevant_counts (filled.fresh dataplaneRingbufferSize_lt)
  rw [portFlow_pipeIndex] at one
  refine ⟨_, rfl, call_ring_of_full full, call_bits, ?_⟩
  unfold BloomSystem.step
  rw [call_counters]
  intro zero
  unfold portIndex at zero
  rw [one] at zero
  exact absurd zero (by decide)

end Refused

/-- As many flows as the ring has places, one more, and everything executed. -/
@[irreducible] def refusedRun : List BloomEvent :=
  portCalls dataplaneRingbufferSize ++ [.setIrrelevant (portFlow dataplaneRingbufferSize)] ++
    List.replicate dataplaneRingbufferSize .dataplane

/-- The last of these flows is counted and not known. -/
theorem false_negative : ¬ AllStates bloomStep NoFalseNegatives start refusedRun := by
  intro states
  have last := states.last
  unfold refusedRun at last
  rw [List.foldl_append, List.foldl_append] at last
  have filled := filled_portCalls dataplaneRingbufferSize le_rfl
  generalize (portCalls dataplaneRingbufferSize).foldl BloomSystem.step start = system at filled last
  obtain ⟨system', refused, ring, bits, positive⟩ := filled.refused
  rw [List.foldl_cons, List.foldl_nil, refused] at last
  have others : ∀ command ∈ system'.ring, ∃ indices pipeId,
      command = .addBloomFilter indices pipeId ∧
        indices.get firstFilter ≠ portIndex dataplaneRingbufferSize := by
    intro command member
    rw [ring] at member
    obtain ⟨indices, pipeId, k, before, isAdd, place⟩ := filled.commands command member
    refine ⟨indices, pipeId, isAdd, ?_⟩
    intro same
    rw [place, Nat.cast_inj] at same
    have := portIndex_inj (before.trans dataplaneRingbufferSize_lt) dataplaneRingbufferSize_lt same
    omega
  have length : system'.ring.length = dataplaneRingbufferSize := by rw [ring, filled.length]
  rw [← length, foldl_dataplane _ rfl] at last
  have set := last.bits rfl 0 firstFilter (portIndex dataplaneRingbufferSize) positive
  dsimp only at set
  rw [foldl_execute _ others, bits, filled.bits] at set
  cases set

end BloomSystem

end Marina
