import Marina.Crc
import Marina.Lib.Bytes
import Marina.Lib.Slices

/-!
# The bloom filter of the controller

`controller/datastructures/bloom_filter.c` counts, for every pipe, filter and index, the
irrelevant UDP flows that hash there; the data plane has one bit for each counter. The
three operations walk over the four filters, change one counter of each, and send a
command with one index per filter when some bit may have to change.

`switch_write_bloom_filter` skips negative indices. The operations never write one: a
filter that needs no write is left with the index the command object happens to hold.
`bloomCommands_touch_meant_bits_iff` shows that a command is right only when all four
filters need a write.
-/

namespace Marina

open Lib

/-! ## Indices -/

def bloomfilterBits : Nat := 20

/-- `BLOOMFILTER_WIDTH`. -/
def bloomfilterWidth : Nat := 1048576

/-- `dp_five_tuple_t`, as the bytes that are hashed. -/
def dpFiveTuple (srcAddr dstAddr : List UInt8) (h : FiveTupleForHash) : List UInt8 :=
  srcAddr ++ dstAddr ++ littleEndian16 (swapEndian16 h.srcPort) ++
    littleEndian16 (swapEndian16 h.dstPort)

def mkIpv4Hash (h : FiveTupleForHash) (i : Fin numBloomfilters) : Nat :=
  (crcFn i (dpFiveTuple (h.srcAddr.bytes.toList.take 4) (h.dstAddr.bytes.toList.take 4) h)).toNat %
    bloomfilterWidth

theorem numBloomfilters_pos : 0 < numBloomfilters := by decide

/-- `crc_fn[0]`, which also stands in for the addresses of IPv6. -/
def crc32Normal (data : List UInt8) : BitVec 32 := crcFn ⟨0, numBloomfilters_pos⟩ data

def mkIpv6Hash (h : FiveTupleForHash) (i : Fin numBloomfilters) : Nat :=
  (crcFn i (dpFiveTuple (littleEndian32 (crc32Normal h.srcAddr.bytes.toList))
    (littleEndian32 (crc32Normal h.dstAddr.bytes.toList)) h)).toNat % bloomfilterWidth

def getHashes (h : FiveTupleForHash) : Fin numBloomfilters → Nat :=
  match h.l3Proto with
  | .ipv4 => mkIpv4Hash h
  | .ipv6 => mkIpv6Hash h

/-! ## Counters and commands -/

/-- An array over the pipes, the filters and the indices. -/
abbrev BloomArray (α : Type) : Type := Nat → Fin numBloomfilters → Nat → α

def BloomArray.set {α : Type} (array : BloomArray α) (pipe : Nat) (i : Fin numBloomfilters)
    (index : Nat) (value : α) : BloomArray α :=
  Function.update array pipe
    (Function.update (array pipe) i (Function.update (array pipe i) index value))

/-- `bloom_filter.entries`: the counter of every pipe, filter and index. -/
abbrev BloomCounters : Type := BloomArray UInt16

/-- `bloom_filter_init`. -/
def bloomFilterInit : BloomCounters := fun _ _ _ => 0

/-- The variables of a loop over the filters: the counters, the indices in the command, and
whether there is something to send. -/
structure BloomLoop where
  counters : BloomCounters
  indices : Fin numBloomfilters → Int
  send : Bool

/-- One pass of such a loop: `rule` says what becomes of the counter of the filter, and
whether its index is written into the command. -/
def BloomLoop.pass (pipe : Nat) (place : Fin numBloomfilters → Nat)
    (rule : Fin numBloomfilters → UInt16 → UInt16 × Bool) (loop : BloomLoop)
    (i : Fin numBloomfilters) : BloomLoop :=
  let (value, marked) := rule i (loop.counters pipe i (place i))
  { counters := BloomArray.set loop.counters pipe i (place i) value
    indices := if marked then Function.update loop.indices i (place i) else loop.indices
    send := loop.send || marked }

/-- The loop over all filters. -/
def BloomLoop.run (pipe : Nat) (place : Fin numBloomfilters → Nat)
    (rule : Fin numBloomfilters → UInt16 → UInt16 × Bool) (loop : BloomLoop) : BloomLoop :=
  (List.finRange numBloomfilters).foldl (BloomLoop.pass pipe place rule) loop

/-- `(*entry)++`, and a write when the counter is `1` afterwards. -/
def irrelevantRule (_ : Fin numBloomfilters) (entry : UInt16) : UInt16 × Bool :=
  (entry + 1, entry + 1 == 1)

/-- The counter stays, with a write when it is `0`. -/
def relevantRule (_ : Fin numBloomfilters) (entry : UInt16) : UInt16 × Bool :=
  (entry, entry == 0)

/-- A chosen counter is decremented, with a write when it was `1`. -/
def maintenanceRule (chosen : Fin numBloomfilters → Bool) (i : Fin numBloomfilters)
    (entry : UInt16) : UInt16 × Bool :=
  if chosen i then
    if entry = 0 then (entry, false)
    else if 1 < entry then (entry - 1, false)
    else (entry - 1, true)
  else
    (entry, false)

/-- The indices of a command object that only its other fields are initialised of. -/
def zeroIndices : Fin numBloomfilters → Int := fun _ => 0

/-- The pipe of a packet, as an index of the arrays. -/
def FiveTuple.pipeIndex (fiveTuple : FiveTuple) : Nat := fiveTuple.devPort.toNat / 128

/-- `bloom_filter_set_irrelevant`: the counters after it, and the command it puts. -/
def bloomFilterSetIrrelevant (counters : BloomCounters) (fiveTuple : FiveTuple) :
    BloomCounters × Option DataplaneCommand :=
  let loop := BloomLoop.run fiveTuple.pipeIndex (getHashes fiveTuple.h) irrelevantRule
    ⟨counters, zeroIndices, false⟩
  (loop.counters,
    if loop.send then some (.addBloomFilter (Vector.ofFn loop.indices) fiveTuple.pipeIndex)
    else none)

/-- `bloom_filter_set_relevant`. -/
def bloomFilterSetRelevant (counters : BloomCounters) (fiveTuple : FiveTuple) :
    BloomCounters × Option DataplaneCommand :=
  let loop := BloomLoop.run fiveTuple.pipeIndex (getHashes fiveTuple.h) relevantRule
    ⟨counters, zeroIndices, false⟩
  (loop.counters,
    if loop.send then some (.removeBloomFilter (Vector.ofFn loop.indices) fiveTuple.pipeIndex)
    else none)

/-- One index of a sweep of `bloom_filter_maintenance`: which pipe and index it is, and for
which filters `random()` falls below the threshold. -/
structure SweepStep where
  pipe : Nat
  index : Nat
  chosen : Fin numBloomfilters → Bool

/-- The part of `bloom_filter_maintenance` before the put, with the indices that the command
object holds from before. -/
def bloomFilterMaintenance (counters : BloomCounters) (indices : Fin numBloomfilters → Int)
    (step : SweepStep) : BloomLoop :=
  BloomLoop.run step.pipe (fun _ => step.index) (maintenanceRule step.chosen)
    ⟨counters, indices, false⟩

/-- The command that is put for one index of a sweep. -/
def BloomLoop.removal (loop : BloomLoop) (pipe : Nat) : Option DataplaneCommand :=
  if loop.send then some (.removeBloomFilter (Vector.ofFn loop.indices) pipe) else none

/-- What the command object holds after some steps of a sweep. Other threads may change the
counters between them. -/
def sweepIndices : List (BloomCounters × SweepStep) → Fin numBloomfilters → Int
  | [] => zeroIndices
  | (counters, step) :: earlier =>
      (bloomFilterMaintenance counters (sweepIndices earlier) step).indices

/-! ## The data plane -/

/-- The bit of every pipe, filter and index. -/
abbrev BloomBits : Type := BloomArray Bool

/-- `switch_write_bloom_filter`, with every write succeeding. -/
def switchWriteBloomFilter (bits : BloomBits) (pipeId : Nat) (indices : Vector Int numBloomfilters)
    (value : Bool) : BloomBits :=
  (List.finRange numBloomfilters).foldl
    (fun bits i =>
      if 0 ≤ indices.get i then BloomArray.set bits pipeId i (indices.get i).toNat value else bits)
    bits

/-! ## What the loops do -/

theorem BloomArray.set_apply {α : Type} (array : BloomArray α) (pipe : Nat)
    (i k : Fin numBloomfilters) (index p j : Nat) (value : α) :
    BloomArray.set array pipe i index value p k j =
      if p = pipe ∧ k = i ∧ j = index then value else array p k j := by
  unfold BloomArray.set
  by_cases samePipe : p = pipe
  · subst samePipe
    by_cases sameFilter : k = i
    · subst sameFilter
      simp [Function.update_apply]
    · simp [sameFilter]
  · simp [samePipe]

section Loop

variable {pipe : Nat} {place : Fin numBloomfilters → Nat}
  {rule : Fin numBloomfilters → UInt16 → UInt16 × Bool}

/-- The part of the loop variables that belongs to one filter. -/
def BloomLoop.slice (loop : BloomLoop) (i : Fin numBloomfilters) : (Nat → Nat → UInt16) × Int :=
  (fun p j => loop.counters p i j, loop.indices i)

/-- What a pass makes of its own slice. -/
def BloomLoop.change (pipe : Nat) (place : Fin numBloomfilters → Nat)
    (rule : Fin numBloomfilters → UInt16 → UInt16 × Bool) (i : Fin numBloomfilters)
    (slice : (Nat → Nat → UInt16) × Int) : (Nat → Nat → UInt16) × Int :=
  (fun p j => if p = pipe ∧ j = place i then (rule i (slice.1 pipe (place i))).1 else slice.1 p j,
    if (rule i (slice.1 pipe (place i))).2 then place i else slice.2)

theorem BloomLoop.slice_pass_self (loop : BloomLoop) (i : Fin numBloomfilters) :
    (loop.pass pipe place rule i).slice i = BloomLoop.change pipe place rule i (loop.slice i) := by
  unfold BloomLoop.slice BloomLoop.change BloomLoop.pass
  refine Prod.ext ?_ ?_
  · funext p j
    simp only [BloomArray.set_apply, true_and]
  · dsimp only
    split <;> simp

theorem BloomLoop.slice_pass_of_ne (loop : BloomLoop) (i k : Fin numBloomfilters) (other : k ≠ i) :
    (loop.pass pipe place rule i).slice k = loop.slice k := by
  unfold BloomLoop.slice BloomLoop.pass
  refine Prod.ext ?_ ?_
  · funext p j
    simp [BloomArray.set_apply, other]
  · dsimp only
    split <;> simp [other]

theorem BloomLoop.slice_run (loop : BloomLoop) (i : Fin numBloomfilters) :
    (loop.run pipe place rule).slice i = BloomLoop.change pipe place rule i (loop.slice i) :=
  foldl_finRange_slice BloomLoop.slice (BloomLoop.change pipe place rule)
    BloomLoop.slice_pass_self BloomLoop.slice_pass_of_ne loop i

/-- Each filter has its one counter changed. -/
theorem BloomLoop.run_counters (loop : BloomLoop) (p : Nat) (i : Fin numBloomfilters) (j : Nat) :
    (loop.run pipe place rule).counters p i j =
      if p = pipe ∧ j = place i then (rule i (loop.counters pipe i (place i))).1
      else loop.counters p i j :=
  congrFun (congrFun (congrArg Prod.fst (loop.slice_run i)) p) j

/-- The filters that need no write keep what the command object held. -/
theorem BloomLoop.run_indices (loop : BloomLoop) (i : Fin numBloomfilters) :
    (loop.run pipe place rule).indices i =
      if (rule i (loop.counters pipe i (place i))).2 then (place i : Int) else loop.indices i :=
  congrArg Prod.snd (loop.slice_run i)

/-- Something is sent when some filter needs a write. -/
theorem BloomLoop.run_send (loop : BloomLoop) :
    (loop.run pipe place rule).send = true ↔
      loop.send = true ∨ ∃ i, (rule i (loop.counters pipe i (place i))).2 = true := by
  have partly : ∀ (l : List (Fin numBloomfilters)) (loop : BloomLoop), l.Nodup →
      ((l.foldl (BloomLoop.pass pipe place rule) loop).send = true ↔
        loop.send = true ∨ ∃ i ∈ l, (rule i (loop.counters pipe i (place i))).2 = true) := by
    intro l
    induction l with
    | nil =>
        intro loop _
        simp
    | cons i l ih =>
        intro loop distinct
        rw [List.nodup_cons] at distinct
        have kept : ∀ k ∈ l, (loop.pass pipe place rule i).counters pipe k (place k) =
            loop.counters pipe k (place k) := by
          intro k member
          have other : k ≠ i := fun same => distinct.1 (same ▸ member)
          exact congrFun (congrFun (congrArg Prod.fst (loop.slice_pass_of_ne i k other)) pipe) _
        have here : (loop.pass pipe place rule i).send =
            (loop.send || (rule i (loop.counters pipe i (place i))).2) := rfl
        rw [List.foldl_cons, ih _ distinct.2, here, Bool.or_eq_true, or_assoc,
          List.exists_mem_cons_iff]
        refine or_congr_right (or_congr_right ⟨?_, ?_⟩)
        · intro given
          rcases given with ⟨k, member, marked⟩
          exact ⟨k, member, kept k member ▸ marked⟩
        · intro given
          rcases given with ⟨k, member, marked⟩
          exact ⟨k, member, (kept k member).symm ▸ marked⟩
  have whole := partly (List.finRange numBloomfilters) loop (List.nodup_finRange _)
  simp only [List.mem_finRange, true_and] at whole
  exact whole

end Loop

/-- The bits that a command writes: one of each filter with an index that is not negative. -/
theorem switchWriteBloomFilter_apply (bits : BloomBits) (pipeId : Nat)
    (indices : Vector Int numBloomfilters) (value : Bool) (p : Nat) (i : Fin numBloomfilters)
    (j : Nat) :
    switchWriteBloomFilter bits pipeId indices value p i j =
      if p = pipeId ∧ indices.get i = j then value else bits p i j := by
  -- The pass of a filter writes a bit of that filter only.
  let pass : BloomBits → Fin numBloomfilters → BloomBits := fun bits i =>
    if 0 ≤ indices.get i then BloomArray.set bits pipeId i (indices.get i).toNat value else bits
  let slice : BloomBits → Fin numBloomfilters → Nat → Nat → Bool := fun bits i p j => bits p i j
  let change : Fin numBloomfilters → (Nat → Nat → Bool) → Nat → Nat → Bool := fun i slice p j =>
    if p = pipeId ∧ indices.get i = j then value else slice p j
  have own : ∀ bits i, slice (pass bits i) i = change i (slice bits i) := by
    intro bits i
    funext p j
    dsimp only [slice, pass, change]
    by_cases written : 0 ≤ indices.get i
    · have index : j = (indices.get i).toNat ↔ indices.get i = j := by omega
      simp only [if_pos written, BloomArray.set_apply, true_and, index]
    · have skipped : indices.get i ≠ j := by omega
      simp only [if_neg written, skipped, and_false, if_false]
  have other : ∀ bits i k, k ≠ i → slice (pass bits i) k = slice bits k := by
    intro bits i k ne
    funext p j
    dsimp only [slice, pass]
    split
    · simp only [BloomArray.set_apply, ne, false_and, and_false, if_false]
    · rfl
  exact congrFun (congrFun (foldl_finRange_slice slice change own other bits i) p) j

/-! ## Commands touch the bits they mean -/

/-- A call of one of the three operations. A sweep has some steps behind it, whose counters
may have been changed by others in between. -/
inductive BloomRequest
  | setIrrelevant (fiveTuple : FiveTuple)
  | setRelevant (fiveTuple : FiveTuple)
  | maintenance (earlier : List (BloomCounters × SweepStep)) (step : SweepStep)

/-- The counters after the call, and the command it puts. -/
def BloomRequest.serve (counters : BloomCounters) :
    BloomRequest → BloomCounters × Option DataplaneCommand
  | .setIrrelevant fiveTuple => bloomFilterSetIrrelevant counters fiveTuple
  | .setRelevant fiveTuple => bloomFilterSetRelevant counters fiveTuple
  | .maintenance earlier step =>
      let loop := bloomFilterMaintenance counters (sweepIndices earlier) step
      (loop.counters, loop.removal step.pipe)

/-- The bit of the filter has to be set for the flow, is cleared for it, or is cleared because
its last flow is forgotten. -/
def BloomRequest.Needs (counters : BloomCounters) :
    BloomRequest → Fin numBloomfilters → Prop
  | .setIrrelevant fiveTuple, i =>
      counters fiveTuple.pipeIndex i (getHashes fiveTuple.h i) = 0
  | .setRelevant fiveTuple, i =>
      counters fiveTuple.pipeIndex i (getHashes fiveTuple.h i) = 0
  | .maintenance _ step, i => step.chosen i = true ∧ counters step.pipe i step.index = 1

/-- The command of a call means every bit it touches. -/
structure TouchesMeantBits (counters : BloomCounters) (request : BloomRequest) : Prop where
  /-- Executing an addition sets no bit whose counter is zero. -/
  sets : ∀ indices pipeId,
    (request.serve counters).2 = some (.addBloomFilter indices pipeId) →
    ∀ bits p i j, bits p i j = false →
      switchWriteBloomFilter bits pipeId.toNat indices true p i j = true →
      (request.serve counters).1 p i j ≠ 0
  /-- A removal names counters that are zero. -/
  clears : ∀ indices pipeId,
    (request.serve counters).2 = some (.removeBloomFilter indices pipeId) →
    ∀ i, 0 ≤ indices.get i →
      (request.serve counters).1 pipeId.toNat i (indices.get i).toNat = 0
  /-- A filter that needs no write carries a negative index. -/
  skips : ∀ indices pipeId,
    (request.serve counters).2 = some (.addBloomFilter indices pipeId) ∨
      (request.serve counters).2 = some (.removeBloomFilter indices pipeId) →
    ∀ i, ¬ request.Needs counters i → indices.get i < 0

/-! ### The three operations as one loop -/

/-- The pipe and the index of each filter that a call is about. -/
def BloomRequest.pipe : BloomRequest → Nat
  | .setIrrelevant fiveTuple => fiveTuple.pipeIndex
  | .setRelevant fiveTuple => fiveTuple.pipeIndex
  | .maintenance _ step => step.pipe

def BloomRequest.place : BloomRequest → Fin numBloomfilters → Nat
  | .setIrrelevant fiveTuple => getHashes fiveTuple.h
  | .setRelevant fiveTuple => getHashes fiveTuple.h
  | .maintenance _ step => fun _ => step.index

/-- What the command object holds before the loop. -/
def BloomRequest.held : BloomRequest → Fin numBloomfilters → Int
  | .setIrrelevant _ => zeroIndices
  | .setRelevant _ => zeroIndices
  | .maintenance earlier _ => sweepIndices earlier

def BloomRequest.rule : BloomRequest → Fin numBloomfilters → UInt16 → UInt16 × Bool
  | .setIrrelevant _ => irrelevantRule
  | .setRelevant _ => relevantRule
  | .maintenance _ step => maintenanceRule step.chosen

/-- The variables at the end of the loop of a call. -/
def BloomRequest.loop (counters : BloomCounters) (request : BloomRequest) : BloomLoop :=
  BloomLoop.run request.pipe request.place request.rule ⟨counters, request.held, false⟩

/-- The put of a call, as an addition or a removal. -/
def BloomRequest.command (indices : Vector Int numBloomfilters) : BloomRequest → DataplaneCommand
  | .setIrrelevant fiveTuple => .addBloomFilter indices fiveTuple.pipeIndex
  | .setRelevant fiveTuple => .removeBloomFilter indices fiveTuple.pipeIndex
  | .maintenance _ step => .removeBloomFilter indices step.pipe

theorem BloomRequest.serve_eq (counters : BloomCounters) (request : BloomRequest) :
    request.serve counters = ((request.loop counters).counters,
      if (request.loop counters).send then
        some (request.command (Vector.ofFn (request.loop counters).indices))
      else none) := by
  cases request <;> rfl

/-- The indices in the object of a sweep are never negative. -/
theorem sweepIndices_nonneg (earlier : List (BloomCounters × SweepStep))
    (i : Fin numBloomfilters) : 0 ≤ sweepIndices earlier i := by
  induction earlier with
  | nil => exact le_rfl
  | cons head earlier ih =>
      unfold sweepIndices bloomFilterMaintenance
      rw [BloomLoop.run_indices]
      split
      · exact Int.natCast_nonneg _
      · exact ih

section Request

variable {counters : BloomCounters} {request : BloomRequest} {i : Fin numBloomfilters}

theorem BloomRequest.held_nonneg : 0 ≤ request.held i := by
  cases request with
  | setIrrelevant fiveTuple => exact le_rfl
  | setRelevant fiveTuple => exact le_rfl
  | maintenance earlier step => exact sweepIndices_nonneg earlier i

/-- The loop marks the filters that need a write. -/
theorem BloomRequest.rule_marks :
    (request.rule i (counters request.pipe i (request.place i))).2 = true ↔
      request.Needs counters i := by
  cases request with
  | setIrrelevant fiveTuple =>
      change (_ + 1 == 1) = true ↔ _ = (0 : UInt16)
      rw [beq_iff_eq]
      exact add_eq_right
  | setRelevant fiveTuple =>
      change (_ == 0) = true ↔ _ = (0 : UInt16)
      exact beq_iff_eq
  | maintenance earlier step =>
      change (maintenanceRule step.chosen i (counters step.pipe i step.index)).2 = true ↔
        step.chosen i = true ∧ counters step.pipe i step.index = 1
      generalize counters step.pipe i step.index = entry
      unfold maintenanceRule
      split <;> rename_i chosen
      · split_ifs with zero many
        · simp [zero]
        · have : entry ≠ 1 := fun one => absurd (one ▸ many) (by decide)
          simp [this]
        · have : entry = 1 := by
            rw [← UInt16.toNat_inj] at zero ⊢
            rw [UInt16.lt_iff_toNat_lt] at many
            change entry.toNat ≠ 0 at zero
            change ¬ 1 < entry.toNat at many
            change entry.toNat = 1
            omega
          simp [this, chosen]
      · simp [chosen]

/-- A command is put when some filter needs a write. -/
theorem BloomRequest.loop_send :
    (request.loop counters).send = true ↔ ∃ i, request.Needs counters i := by
  unfold BloomRequest.loop
  rw [BloomLoop.run_send]
  simp only [BloomRequest.rule_marks, Bool.false_eq_true, false_or]

theorem BloomRequest.loop_indices_of_needs (needs : request.Needs counters i) :
    (request.loop counters).indices i = request.place i := by
  unfold BloomRequest.loop
  rw [BloomLoop.run_indices, if_pos (BloomRequest.rule_marks.mpr needs)]

/-- A filter that needs no write keeps what the object held. -/
theorem BloomRequest.loop_indices_of_not (settled : ¬ request.Needs counters i) :
    (request.loop counters).indices i = request.held i := by
  unfold BloomRequest.loop
  rw [BloomLoop.run_indices, if_neg (settled ∘ BloomRequest.rule_marks.mp)]

/-- A counter whose bit is set is one, a counter whose bit is cleared is zero. -/
theorem BloomRequest.loop_counters_of_needs (needs : request.Needs counters i) :
    (request.loop counters).counters request.pipe i (request.place i) =
      match request with
      | .setIrrelevant _ => 1
      | _ => 0 := by
  unfold BloomRequest.loop
  rw [BloomLoop.run_counters, if_pos ⟨rfl, rfl⟩]
  cases request with
  | setIrrelevant fiveTuple =>
      have zero : counters fiveTuple.pipeIndex i (getHashes fiveTuple.h i) = 0 := needs
      change counters fiveTuple.pipeIndex i (getHashes fiveTuple.h i) + 1 = 1
      rw [zero]
      rfl
  | setRelevant fiveTuple => exact needs
  | maintenance earlier step =>
      obtain ⟨chosen, one⟩ := needs
      change (maintenanceRule step.chosen i (counters step.pipe i step.index)).1 = 0
      rw [one]
      unfold maintenanceRule
      rw [if_pos chosen]
      rfl

/-- The indices that the command of a call carries. -/
theorem BloomRequest.get_indices :
    (Vector.ofFn (request.loop counters).indices).get i = (request.loop counters).indices i :=
  Vector.getElem_ofFn i.isLt

/-- The command of a call with a filter that needs a write. -/
theorem BloomRequest.serve_of_needs (needs : request.Needs counters i) :
    (request.serve counters).2 =
      some (request.command (Vector.ofFn (request.loop counters).indices)) := by
  rw [BloomRequest.serve_eq]
  exact if_pos (BloomRequest.loop_send.mpr ⟨i, needs⟩)

/-- A filter without need of a write makes the command of the others wrong. -/
theorem not_touchesMeantBits {k : Fin numBloomfilters} (needs : request.Needs counters i)
    (settled : ¬ request.Needs counters k) : ¬ TouchesMeantBits counters request := by
  intro touches
  have sent := BloomRequest.serve_of_needs needs
  have negative : request.held k < 0 := by
    rw [← BloomRequest.loop_indices_of_not settled, ← BloomRequest.get_indices]
    cases request with
    | setIrrelevant fiveTuple => exact touches.skips _ _ (Or.inl sent) k settled
    | setRelevant fiveTuple => exact touches.skips _ _ (Or.inr sent) k settled
    | maintenance earlier step => exact touches.skips _ _ (Or.inr sent) k settled
  exact absurd negative (not_lt.mpr BloomRequest.held_nonneg)

/-- Without a command there is nothing to touch. -/
theorem touchesMeantBits_of_none (settled : ∀ i, ¬ request.Needs counters i) :
    TouchesMeantBits counters request := by
  have quiet : (request.serve counters).2 = none := by
    rw [BloomRequest.serve_eq]
    apply if_neg
    rw [BloomRequest.loop_send]
    exact fun ⟨i, needs⟩ => settled i needs
  constructor
  · intro indices pipeId sent
    rw [quiet] at sent
    cases sent
  · intro indices pipeId sent
    rw [quiet] at sent
    cases sent
  · intro indices pipeId sent
    rw [quiet] at sent
    rcases sent with sent | sent <;> cases sent

/-- When every filter needs a write, the command carries the four indices of the call. -/
theorem touchesMeantBits_of_all (needs : ∀ i, request.Needs counters i) :
    TouchesMeantBits counters request := by
  have index : ∀ i, (Vector.ofFn (request.loop counters).indices).get i = request.place i :=
    fun i => BloomRequest.get_indices.trans (BloomRequest.loop_indices_of_needs (needs i))
  have sent := BloomRequest.serve_of_needs (needs ⟨0, by decide⟩)
  have after : (request.serve counters).1 = (request.loop counters).counters := by
    rw [BloomRequest.serve_eq]
  constructor
  · intro indices pipeId put bits p i j clear written
    rw [sent] at put
    cases request with
    | setIrrelevant fiveTuple =>
        cases put
        rw [switchWriteBloomFilter_apply, index] at written
        split at written
        · rename_i here
          obtain ⟨samePipe, place⟩ := here
          have place : (BloomRequest.setIrrelevant fiveTuple).place i = j := by exact_mod_cast place
          subst place samePipe
          rw [after]
          intro zero
          have one : (1 : UInt16) = 0 :=
            (BloomRequest.loop_counters_of_needs (needs i)).symm.trans zero
          exact absurd one (by decide)
        · rw [clear] at written
          cases written
    | setRelevant fiveTuple => cases put
    | maintenance earlier step => cases put
  · intro indices pipeId put i _
    rw [sent] at put
    rw [after]
    cases request with
    | setIrrelevant fiveTuple => cases put
    | setRelevant fiveTuple =>
        cases put
        rw [index]
        exact BloomRequest.loop_counters_of_needs (needs i)
    | maintenance earlier step =>
        cases put
        rw [index]
        exact BloomRequest.loop_counters_of_needs (needs i)
  · intro indices pipeId _ i settled
    exact absurd (needs i) settled

end Request

/-- The command of a call touches only the bits it means, exactly when all four filters need
a write or none does. -/
theorem bloomCommands_touch_meant_bits_iff (counters : BloomCounters) (request : BloomRequest) :
    TouchesMeantBits counters request ↔
      (∀ i, request.Needs counters i) ∨ (∀ i, ¬ request.Needs counters i) := by
  constructor
  · intro touches
    by_contra mixed
    rw [not_or, not_forall, not_forall] at mixed
    obtain ⟨⟨k, settled⟩, i, needs⟩ := mixed
    exact not_touchesMeantBits (not_not.mp needs) settled touches
  · intro given
    rcases given with needs | settled
    · exact touchesMeantBits_of_all needs
    · exact touchesMeantBits_of_none settled

/-- Counters of a flow that shares all of them but the first with another flow. -/
def sharedCounters (fiveTuple : FiveTuple) : BloomCounters := fun pipe i index =>
  if i.val ≠ 0 ∧ pipe = fiveTuple.pipeIndex ∧ index = getHashes fiveTuple.h i then 1 else 0

theorem sharedCounters_of_ne {fiveTuple : FiveTuple} {pipe index : Nat} {i : Fin numBloomfilters}
    (elsewhere : index ≠ getHashes fiveTuple.h i) : sharedCounters fiveTuple pipe i index = 0 :=
  if_neg fun here => elsewhere here.2.2

/-- For such a flow, the command sets the bit `0` of the second filter, which no flow has. -/
theorem bloomCommand_touches_other_bit :
    ¬ TouchesMeantBits (sharedCounters .zero) (.setIrrelevant .zero) := by
  intro touches
  have needs : (BloomRequest.setIrrelevant .zero).Needs (sharedCounters .zero) ⟨0, by decide⟩ :=
    if_neg (by simp)
  have settled : ¬ (BloomRequest.setIrrelevant .zero).Needs (sharedCounters .zero)
      ⟨1, by decide⟩ := by
    change ¬ (if _ then 1 else 0 : UInt16) = 0
    rw [if_pos ⟨by decide, rfl, rfl⟩]
    decide
  have elsewhere : 0 ≠ getHashes FiveTuple.zero.h ⟨1, by decide⟩ := by decide +kernel
  refine touches.sets _ _ (BloomRequest.serve_of_needs needs) (fun _ _ _ => false) 0
    ⟨1, by decide⟩ 0 rfl ?_ ?_
  · rw [switchWriteBloomFilter_apply, if_pos]
    refine ⟨rfl, ?_⟩
    rw [BloomRequest.get_indices, BloomRequest.loop_indices_of_not settled]
    rfl
  · rw [BloomRequest.serve_eq]
    dsimp only [BloomRequest.loop]
    rw [BloomLoop.run_counters, if_neg fun here => elsewhere here.2]
    dsimp only
    exact sharedCounters_of_ne elsewhere

end Marina
