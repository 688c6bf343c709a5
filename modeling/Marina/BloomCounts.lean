import Marina.FalseNegatives

/-!
# What the counters of the bloom filter count

A counter should be the number of irrelevant flows that were hashed to it less the number of
times it has aged. `BloomBooks` keeps these two beside the counters, over any sequence of
calls of `bloom_filter_set_irrelevant` and steps of `bloom_filter_maintenance`, where a step
handles one index and its put is accepted or refused.

When the put is refused, the step raises one counter of each filter again: the one at the
index in the command. A filter that the step did not take to zero has an index there that an
earlier step left, so that a counter is raised which was never lowered. The other way to lose
count is that a counter of sixteen bits is raised past its largest value.
`bloom_counters_exact_iff` says that there is no third.
-/

namespace Marina

open Lib Exec

/-- `entries[pipe][i][indices[i]]++` for every filter, after a refused put. -/
def bloomFilterRevert (counters : BloomCounters) (indices : Fin numBloomfilters → Int)
    (pipe : Nat) : BloomCounters :=
  (BloomLoop.run pipe (fun i => (indices i).toNat) (fun _ entry => (entry + 1, false))
    ⟨counters, indices, false⟩).counters

/-- The counters and the variables of maintenance, with the calls that were made and how
often each counter has aged for good. -/
structure BloomBooks where
  counters : BloomCounters
  sweep : Sweep
  calls : List FiveTuple
  aged : BloomArray Nat

inductive BloomEntry
  | setIrrelevant (fiveTuple : FiveTuple)
  /-- The next index of a sweep, with the filters for which `random()` falls below the
  threshold, and whether a put would be refused. -/
  | maintenance (chosen : Fin numBloomfilters → Bool) (refused : Bool)

namespace BloomBooks

/-- After `bloom_filter_init`, with the command object of maintenance cleared. -/
def start : BloomBooks where
  counters := bloomFilterInit
  sweep := ⟨0, 0, 0, zeroIndices, false⟩
  calls := []
  aged := fun _ _ _ => 0

/-- The loop over the filters of a step of maintenance. -/
def loop (books : BloomBooks) (chosen : Fin numBloomfilters → Bool) : BloomLoop :=
  bloomFilterMaintenance books.counters books.sweep.indices
    ⟨books.sweep.pipe, books.sweep.index, chosen⟩

/-- The loop lowers this counter. -/
def Lowers (books : BloomBooks) (chosen : Fin numBloomfilters → Bool) (pipe : Nat)
    (i : Fin numBloomfilters) (index : Nat) : Prop :=
  pipe = books.sweep.pipe ∧ index = books.sweep.index ∧ chosen i = true ∧
    books.counters pipe i index ≠ 0

/-- A refused put raises this counter. -/
def Raises (books : BloomBooks) (chosen : Fin numBloomfilters → Bool) (pipe : Nat)
    (i : Fin numBloomfilters) (index : Nat) : Prop :=
  (books.loop chosen).send = true ∧ pipe = books.sweep.pipe ∧
    index = ((books.loop chosen).indices i).toNat

instance (books : BloomBooks) (chosen : Fin numBloomfilters → Bool) (pipe : Nat)
    (i : Fin numBloomfilters) (index : Nat) : Decidable (books.Lowers chosen pipe i index) :=
  inferInstanceAs (Decidable (_ ∧ _))

instance (books : BloomBooks) (chosen : Fin numBloomfilters → Bool) (pipe : Nat)
    (i : Fin numBloomfilters) (index : Nat) : Decidable (books.Raises chosen pipe i index) :=
  inferInstanceAs (Decidable (_ ∧ _))

/-- A step of maintenance. A decrement counts unless the refused put undoes it. -/
def maintenance (books : BloomBooks) (chosen : Fin numBloomfilters → Bool) (refused : Bool) :
    BloomBooks :=
  let loop := books.loop chosen
  { books with
    counters :=
      if loop.send && refused then
        bloomFilterRevert loop.counters loop.indices books.sweep.pipe
      else loop.counters
    sweep := { books.sweep with indices := loop.indices }.next
    aged := fun pipe i index => books.aged pipe i index +
      if books.Lowers chosen pipe i index ∧ ¬ (refused = true ∧ books.Raises chosen pipe i index)
      then 1 else 0 }

/-- A call for a packet of a port beyond the pipes is outside the array. -/
def step (books : BloomBooks) : BloomEntry → Outcome BloomBooks
  | .setIrrelevant fiveTuple =>
      if fiveTuple.pipeIndex < numPipes then
        pure { books with
          counters := (bloomFilterSetIrrelevant books.counters fiveTuple).1
          calls := fiveTuple :: books.calls }
      else throw .outOfBounds
  | .maintenance chosen refused => pure (books.maintenance chosen refused)

/-! ## Exact counting -/

/-- The number of calls on the pipe whose hash for the filter is the index. -/
def added (books : BloomBooks) (pipe : Nat) (i : Fin numBloomfilters) (index : Nat) : Nat :=
  books.calls.countP fun fiveTuple =>
    fiveTuple.pipeIndex = pipe ∧ getHashes fiveTuple.h i = index

/-- Every counter is what was added less what has aged. -/
def Exact (books : BloomBooks) : Prop :=
  ∀ pipe i index,
    ((books.counters pipe i index).toNat : Int) =
      books.added pipe i index - books.aged pipe i index

/-- A step from `books` to `books'` counts exactly. -/
structure Counts (books : BloomBooks) (entry : BloomEntry) (books' : BloomBooks) : Prop where
  exact : books'.Exact
  /-- A refused step takes back what it took to zero. -/
  restored : ∀ chosen, entry = .maintenance chosen true → ∀ pipe i index,
    books.counters pipe i index = 1 → (books.loop chosen).counters pipe i index = 0 →
      books'.counters pipe i index = 1
  /-- It leaves the other counters as it found or decremented them. -/
  others : ∀ chosen, entry = .maintenance chosen true → ∀ pipe i index,
    ¬ (books.counters pipe i index = 1 ∧ (books.loop chosen).counters pipe i index = 0) →
      books'.counters pipe i index = books.counters pipe i index ∨
      books'.counters pipe i index = (books.loop chosen).counters pipe i index
  /-- No counter wraps around: it changes by one at most. -/
  noWrap : ∀ pipe i index,
    (books'.counters pipe i index).toNat ≤ (books.counters pipe i index).toNat + 1 ∧
    (books.counters pipe i index).toNat ≤ (books'.counters pipe i index).toNat + 1

/-- The entry returns and counts exactly. -/
def CountsAt (books : BloomBooks) (entry : BloomEntry) : Prop :=
  Returns (books.step entry) (books.Counts entry)

/-- A call finds its pipe, and none of its four counters at the largest value. A refused step
that takes some counter to zero lowers a counter of every filter, and the filters it does not
take to zero have its index in the command from before. -/
def InRange (books : BloomBooks) : BloomEntry → Prop
  | .setIrrelevant fiveTuple => fiveTuple.pipeIndex < numPipes ∧
      ∀ i, (books.counters fiveTuple.pipeIndex i (getHashes fiveTuple.h i)).toNat < 65535
  | .maintenance chosen refused => refused = true →
      (∃ i, chosen i = true ∧ books.counters books.sweep.pipe i books.sweep.index = 1) →
      ∀ i, chosen i = true ∧
        (books.counters books.sweep.pipe i books.sweep.index = 1 ∨
          1 < books.counters books.sweep.pipe i books.sweep.index ∧
            (books.sweep.indices i).toNat = books.sweep.index)

/-! ## Steps of maintenance -/

section Maintenance

variable {books : BloomBooks} {chosen : Fin numBloomfilters → Bool} {refused : Bool}
  {pipe index : Nat} {i : Fin numBloomfilters}

/-- A chosen counter that is not zero goes down by one. -/
theorem maintenanceRule_toNat (chosen : Fin numBloomfilters → Bool) (i : Fin numBloomfilters)
    (entry : UInt16) :
    (maintenanceRule chosen i entry).1.toNat + (if chosen i = true ∧ entry ≠ 0 then 1 else 0) =
      entry.toNat := by
  unfold maintenanceRule
  by_cases picked : chosen i = true
  · by_cases zero : entry = 0
    · simp [picked, zero]
    · have positive : 1 ≤ entry := by
        rw [UInt16.le_iff_toNat_le]
        rw [← UInt16.toNat_inj] at zero
        change entry.toNat ≠ 0 at zero
        change 1 ≤ entry.toNat
        omega
      have lowered : (entry - 1).toNat + 1 = entry.toNat := by
        rw [UInt16.toNat_sub_of_le _ _ positive]
        rw [UInt16.le_iff_toNat_le] at positive
        change entry.toNat - 1 + 1 = entry.toNat
        change 1 ≤ entry.toNat at positive
        omega
      have counted : (if chosen i = true ∧ entry ≠ 0 then 1 else 0) = 1 := if_pos ⟨picked, zero⟩
      rw [if_pos picked, if_neg zero, counted]
      split_ifs <;> exact lowered
  · simp [picked]

theorem loop_counters (books : BloomBooks) (chosen : Fin numBloomfilters → Bool) (pipe : Nat)
    (i : Fin numBloomfilters) (index : Nat) :
    ((books.loop chosen).counters pipe i index).toNat +
        (if books.Lowers chosen pipe i index then 1 else 0) =
      (books.counters pipe i index).toNat := by
  unfold loop bloomFilterMaintenance
  rw [BloomLoop.run_counters]
  dsimp only
  by_cases here : pipe = books.sweep.pipe ∧ index = books.sweep.index
  · obtain ⟨rfl, rfl⟩ := here
    rw [if_pos ⟨rfl, rfl⟩]
    simp only [Lowers, true_and]
    exact maintenanceRule_toNat chosen i _
  · have still : ¬ books.Lowers chosen pipe i index := fun lowers => here ⟨lowers.1, lowers.2.1⟩
    rw [if_neg here, if_neg still]
    rfl

theorem maintenance_counters :
    (books.maintenance chosen refused).counters pipe i index =
      (books.loop chosen).counters pipe i index +
        if refused = true ∧ books.Raises chosen pipe i index then 1 else 0 := by
  unfold maintenance Raises
  dsimp only
  by_cases reverts : ((books.loop chosen).send && refused) = true
  · rw [if_pos reverts]
    rw [Bool.and_eq_true] at reverts
    unfold bloomFilterRevert
    rw [BloomLoop.run_counters]
    simp only [reverts.1, reverts.2, true_and]
    split
    · rename_i here
      rw [here.1, here.2]
    · exact (add_zero _).symm
  · rw [if_neg reverts, if_neg, add_zero]
    intro raised
    exact reverts (Bool.and_eq_true_iff.mpr ⟨raised.2.1, raised.1⟩)

/-- The filters whose counter is taken to zero. -/
theorem maintenanceRule_marks :
    (maintenanceRule chosen i (books.counters books.sweep.pipe i books.sweep.index)).2 = true ↔
      chosen i = true ∧ books.counters books.sweep.pipe i books.sweep.index = 1 :=
  @BloomRequest.rule_marks books.counters
    (.maintenance [] ⟨books.sweep.pipe, books.sweep.index, chosen⟩) i

theorem loop_send :
    (books.loop chosen).send = true ↔
      ∃ i, chosen i = true ∧ books.counters books.sweep.pipe i books.sweep.index = 1 := by
  unfold loop bloomFilterMaintenance
  rw [BloomLoop.run_send]
  simp only [maintenanceRule_marks, Bool.false_eq_true, false_or]

theorem loop_indices :
    (books.loop chosen).indices i =
      if chosen i = true ∧ books.counters books.sweep.pipe i books.sweep.index = 1
      then (books.sweep.index : Int) else books.sweep.indices i := by
  unfold loop bloomFilterMaintenance
  rw [BloomLoop.run_indices]
  simp only [maintenanceRule_marks]

/-- The condition on a step, as: what a refused put raises was lowered before. -/
theorem inRange_maintenance :
    books.InRange (.maintenance chosen refused) ↔
      (refused = true → ∀ pipe i index,
        books.Raises chosen pipe i index → books.Lowers chosen pipe i index) := by
  constructor
  · intro range isRefused pipe i index raises
    obtain ⟨send, rfl, place⟩ := raises
    obtain ⟨picked, found⟩ := range isRefused (loop_send.mp send) i
    rw [loop_indices] at place
    rcases found with one | ⟨many, held⟩
    · rw [if_pos ⟨picked, one⟩, Int.toNat_natCast] at place
      subst place
      refine ⟨rfl, rfl, picked, ?_⟩
      rw [one]
      decide
    · have notOne : books.counters books.sweep.pipe i books.sweep.index ≠ 1 := by
        intro one
        exact absurd (one ▸ many) (by decide)
      rw [if_neg fun marked => notOne marked.2, held] at place
      subst place
      refine ⟨rfl, rfl, picked, ?_⟩
      intro zero
      exact absurd (zero ▸ many) (by decide)
  · intro lowers isRefused marked i
    obtain ⟨_, place, picked, nonzero⟩ := lowers isRefused _ i _ ⟨loop_send.mpr marked, rfl, rfl⟩
    rw [place] at nonzero
    refine ⟨picked, ?_⟩
    by_cases one : books.counters books.sweep.pipe i books.sweep.index = 1
    · exact Or.inl one
    · rw [loop_indices, if_neg fun marked => one marked.2] at place
      refine Or.inr ⟨?_, place⟩
      rw [UInt16.lt_iff_toNat_lt]
      rw [Ne, ← UInt16.toNat_inj] at nonzero
      rw [← UInt16.toNat_inj] at one
      change ¬ _ = 0 at nonzero
      change ¬ _ = 1 at one
      change 1 < _
      omega

/-- A counter that is raised after it was lowered is as it was. -/
theorem maintenance_toNat
    (undone : refused = true → books.Raises chosen pipe i index →
      books.Lowers chosen pipe i index) :
    ((books.maintenance chosen refused).counters pipe i index).toNat +
        (if books.Lowers chosen pipe i index ∧
            ¬ (refused = true ∧ books.Raises chosen pipe i index) then 1 else 0) =
      (books.counters pipe i index).toNat := by
  have lowered := loop_counters books chosen pipe i index
  rw [maintenance_counters]
  by_cases raised : refused = true ∧ books.Raises chosen pipe i index
  · have lowers := undone raised.1 raised.2
    have small := (books.counters pipe i index).toNat_lt
    rw [if_pos lowers] at lowered
    rw [if_pos raised, if_neg fun kept => kept.2 raised, UInt16.toNat_add]
    change (_ + 1) % 65536 + 0 = _
    omega
  · rw [if_neg raised, add_zero]
    simpa only [raised, not_false_eq_true, and_true] using lowered

/-- A step that raises only what it lowered counts exactly. -/
theorem maintenance_counts (exact : books.Exact)
    (range : books.InRange (.maintenance chosen refused)) :
    books.Counts (.maintenance chosen refused) (books.maintenance chosen refused) := by
  rw [inRange_maintenance] at range
  have counted := fun pipe i index =>
    maintenance_toNat fun isRefused => range isRefused pipe i index
  constructor
  · intro pipe i index
    have before := exact pipe i index
    have after := counted pipe i index
    change (_ : Int) = books.added pipe i index - ((books.aged pipe i index + _ : Nat) : Int)
    omega
  · intro other same pipe i index one zero
    cases same
    have after := counted pipe i index
    have lowered := loop_counters books chosen pipe i index
    have lowers : books.Lowers chosen pipe i index := by
      by_contra still
      rw [if_neg still, one, zero] at lowered
      exact absurd lowered (by decide)
    obtain ⟨rfl, rfl, picked, _⟩ := lowers
    have raises : books.Raises chosen books.sweep.pipe i books.sweep.index := by
      refine ⟨loop_send.mpr ⟨i, picked, one⟩, rfl, ?_⟩
      rw [loop_indices, if_pos ⟨picked, one⟩, Int.toNat_natCast]
    rw [if_neg fun kept => kept.2 ⟨rfl, raises⟩, add_zero, UInt16.toNat_inj] at after
    rw [after, one]
  · intro other same pipe i index _
    cases same
    by_cases raises : books.Raises chosen pipe i index
    · have after := counted pipe i index
      rw [if_neg fun kept => kept.2 ⟨rfl, raises⟩, add_zero, UInt16.toNat_inj] at after
      exact Or.inl after
    · right
      rw [maintenance_counters, if_neg fun raised => raises raised.2, add_zero]
  · intro pipe i index
    have after := counted pipe i index
    split at after <;> omega

/-- A step that raises another counter is one off there. -/
theorem maintenance_not_exact (exact : books.Exact)
    (raises : books.Raises chosen pipe i index) (still : ¬ books.Lowers chosen pipe i index) :
    ¬ (books.maintenance chosen true).Exact := by
  intro exact'
  have before := exact pipe i index
  have after := exact' pipe i index
  have lowered := loop_counters books chosen pipe i index
  rw [if_neg still, add_zero] at lowered
  have small := (books.counters pipe i index).toNat_lt
  have aged : (books.maintenance chosen true).aged pipe i index = books.aged pipe i index := by
    change _ + (if _ then 1 else 0) = _
    rw [if_neg fun kept => still kept.1, add_zero]
  rw [maintenance_counters, if_pos ⟨rfl, raises⟩, UInt16.toNat_add, aged, lowered] at after
  change (((_ + 1) % 65536 : Nat) : Int) = books.added pipe i index - _ at after
  omega

end Maintenance

/-! ## Calls -/

section Call

variable {books books' : BloomBooks} {fiveTuple : FiveTuple}

theorem setIrrelevant_apply (counters : BloomCounters) (fiveTuple : FiveTuple) (pipe : Nat)
    (i : Fin numBloomfilters) (index : Nat) :
    (bloomFilterSetIrrelevant counters fiveTuple).1 pipe i index =
      counters pipe i index +
        if fiveTuple.pipeIndex = pipe ∧ getHashes fiveTuple.h i = index then 1 else 0 := by
  unfold bloomFilterSetIrrelevant
  dsimp only
  rw [BloomLoop.run_counters]
  by_cases here : fiveTuple.pipeIndex = pipe ∧ getHashes fiveTuple.h i = index
  · obtain ⟨rfl, rfl⟩ := here
    rw [if_pos ⟨rfl, rfl⟩, if_pos ⟨rfl, rfl⟩]
    rfl
  · rw [if_neg fun there => here ⟨there.1.symm, there.2.symm⟩, if_neg here]
    exact (add_zero _).symm

theorem added_cons (fiveTuple : FiveTuple) (books : BloomBooks) (pipe : Nat)
    (i : Fin numBloomfilters) (index : Nat) :
    added { books with calls := fiveTuple :: books.calls } pipe i index =
      books.added pipe i index +
        if fiveTuple.pipeIndex = pipe ∧ getHashes fiveTuple.h i = index then 1 else 0 := by
  unfold added
  rw [List.countP_cons]
  simp only [decide_eq_true_eq]

/-- A call that finds its counters below the largest value counts exactly. -/
theorem setIrrelevant_countsAt (exact : books.Exact)
    (range : books.InRange (.setIrrelevant fiveTuple)) :
    books.CountsAt (.setIrrelevant fiveTuple) := by
  obtain ⟨inside, small⟩ := range
  have raised : ∀ pipe i index,
      ((bloomFilterSetIrrelevant books.counters fiveTuple).1 pipe i index).toNat =
        (books.counters pipe i index).toNat +
          if fiveTuple.pipeIndex = pipe ∧ getHashes fiveTuple.h i = index then 1 else 0 := by
    intro pipe i index
    rw [setIrrelevant_apply]
    split
    · rename_i here
      obtain ⟨rfl, rfl⟩ := here
      have below := small i
      rw [UInt16.toNat_add]
      change (_ + 1) % 65536 = _
      omega
    · rw [add_zero, add_zero]
  refine ⟨_, if_pos inside, ?_⟩
  constructor
  · intro pipe i index
    have before := exact pipe i index
    have after := raised pipe i index
    have called := added_cons fiveTuple books pipe i index
    change (((bloomFilterSetIrrelevant books.counters fiveTuple).1 pipe i index).toNat : Int) =
      (added { books with calls := fiveTuple :: books.calls } pipe i index : Int) -
        books.aged pipe i index
    omega
  · intro chosen same
    cases same
  · intro chosen same
    cases same
  · intro pipe i index
    have after := raised pipe i index
    dsimp only
    split at after <;> omega

/-- A call outside the pipes faults, and one that finds a counter at the largest value makes
it wrap around. -/
theorem inRange_of_setIrrelevant (counts : books.CountsAt (.setIrrelevant fiveTuple)) :
    books.InRange (.setIrrelevant fiveTuple) := by
  obtain ⟨books', next, counted⟩ := counts
  simp only [step] at next
  split at next
  · rename_i inside
    rw [pure_inj] at next
    refine ⟨inside, fun i => ?_⟩
    have jump := (counted.noWrap fiveTuple.pipeIndex i (getHashes fiveTuple.h i)).2
    rw [← next] at jump
    dsimp only at jump
    rw [setIrrelevant_apply, if_pos ⟨rfl, rfl⟩, UInt16.toNat_add] at jump
    change _ ≤ (_ + 1) % 65536 + 1 at jump
    omega
  · exact absurd next throw_ne_pure

end Call

/-- From exact books, an entry counts exactly when it is in range. -/
theorem countsAt_iff {books : BloomBooks} (exact : books.Exact) (entry : BloomEntry) :
    books.CountsAt entry ↔ books.InRange entry := by
  cases entry with
  | setIrrelevant fiveTuple => exact ⟨inRange_of_setIrrelevant, setIrrelevant_countsAt exact⟩
  | maintenance chosen refused =>
      refine ⟨?_, fun range => .pure (maintenance_counts exact range)⟩
      intro counts
      rw [inRange_maintenance]
      intro same pipe i index raises
      rcases same with rfl
      by_contra still
      exact maintenance_not_exact exact raises still (counts.of_pure rfl).exact

theorem start_exact : start.Exact := by
  intro pipe i index
  rfl

end BloomBooks

/-- Every step of a run counts exactly, if and only if every step is in range. -/
theorem bloom_counters_exact_iff (entries : List BloomEntry) :
    AllSteps BloomBooks.step BloomBooks.CountsAt .start entries ↔
      AllSteps BloomBooks.step BloomBooks.InRange .start entries := by
  constructor
  · refine AllSteps.of_invariant ?_ ?_ BloomBooks.start_exact
    · intro books entry books' _ counts next
      exact (counts.of_pure next).exact
    · intro books entry exact counts
      exact (BloomBooks.countsAt_iff exact entry).mp counts
  · refine AllSteps.of_invariant ?_ ?_ BloomBooks.start_exact
    · intro books entry books' exact range next
      exact (((BloomBooks.countsAt_iff exact entry).mpr range).of_pure next).exact
    · intro books entry exact range
      exact (BloomBooks.countsAt_iff exact entry).mpr range

/-- A flow that the last filter has at index `0`, forgotten by that filter in the first step
of maintenance. The put is refused, and the counters of the other filters at `0` are raised,
where no flow was counted. -/
theorem refused_removal_miscounts :
    ¬ AllSteps BloomBooks.step BloomBooks.CountsAt .start
      [.setIrrelevant .zero, .maintenance (fun i => i.val = 3) true] := by
  intro given
  rcases given with ⟨first, rest⟩
  obtain ⟨books, next, counted⟩ := first
  obtain ⟨second, -⟩ := rest books next
  have last : getHashes FiveTuple.zero.h ⟨3, by decide⟩ = 0 := by decide +kernel
  have other : getHashes FiveTuple.zero.h ⟨0, by decide⟩ ≠ 0 := by decide +kernel
  have same := pure_inj.mp next
  have counters : books.counters = (bloomFilterSetIrrelevant bloomFilterInit .zero).1 :=
    congrArg BloomBooks.counters same.symm
  have sweep : books.sweep = ⟨0, 0, 0, zeroIndices, false⟩ := congrArg BloomBooks.sweep same.symm
  have raises : books.Raises (fun i => i.val = 3) 0 ⟨0, by decide⟩ 0 := by
    refine ⟨BloomBooks.loop_send.mpr ⟨⟨3, by decide⟩, rfl, ?_⟩, ?_, ?_⟩
    · rw [sweep, counters, BloomBooks.setIrrelevant_apply, if_pos ⟨rfl, last⟩]
      rfl
    · rw [sweep]
    · rw [BloomBooks.loop_indices, if_neg (by simp), sweep]
      rfl
  have still : ¬ books.Lowers (fun i => i.val = 3) 0 ⟨0, by decide⟩ 0 := by
    intro lowers
    exact absurd lowers.2.2.1 (by decide)
  exact BloomBooks.maintenance_not_exact counted.exact raises still (second.of_pure rfl).exact

end Marina
