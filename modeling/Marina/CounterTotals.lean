import Marina.FeatureRounds

/-!
# Totals of wrapping counters

Rounds of `read_features` on registers that start at zero and are never cleared. The
registers wrap at `2^32`, the values are sums of 64 bits, and a read may fail.

A round swaps the two buffers of a register, reads into the older one, and adds the
difference of the two. As long as every read succeeds the values are the totals modulo
`2^64` (`values_count_totals`). When a read fails, the round goes on with the older buffer
in place of the newer one, so that it adds the negative of what the last successful round
added, modulo `2^32`. That is nothing only if the last successful round added nothing
(`failed_reads_spare_values_iff`).
-/

namespace Marina

open Lib

/-- A call of `read_features`: what the switch returns for each feature, and what ageing
looks at. -/
structure ReadRound where
  reads : Feature → Option (Int → UInt32)
  ageing : AgeingRound

/-- The bank after the first `n` rounds. -/
def bankAfter (rounds : Nat → ReadRound) (bank : FeatureBank) : Nat → FeatureBank
  | 0 => bank
  | n + 1 => readFeaturesWith (rounds n).reads (rounds n).ageing (bankAfter rounds bank n)

/-- The read of a feature succeeds in round `k`. -/
def Succeeds (feature : Feature) (rounds : Nat → ReadRound) (k : Nat) : Prop :=
  ((rounds k).reads feature).isSome = true

instance (feature : Feature) (rounds : Nat → ReadRound) (k : Nat) :
    Decidable (Succeeds feature rounds k) :=
  inferInstanceAs (Decidable (_ = true))

section Reads

variable (feature : Feature) (rounds : Nat → ReadRound)

/-- The number of rounds up to the latest successful one of the first `k`. -/
def lastRead : Nat → Nat
  | 0 => 0
  | k + 1 => if Succeeds feature rounds k then k + 1 else lastRead k

/-- The number of rounds up to the successful one before that. -/
def readBefore : Nat → Nat
  | 0 => 0
  | k + 1 => if Succeeds feature rounds k then lastRead feature rounds k else readBefore k

/-- The successful rounds read the totals of a slot, which grow by less than `2^32` from one
to the next. -/
structure SlotTotals (i : Int) (totals : Nat → Nat) : Prop where
  zero : totals 0 = 0
  mono : ∀ k, totals k ≤ totals (k + 1)
  reads : ∀ k read, (rounds k).reads feature = some read → read i = UInt32.ofNat (totals (k + 1))
  bound : ∀ k, Succeeds feature rounds k →
    totals (k + 1) - totals (lastRead feature rounds k) < 2 ^ 32

/-- The buffers hold the two latest readings, and the value is the latest total. -/
structure HoldsTotals (bank : FeatureBank) (i : Int) (totals : Nat → Nat) (k : Nat) : Prop where
  current : ((bank.registers feature).at i).current =
    UInt32.ofNat (totals (lastRead feature rounds k))
  last : ((bank.registers feature).at i).last =
    UInt32.ofNat (totals (readBefore feature rounds k))
  value : ((bank.registers feature).at i).value =
    UInt64.ofNat (totals (lastRead feature rounds k))

/-- A failed round leaves the value of a slot, and a successful one ends with the total. -/
def RoundSpares (bank : FeatureBank) (i : Int) (totals : Nat → Nat) (k : Nat) : Prop :=
  if Succeeds feature rounds k then
    ((bankAfter rounds bank (k + 1)).registers feature).values i = UInt64.ofNat (totals (k + 1))
  else
    ((bankAfter rounds bank (k + 1)).registers feature).values i =
      ((bankAfter rounds bank k).registers feature).values i

/-- If round `k` fails, nothing was counted between the two latest successful rounds. -/
def RoundQuiet (totals : Nat → Nat) (k : Nat) : Prop :=
  ¬ Succeeds feature rounds k →
    totals (lastRead feature rounds k) = totals (readBefore feature rounds k)

end Reads

section Totals

variable {feature : Feature} {rounds : Nat → ReadRound} {bank : FeatureBank} {i : Int}
  {totals : Nat → Nat} {k : Nat}

/-! ## One round -/

theorem ofNat_add_difference {old new : Nat} (grows : old ≤ new) (bound : new - old < 2 ^ 32) :
    UInt64.ofNat old + (UInt32.ofNat new - UInt32.ofNat old).toUInt64 = UInt64.ofNat new := by
  obtain ⟨gain, rfl⟩ := Nat.exists_eq_add_of_le grows
  rw [Nat.add_sub_cancel_left] at bound
  have difference : UInt32.ofNat (old + gain) - UInt32.ofNat old = UInt32.ofNat gain := by
    rw [UInt32.ofNat_add, add_sub_cancel_left]
  rw [difference, UInt64.ofNat_add]
  congr 1
  apply UInt64.toNat.inj
  rw [UInt32.toNat_toUInt64, UInt32.toNat_ofNat_of_lt' bound, UInt64.toNat_ofNat_of_lt']
  unfold UInt64.size
  omega

theorem lastRead_le (k : Nat) : lastRead feature rounds k ≤ k := by
  induction k with
  | zero => exact le_rfl
  | succ k ih =>
      unfold lastRead
      split
      · exact le_rfl
      · exact ih.trans (Nat.le_succ k)

/-- A failed round goes on with the older reading. -/
theorem HoldsTotals.failure
    (holds : HoldsTotals feature rounds (bankAfter rounds bank k) i totals k)
    (member : i ∈ featureSlots) (fails : ¬ Succeeds feature rounds k) :
    ((bankAfter rounds bank (k + 1)).registers feature).at i =
      ⟨UInt32.ofNat (totals (readBefore feature rounds k)),
        UInt32.ofNat (totals (lastRead feature rounds k)),
        ((bankAfter rounds bank k).registers feature).values i +
          (UInt32.ofNat (totals (readBefore feature rounds k)) -
            UInt32.ofNat (totals (lastRead feature rounds k))).toUInt64⟩ := by
  have reads : (rounds k).reads feature = none := by
    rw [← Option.not_isSome_iff_eq_none]
    exact fails
  have here := at_readFeaturesWith member (rounds k).reads (rounds k).ageing
    (bankAfter rounds bank k) feature
  rw [reads, Option.getD_none] at here
  refine here.trans ?_
  rw [← holds.last, ← holds.current]
  rfl

namespace SlotTotals

variable (slot : SlotTotals feature rounds i totals)

include slot

theorem monotone : Monotone totals := monotone_nat_of_le_succ slot.mono

/-- The two latest readings differ by less than `2^32`. -/
theorem latest (k : Nat) :
    totals (readBefore feature rounds k) ≤ totals (lastRead feature rounds k) ∧
      totals (lastRead feature rounds k) - totals (readBefore feature rounds k) < 2 ^ 32 := by
  induction k with
  | zero => exact ⟨le_rfl, by simp [lastRead, readBefore]⟩
  | succ k ih =>
      unfold lastRead readBefore
      split
      · rename_i succeeds
        exact ⟨slot.monotone ((lastRead_le k).trans (Nat.le_succ k)), slot.bound k succeeds⟩
      · exact ih

theorem latest_eq_iff (k : Nat) :
    UInt32.ofNat (totals (readBefore feature rounds k)) =
        UInt32.ofNat (totals (lastRead feature rounds k)) ↔
      totals (lastRead feature rounds k) = totals (readBefore feature rounds k) := by
  obtain ⟨grows, bound⟩ := slot.latest k
  obtain ⟨gain, sum⟩ := Nat.exists_eq_add_of_le grows
  constructor
  · intro same
    have modulo := congrArg UInt32.toNat same
    rw [UInt32.toNat_ofNat', UInt32.toNat_ofNat'] at modulo
    omega
  · intro same
    rw [same]

/-- A successful round. -/
theorem success (member : i ∈ featureSlots)
    (holds : HoldsTotals feature rounds (bankAfter rounds bank k) i totals k)
    (succeeds : Succeeds feature rounds k) :
    HoldsTotals feature rounds (bankAfter rounds bank (k + 1)) i totals (k + 1) := by
  obtain ⟨read, reads⟩ := Option.isSome_iff_exists.mp succeeds
  have here := at_readFeaturesWith member (rounds k).reads (rounds k).ageing
    (bankAfter rounds bank k) feature
  rw [reads, Option.getD_some, slot.reads k read reads, holds.current, holds.value] at here
  have after : lastRead feature rounds (k + 1) = k + 1 := if_pos succeeds
  have before : readBefore feature rounds (k + 1) = lastRead feature rounds k := if_pos succeeds
  constructor
  · rw [after]
    exact congrArg SlotValues.current here
  · rw [before]
    exact congrArg SlotValues.last here
  · rw [after]
    refine (congrArg SlotValues.value here).trans ?_
    exact ofNat_add_difference (slot.monotone ((lastRead_le k).trans (Nat.le_succ k)))
      (slot.bound k succeeds)

/-- A round is right exactly when it is a successful or a quiet one. -/
theorem roundSpares_iff (member : i ∈ featureSlots)
    (holds : HoldsTotals feature rounds (bankAfter rounds bank k) i totals k) :
    RoundSpares feature rounds bank i totals k ↔ RoundQuiet feature rounds totals k := by
  unfold RoundSpares RoundQuiet
  by_cases succeeds : Succeeds feature rounds k
  · have value := (slot.success member holds succeeds).value
    have after : lastRead feature rounds (k + 1) = k + 1 := if_pos succeeds
    rw [after] at value
    rw [if_pos succeeds]
    exact ⟨fun _ fails => absurd succeeds fails, fun _ => value⟩
  · have value := congrArg SlotValues.value (holds.failure member succeeds)
    have zero : ∀ difference : UInt32, difference.toUInt64 = 0 ↔ difference = 0 := by
      intro difference
      rw [← UInt64.toNat_inj, ← UInt32.toNat_inj, UInt32.toNat_toUInt64]
      rfl
    change ((bankAfter rounds bank (k + 1)).registers feature).values i = _ at value
    rw [if_neg succeeds, value, add_eq_left, zero, sub_eq_zero, slot.latest_eq_iff]
    exact ⟨fun same _ => same, fun quiet => quiet succeeds⟩

/-- A round that is right leaves the buffers with the latest readings. -/
theorem next (member : i ∈ featureSlots)
    (holds : HoldsTotals feature rounds (bankAfter rounds bank k) i totals k)
    (quiet : RoundQuiet feature rounds totals k) :
    HoldsTotals feature rounds (bankAfter rounds bank (k + 1)) i totals (k + 1) := by
  by_cases succeeds : Succeeds feature rounds k
  · exact slot.success member holds succeeds
  · have here := holds.failure member succeeds
    have same := quiet succeeds
    have after : lastRead feature rounds (k + 1) = lastRead feature rounds k := if_neg succeeds
    have before : readBefore feature rounds (k + 1) = readBefore feature rounds k :=
      if_neg succeeds
    rw [← same, sub_self] at here
    constructor
    · rw [after]
      exact congrArg SlotValues.current here
    · rw [before, ← same]
      exact congrArg SlotValues.last here
    · rw [after, ← holds.value]
      refine (congrArg SlotValues.value here).trans ?_
      exact add_zero _

/-- As long as the rounds are quiet, the buffers hold the latest readings. -/
theorem holdsTotals (member : i ∈ featureSlots)
    (clean : bank.registers feature = prepareFeature.registerCount) {n : Nat}
    (quiet : ∀ k < n, RoundQuiet feature rounds totals k) :
    HoldsTotals feature rounds (bankAfter rounds bank n) i totals n := by
  induction n with
  | zero =>
      have none : ((bankAfter rounds bank 0).registers feature).at i = ⟨0, 0, 0⟩ :=
        congrArg (FeatureRegister.at · i) clean
      have start : totals (lastRead feature rounds 0) = 0 := slot.zero
      have start' : totals (readBefore feature rounds 0) = 0 := slot.zero
      constructor
      · rw [none, start]
        rfl
      · rw [none, start']
        rfl
      · rw [none, start]
        rfl
  | succ n ih =>
      exact slot.next member (ih fun k small => quiet k (small.trans (Nat.lt_succ_self n)))
        (quiet n (Nat.lt_succ_self n))

end SlotTotals

/-! ## Slots without a session -/

theorem at_processFeature_of_notMem (absent : i ∉ featureSlots) (register : FeatureRegister) :
    (processFeature register).at i = register.at i := by
  unfold processFeature
  exact foldl_slice_of_notMem FeatureRegister.at at_processSlot_of_ne register absent

theorem at_processAndAgeFeature_of_notMem (absent : i ∉ featureSlots) (round : AgeingRound)
    (state : FeatureState) :
    (processAndAgeFeature round state).1.registerCount.at i = state.registerCount.at i := by
  rw [processAndAgeFeature_eq]
  exact foldl_slice_of_notMem
    (fun done : FeatureState × List Int => done.1.registerCount.at)
    (fun done => at_processSlot_of_ne done.1.registerCount) (state, []) absent

theorem at_process_of_notMem (absent : i ∉ featureSlots) (round : AgeingRound)
    (bank : FeatureBank) (feature : Feature) :
    ((bank.process round feature).registers feature).at i = (bank.registers feature).at i := by
  cases feature with
  | count =>
      unfold FeatureBank.process
      dsimp only
      rw [Function.update_self]
      exact at_processAndAgeFeature_of_notMem absent round _
  | _ =>
      unfold FeatureBank.process
      dsimp only
      rw [Function.update_self]
      exact at_processFeature_of_notMem absent _

/-- A slot that no loop visits keeps its value. -/
theorem value_bankAfter_of_notMem (absent : i ∉ featureSlots) (n : Nat) :
    (((bankAfter rounds bank n).registers feature).at i).value =
      ((bank.registers feature).at i).value := by
  induction n with
  | zero => rfl
  | succ n ih =>
      have process := foldl_slice
        (fun (bank : FeatureBank) feature => (bank.registers feature).at i)
        (fun _ slot => slot) (at_process_of_notMem absent (rounds n).ageing)
        (fun bank feature other ne => congrArg (FeatureRegister.at · i)
          (process_registers_of_ne (rounds n).ageing bank feature other ne))
        (staticFeaturesArray.foldl (FeatureBank.readWith (rounds n).reads)
          (bankAfter rounds bank n))
        nodup_staticFeaturesArray (mem_staticFeaturesArray feature)
      refine (congrArg SlotValues.value process).trans ?_
      rw [registers_readWith]
      exact ih

end Totals

/-! ## All rounds -/

theorem lastRead_of_succeeds {feature : Feature} {rounds : Nat → ReadRound}
    (succeeds : ∀ k, Succeeds feature rounds k) (k : Nat) : lastRead feature rounds k = k := by
  cases k with
  | zero => rfl
  | succ k => exact if_pos (succeeds k)

/-- When every read succeeds, the values are the totals, whatever wrapped in between, and the
slots without a session stay at zero. -/
theorem values_count_totals (feature : Feature) (rounds : Nat → ReadRound) (bank : FeatureBank)
    (clean : bank.registers feature = prepareFeature.registerCount) (totals : Nat → Int → Nat)
    (reads : ∀ k, (rounds k).reads feature = some fun i => UInt32.ofNat (totals (k + 1) i))
    (n : Nat) :
    (∀ i, minSessionId ≤ i → i < featureSize → totals 0 i = 0 →
      (∀ k, totals k i ≤ totals (k + 1) i) → (∀ k, totals (k + 1) i - totals k i < 2 ^ 32) →
      ((bankAfter rounds bank n).registers feature).values i = UInt64.ofNat (totals n i)) ∧
    ∀ i, i < minSessionId → ((bankAfter rounds bank n).registers feature).values i = 0 := by
  have succeeds : ∀ k, Succeeds feature rounds k := by
    intro k
    unfold Succeeds
    rw [reads k]
    rfl
  constructor
  · intro i low high zero mono bound
    have slot : SlotTotals feature rounds i fun k => totals k i := by
      refine ⟨zero, mono, ?_, ?_⟩
      · intro k read returned
        rw [reads k] at returned
        rw [← Option.some.inj returned]
      · intro k _
        rw [lastRead_of_succeeds succeeds]
        exact bound k
    have value := (slot.holdsTotals (mem_featureSlots.mpr ⟨low, high⟩) clean
      fun k (_ : k < n) fails => absurd (succeeds k) fails).value
    rw [lastRead_of_succeeds succeeds] at value
    exact value
  · intro i below
    have absent : i ∉ featureSlots := by
      intro member
      have low := (mem_featureSlots.mp member).1
      unfold minSessionId at below
      omega
    refine (value_bankAfter_of_notMem absent n).trans ?_
    rw [clean]
    rfl

/-- Rounds that read the same number at every slot, or nothing. -/
def evenRounds (read : Nat → Option Nat) (k : Nat) : ReadRound :=
  ⟨fun _ => (read k).map fun total _ => UInt32.ofNat total, ⟨fun _ => -1, 0, fun _ => true⟩⟩

/-- Two rounds that gain three quarters of the range each. -/
theorem values_count_totals_wrapped :
    ((bankAfter (evenRounds fun k => some ((k + 1) * (3 * 2 ^ 30))) emptyBank 2).registers
      .sizeLog).values 4 = UInt64.ofNat (2 * (3 * 2 ^ 30)) := by
  refine (values_count_totals .sizeLog (evenRounds fun k => some ((k + 1) * (3 * 2 ^ 30)))
    emptyBank rfl (fun k _ => k * (3 * 2 ^ 30)) (fun _ => rfl) 2).1 4 (by decide) (by decide)
    (Nat.zero_mul _) ?_ ?_
  · intro k
    omega
  · intro k
    omega

/-- Every failed round leaves the value and every successful one ends with the total, exactly
when no failed round comes after a successful one that gained something. -/
theorem failed_reads_spare_values_iff (feature : Feature) (rounds : Nat → ReadRound)
    (bank : FeatureBank) (clean : bank.registers feature = prepareFeature.registerCount) (i : Int)
    (low : minSessionId ≤ i) (high : i < featureSize) (totals : Nat → Nat)
    (slot : SlotTotals feature rounds i totals) (n : Nat) :
    (∀ k < n, RoundSpares feature rounds bank i totals k) ↔
      ∀ k < n, RoundQuiet feature rounds totals k := by
  have member : i ∈ featureSlots := mem_featureSlots.mpr ⟨low, high⟩
  have each : ∀ k, (∀ j < k, RoundQuiet feature rounds totals j) →
      (RoundSpares feature rounds bank i totals k ↔ RoundQuiet feature rounds totals k) :=
    fun k quiet => slot.roundSpares_iff member (slot.holdsTotals member clean quiet)
  constructor
  · intro spares k
    induction k using Nat.strongRecOn with
    | ind k ih =>
        intro small
        exact (each k fun j earlier => ih j earlier (earlier.trans small)).mp (spares k small)
  · intro quiet k small
    exact (each k fun j earlier => quiet j (earlier.trans small)).mpr (quiet k small)

/-- What is read when only the round with number `good` succeeds, after five packets. -/
def oneSuccess (good k : Nat) : Option Nat := if k = good then some 5 else none

theorem oneSuccess_totals (good : Nat) :
    SlotTotals .count (evenRounds (oneSuccess good)) 4 fun k => if k ≤ good then 0 else 5 := by
  have read : ∀ k reads, (evenRounds (oneSuccess good) k).reads .count = some reads →
      k = good ∧ reads = fun _ => 5 := by
    intro k reads returned
    unfold evenRounds oneSuccess at returned
    by_cases here : k = good
    · rw [if_pos here, Option.map_some] at returned
      exact ⟨here, (Option.some.inj returned).symm⟩
    · rw [if_neg here] at returned
      cases returned
  refine ⟨if_pos (Nat.zero_le _), ?_, ?_, ?_⟩
  · intro k
    split <;> split <;> omega
  · intro k reads returned
    obtain ⟨rfl, rfl⟩ := read k reads returned
    rw [if_neg (by omega)]
    rfl
  · intro k _
    split <;> omega

/-- A failed round before the first successful one. -/
theorem failed_reads_spare_values_first :
    SlotTotals .count (evenRounds (oneSuccess 1)) 4 (fun k => if k ≤ 1 then 0 else 5) ∧
      ∀ k < 2, RoundSpares .count (evenRounds (oneSuccess 1)) emptyBank 4
        (fun k => if k ≤ 1 then 0 else 5) k := by
  refine ⟨oneSuccess_totals 1, ?_⟩
  rw [failed_reads_spare_values_iff .count (evenRounds (oneSuccess 1)) emptyBank rfl 4 (by decide)
    (by decide) _ (oneSuccess_totals 1) 2]
  intro k small fails
  have first : k = 0 := by
    by_contra later
    have second : k = 1 := by omega
    subst second
    exact fails rfl
  subst first
  rfl

/-- After a round that counted five packets, a failed one adds `2^32 - 5`. -/
theorem failed_read_corrupts_value :
    SlotTotals .count (evenRounds (oneSuccess 0)) 4 (fun k => if k ≤ 0 then 0 else 5) ∧
      ¬ ∀ k < 2, RoundSpares .count (evenRounds (oneSuccess 0)) emptyBank 4
        (fun k => if k ≤ 0 then 0 else 5) k := by
  have slot := oneSuccess_totals 0
  have member : (4 : Int) ∈ featureSlots := mem_featureSlots.mpr ⟨le_rfl, by decide⟩
  refine ⟨slot, fun spares => ?_⟩
  have quiet : ∀ j < 1, RoundQuiet .count (evenRounds (oneSuccess 0))
      (fun k => if k ≤ 0 then 0 else 5) j := by
    intro j small fails
    obtain rfl : j = 0 := by omega
    exact absurd rfl fails
  have clean : emptyBank.registers .count = prepareFeature.registerCount := rfl
  have second := (slot.roundSpares_iff member (slot.holdsTotals member clean
    quiet)).mp (spares 1 (by decide))
  have fails : ¬ Succeeds .count (evenRounds (oneSuccess 0)) 1 := by decide
  exact absurd (second fails) (by decide)

end Marina
