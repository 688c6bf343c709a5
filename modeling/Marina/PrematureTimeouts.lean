import Marina.FeatureRounds

/-!
# No session times out too early

Rounds of reading and ageing the packet counter at seconds that never go back, with any
sessions and any counters in each. A timeout should be enqueued only for a session that has
had its slot in every round of the last `FLOW_TIMEOUT` seconds, with the counter of the slot
unchanged in all of them.

The counter is no problem: the time noted for a slot is that of a round, and in all rounds
since then the counter has not changed (`exists_notedIn`). But a noted time outlives the
session it was noted for, since nothing clears it when the slot goes to another session, and
before second `FLOW_TIMEOUT` the limit that it is compared with wraps around.
`no_premature_timeouts` is about the runs in which neither happens.
-/

namespace Marina

/-- A round: the seconds of the clock, the packet counters of the data plane, the egress map
of the session table, and whether the packet ring takes a timeout for a slot. -/
structure CountRound where
  seconds : Nat
  counters : Int → UInt32
  sessions : Int → Int
  accepted : Int → Bool

/-- `now` has 32 bits. -/
def CountRound.ageing (round : CountRound) : AgeingRound :=
  ⟨round.sessions, UInt32.ofNat round.seconds, round.accepted⟩

/-- The features between reading and ageing. -/
def FeatureState.readCounters (state : FeatureState) (round : CountRound) : FeatureState :=
  { state with registerCount := readFeature (some round.counters) state.registerCount }

/-- A round of reading and ageing, with the sessions whose timeouts it enqueues. -/
def FeatureState.ageRound (state : FeatureState) (round : CountRound) : FeatureState × List Int :=
  processAndAgeFeature round.ageing (state.readCounters round)

section Rounds

variable (rounds : Nat → CountRound)

/-- The features after the first `n` rounds, with the timeouts of the last of them. -/
def roundsAfter : Nat → FeatureState × List Int
  | 0 => (prepareFeature, [])
  | n + 1 => (roundsAfter n).1.ageRound (rounds n)

/-- The timeout of a session is enqueued in round `n`. -/
def TimesOutAt (n : Nat) (v : Int) : Prop := v ∈ (roundsAfter rounds (n + 1)).2

/-- `last_flow_update[i]` before round `n`. -/
def notedBefore (n : Nat) (i : Int) : UInt32 := (roundsAfter rounds n).1.lastFlowUpdate i

/-- The counter of a slot in the round before. -/
def counterBefore (i : Int) : Nat → UInt32
  | 0 => 0
  | n + 1 => (rounds n).counters i

/-- The packet counter of a slot is another one than in the round before. -/
def ChangesAt (n : Nat) (i : Int) : Prop := (rounds n).counters i ≠ counterBefore rounds i n

/-- No timeout is enqueued before second `FLOW_TIMEOUT`, and a session whose timeout is
enqueued has had its slot in every round since `FLOW_TIMEOUT` seconds ago, with the counter
unchanged. -/
def NonePremature (n : Nat) : Prop :=
  ∀ v, TimesOutAt rounds n v → 30 ≤ (rounds n).seconds ∧
    ∃ i : Int, 4 ≤ i ∧ i < featureSize ∧ (rounds n).sessions i = v ∧
      ∀ m ≤ n, (rounds n).seconds - 30 ≤ (rounds m).seconds →
        (rounds m).sessions i = v ∧ ¬ ChangesAt rounds m i

/-- What round `n` finds in the slots with sessions: where a time is noted and the counter has
not changed, the clock is past `FLOW_TIMEOUT`, and the session was in the slot in the round
before. -/
structure Orderly (n : Nat) : Prop where
  clock : ∀ i : Int, 4 ≤ i → i < featureSize → (rounds n).sessions i ≠ -1 →
    notedBefore rounds n i ≠ 0 → ¬ ChangesAt rounds n i → 30 ≤ (rounds n).seconds % 2 ^ 32
  same : ∀ i : Int, 4 ≤ i → i < featureSize → (rounds n).sessions i ≠ -1 →
    notedBefore rounds n i ≠ 0 → ¬ ChangesAt rounds n i →
      ∀ m, m + 1 = n → (rounds m).sessions i = (rounds n).sessions i

end Rounds

/-! ## One round -/

section Round

variable {rounds : Nat → CountRound} {n : Nat} {i : Int}

section Read

variable (state : FeatureState) (round : CountRound) (i : Int)

theorem current_readCounters :
    ((state.readCounters round).registerCount.at i).processed.current = round.counters i := rfl

theorem updated_readCounters :
    (state.readCounters round).Updated round.ageing i ↔
      round.counters i ≠ (state.registerCount.at i).current ∨
        state.lastFlowUpdate i = 0 ∧ round.sessions i ≠ -1 := Iff.rfl

theorem timedOut_readCounters :
    (state.readCounters round).TimedOut round.ageing i ↔
      state.lastFlowUpdate i < UInt32.ofNat round.seconds - flowTimeout ∧
        round.sessions i ≠ -1 := Iff.rfl

theorem agedUpdate_readCounters :
    (state.readCounters round).agedUpdate round.ageing i =
      if (state.readCounters round).Updated round.ageing i then UInt32.ofNat round.seconds
      else if (state.readCounters round).TimedOut round.ageing i ∧ round.accepted i = true then 0
      else state.lastFlowUpdate i := rfl

theorem agedItem_readCounters :
    (state.readCounters round).agedItem round.ageing i =
      if ¬ (state.readCounters round).Updated round.ageing i ∧
          (state.readCounters round).TimedOut round.ageing i ∧ round.accepted i = true then
        some (round.sessions i)
      else none := rfl

variable {state round i}

-- With this equation the kernel never compares a projection of the loop, which it would run.
theorem ageRound_eq : state.ageRound round =
    processAndAgeFeature round.ageing (state.readCounters round) := by
  unfold FeatureState.ageRound
  rfl

theorem ageRound_current (low : 4 ≤ i) (high : i < featureSize) :
    ((state.ageRound round).1.registerCount.at i).current = round.counters i := by
  rw [ageRound_eq, at_processAndAgeFeature (mem_featureSlots.mpr ⟨low, high⟩)]
  exact current_readCounters state round i

theorem ageRound_lastFlowUpdate (low : 4 ≤ i) (high : i < featureSize) :
    (state.ageRound round).1.lastFlowUpdate i =
      (state.readCounters round).agedUpdate round.ageing i := by
  rw [ageRound_eq]
  exact processAndAgeFeature_lastFlowUpdate low high

theorem mem_ageRound {v : Int} :
    v ∈ (state.ageRound round).2 ↔ ∃ i : Int, 4 ≤ i ∧ i < featureSize ∧
      (state.readCounters round).agedItem round.ageing i = some v := by
  rw [ageRound_eq]
  exact mem_processAndAgeFeature_iff

end Read

theorem roundsAfter_succ (rounds : Nat → CountRound) (n : Nat) :
    roundsAfter rounds (n + 1) = (roundsAfter rounds n).1.ageRound (rounds n) := by
  rw [roundsAfter]

/-- The buffer holds what the round before has read. -/
theorem roundsAfter_current (rounds : Nat → CountRound) (n : Nat) (low : 4 ≤ i)
    (high : i < featureSize) :
    ((roundsAfter rounds n).1.registerCount.at i).current = counterBefore rounds i n := by
  cases n with
  | zero => rfl
  | succ n =>
      rw [roundsAfter_succ, ageRound_current low high]
      rfl

/-- The first branch of the loop: the counter changes, or the session has no time noted. -/
theorem updated_iff (low : 4 ≤ i) (high : i < featureSize) :
    ((roundsAfter rounds n).1.readCounters (rounds n)).Updated (rounds n).ageing i ↔
      ChangesAt rounds n i ∨ notedBefore rounds n i = 0 ∧ (rounds n).sessions i ≠ -1 := by
  unfold ChangesAt notedBefore
  rw [updated_readCounters, roundsAfter_current rounds n low high]

theorem notedBefore_succ (rounds : Nat → CountRound) (n : Nat) (low : 4 ≤ i)
    (high : i < featureSize) :
    notedBefore rounds (n + 1) i =
      if ((roundsAfter rounds n).1.readCounters (rounds n)).Updated (rounds n).ageing i then
        UInt32.ofNat (rounds n).seconds
      else if ((roundsAfter rounds n).1.readCounters (rounds n)).TimedOut (rounds n).ageing i ∧
          (rounds n).accepted i = true then 0
      else notedBefore rounds n i := by
  rw [notedBefore, roundsAfter_succ, ageRound_lastFlowUpdate low high, agedUpdate_readCounters,
    notedBefore]

/-- The second branch: what is known of a session whose timeout is enqueued. -/
theorem timesOutAt_iff {v : Int} :
    TimesOutAt rounds n v ↔
      ∃ i : Int, 4 ≤ i ∧ i < featureSize ∧ (rounds n).sessions i = v ∧ v ≠ -1 ∧
        ¬ ChangesAt rounds n i ∧ notedBefore rounds n i ≠ 0 ∧
        notedBefore rounds n i < UInt32.ofNat (rounds n).seconds - flowTimeout ∧
        (rounds n).accepted i = true := by
  rw [TimesOutAt, roundsAfter_succ, mem_ageRound]
  refine exists_congr fun i => and_congr_right fun low => and_congr_right fun high => ?_
  rw [agedItem_readCounters, Option.ite_none_right_eq_some, updated_iff low high,
    timedOut_readCounters, not_or, not_and]
  unfold notedBefore
  constructor
  · intro given
    rcases given with ⟨⟨⟨unchanged, noted⟩, ⟨due, live⟩, accepted⟩, item⟩
    have session : (rounds n).sessions i = v := Option.some.inj item
    exact ⟨session, session ▸ live, unchanged, fun unnoted => noted unnoted live, due, accepted⟩
  · intro given
    rcases given with ⟨rfl, live, unchanged, noted, due, accepted⟩
    exact ⟨⟨⟨unchanged, fun unnoted => absurd unnoted noted⟩, ⟨due, live⟩, accepted⟩, rfl⟩

/-! ## Since a time was noted -/

/-- The time noted for the slot before round `n` is that of round `k`, and the counter has not
changed since. -/
structure NotedIn (rounds : Nat → CountRound) (i : Int) (n k : Nat) : Prop where
  earlier : k < n
  noted : ∀ m, k < m → m ≤ n → notedBefore rounds m i = UInt32.ofNat (rounds k).seconds
  quiet : ∀ m, k < m → m < n → ¬ ChangesAt rounds m i

theorem exists_notedIn (low : 4 ≤ i) (high : i < featureSize) (noted : notedBefore rounds n i ≠ 0) :
    ∃ k, NotedIn rounds i n k := by
  induction n with
  | zero => exact absurd rfl noted
  | succ n ih =>
      have next := notedBefore_succ rounds n low high
      split at next
      · -- Noted in this round.
        refine ⟨n, Nat.lt_succ_self n, fun m after before => ?_, fun m after before => ?_⟩
        · have last : m = n + 1 := by omega
          rw [last]
          exact next
        · omega
      · rename_i settled
        split at next
        · exact absurd next noted
        · have kept : notedBefore rounds (n + 1) i = notedBefore rounds n i := next
          obtain ⟨k, notedIn⟩ := ih (kept ▸ noted)
          have earlier := notedIn.earlier
          rw [updated_iff low high, not_or] at settled
          refine ⟨k, by omega, fun m after before => ?_, fun m after before => ?_⟩
          · rcases Nat.lt_or_eq_of_le before with inside | rfl
            · exact notedIn.noted m after (by omega)
            · rw [kept]
              exact notedIn.noted n earlier le_rfl
          · rcases Nat.lt_or_eq_of_le (Nat.le_of_lt_succ before) with inside | rfl
            · exact notedIn.quiet m after inside
            · exact settled.1

/-- When all rounds are orderly, the session of the slot is the one that the time was noted
for. -/
theorem NotedIn.sessions {k : Nat} (notedIn : NotedIn rounds i n k) (low : 4 ≤ i)
    (high : i < featureSize) (orderly : ∀ m ≤ n, Orderly rounds m)
    (live : (rounds n).sessions i ≠ -1) (noted : notedBefore rounds n i ≠ 0)
    (unchanged : ¬ ChangesAt rounds n i) {m : Nat} (after : k ≤ m) (before : m ≤ n) :
    (rounds m).sessions i = (rounds n).sessions i := by
  -- From the last round backwards.
  refine Nat.decreasingInduction' (P := fun m => (rounds m).sessions i = (rounds n).sessions i)
    ?_ before rfl
  intro j inside _ next
  have noted' : notedBefore rounds (j + 1) i ≠ 0 := by
    rw [notedIn.noted (j + 1) (by omega) inside, ← notedIn.noted n notedIn.earlier le_rfl]
    exact noted
  have unchanged' : ¬ ChangesAt rounds (j + 1) i := by
    have upTo : j + 1 ≤ n := inside
    rcases Nat.lt_or_eq_of_le upTo with earlier | last
    · exact notedIn.quiet (j + 1) (by omega) earlier
    · rw [last]
      exact unchanged
  rw [← next]
  exact (orderly (j + 1) inside).same i low high (next ▸ live) noted' unchanged' j rfl

end Round

/-- A time of 32 bits below the limit is more than `FLOW_TIMEOUT` seconds ago, when the limit
has not wrapped around. -/
theorem past_of_lt_limit {past now : Nat} (earlier : past ≤ now) (late : 30 ≤ now % 2 ^ 32)
    (below : UInt32.ofNat past < UInt32.ofNat now - flowTimeout) : past + 30 < now := by
  have limit : (UInt32.ofNat now - flowTimeout).toNat = now % 2 ^ 32 - 30 := by
    rw [UInt32.toNat_sub_of_le]
    · rfl
    · rw [UInt32.le_iff_toNat_le]
      exact late
  rw [UInt32.lt_iff_toNat_lt, limit] at below
  change past % 2 ^ 32 < now % 2 ^ 32 - 30 at below
  omega

/-- In every run at seconds that never go back, no timeout up to an orderly round is
premature. -/
theorem no_premature_timeouts (rounds : Nat → CountRound)
    (clock : Monotone fun n => (rounds n).seconds) (n : Nat)
    (orderly : ∀ m ≤ n, Orderly rounds m) : NonePremature rounds n := by
  intro v enqueued
  obtain ⟨i, low, high, rfl, live, unchanged, noted, due, _⟩ := timesOutAt_iff.mp enqueued
  obtain ⟨k, notedIn⟩ := exists_notedIn low high noted
  have late := (orderly n le_rfl).clock i low high live noted unchanged
  have past : (rounds k).seconds + 30 < (rounds n).seconds := by
    rw [notedIn.noted n notedIn.earlier le_rfl] at due
    exact past_of_lt_limit (clock notedIn.earlier.le) late due
  refine ⟨by omega, i, low, high, rfl, fun m before recent => ?_⟩
  have after : k < m := by
    by_contra early
    have := clock (not_lt.mp early)
    dsimp only at this
    omega
  refine ⟨notedIn.sessions low high orderly live noted unchanged after.le before, ?_⟩
  rcases Nat.lt_or_eq_of_le before with inside | rfl
  · exact notedIn.quiet m after inside
  · exact unchanged

/-! ## An idle session, and one that has just come -/

section Runs

variable {rounds : Nat → CountRound} {n : Nat} {i : Int}

theorem notedBefore_of_unnoted (low : 4 ≤ i) (high : i < featureSize)
    (unnoted : notedBefore rounds n i = 0) (live : (rounds n).sessions i ≠ -1) :
    notedBefore rounds (n + 1) i = UInt32.ofNat (rounds n).seconds := by
  rw [notedBefore_succ rounds n low high]
  exact if_pos ((updated_iff low high).mpr (Or.inr ⟨unnoted, live⟩))

/-- A slot without a session keeps the time noted for it. -/
theorem notedBefore_of_free (low : 4 ≤ i) (high : i < featureSize)
    (unchanged : ¬ ChangesAt rounds n i) (free : (rounds n).sessions i = -1) :
    notedBefore rounds (n + 1) i = notedBefore rounds n i := by
  have settled : ¬ (ChangesAt rounds n i ∨
      notedBefore rounds n i = 0 ∧ (rounds n).sessions i ≠ -1) := by
    intro given
    rcases given with changed | ⟨_, live⟩
    · exact unchanged changed
    · exact live free
  rw [← updated_iff low high] at settled
  rw [notedBefore_succ rounds n low high, if_neg settled, if_neg]
  rw [timedOut_readCounters]
  exact fun due => due.1.2 free

end Runs

/-- The session that is alone in slot `5`, if there is one. -/
def onlySlot (session : Int) : Int → Int := fun i => if i = 5 then session else -1

/-- A session without packets, in a round every hundred seconds. -/
def idleRounds (n : Nat) : CountRound := ⟨100 * (n + 1), fun _ => 0, onlySlot 4, fun _ => true⟩

theorem no_premature_timeouts_idle :
    TimesOutAt idleRounds 1 4 ∧ NonePremature idleRounds 1 := by
  have unchanged : ∀ n i, ¬ ChangesAt idleRounds n i := by
    intro n i changed
    cases n <;> exact changed rfl
  have noted : notedBefore idleRounds 1 5 = 100 :=
    notedBefore_of_unnoted (by decide) (by decide) rfl (by decide)
  constructor
  · rw [timesOutAt_iff]
    refine ⟨5, by decide, by decide, rfl, by decide, unchanged 1 5, ?_, ?_, rfl⟩
    · rw [noted]
      decide
    · rw [noted]
      decide
  · apply no_premature_timeouts
    · intro a b le
      dsimp only [idleRounds]
      omega
    · intro m before
      refine ⟨fun i _ _ _ _ _ => ?_, fun i _ _ _ _ _ m _ => rfl⟩
      have small : (100 * (m + 1)) % 2 ^ 32 = 100 * (m + 1) := Nat.mod_eq_of_lt (by omega)
      dsimp only [idleRounds]
      rw [small]
      omega

/-- Session `4` leaves slot `5`, and session `8` takes it. -/
def staleRounds : Nat → CountRound
  | 0 => ⟨100, fun _ => 0, onlySlot 4, fun _ => true⟩
  | 1 => ⟨110, fun _ => 0, onlySlot (-1), fun _ => true⟩
  | _ + 2 => ⟨131, fun _ => 0, onlySlot 8, fun _ => true⟩

/-- The new session times out in the first round that sees it. -/
theorem new_session_times_out :
    Monotone (fun n => (staleRounds n).seconds) ∧ TimesOutAt staleRounds 2 8 ∧
      ¬ NonePremature staleRounds 2 := by
  have unchanged : ∀ n i, ¬ ChangesAt staleRounds n i := by
    intro n i changed
    match n with
    | 0 => exact changed rfl
    | 1 => exact changed rfl
    | 2 => exact changed rfl
    | _ + 3 => exact changed rfl
  have noted : notedBefore staleRounds 1 5 = 100 :=
    notedBefore_of_unnoted (by decide) (by decide) rfl (by decide)
  have kept : notedBefore staleRounds 2 5 = 100 :=
    (notedBefore_of_free (by decide) (by decide) (unchanged 1 5) rfl).trans noted
  have enqueued : TimesOutAt staleRounds 2 8 := by
    rw [timesOutAt_iff]
    refine ⟨5, by decide, by decide, rfl, by decide, unchanged 2 5, ?_, ?_, rfl⟩
    · rw [kept]
      decide
    · rw [kept]
      decide
  refine ⟨monotone_nat_of_le_succ ?_, enqueued, fun none => ?_⟩
  · intro n
    match n with
    | 0 => decide
    | 1 => decide
    | _ + 2 => exact le_rfl
  · obtain ⟨_, i, _, _, session, since⟩ := none 8 enqueued
    have slot : i = 5 := by
      by_contra other
      have free : onlySlot 8 i = -1 := if_neg other
      exact absurd (free.symm.trans session) (by decide)
    have before := (since 1 (by decide) (by decide)).1
    rw [slot] at before
    exact absurd before (by decide)

end Marina
