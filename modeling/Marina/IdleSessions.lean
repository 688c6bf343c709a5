import Marina.PrematureTimeouts

/-!
# Idle sessions time out, and not too often

The other side of `no_premature_timeouts`, for the same rounds: the timeout of a session
without packets is enqueued at the latest in the first round that is more than `FLOW_TIMEOUT`
seconds after its last packet was seen, whatever time the slot had noted before
(`idle_session_times_out`). When the packet ring refuses the timeout the noted time stays, so
the next round tries again; when the ring takes it the noted time goes, so the slot has to wait
for another `FLOW_TIMEOUT` seconds (`timeouts_of_slot_apart`).
-/

namespace Marina

section Slot

variable {rounds : Nat → CountRound} {n m a : Nat} {i v : Int}

/-- A round that enqueues no timeout for the session of a slot notes its own time there or
keeps the time that is noted. -/
theorem notedBefore_of_spared (low : 4 ≤ i) (high : i < featureSize)
    (held : (rounds n).sessions i = v) (live : v ≠ -1) (spared : ¬ TimesOutAt rounds n v) :
    (ChangesAt rounds n i ∨ notedBefore rounds n i = 0) ∧
        notedBefore rounds (n + 1) i = UInt32.ofNat (rounds n).seconds ∨
      notedBefore rounds n i ≠ 0 ∧ notedBefore rounds (n + 1) i = notedBefore rounds n i := by
  rw [notedBefore_succ rounds n low high]
  split
  · rename_i updated
    rw [updated_iff low high, held, and_iff_left live] at updated
    exact Or.inl ⟨updated, rfl⟩
  · rename_i settled
    rw [updated_iff low high, held, and_iff_left live] at settled
    rcases not_or.mp settled with ⟨unchanged, noted⟩
    refine Or.inr ⟨noted, if_neg ?_⟩
    rw [timedOut_readCounters]
    rintro ⟨⟨due, _⟩, accepted⟩
    exact spared (timesOutAt_iff.mpr ⟨i, low, high, held, live, unchanged, noted, due, accepted⟩)

/-- While nothing is enqueued for an idle session, the time noted for its slot is not later
than the round that saw its last packet. -/
theorem noted_of_idle (low : 4 ≤ i) (high : i < featureSize)
    (clock : Monotone fun n => (rounds n).seconds) (started : 0 < (rounds a).seconds)
    (narrow : (rounds a).seconds < 2 ^ 32) (live : v ≠ -1) (after : a ≤ n)
    (held : ∀ m, a ≤ m → m ≤ n → (rounds m).sessions i = v)
    (idle : ∀ m, a < m → m ≤ n → ¬ ChangesAt rounds m i)
    (spared : ∀ m, a ≤ m → m ≤ n → ¬ TimesOutAt rounds m v) :
    notedBefore rounds (n + 1) i ≠ 0 ∧
      (notedBefore rounds (n + 1) i).toNat ≤ (rounds a).seconds := by
  induction n, after using Nat.le_induction with
  | base =>
      rcases notedBefore_of_spared low high (held a le_rfl le_rfl) live (spared a le_rfl le_rfl)
        with ⟨_, next⟩ | ⟨noted, next⟩
      · have now : (UInt32.ofNat (rounds a).seconds).toNat = (rounds a).seconds :=
          UInt32.toNat_ofNat_of_lt' narrow
        rw [next, now]
        refine ⟨fun unnoted => ?_, le_rfl⟩
        rw [unnoted] at now
        exact started.ne now
      · -- The time was noted in a round before.
        rcases exists_notedIn low high noted with ⟨k, notedIn⟩
        have earlier := clock notedIn.earlier.le
        dsimp only at earlier
        rw [next]
        refine ⟨noted, le_trans ?_ earlier⟩
        rw [notedIn.noted a notedIn.earlier le_rfl]
        exact Nat.mod_le _ _
  | succ n after ih =>
      have before := ih (fun m later upTo => held m later (by omega))
        (fun m later upTo => idle m later (by omega))
        (fun m later upTo => spared m later (by omega))
      rcases notedBefore_of_spared low high (held (n + 1) (by omega) le_rfl) live
        (spared (n + 1) (by omega) le_rfl) with ⟨updated, _⟩ | ⟨_, next⟩
      · rcases updated with changed | unnoted
        · exact absurd changed (idle (n + 1) (by omega) le_rfl)
        · exact absurd unnoted before.1
      · rw [next]
        exact before

/-- A timeout that is enqueued takes the noted time away. -/
theorem notedBefore_of_timesOut (only : ∀ j, (rounds n).sessions j = v → j = i)
    (enqueued : TimesOutAt rounds n v) : notedBefore rounds (n + 1) i = 0 := by
  rcases timesOutAt_iff.mp enqueued with
    ⟨j, low, high, held, live, unchanged, noted, due, accepted⟩
  obtain rfl := only j held
  rw [notedBefore_succ rounds n low high, if_neg, if_pos]
  · rw [timedOut_readCounters, held]
    exact ⟨⟨due, live⟩, accepted⟩
  · rw [updated_iff low high]
    rintro (changed | unnoted)
    · exact unchanged changed
    · exact noted unnoted.1

end Slot

/-- The limit that a noted time is compared with, when it has not wrapped around. -/
theorem limit_toNat {now : Nat} (late : 30 ≤ now) (narrow : now < 2 ^ 32) :
    (UInt32.ofNat now - flowTimeout).toNat = now - 30 := by
  have same : (UInt32.ofNat now).toNat = now := UInt32.toNat_ofNat_of_lt' narrow
  rw [UInt32.toNat_sub_of_le]
  · exact congrArg (· - 30) same
  · rw [UInt32.le_iff_toNat_le, same]
    exact late

/-- In every run of rounds at seconds that never go back, a session that stays in its slot
without packets, while the other sessions and counters do anything, times out: at the latest in
the first round later than `FLOW_TIMEOUT` seconds after its last packet that finds room in the
packet ring. -/
theorem idle_session_times_out (rounds : Nat → CountRound)
    (clock : Monotone fun n => (rounds n).seconds) {a n : Nat} {i v : Int} (low : 4 ≤ i)
    (high : i < featureSize) (live : v ≠ -1) (started : 0 < (rounds a).seconds)
    (narrow : (rounds n).seconds < 2 ^ 32) (late : (rounds a).seconds + 30 < (rounds n).seconds)
    (held : ∀ m, a ≤ m → m ≤ n → (rounds m).sessions i = v)
    (idle : ∀ m, a < m → m ≤ n → ¬ ChangesAt rounds m i)
    (accepted : (rounds n).accepted i = true) :
    ∃ m, a ≤ m ∧ m ≤ n ∧ TimesOutAt rounds m v := by
  by_contra none
  push Not at none
  have after : a < n := by
    by_contra early
    have := clock (not_lt.mp early)
    dsimp only at this
    omega
  obtain ⟨before, rfl⟩ : ∃ before, n = before + 1 := ⟨n - 1, by omega⟩
  rcases noted_of_idle (n := before) low high clock started (by omega) live (by omega)
    (fun m later upTo => held m later (by omega)) (fun m later upTo => idle m later (by omega))
    (fun m later upTo => none m later (by omega)) with ⟨noted, past⟩
  refine none (before + 1) after.le le_rfl (timesOutAt_iff.mpr ⟨i, low, high,
    held _ after.le le_rfl, live, idle _ after le_rfl, noted, ?_, accepted⟩)
  rw [UInt32.lt_iff_toNat_lt, limit_toNat (by omega) narrow]
  omega

section Idle

variable {n : Nat}

theorem idleRounds_clock : Monotone fun n => (idleRounds n).seconds := by
  intro a b le
  dsimp only [idleRounds]
  omega

theorem idleRounds_unchanged (n : Nat) (i : Int) : ¬ ChangesAt idleRounds n i := by
  intro changed
  cases n <;> exact changed rfl

/-- When a round has noted its time, the round after it times the session out. -/
theorem idleRounds_timesOut (small : 100 * (n + 2) < 2 ^ 32)
    (noted : notedBefore idleRounds (n + 1) 5 = UInt32.ofNat (idleRounds n).seconds) :
    TimesOutAt idleRounds (n + 1) 4 := by
  have past : (UInt32.ofNat (100 * (n + 1))).toNat = 100 * (n + 1) :=
    UInt32.toNat_ofNat_of_lt' (lt_of_le_of_lt (by omega) small)
  rw [timesOutAt_iff]
  refine ⟨5, by decide, by decide, rfl, by decide, idleRounds_unchanged _ _, ?_, ?_, rfl⟩
  · intro unnoted
    rw [noted] at unnoted
    change UInt32.ofNat (100 * (n + 1)) = 0 at unnoted
    rw [unnoted] at past
    change 0 = _ at past
    omega
  · rw [noted]
    change UInt32.ofNat (100 * (n + 1)) < UInt32.ofNat (100 * (n + 2)) - flowTimeout
    rw [UInt32.lt_iff_toNat_lt, past, limit_toNat (by omega) small]
    omega

end Idle

theorem idle_session_times_out_idle : ∃ m, 0 ≤ m ∧ m ≤ 1 ∧ TimesOutAt idleRounds m 4 :=
  idle_session_times_out idleRounds idleRounds_clock (a := 0) (n := 1) (i := 5) (by decide)
    (by decide) (by decide) (by decide) (by decide) (by decide) (fun _ _ _ => rfl)
    (fun m _ _ => idleRounds_unchanged m 5) rfl

/-- In every run of rounds at seconds that never go back, two timeouts of one session in one
slot are more than `FLOW_TIMEOUT` seconds apart, unless the limit of the second has wrapped
around. -/
theorem timeouts_of_slot_apart (rounds : Nat → CountRound)
    (clock : Monotone fun n => (rounds n).seconds) {m n : Nat} {i v : Int} (earlier : m < n)
    (only : ∀ j, (rounds m).sessions j = v ∨ (rounds n).sessions j = v → j = i)
    (late : 30 ≤ (rounds n).seconds % 2 ^ 32) (first : TimesOutAt rounds m v)
    (second : TimesOutAt rounds n v) : (rounds m).seconds + 30 < (rounds n).seconds := by
  have cleared := notedBefore_of_timesOut (fun j held => only j (Or.inl held)) first
  rcases timesOutAt_iff.mp second with ⟨j, low, high, held, _, _, noted, due, _⟩
  obtain rfl := only j (Or.inr held)
  rcases exists_notedIn low high noted with ⟨k, notedIn⟩
  have last := notedIn.noted n notedIn.earlier le_rfl
  have after : m < k := by
    by_contra early
    apply noted
    rw [last, ← notedIn.noted (m + 1) (by omega) earlier, cleared]
  have past : (rounds k).seconds + 30 < (rounds n).seconds := by
    rw [last] at due
    exact past_of_lt_limit (clock notedIn.earlier.le) late due
  have between := clock after.le
  dsimp only at between
  omega

/-- The idle session is timed out in every second round. -/
theorem timeouts_of_slot_apart_idle :
    TimesOutAt idleRounds 1 4 ∧ TimesOutAt idleRounds 3 4 ∧
      (idleRounds 1).seconds + 30 < (idleRounds 3).seconds := by
  have only : ∀ n j, (idleRounds n).sessions j = 4 → j = 5 := by
    intro n j held
    by_contra other
    have free : onlySlot 4 j = -1 := if_neg other
    exact absurd (free.symm.trans held) (by decide)
  have first : TimesOutAt idleRounds 1 4 :=
    idleRounds_timesOut (by decide) (notedBefore_of_unnoted (by decide) (by decide) rfl (by decide))
  have cleared : notedBefore idleRounds 2 5 = 0 := notedBefore_of_timesOut (only 1) first
  have second : TimesOutAt idleRounds 3 4 :=
    idleRounds_timesOut (by decide)
      (notedBefore_of_unnoted (by decide) (by decide) cleared (by decide))
  refine ⟨first, second, ?_⟩
  exact timeouts_of_slot_apart idleRounds idleRounds_clock (by decide)
    (fun j held => held.elim (only 1 j) (only 3 j)) (by decide) first second

end Marina
