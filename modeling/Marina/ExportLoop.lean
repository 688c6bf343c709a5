import Mathlib

/-!
# When the export loop fires

`feature_export_thread` polls the monotonic clock and exports when the new sample is ahead
of the last export by its seconds and not behind it by its nanoseconds. An export is thus
never early (`featureExportThread_never_early`), but a sample that is two seconds ahead and
behind by its nanoseconds is passed over. `featureExportThread_once_per_second` says that
nothing else goes wrong.
-/

namespace Marina

/-- `struct timespec`, as the clock fills it. -/
@[ext]
structure Timespec where
  tvSec : Int
  tvNsec : Nat
  nsec_lt : tvNsec < 1000000000
deriving DecidableEq

namespace Timespec

def nanoseconds (t : Timespec) : Int := t.tvSec * 1000000000 + t.tvNsec

/-- At least one second lies between two samples. -/
def SecondPassed (reference t : Timespec) : Prop :=
  reference.nanoseconds + 1000000000 ≤ t.nanoseconds

instance (reference t : Timespec) : Decidable (reference.SecondPassed t) :=
  inferInstanceAs (Decidable (_ ≤ _))

/-- The second field has gone on by two or more while the nanoseconds have fallen. -/
def Skips (reference t : Timespec) : Prop :=
  reference.tvSec + 2 ≤ t.tvSec ∧ t.tvNsec < reference.tvNsec

end Timespec

/-! ## The loop -/

/-- The variables `now` and `last` of `feature_export_thread`. -/
structure ExportClock where
  now : Timespec
  last : Timespec

namespace ExportClock

/-- `SWAP_TIMEVAL(now, last)`. -/
def swapTimeval (clock : ExportClock) : ExportClock := { now := clock.last, last := clock.now }

/-- One turn of the inner loop, and whether an export is triggered in it. -/
def poll (clock : ExportClock) (sample : Timespec) : ExportClock × Bool :=
  let clock := { clock with now := sample }
  if clock.now.tvSec > clock.last.tvSec ∧ clock.now.tvNsec ≥ clock.last.tvNsec then
    (clock.swapTimeval, true)
  else
    (clock, false)

/-- The turns for a list of samples. -/
def polls : ExportClock → List Timespec → List Bool
  | _, [] => []
  | clock, sample :: rest => (clock.poll sample).2 :: (clock.poll sample).1.polls rest

/-- Every turn meets a condition on the variables before it and the sample. -/
def AllPolls (ok : ExportClock → Timespec → Prop) : ExportClock → List Timespec → Prop
  | _, [] => True
  | clock, sample :: rest => ok clock sample ∧ AllPolls ok (clock.poll sample).1 rest

end ExportClock

/-- `feature_export_thread` on the samples of its clock: at which of them it exports. The
first sample goes to `last`, and `now` starts unset. -/
def featureExportThread (unset start : Timespec) (samples : List Timespec) : List Bool :=
  ExportClock.polls { now := unset, last := start } samples

/-! ## What it is for -/

/-- Whether each sample triggers is right, given the sample of the last export before it. -/
def Triggered (right : Timespec → Timespec → Bool → Prop) :
    Timespec → List Timespec → List Bool → Prop
  | _, [], [] => True
  | reference, sample :: samples, trigger :: triggers =>
      right reference sample trigger
        ∧ Triggered right (if trigger then sample else reference) samples triggers
  | _, _, _ => False

/-- Exports are triggered exactly when a second has passed since the last one. -/
def OncePerSecond (start : Timespec) (samples : List Timespec) (triggers : List Bool) : Prop :=
  Triggered (fun reference sample trigger => trigger = true ↔ reference.SecondPassed sample)
    start samples triggers

/-- No export is triggered before a second has passed since the last one. -/
def NeverEarly (start : Timespec) (samples : List Timespec) (triggers : List Bool) : Prop :=
  Triggered (fun reference sample trigger => trigger = true → reference.SecondPassed sample)
    start samples triggers

/-! ## One turn -/

namespace ExportClock

variable (clock : ExportClock) (sample : Timespec)

theorem poll_trigger :
    (clock.poll sample).2 = true
      ↔ clock.last.tvSec < sample.tvSec ∧ clock.last.tvNsec ≤ sample.tvNsec := by
  unfold poll
  dsimp only
  split
  next fires => exact iff_of_true rfl fires
  next waits => exact iff_of_false Bool.false_ne_true waits

/-- `last` is the sample of the last export. -/
theorem poll_last :
    (clock.poll sample).1.last = if (clock.poll sample).2 then sample else clock.last := by
  unfold poll
  dsimp only
  split
  next => rfl
  next => rfl

theorem secondPassed_of_poll (fires : (clock.poll sample).2 = true) :
    clock.last.SecondPassed sample := by
  obtain ⟨seconds, nanoseconds⟩ := (clock.poll_trigger sample).mp fires
  unfold Timespec.SecondPassed Timespec.nanoseconds
  omega

/-- A turn is right unless it passes a sample over. -/
theorem poll_right :
    ((clock.poll sample).2 = true ↔ clock.last.SecondPassed sample)
      ↔ ¬ clock.last.Skips sample := by
  have lastNsec := clock.last.nsec_lt
  have sampleNsec := sample.nsec_lt
  rw [poll_trigger]
  unfold Timespec.SecondPassed Timespec.nanoseconds Timespec.Skips
  constructor
  · intro right post
    rcases post with ⟨ahead, behind⟩
    have passed := right.mpr (by omega)
    omega
  · intro kept
    constructor
    · intro given
      rcases given with ⟨seconds, nanoseconds⟩
      omega
    · intro passed
      -- Less than two seconds of the field apart, the nanoseconds decide.
      by_cases near : sample.tvSec < clock.last.tvSec + 2
      · omega
      · have notBehind : ¬ sample.tvNsec < clock.last.tvNsec := fun behind =>
          kept ⟨by omega, behind⟩
        omega

end ExportClock

/-! ## Whole runs -/

namespace ExportClock

variable {ok ok' : ExportClock → Timespec → Prop}

theorem AllPolls.iff_of_forall (same : ∀ clock sample, ok clock sample ↔ ok' clock sample)
    (samples : List Timespec) :
    ∀ clock : ExportClock, AllPolls ok clock samples ↔ AllPolls ok' clock samples := by
  induction samples with
  | nil =>
      intro clock
      exact Iff.rfl
  | cons sample samples ih =>
      intro clock
      exact and_congr (same clock sample) (ih (clock.poll sample).1)

theorem AllPolls.of_forall (always : ∀ clock sample, ok clock sample)
    (samples : List Timespec) : ∀ clock : ExportClock, AllPolls ok clock samples := by
  induction samples with
  | nil =>
      intro clock
      exact True.intro
  | cons sample samples ih =>
      intro clock
      exact ⟨always clock sample, ih (clock.poll sample).1⟩

/-- The loop carries the reference in `last`, so a run is right when each turn is right
about its `last`. -/
theorem triggered_polls_iff (right : Timespec → Timespec → Bool → Prop)
    (samples : List Timespec) :
    ∀ clock : ExportClock, Triggered right clock.last samples (clock.polls samples)
      ↔ AllPolls (fun clock sample => right clock.last sample (clock.poll sample).2)
        clock samples := by
  induction samples with
  | nil =>
      intro clock
      exact Iff.rfl
  | cons sample samples ih =>
      intro clock
      rw [polls, Triggered, AllPolls, ← poll_last, ih]

end ExportClock

/-- No run exports early. -/
theorem featureExportThread_never_early (unset start : Timespec) (samples : List Timespec) :
    NeverEarly start samples (featureExportThread unset start samples) := by
  let first : ExportClock := { now := unset, last := start }
  apply (ExportClock.triggered_polls_iff
    (fun reference sample trigger => trigger = true → reference.SecondPassed sample)
    samples first).mpr
  apply ExportClock.AllPolls.of_forall
  intro clock sample fires
  exact clock.secondPassed_of_poll sample fires

/-- A run exports once per second exactly when none of its turns passes a sample over. -/
theorem featureExportThread_once_per_second (unset start : Timespec) (samples : List Timespec) :
    OncePerSecond start samples (featureExportThread unset start samples)
      ↔ ExportClock.AllPolls (fun clock sample => ¬ clock.last.Skips sample)
        { now := unset, last := start } samples := by
  let first : ExportClock := { now := unset, last := start }
  have turns := ExportClock.triggered_polls_iff
    (fun reference sample trigger => trigger = true ↔ reference.SecondPassed sample) samples first
  have exactTurn := ExportClock.AllPolls.iff_of_forall ExportClock.poll_right samples first
  exact turns.trans exactTurn

/-- At 0.9 s and then at 2.1 s: no export, although 1.2 s have passed. -/
theorem export_passed_over :
    ¬ ∀ (unset start : Timespec) (samples : List Timespec),
      (start :: samples).Pairwise (fun before after => before.nanoseconds ≤ after.nanoseconds) →
      OncePerSecond start samples (featureExportThread unset start samples) := by
  intro always
  let start : Timespec := ⟨0, 900000000, by decide⟩
  let sample : Timespec := ⟨2, 100000000, by decide⟩
  have right := always start start [sample] (by decide)
  have passed : start.SecondPassed sample := by decide
  have silent : featureExportThread start start [sample] = [false] := by decide
  rw [silent] at right
  exact Bool.false_ne_true (right.1.mpr passed)

end Marina
