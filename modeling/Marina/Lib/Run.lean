import Marina.Lib.Exec

/-!
# Runs of a state machine with faults

A state machine is a step function into `Exec`, and a run feeds it a list of inputs.
`AllSteps` says that every step taken meets a condition on the state before it and its
input, `AllStates` that no step faults or hangs and every state satisfies a predicate,
and `StatesUntil` the same up to the first occurrence of one fault.

`AllStates.of_invariant` and `StatesUntil.of_invariant` are the invariant rules: what
one step keeps, the run keeps. `allStates_iff_allSteps` is the exact form, for a
condition whose first violation shows in the next state.
-/

namespace Marina.Lib

open Exec

variable {ε σ ι : Type}

/-- Every step of the run meets `ok`. -/
def AllSteps (step : σ → ι → Exec ε σ) (ok : σ → ι → Prop) : σ → List ι → Prop
  | _, [] => True
  | s, i :: rest => ok s i ∧ ∀ s', step s i = pure s' → AllSteps step ok s' rest

/-- Every step of the run returns, and every state satisfies `p`. -/
def AllStates (step : σ → ι → Exec ε σ) (p : σ → Prop) : σ → List ι → Prop
  | s, [] => p s
  | s, i :: rest => p s ∧ Returns (step s i) fun s' => AllStates step p s' rest

/-- Every step up to the first fault `e` returns, and every state up to there
satisfies `p`. -/
def StatesUntil (e : ε) (step : σ → ι → Exec ε σ) (p : σ → Prop) : σ → List ι → Prop
  | s, [] => p s
  | s, i :: rest => p s ∧ ReturnsOr e (step s i) fun s' => StatesUntil e step p s' rest

variable {e : ε} {step : σ → ι → Exec ε σ} {ok ok' : σ → ι → Prop} {p q I : σ → Prop}

theorem AllSteps.of_forall {inputs : List ι} :
    ∀ {s : σ}, (∀ s, ∀ i ∈ inputs, ok s i) → AllSteps step ok s inputs := by
  induction inputs with
  | nil =>
      intro s _
      exact True.intro
  | cons i rest ih =>
      intro s always
      refine ⟨always s i List.mem_cons_self, fun s' _ => ?_⟩
      exact ih fun s j member => always s j (List.mem_cons_of_mem i member)

theorem AllSteps.always {s : σ} {inputs : List ι} : AllSteps step (fun _ _ => True) s inputs :=
  .of_forall fun _ _ _ => True.intro

theorem AllSteps.and {inputs : List ι} :
    ∀ {s : σ}, AllSteps step ok s inputs → AllSteps step ok' s inputs →
      AllSteps step (fun s i => ok s i ∧ ok' s i) s inputs := by
  induction inputs with
  | nil =>
      intro s _ _
      exact True.intro
  | cons i rest ih =>
      intro s first second
      exact ⟨⟨first.1, second.1⟩, fun s' next => ih (first.2 s' next) (second.2 s' next)⟩

/-- One step of a run that is known to return. -/
theorem AllSteps.cons {s s' : σ} {i : ι} {rest : List ι} (met : ok s i)
    (next : step s i = pure s') (later : AllSteps step ok s' rest) :
    AllSteps step ok s (i :: rest) := by
  refine ⟨met, fun s'' next' => ?_⟩
  rw [next, pure_inj] at next'
  exact next' ▸ later

/-- A run in two parts. -/
theorem AllSteps.append {first rest : List ι} :
    ∀ {s : σ}, AllSteps step ok s first →
      (∀ s', first.foldlM step s = pure s' → AllSteps step ok s' rest) →
      AllSteps step ok s (first ++ rest) := by
  induction first with
  | nil =>
      intro s _ later
      exact later s rfl
  | cons i first ih =>
      intro s steps later
      refine ⟨steps.1, fun s' next => ih (steps.2 s' next) fun s'' run => later s'' ?_⟩
      rw [List.foldlM_cons, next, pure_bind]
      exact run

/-- The steps of a run after its first inputs. -/
theorem AllSteps.after {first rest : List ι} :
    ∀ {s s' : σ}, first.foldlM step s = pure s' → AllSteps step ok s (first ++ rest) →
      AllSteps step ok s' rest := by
  induction first with
  | nil =>
      intro s s' run steps
      rw [List.foldlM_nil, pure_inj] at run
      exact run ▸ steps
  | cons i first ih =>
      intro s s' run steps
      rw [List.foldlM_cons, bind_eq_pure] at run
      obtain ⟨middle, next, later⟩ := run
      exact ih later (steps.2 middle next)

/-- The first steps of a run. -/
theorem AllSteps.of_append {first rest : List ι} :
    ∀ {s : σ}, AllSteps step ok s (first ++ rest) → AllSteps step ok s first := by
  induction first with
  | nil =>
      intro s _
      exact True.intro
  | cons i first ih =>
      intro s steps
      exact ⟨steps.1, fun s' next => ih (steps.2 s' next)⟩

/-- What every step that meets the condition keeps holds at the end of the run. -/
theorem AllSteps.holds_after (keeps : ∀ s i s', I s → ok s i → step s i = pure s' → I s')
    {inputs : List ι} :
    ∀ {s s' : σ}, I s → AllSteps step ok s inputs → inputs.foldlM step s = pure s' → I s' := by
  induction inputs with
  | nil =>
      intro s s' holds _ run
      rw [List.foldlM_nil, pure_inj] at run
      exact run ▸ holds
  | cons i rest ih =>
      intro s s' holds steps run
      rw [List.foldlM_cons, bind_eq_pure] at run
      obtain ⟨middle, next, later⟩ := run
      exact ih (keeps s i middle holds steps.1 next) (steps.2 middle next) later

/-- What every step that meets the condition keeps lets every step meet another one. -/
theorem AllSteps.of_invariant (keeps : ∀ s i s', I s → ok s i → step s i = pure s' → I s')
    (implies : ∀ s i, I s → ok s i → ok' s i) {inputs : List ι} :
    ∀ {s : σ}, I s → AllSteps step ok s inputs → AllSteps step ok' s inputs := by
  induction inputs with
  | nil =>
      intro s _ _
      exact True.intro
  | cons i rest ih =>
      intro s holds steps
      refine ⟨implies s i holds steps.1, fun s' next => ?_⟩
      exact ih (keeps s i s' holds steps.1 next) (steps.2 s' next)

theorem AllStates.head {s : σ} {inputs : List ι} (states : AllStates step p s inputs) : p s := by
  cases inputs with
  | nil => exact states
  | cons i rest => exact states.1

/-- The last state of a run of steps that always return. -/
theorem AllStates.last {next : σ → ι → σ} {inputs : List ι} :
    ∀ {s : σ}, AllStates (ε := ε) (fun s i => pure (next s i)) p s inputs →
      p (inputs.foldl next s) := by
  induction inputs with
  | nil =>
      intro s states
      exact states
  | cons i rest ih =>
      intro s states
      exact ih (states.2.of_pure rfl)

theorem StatesUntil.head {s : σ} {inputs : List ι} (states : StatesUntil e step p s inputs) :
    p s := by
  cases inputs with
  | nil => exact states
  | cons i rest => exact states.1

/-- The states of a run after its first inputs. -/
theorem StatesUntil.after {first rest : List ι} :
    ∀ {s s' : σ}, first.foldlM step s = pure s' → StatesUntil e step p s (first ++ rest) →
      StatesUntil e step p s' rest := by
  induction first with
  | nil =>
      intro s s' run states
      rw [List.foldlM_nil, pure_inj] at run
      exact run ▸ states
  | cons i first ih =>
      intro s s' run states
      rw [List.foldlM_cons, bind_eq_pure] at run
      obtain ⟨middle, next, later⟩ := run
      exact ih later (states.2.of_pure next)

/-- What every step that meets the condition keeps holds in every state of the run. -/
theorem AllStates.of_invariant (keeps : ∀ s i, I s → ok s i → Returns (step s i) I)
    (implies : ∀ s, I s → p s) {inputs : List ι} :
    ∀ {s : σ}, I s → AllSteps step ok s inputs → AllStates step p s inputs := by
  induction inputs with
  | nil =>
      intro s holds _
      exact implies s holds
  | cons i rest ih =>
      intro s holds steps
      obtain ⟨s', next, holds'⟩ := keeps s i holds steps.1
      exact ⟨implies s holds, s', next, ih holds' (steps.2 s' next)⟩

/-- The invariant rule up to the first fault `e`. -/
theorem StatesUntil.of_invariant (keeps : ∀ s i, I s → ok s i → ReturnsOr e (step s i) I)
    (implies : ∀ s, I s → p s) {inputs : List ι} :
    ∀ {s : σ}, I s → AllSteps step ok s inputs → StatesUntil e step p s inputs := by
  induction inputs with
  | nil =>
      intro s holds _
      exact implies s holds
  | cons i rest ih =>
      intro s holds steps
      refine ⟨implies s holds, ?_⟩
      rcases keeps s i holds steps.1 with ⟨s', next, holds'⟩ | faulted
      · exact Or.inl ⟨s', next, ih holds' (steps.2 s' next)⟩
      · exact Or.inr faulted

/-- When a step outside the condition never ends in a state with `p`, the condition is
exact. -/
theorem allStates_iff_allSteps (keeps : ∀ s i, I s → ok s i → Returns (step s i) I)
    (breaks : ∀ s i, I s → ¬ ok s i → ¬ Returns (step s i) p)
    (implies : ∀ s, I s → p s) {inputs : List ι} {s : σ} (holds : I s) :
    AllStates step p s inputs ↔ AllSteps step ok s inputs := by
  refine ⟨?_, AllStates.of_invariant keeps implies holds⟩
  induction inputs generalizing s with
  | nil =>
      intro _
      exact True.intro
  | cons i rest ih =>
      intro states
      have met : ok s i := by
        by_contra broken
        exact breaks s i holds broken (states.2.mono fun s' later => later.head)
      refine ⟨met, fun s' next => ?_⟩
      exact ih ((keeps s i holds met).of_pure next) (states.2.of_pure next)

/-- The exact form up to the first fault `e`, for a condition that no step ending in `e`
violates. -/
theorem statesUntil_iff_allSteps (keeps : ∀ s i, I s → ok s i → ReturnsOr e (step s i) I)
    (breaks : ∀ s i, I s → ¬ ok s i → Returns (step s i) fun s' => ¬ p s')
    (implies : ∀ s, I s → p s) {inputs : List ι} {s : σ} (holds : I s) :
    StatesUntil e step p s inputs ↔ AllSteps step ok s inputs := by
  refine ⟨?_, StatesUntil.of_invariant keeps implies holds⟩
  induction inputs generalizing s with
  | nil =>
      intro _
      exact True.intro
  | cons i rest ih =>
      intro states
      have met : ok s i := by
        by_contra broken
        obtain ⟨s', next, fails⟩ := breaks s i holds broken
        rcases states.2 with later | faulted
        · exact fails (later.of_pure next).head
        · exact throw_ne_pure (faulted.symm.trans next)
      refine ⟨met, fun s' next => ?_⟩
      rcases keeps s i holds met with kept | faulted
      · rcases states.2 with later | faulted
        · exact ih (kept.of_pure next) (later.of_pure next)
        · exact absurd (faulted.symm.trans next) throw_ne_pure
      · exact absurd (faulted.symm.trans next) throw_ne_pure

/-- A condition on the inputs alone that holds along a run without faults holds of all of
them. -/
theorem AllSteps.forall_mem {good : ι → Prop} (keeps : ∀ s i, I s → good i → Returns (step s i) I)
    {inputs : List ι} :
    ∀ {s : σ}, I s → AllSteps step (fun _ i => good i) s inputs → ∀ i ∈ inputs, good i := by
  induction inputs with
  | nil =>
      intro s _ _ i member
      cases member
  | cons i rest ih =>
      intro s holds steps j member
      obtain ⟨s', next, holds'⟩ := keeps s i holds steps.1
      rcases List.mem_cons.mp member with rfl | member
      · exact steps.1
      · exact ih holds' (steps.2 s' next) j member

end Marina.Lib
