import Mathlib

/-!
# Executions that return, fault or run forever

`Exec ε α` is the outcome of running a piece of imperative code: `pure a` when it
returns `a`, `throw e` when it commits the fault `e`, and `none` when it never
returns. A loop without a bound of its own is a `partial_fixpoint` in this monad, so
that its termination is a theorem and never part of its definition.

`Exec.Returns x p` is total correctness: the execution returns, and the result
satisfies `p`. Callers compose callee specifications with `Exec.Returns.bind` and
never unfold the callee.
-/

namespace Marina.Lib

/-- An execution that returns a value, commits a fault, or never returns. -/
abbrev Exec (ε α : Type) : Type := ExceptT ε Option α

namespace Exec

variable {ε α β : Type}

theorem pure_inj {a b : α} : (pure a : Exec ε α) = pure b ↔ a = b := by
  constructor
  · intro equal
    exact Except.ok.inj (Option.some.inj equal)
  · intro same
    rcases same with rfl
    rfl

theorem throw_ne_pure {e : ε} {a : α} : (throw e : Exec ε α) ≠ pure a := by
  intro equal
  cases Option.some.inj equal

@[simp] theorem throw_bind (e : ε) (next : α → Exec ε β) :
    ((throw e : Exec ε α) >>= next) = throw e := rfl

/-- A sequence returns exactly when its first part returns a value from which
the rest returns. -/
theorem bind_eq_pure {first : Exec ε α} {next : α → Exec ε β} {b : β} :
    (first >>= next) = pure b ↔ ∃ a, first = pure a ∧ next a = pure b := by
  constructor
  · intro returned
    match first, returned with
    | some (.ok a), returned => exact ⟨a, rfl, returned⟩
  · intro given
    rcases given with ⟨a, rfl, returned⟩
    rw [pure_bind]
    exact returned

/-- The execution returns, and its result satisfies `p`. -/
def Returns (run : Exec ε α) (p : α → Prop) : Prop :=
  ∃ a, run = pure a ∧ p a

/-- The execution returns a result that satisfies `p`, or commits the fault `e`. -/
def ReturnsOr (e : ε) (run : Exec ε α) (p : α → Prop) : Prop :=
  Returns run p ∨ run = throw e

/-- The execution returns a result that satisfies `p`, or it commits the fault `e` and
`bad` holds. -/
def ReturnsUnless (e : ε) (bad : Prop) (run : Exec ε α) (p : α → Prop) : Prop :=
  Returns run p ∨ bad ∧ run = throw e

theorem Returns.pure {a : α} {p : α → Prop} (holds : p a) :
    Returns (Pure.pure a : Exec ε α) p :=
  ⟨a, rfl, holds⟩

theorem Returns.mono {run : Exec ε α} {p q : α → Prop}
    (returned : Returns run p) (weaken : ∀ a, p a → q a) : Returns run q := by
  obtain ⟨a, equal, holds⟩ := returned
  exact ⟨a, equal, weaken a holds⟩

theorem Returns.bind {first : Exec ε α} {next : α → Exec ε β} {p : α → Prop} {q : β → Prop}
    (returned : Returns first p) (continuation : ∀ a, p a → Returns (next a) q) :
    Returns (first >>= next) q := by
  obtain ⟨a, rfl, holds⟩ := returned
  rw [pure_bind]
  exact continuation a holds

theorem Returns.map {run : Exec ε α} {f : α → β} {p : β → Prop}
    (returned : Returns run fun a => p (f a)) : Returns (f <$> run) p := by
  obtain ⟨a, rfl, holds⟩ := returned
  exact ⟨f a, map_pure f a, holds⟩

theorem Returns.of_pure {run : Exec ε α} {a : α} {p : α → Prop}
    (returned : Returns run p) (equal : run = Pure.pure a) : p a := by
  obtain ⟨b, equal', holds⟩ := returned
  rw [equal, pure_inj] at equal'
  exact equal' ▸ holds

theorem returns_pure {a : α} {p : α → Prop} : Returns (pure a : Exec ε α) p ↔ p a :=
  ⟨fun returned => returned.of_pure rfl, .pure⟩

theorem Returns.orFault {e : ε} {run : Exec ε α} {p : α → Prop} (returned : Returns run p) :
    ReturnsOr e run p :=
  Or.inl returned

theorem ReturnsOr.of_pure {e : ε} {run : Exec ε α} {a : α} {p : α → Prop}
    (returned : ReturnsOr e run p) (equal : run = Pure.pure a) : p a := by
  rcases returned with good | faulted
  · exact good.of_pure equal
  · exact absurd (faulted.symm.trans equal) throw_ne_pure

theorem ReturnsOr.mono {e : ε} {run : Exec ε α} {p q : α → Prop}
    (returned : ReturnsOr e run p) (weaken : ∀ a, p a → q a) : ReturnsOr e run q :=
  returned.imp (fun good => good.mono weaken) id

theorem ReturnsOr.bind {e : ε} {first : Exec ε α} {next : α → Exec ε β}
    {p : α → Prop} {q : β → Prop} (returned : ReturnsOr e first p)
    (continuation : ∀ a, p a → ReturnsOr e (next a) q) : ReturnsOr e (first >>= next) q := by
  rcases returned with ⟨a, rfl, holds⟩ | rfl
  · rw [pure_bind]
    exact continuation a holds
  · exact Or.inr (throw_bind e next)

theorem Returns.unless {e : ε} {bad : Prop} {run : Exec ε α} {p : α → Prop}
    (returned : Returns run p) : ReturnsUnless e bad run p :=
  Or.inl returned

theorem ReturnsUnless.orFault {e : ε} {bad : Prop} {run : Exec ε α} {p : α → Prop}
    (returned : ReturnsUnless e bad run p) : ReturnsOr e run p :=
  returned.imp id And.right

theorem ReturnsUnless.returns {e : ε} {bad : Prop} {run : Exec ε α} {p : α → Prop}
    (returned : ReturnsUnless e bad run p) (good : ¬ bad) : Returns run p :=
  returned.resolve_right fun faulted => good faulted.1

theorem ReturnsUnless.of_pure {e : ε} {bad : Prop} {run : Exec ε α} {a : α} {p : α → Prop}
    (returned : ReturnsUnless e bad run p) (equal : run = Pure.pure a) : p a :=
  returned.orFault.of_pure equal

theorem ReturnsUnless.mono {e : ε} {bad : Prop} {run : Exec ε α} {p q : α → Prop}
    (returned : ReturnsUnless e bad run p) (weaken : ∀ a, p a → q a) : ReturnsUnless e bad run q :=
  returned.imp (fun good => good.mono weaken) id

theorem ReturnsUnless.bind {e : ε} {bad bad' : Prop} {first : Exec ε α} {next : α → Exec ε β}
    {p : α → Prop} {q : β → Prop} (returned : ReturnsUnless e bad first p)
    (implies : bad → bad') (continuation : ∀ a, p a → ReturnsUnless e bad' (next a) q) :
    ReturnsUnless e bad' (first >>= next) q := by
  rcases returned with ⟨a, rfl, holds⟩ | ⟨faulted, rfl⟩
  · rw [pure_bind]
    exact continuation a holds
  · exact Or.inr ⟨implies faulted, throw_bind e next⟩

end Exec

end Marina.Lib
