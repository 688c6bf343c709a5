import Mathlib

/-!
# Queues of pending commands

A producer appends commands to a queue, and a consumer executes them in order, each as a
change `apply` of its state. `Drains apply enabled s queue t` says that a consumer in
state `s` will find every command of the queue enabled when it gets there, and ends in
`t`. The producer reasons about `t` alone (`Drains.put`) and the consumer about `s` alone
(`Drains.get`), so neither has to know how far the other has come.
-/

namespace Marina.Lib

variable {σ α : Type}

inductive Drains (apply : σ → α → σ) (enabled : σ → α → Prop) : σ → List α → σ → Prop
  | nil (s : σ) : Drains apply enabled s [] s
  | cons {s t : σ} {a : α} {rest : List α} (ready : enabled s a)
      (later : Drains apply enabled (apply s a) rest t) : Drains apply enabled s (a :: rest) t

namespace Drains

variable {apply : σ → α → σ} {enabled : σ → α → Prop} {s t : σ} {a : α} {queue rest : List α}

/-- A command that is enabled at the end of the queue may be appended. -/
theorem put (drains : Drains apply enabled s queue t) (ready : enabled t a) :
    Drains apply enabled s (queue ++ [a]) (apply t a) := by
  induction drains with
  | nil s => exact .cons ready (.nil _)
  | cons ready' _ ih => exact .cons ready' (ih ready)

/-- The first command is enabled, and the rest of the queue drains to the same end. -/
theorem get (drains : Drains apply enabled s (a :: rest) t) :
    enabled s a ∧ Drains apply enabled (apply s a) rest t := by
  cases drains with
  | cons ready later => exact ⟨ready, later⟩

/-- What a consumer can drain, it can drain from a state above. -/
theorem mono {R : σ → σ → Prop} {s' : σ}
    (keeps : ∀ s s' a, R s s' → R (apply s a) (apply s' a))
    (enables : ∀ s s' a, R s s' → enabled s a → enabled s' a)
    (drains : Drains apply enabled s queue t) (above : R s s') :
    ∃ t', Drains apply enabled s' queue t' ∧ R t t' := by
  induction drains generalizing s' with
  | nil s => exact ⟨s', .nil s', above⟩
  | cons ready _ ih =>
      obtain ⟨t', later, above'⟩ := ih (keeps _ _ _ above)
      exact ⟨t', .cons (enables _ _ _ above ready) later, above'⟩

/-- The end of the queue. -/
theorem eq_foldl (drains : Drains apply enabled s queue t) : t = queue.foldl apply s := by
  induction drains with
  | nil s => rfl
  | cons _ _ ih => exact ih

theorem eq_of_nil (drains : Drains apply enabled s [] t) : s = t := by
  cases drains with
  | nil s => rfl

end Drains

end Marina.Lib
