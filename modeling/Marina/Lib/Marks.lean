import Marina.Lib.Run

/-!
# Marks that tell lifetimes apart

Things come to live and cease to live along a run, and each gets a mark when it comes to
live: a ticket, a serial number, a random identifier. `Marks` says what one step may do, and
`marks_identify` what this means for an observer who sees only what is live, with its mark,
at two times of a run: if the marks handed out are different, then two marks are the same
exactly when they are of one thing, live all the time in between.
-/

namespace Marina.Lib

open Exec

variable {ε σ ι α μ : Type}

/-- In a step, what stays live keeps its mark, and at most one thing comes to live, with the
mark of the input. -/
structure Marks (live : σ → α → Prop) (mark : σ → α → μ) (new : ι → μ) (s : σ) (i : ι) (s' : σ) :
    Prop where
  stays : ∀ a, live s' a → live s a → mark s' a = mark s a
  comes : ∀ a, live s' a → ¬ live s a → mark s' a = new i
  one : ∀ a b, live s' a → ¬ live s a → live s' b → ¬ live s b → a = b

/-- The live things have different marks, all of them handed out before. -/
structure Marked (live : σ → α → Prop) (mark : σ → α → μ) (past : List μ) (s : σ) : Prop where
  given : ∀ a, live s a → mark s a ∈ past
  apart : ∀ a b, live s a → live s b → mark s a = mark s b → a = b

variable {live : σ → α → Prop} {mark : σ → α → μ} {new : ι → μ} {step : σ → ι → Exec ε σ}
  {I : σ → Prop} {past : List μ} {s s' : σ} {i : ι} {inputs : List ι}

theorem Marked.advance (marked : Marked live mark past s) (marks : Marks live mark new s i s')
    (unused : new i ∉ past) : Marked live mark (past ++ [new i]) s' where
  given a here := by
    by_cases before : live s a
    · simp [marks.stays a here before, marked.given a before]
    · simp [marks.comes a here before]
  apart a b hereA hereB same := by
    -- A new thing has the new mark, and no other one has it.
    by_cases beforeA : live s a <;> by_cases beforeB : live s b
    · rw [marks.stays a hereA beforeA, marks.stays b hereB beforeB] at same
      exact marked.apart a b beforeA beforeB same
    · rw [marks.stays a hereA beforeA, marks.comes b hereB beforeB] at same
      exact absurd (same ▸ marked.given a beforeA) unused
    · rw [marks.comes a hereA beforeA, marks.stays b hereB beforeB] at same
      exact absurd (same ▸ marked.given b beforeB) unused
    · exact marks.one a b hereA beforeA hereB beforeB

section Runs

variable (keeps : ∀ s i s', I s → step s i = pure s' → I s' ∧ Marks live mark new s i s')

include keeps

theorem Marked.run (holds : I s) (marked : Marked live mark past s)
    (distinct : (past ++ inputs.map new).Nodup) (ran : inputs.foldlM step s = pure s') :
    I s' ∧ Marked live mark (past ++ inputs.map new) s' := by
  induction inputs generalizing s past with
  | nil =>
      rw [List.foldlM_nil, pure_inj] at ran
      rcases ran with rfl
      simpa using ⟨holds, marked⟩
  | cons i rest ih =>
      rw [List.foldlM_cons, bind_eq_pure] at ran
      rcases ran with ⟨middle, next, later⟩
      rcases keeps s i middle holds next with ⟨holds', marks⟩
      have unused : new i ∉ past := by
        rw [List.map_cons, List.nodup_append] at distinct
        exact fun member => distinct.2.2 _ member _ List.mem_cons_self rfl
      have split : past ++ (i :: rest).map new = past ++ [new i] ++ rest.map new := by simp
      rw [split] at distinct ⊢
      exact ih holds' (marked.advance marks unused) distinct later

/-- What is live at the end of a run was live all the time, or got its mark on the way. -/
theorem survives_or_new (holds : I s) (ran : inputs.foldlM step s = pure s') {b : α}
    (here : live s' b) :
    (AllStates step (fun s => live s b) s inputs ∧ mark s' b = mark s b) ∨
      mark s' b ∈ inputs.map new := by
  induction inputs generalizing s with
  | nil =>
      rw [List.foldlM_nil, pure_inj] at ran
      rcases ran with rfl
      exact Or.inl ⟨here, rfl⟩
  | cons i rest ih =>
      rw [List.foldlM_cons, bind_eq_pure] at ran
      rcases ran with ⟨middle, next, later⟩
      rcases keeps s i middle holds next with ⟨holds', marks⟩
      rcases ih holds' later with ⟨stays, same⟩ | given
      · have there := stays.head
        by_cases before : live s b
        · refine Or.inl ⟨⟨before, middle, next, stays⟩, ?_⟩
          rw [same, marks.stays b there before]
        · refine Or.inr ?_
          simp [same, marks.comes b there before]
      · exact Or.inr (List.mem_cons_of_mem _ given)

/-- What stays live keeps its mark. -/
theorem mark_of_survives (holds : I s) (ran : inputs.foldlM step s = pure s') {a : α}
    (stays : AllStates step (fun s => live s a) s inputs) : live s' a ∧ mark s' a = mark s a := by
  induction inputs generalizing s with
  | nil =>
      rw [List.foldlM_nil, pure_inj] at ran
      rcases ran with rfl
      exact ⟨stays, rfl⟩
  | cons i rest ih =>
      rw [List.foldlM_cons, bind_eq_pure] at ran
      rcases ran with ⟨middle, next, later⟩
      rcases keeps s i middle holds next with ⟨holds', marks⟩
      have after := stays.2.of_pure next
      rcases ih holds' later after with ⟨here, same⟩
      exact ⟨here, same.trans (marks.stays a after.head stays.1)⟩

/-- When nothing was live at first and all marks are different, two marks seen at two times
of a run are the same exactly when they are of one thing that stayed live. -/
theorem marks_identify {first : List ι} {start : σ} (holds : I start)
    (nothing : ∀ a, ¬ live start a) (distinct : ((first ++ inputs).map new).Nodup)
    (before : first.foldlM step start = pure s) (between : inputs.foldlM step s = pure s')
    {a b : α} (here : live s a) (there : live s' b) :
    mark s a = mark s' b ↔ a = b ∧ AllStates step (fun s => live s a) s inputs := by
  rw [List.map_append, List.nodup_append] at distinct
  have unmarked : Marked live mark ([] : List μ) start :=
    ⟨fun a here => absurd here (nothing a), fun a _ here => absurd here (nothing a)⟩
  rcases unmarked.run keeps holds (by simpa using distinct.1) before with ⟨holds', marked⟩
  simp only [List.nil_append] at marked
  constructor
  · intro same
    rcases survives_or_new keeps holds' between there with ⟨stays, kept⟩ | given
    · rcases marked.apart a b here stays.head (same.trans kept) with rfl
      exact ⟨rfl, stays⟩
    · exact absurd same (distinct.2.2 _ (marked.given a here) _ given)
  · rintro ⟨rfl, stays⟩
    exact (mark_of_survives keeps holds' between stays).2.symm

end Runs

end Marina.Lib
