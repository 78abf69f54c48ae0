import Mathlib.Data.List.Basic

/-!
Runs of a machine whose step may fail, all of whose steps meet a condition on
the state before the step and the input. An invariant that every allowed step
keeps holds at the end of every such run. It may speak about a history, to which
each step adds what is to be remembered of it.
-/
namespace Guarded

variable {S I E R : Type*}

/-- The run that consumes a list of inputs, one step for each. -/
inductive Run (step : S → I → Except E S) (ok : S → I → Prop) (s₀ : S) : List I → S → Prop
  | nil : Run step ok s₀ [] s₀
  | snoc {is : List I} {s s' : S} {i : I} (hrun : Run step ok s₀ is s) (hok : ok s i)
    (hstep : step s i = .ok s') : Run step ok s₀ (is ++ [i]) s'

/-- What the steps of a run add to its history. -/
def history (step : S → I → Except E S) (log : S → I → List R) : S → List I → List R
  | _, [] => []
  | s, i :: is =>
    log s i ++
      match step s i with
      | .ok s' => history step log s' is
      | .error _ => []

/-- Execute a run, as long as the steps succeed and meet the condition. -/
def exec (step : S → I → Except E S) (ok : S → I → Prop) [∀ s i, Decidable (ok s i)] :
    S → List I → Option S
  | s, [] => some s
  | s, i :: is =>
    if ok s i then
      match step s i with
      | .ok s' => exec step ok s' is
      | .error _ => none
    else none

namespace Run

variable {step : S → I → Except E S} {ok ok' : S → I → Prop} {log : S → I → List R} {s₀ s s' : S}
  {is : List I} {i : I}

theorem cons (hok : ok s₀ i) (hstep : step s₀ i = .ok s) (hrun : Run step ok s is s') :
    Run step ok s₀ (i :: is) s' := by
  induction hrun with
  | nil =>
    have hnil : Run step ok s₀ [] s₀ := .nil
    exact hnil.snoc hok hstep
  | snoc _ hok' hs' ih => exact ih.snoc hok' hs'

theorem of_exec [∀ s i, Decidable (ok s i)] (h : exec step ok s₀ is = some s) :
    Run step ok s₀ is s := by
  induction is generalizing s₀ with
  | nil =>
    cases h
    exact .nil
  | cons i is ih =>
    unfold exec at h
    split at h
    · split at h
      · exact cons (by assumption) (by assumption) (ih h)
      · cases h
    · cases h

/-- A run that was executed, and a test of where it ends. -/
theorem exists_of_exec (step : S → I → Except E S) (ok : S → I → Prop)
    [∀ s i, Decidable (ok s i)] (s₀ : S) (is : List I) (test : S → Bool)
    (h : (exec step ok s₀ is).any test = true) : ∃ s, Run step ok s₀ is s ∧ test s = true := by
  rcases hs : exec step ok s₀ is with _ | s
  · rw [hs] at h
    cases h
  · rw [hs] at h
    exact ⟨s, of_exec hs, h⟩

/-- The history goes on where the run has come. -/
theorem history_append (hrun : Run step ok s₀ is s) (js : List I) :
    history step log s₀ (is ++ js) = history step log s₀ is ++ history step log s js := by
  induction hrun generalizing js with
  | nil => rfl
  | snoc hrun _ hs ih =>
    rw [List.append_assoc, ih, ih, List.append_assoc, List.singleton_append]
    simp [history, hs]

theorem history_snoc (hrun : Run step ok s₀ is s) (hs : step s i = .ok s') :
    history step log s₀ (is ++ [i]) = history step log s₀ is ++ log s i := by
  rw [hrun.history_append]
  simp [history, hs]

theorem invariant_history {P : List R → S → Prop} (hrun : Run step ok s₀ is s) (h₀ : P [] s₀)
    (hstep : ∀ {h s i s'}, P h s → ok s i → step s i = .ok s' → P (h ++ log s i) s') :
    P (history step log s₀ is) s := by
  induction hrun with
  | nil => exact h₀
  | snoc hrun hok hs ih =>
    rw [hrun.history_snoc hs]
    exact hstep ih hok hs

theorem invariant {P : S → Prop} (hrun : Run step ok s₀ is s) (h₀ : P s₀)
    (hstep : ∀ {s i s'}, P s → ok s i → step s i = .ok s' → P s') : P s := by
  induction hrun with
  | nil => exact h₀
  | snoc _ hok hs ih => exact hstep ih hok hs

theorem mono (hrun : Run step ok s₀ is s) (h : ∀ {s i}, ok s i → ok' s i) :
    Run step ok' s₀ is s := by
  induction hrun with
  | nil => exact .nil
  | snoc _ hok hs ih => exact ih.snoc (h hok) hs

theorem append {js : List I} (hrun : Run step ok s₀ is s) (hrun' : Run step ok s js s') :
    Run step ok s₀ (is ++ js) s' := by
  induction hrun' with
  | nil =>
    rw [List.append_nil]
    exact hrun
  | snoc _ hok hs ih =>
    rw [← List.append_assoc]
    exact ih.snoc hok hs

/-- A goal that one can always come closer to can be reached. -/
theorem descend {P Q : S → Prop} (measure : S → ℕ)
    (hdown : ∀ {s}, P s → ¬ Q s →
      ∃ is s', Run step ok s is s' ∧ P s' ∧ measure s' < measure s) (h : P s) :
    ∃ is s', Run step ok s is s' ∧ P s' ∧ Q s' := by
  induction hn : measure s using Nat.strongRecOn generalizing s with
  | ind n ih =>
    by_cases hgoal : Q s
    · exact ⟨[], s, .nil, h, hgoal⟩
    · obtain ⟨is, s', hrun, hs', hlt⟩ := hdown h hgoal
      obtain ⟨js, s'', hrun', hs'', hgoal'⟩ := ih (measure s') (hn ▸ hlt) hs' rfl
      exact ⟨is ++ js, s'', hrun.append hrun', hs'', hgoal'⟩

end Run

end Guarded
