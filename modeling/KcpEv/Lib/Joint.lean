import KcpEv.Lib.Guarded
import Mathlib.Logic.Function.Basic

/-!
Several parties, each a machine of its own, which take their steps one at a time in
any order. Every step taken is remembered, the oldest first, so that a condition on
the next step can ask for an earlier one: what arrives was sent before.
-/
namespace Joint

open Guarded

variable {E S I F : Type*}

/-- A step that a party has taken. -/
structure Moment (E S I : Type*) where
  who : E
  before : S
  input : I
  after : S

structure State (E S I : Type*) where
  party : E → S
  history : List (Moment E S I)

def State.init (party : E → S) : State E S I := ⟨party, []⟩

variable [DecidableEq E]

def step (next : S → I → Except F S) (s : State E S I) (i : E × I) : Except F (State E S I) :=
  match next (s.party i.1) i.2 with
  | .error e => .error e
  | .ok after => .ok
    { party := Function.update s.party i.1 after
      history := s.history ++ [⟨i.1, s.party i.1, i.2, after⟩] }

variable {next : S → I → Except F S} {ok : State E S I → E × I → Prop} {start : E → S}
  {s s' : State E S I} {is : List (E × I)} {e : E} {i : I} {m : Moment E S I}

theorem step_ok (h : step next s (e, i) = .ok s') : ∃ after, next (s.party e) i = .ok after ∧
    s' = ⟨Function.update s.party e after, s.history ++ [⟨e, s.party e, i, after⟩]⟩ := by
  unfold step at h
  split at h
  · cases h
  · rename_i after hnext
    cases h
    exact ⟨after, hnext, rfl⟩

/-- The party that takes a step is where its machine goes, and the step is remembered. -/
theorem step_self (h : step next s (e, i) = .ok s') : next (s.party e) i = .ok (s'.party e) ∧
    s'.history = s.history ++ [⟨e, s.party e, i, s'.party e⟩] := by
  obtain ⟨after, hnext, hs'⟩ := step_ok h
  have hafter : s'.party e = after := by
    rw [hs']
    exact Function.update_self _ _ _
  rw [hafter, hs']
  exact ⟨hnext, rfl⟩

theorem step_other (h : step next s (e, i) = .ok s') {e' : E} (hne : e' ≠ e) :
    s'.party e' = s.party e' := by
  obtain ⟨after, -, rfl⟩ := step_ok h
  exact Function.update_of_ne hne _ _

theorem step_past (h : step next s (e, i) = .ok s') {P : Moment E S I → Prop}
    (hP : ∃ m ∈ s.history, P m) : ∃ m ∈ s'.history, P m := by
  obtain ⟨m, hm, hP⟩ := hP
  rw [(step_self h).2]
  exact ⟨m, List.mem_append_left _ hm, hP⟩

/-- Every party has come where its own machine comes. -/
theorem party_run {Q : S → I → Prop} (hok : ∀ {s e i}, ok s (e, i) → Q (s.party e) i)
    (hrun : Run (step next) ok (.init start) is s) (e : E) :
    ∃ js, Run next Q (start e) js (s.party e) := by
  induction hrun with
  | nil => exact ⟨[], .nil⟩
  | @snoc is s s' i hrun hi hs ih =>
    obtain ⟨js, hjs⟩ := ih
    rcases eq_or_ne e i.1 with heq | hne
    · have hnext := (step_self hs).1
      rw [← heq] at hnext
      have hnow : Q (s.party e) i.2 := by
        rw [heq]
        exact hok hi
      exact ⟨js ++ [i.2], hjs.snoc hnow hnext⟩
    · rw [step_other hs hne]
      exact ⟨js, hjs⟩

/-- The step of a party that is remembered was taken in a state of the run. -/
structure Taken (next : S → I → Except F S) (ok : State E S I → E × I → Prop) (start : E → S)
    (history : List (Moment E S I)) (m : Moment E S I) (s : State E S I) : Prop where
  run : ∃ is, Run (step next) ok (.init start) is s
  ok : ok s (m.who, m.input)
  before : m.before = s.party m.who
  next : next m.before m.input = .ok m.after
  past : s.history ++ [m] <+: history

/-- Whatever is remembered was taken in a state of the run, which remembers what
comes before it. -/
theorem taken_at (hrun : Run (step next) ok (.init start) is s) {k : ℕ}
    (hk : s.history[k]? = some m) :
    ∃ s₀, Taken next ok start s.history m s₀ ∧ s₀.history = s.history.take k := by
  induction hrun with
  | nil => cases hk
  | @snoc is s s' i hrun hok hs ih =>
    obtain ⟨hnext, hhistory⟩ := step_self hs
    rw [hhistory] at hk ⊢
    rcases Nat.lt_or_ge k s.history.length with hold | hnew
    · rw [List.getElem?_append_left hold] at hk
      obtain ⟨s₀, h, hpast⟩ := ih hk
      rw [List.take_append_of_le_length (Nat.le_of_lt hold)]
      exact ⟨s₀, { h with past := h.past.trans (List.prefix_append _ _) }, hpast⟩
    · rw [List.getElem?_append_right hnew, List.getElem?_singleton] at hk
      split at hk
      · rename_i hzero
        have hlen : k = s.history.length := by omega
        rw [Option.some.injEq] at hk
        subst hk
        rw [hlen, List.take_left]
        exact ⟨s, ⟨⟨is, hrun⟩, hok, rfl, hnext, List.prefix_rfl⟩, rfl⟩
      · cases hk

theorem taken (hrun : Run (step next) ok (.init start) is s) (hm : m ∈ s.history) :
    ∃ s₀, Taken next ok start s.history m s₀ := by
  obtain ⟨k, hk⟩ := List.mem_iff_getElem?.mp hm
  obtain ⟨s₀, h, -⟩ := taken_at hrun hk
  exact ⟨s₀, h⟩

theorem Taken.mem {history : List (Moment E S I)} {s₀ : State E S I} {m₀ : Moment E S I}
    (h : Taken next ok start history m s₀) (hm : m₀ ∈ s₀.history) : m₀ ∈ history :=
  h.past.subset (List.mem_append_left _ hm)

/-- What holds of a party right after a step, and is kept by its steps, holds of it
since then. -/
theorem since {Q : S → I → Prop} {R : S → S → Prop}
    (hok : ∀ {s e i}, ok s (e, i) → Q (s.party e) i)
    (hrun : Run (step next) ok (.init start) is s)
    (hrefl : ∀ {e js a}, Run next Q (start e) js a → R a a)
    (hstep : ∀ {e js a b i c}, Run next Q (start e) js b → R a b → Q b i →
      next b i = .ok c → R a c)
    (hm : m ∈ s.history) : R m.after (s.party m.who) := by
  induction hrun with
  | nil => cases hm
  | @snoc is s s' i hrun hi hs ih =>
    obtain ⟨hnext, hhistory⟩ := step_self hs
    obtain ⟨js, hjs⟩ := party_run hok hrun i.1
    rw [hhistory] at hm
    rcases List.mem_append.mp hm with hold | hnew
    · have hR := ih hold
      rcases eq_or_ne m.who i.1 with heq | hne
      · rw [heq] at hR ⊢
        exact hstep hjs hR (hok hi) hnext
      · rw [step_other hs hne]
        exact hR
    · rw [List.mem_singleton] at hnew
      subst hnew
      exact hrefl (hjs.snoc (hok hi) hnext)

/-- What the steps of a party keep still holds when it has held after one of them. -/
theorem kept {Q : S → I → Prop} {P : S → Prop}
    (hok : ∀ {s e i}, ok s (e, i) → Q (s.party e) i)
    (hrun : Run (step next) ok (.init start) is s)
    (hstep : ∀ {e js a i b}, Run next Q (start e) js a → P a → Q a i → next a i = .ok b → P b)
    (hm : m ∈ s.history) (h : P m.after) : P (s.party m.who) := by
  refine since (R := fun a b => P a → P b) hok hrun (fun _ => id) ?_ hm h
  intro e js a b i c hjs hR hi hnext ha
  exact hstep hjs (hR ha) hi hnext

end Joint
