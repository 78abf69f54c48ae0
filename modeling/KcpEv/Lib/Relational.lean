import KcpEv.Lib.Guarded
import KcpEv.Lib.Ownership

/-!
Two runs side by side. `Both` says that two computations which may fail both
fail alike or both give related results, and `Lockstep` is a pair of runs that
take their steps together. `Twin` relates two tables of resources whose
references agree on what they refer to, whatever its name; some of the
references are put aside, and what they refer to does not change at all.
-/
namespace Relational

open Ownership

universe u

variable {E ι κ ρ σ : Type*} {α α' β β' : Type u}

inductive Both (R : α → β → Prop) : Except E α → Except E β → Prop
  | ok {a : α} {b : β} (h : R a b) : Both R (.ok a) (.ok b)
  | error (e : E) : Both R (.error e) (.error e)

namespace Both

variable {R R' : α → β → Prop} {S : α' → β' → Prop} {x : Except E α} {y : Except E β}

theorem mono (h : Both R x y) (hR : ∀ {a b}, R a b → R' a b) : Both R' x y := by
  cases h with
  | ok h => exact .ok (hR h)
  | error e => exact .error e

theorem bind (h : Both R x y) {f : α → Except E α'} {g : β → Except E β'}
    (hfg : ∀ {a b}, R a b → Both S (f a) (g b)) : Both S (x >>= f) (y >>= g) := by
  cases h with
  | ok h => exact hfg h
  | error e => exact .error e

/-- The same computation on both sides. -/
theorem same {R : α → α → Prop} (x : Except E α) (hR : ∀ a, R a a) : Both R x x := by
  cases x with
  | ok a => exact .ok (hR a)
  | error e => exact .error e

theorem ite {p q : Prop} [Decidable p] [Decidable q] {x' : Except E α} {y' : Except E β}
    (h : p ↔ q) (hthen : p → q → Both R x y) (helse : ¬ p → ¬ q → Both R x' y') :
    Both R (if p then x else x') (if q then y else y') := by
  by_cases hp : p
  · have hq := h.mp hp
    rw [if_pos hp, if_pos hq]
    exact hthen hp hq
  · have hq : ¬ q := fun hq => hp (h.mpr hq)
    rw [if_neg hp, if_neg hq]
    exact helse hp hq

/-- The results are what the two computations return. -/
theorem returned (h : Both R x y) : Both (fun a b => R a b ∧ x = .ok a ∧ y = .ok b) x y := by
  cases h with
  | ok h => exact .ok ⟨h, rfl, rfl⟩
  | error e => exact .error e

theorem results {a : α} {b : β} (h : Both R x y) (hx : x = .ok a) (hy : y = .ok b) : R a b := by
  rw [hx, hy] at h
  cases h with
  | ok h => exact h

theorem error_iff (h : Both R x y) (e : E) : x = .error e ↔ y = .error e := by
  cases h with
  | ok h =>
    constructor
    · intro hx
      cases hx
    · intro hy
      cases hy
  | error e' => simp

end Both

/-! Runs. -/

section Lockstep
variable {S I L : Type*} {step : S → I → Except E S} {log : S → I → List L}
  {ok : S → S → I → I → Prop} {ok₁ : S → I → Prop} {s s' s₁ s₂ t₁ t₂ : S} {is is₁ is₂ : List I}

/-- Two runs of one machine, whose steps are taken together. -/
inductive Lockstep (step : S → I → Except E S) (ok : S → S → I → I → Prop) (s₁ s₂ : S) :
    List I → S → List I → S → Prop
  | nil : Lockstep step ok s₁ s₂ [] s₁ [] s₂
  | snoc {is₁ is₂ : List I} {t₁ t₁' t₂ t₂' : S} {i₁ i₂ : I}
    (hrun : Lockstep step ok s₁ s₂ is₁ t₁ is₂ t₂) (hok : ok t₁ t₂ i₁ i₂)
    (h₁ : step t₁ i₁ = .ok t₁') (h₂ : step t₂ i₂ = .ok t₂') :
    Lockstep step ok s₁ s₂ (is₁ ++ [i₁]) t₁' (is₂ ++ [i₂]) t₂'

namespace Lockstep

theorem left (h : Lockstep step ok s₁ s₂ is₁ t₁ is₂ t₂) :
    Guarded.Run step (fun _ _ => True) s₁ is₁ t₁ := by
  induction h with
  | nil => exact .nil
  | snoc _ _ h₁ _ ih => exact ih.snoc trivial h₁

theorem right (h : Lockstep step ok s₁ s₂ is₁ t₁ is₂ t₂) :
    Guarded.Run step (fun _ _ => True) s₂ is₂ t₂ := by
  induction h with
  | nil => exact .nil
  | snoc _ _ _ h₂ ih => exact ih.snoc trivial h₂

theorem diagonal (h : Guarded.Run step ok₁ s is s') (hok : ∀ {t i}, ok₁ t i → ok t t i i) :
    Lockstep step ok s s is s' is s' := by
  induction h with
  | nil => exact .nil
  | snoc _ h hs ih => exact ih.snoc (hok h) hs hs

/-- Two machines that take each input together, as one machine. -/
def pairStep (step : S → I → Except E S) (x : S × S) (i : I) : Except E (S × S) := do
  let s ← step x.1 i
  let t ← step x.2 i
  return (s, t)

theorem pairStep_ok {x y : S × S} {i : I} (h : pairStep step x i = .ok y) :
    ∃ s t, step x.1 i = .ok s ∧ step x.2 i = .ok t ∧ y = (s, t) := by
  unfold pairStep at h
  rcases h₁ : step x.1 i with e | s
  · rw [h₁] at h
    cases h
  rcases h₂ : step x.2 i with e | t
  · rw [h₁, h₂] at h
    cases h
  rw [h₁, h₂] at h
  cases h
  exact ⟨s, t, rfl, rfl, rfl⟩

theorem run_fst {okPair : S × S → I → Prop} {x y : S × S}
    (h : Guarded.Run (pairStep step) okPair x is y) (hok : ∀ {x i}, okPair x i → ok₁ x.1 i) :
    Guarded.Run step ok₁ x.1 is y.1 := by
  induction h with
  | nil => exact .nil
  | @snoc is x y i _ hi hs ih =>
    obtain ⟨s, t, h₁, -, rfl⟩ := pairStep_ok hs
    exact ih.snoc (hok hi) h₁

/-- A run of both machines on the same inputs. -/
theorem of_run {okPair : S × S → I → Prop} {x y : S × S}
    (h : Guarded.Run (pairStep step) okPair x is y)
    (hok : ∀ {x i}, okPair x i → ok x.1 x.2 i i) :
    Lockstep step ok x.1 x.2 is y.1 is y.2 := by
  induction h with
  | nil => exact .nil
  | @snoc is x y i _ hi hs ih =>
    obtain ⟨s, t, h₁, h₂, rfl⟩ := pairStep_ok hs
    exact ih.snoc (hok hi) h₁ h₂

/-- A relation that every pair of steps keeps, while both add the same to their
histories. -/
theorem simulation {P : S → S → Prop} (h : Lockstep step ok s₁ s₂ is₁ t₁ is₂ t₂) (h₀ : P s₁ s₂)
    (hstep : ∀ {t₁ t₁' t₂ t₂' i₁ i₂}, P t₁ t₂ → ok t₁ t₂ i₁ i₂ → step t₁ i₁ = .ok t₁' →
      step t₂ i₂ = .ok t₂' → P t₁' t₂' ∧ log t₁ i₁ = log t₂ i₂) :
    P t₁ t₂ ∧ Guarded.history step log s₁ is₁ = Guarded.history step log s₂ is₂ := by
  induction h with
  | nil => exact ⟨h₀, rfl⟩
  | snoc hrun hok h₁ h₂ ih =>
    obtain ⟨hP, hlog⟩ := ih
    obtain ⟨hP', hlog'⟩ := hstep hP hok h₁ h₂
    refine ⟨hP', ?_⟩
    rw [hrun.left.history_snoc h₁, hrun.right.history_snoc h₂, hlog, hlog']

end Lockstep

end Lockstep

/-! Tables. -/

/-- The references that were put aside refer to what they referred to before. -/
structure Kept (aside : κ → Prop) (old res : ι → Option ρ) (ref : κ → Option ι) : Prop
    extends Refers res ref where
  kept : ∀ {k i}, aside k → ref k = some i → res i = old i

namespace Kept

variable [DecidableEq κ] [DecidableEq ι] {aside : κ → Prop} {old res : ι → Option ρ}
  {ref : κ → Option ι} {k : κ} {i : ι}

omit [DecidableEq κ] [DecidableEq ι] in
theorem refl (h : Refers res ref) : Kept aside res res ref := ⟨h, fun _ _ => rfl⟩

omit [DecidableEq κ] in
theorem change (h : Kept aside old res ref) (hk : ¬ aside k) (hi : ref k = some i) (r : ρ) :
    Kept aside old (Function.update res i (some r)) ref := by
  refine ⟨h.toRefers.add i r, fun {k' j} hk' hj => ?_⟩
  have hne : j ≠ i := by
    intro heq
    rw [heq] at hj
    apply hk
    rw [h.unique hi hj]
    exact hk'
  rw [Function.update_of_ne hne]
  exact h.kept hk' hj

omit [DecidableEq κ] in
/-- A name without references is given a resource, or another one. -/
theorem stray (h : Kept aside old res ref) (hi : ∀ k, ref k ≠ some i) (r : Option ρ) :
    Kept aside old (Function.update res i r) ref := by
  have ne : ∀ {k j}, ref k = some j → j ≠ i := by
    intro k j hj heq
    rw [heq] at hj
    exact hi k hj
  refine ⟨⟨fun {k j} hj => ?_, h.unique⟩, fun {k j} hk hj => ?_⟩
  · rw [Function.update_of_ne (ne hj)]
    exact h.live hj
  · rw [Function.update_of_ne (ne hj)]
    exact h.kept hk hj

omit [DecidableEq ι] in
theorem drop (h : Kept aside old res ref) (k : κ) :
    Kept aside old res (Function.update ref k none) := by
  refine ⟨h.toRefers.drop k, fun {k' i} hk' hi => ?_⟩
  rcases eq_or_ne k' k with heq | hne
  · rw [heq, Function.update_self] at hi
    cases hi
  · rw [Function.update_of_ne hne] at hi
    exact h.kept hk' hi

theorem acquire (h : Kept aside old res ref) (hk : ¬ aside k) (hi : res i = none) (r : ρ) :
    Kept aside old (Function.update res i (some r)) (Function.update ref k (some i)) := by
  refine ⟨h.toRefers.acquire hi k r, fun {k' j} hk' hj => ?_⟩
  have hne : k' ≠ k := by
    intro heq
    rw [heq] at hk'
    exact hk hk'
  rw [Function.update_of_ne hne] at hj
  have hne' : j ≠ i := by
    intro heq
    rw [heq] at hj
    exact h.toRefers.ne_of_none hi k' hj
  rw [Function.update_of_ne hne']
  exact h.kept hk' hj

theorem clear (h : Kept aside old res ref) (k : κ) :
    Kept aside old ((ref k).elim res fun i => Function.update res i none)
      (Function.update ref k none) := by
  rcases hi : ref k with _ | i
  · exact h.drop k
  · refine (h.drop k).stray (fun k' hk' => ?_) none
    rcases eq_or_ne k' k with heq | hne
    · rw [heq, Function.update_self] at hk'
      cases hk'
    · rw [Function.update_of_ne hne] at hk'
      exact hne (h.unique hk' hi)

end Kept

/-- Two tables, whose references agree on what they refer to. -/
structure Twin (aside : κ → Prop) (look : ρ → σ) (old₁ old₂ res₁ : ι → Option ρ)
    (ref₁ : κ → Option ι) (res₂ : ι → Option ρ) (ref₂ : κ → Option ι) : Prop where
  left : Kept aside old₁ res₁ ref₁
  right : Kept aside old₂ res₂ ref₂
  same : ∀ {k}, ¬ aside k → (ref₁ k).map (fun i => (res₁ i).map look) =
    (ref₂ k).map fun i => (res₂ i).map look

namespace Twin

variable {aside : κ → Prop} {look : ρ → σ} {old₁ old₂ res₁ res₂ : ι → Option ρ}
  {ref₁ ref₂ : κ → Option ι} {k : κ} {i j : ι} {r s : ρ}

theorem eq_none_iff (h : Twin aside look old₁ old₂ res₁ ref₁ res₂ ref₂) (hk : ¬ aside k) :
    ref₁ k = none ↔ ref₂ k = none := by
  have hsame := congrArg Option.isNone (h.same hk)
  simp only [Option.isNone_map] at hsame
  rw [← Option.isNone_iff_eq_none, ← Option.isNone_iff_eq_none, hsame]

/-- References of the same name on both sides, and what they lead to. -/
theorem some (h : Twin aside look old₁ old₂ res₁ ref₁ res₂ ref₂) (hk : ¬ aside k)
    (hi : ref₁ k = some i) : ∃ j, ref₂ k = some j ∧ (res₁ i).map look = (res₂ j).map look := by
  have hsame := h.same hk
  rw [hi, Option.map_some] at hsame
  obtain ⟨j, hj, heq⟩ := Option.map_eq_some_iff.mp hsame.symm
  exact ⟨j, hj, heq.symm⟩

variable [DecidableEq κ] [DecidableEq ι]

omit [DecidableEq κ] in
theorem change (h : Twin aside look old₁ old₂ res₁ ref₁ res₂ ref₂) (hk : ¬ aside k)
    (hi : ref₁ k = .some i) (hj : ref₂ k = .some j) (hrs : look r = look s) :
    Twin aside look old₁ old₂ (Function.update res₁ i (.some r)) ref₁
      (Function.update res₂ j (.some s)) ref₂ := by
  refine ⟨h.left.change hk hi r, h.right.change hk hj s, fun {k'} hk' => ?_⟩
  rcases eq_or_ne k' k with heq | hne
  · rw [heq, hi, hj]
    simp [hrs]
  have hsame := h.same hk'
  rcases hi' : ref₁ k' with _ | i'
  · rw [(h.eq_none_iff hk').mp hi']
    rfl
  obtain ⟨j', hj', heq⟩ := h.some hk' hi'
  have hne₁ : i' ≠ i := fun heq => hne (h.left.unique hi' (heq ▸ hi))
  have hne₂ : j' ≠ j := fun heq => hne (h.right.unique hj' (heq ▸ hj))
  simp [hj', hne₁, hne₂, heq]

theorem acquire (h : Twin aside look old₁ old₂ res₁ ref₁ res₂ ref₂) (hk : ¬ aside k)
    (hi : res₁ i = none) (hj : res₂ j = none) (hrs : look r = look s) :
    Twin aside look old₁ old₂ (Function.update res₁ i (.some r)) (Function.update ref₁ k (.some i))
      (Function.update res₂ j (.some s)) (Function.update ref₂ k (.some j)) := by
  refine ⟨h.left.acquire hk hi r, h.right.acquire hk hj s, fun {k'} hk' => ?_⟩
  rcases eq_or_ne k' k with heq | hne
  · simp [heq, hrs]
  rw [Function.update_of_ne hne, Function.update_of_ne hne]
  rcases hi' : ref₁ k' with _ | i'
  · rw [(h.eq_none_iff hk').mp hi']
    rfl
  obtain ⟨j', hj', heq⟩ := h.some hk' hi'
  have hne₁ : i' ≠ i := fun heq => h.left.toRefers.ne_of_none hi k' (heq ▸ hi')
  have hne₂ : j' ≠ j := fun heq => h.right.toRefers.ne_of_none hj k' (heq ▸ hj')
  simp [hj', hne₁, hne₂, heq]

omit [DecidableEq ι] in
theorem drop (h : Twin aside look old₁ old₂ res₁ ref₁ res₂ ref₂) (k : κ) :
    Twin aside look old₁ old₂ res₁ (Function.update ref₁ k none) res₂
      (Function.update ref₂ k none) := by
  refine ⟨h.left.drop k, h.right.drop k, fun {k'} hk' => ?_⟩
  rcases eq_or_ne k' k with heq | hne
  · simp [heq]
  · rw [Function.update_of_ne hne, Function.update_of_ne hne]
    exact h.same hk'

omit [DecidableEq κ] in
theorem stray (h : Twin aside look old₁ old₂ res₁ ref₁ res₂ ref₂) (hi : ∀ k, ref₁ k ≠ .some i)
    (hj : ∀ k, ref₂ k ≠ .some j) (r s : Option ρ) :
    Twin aside look old₁ old₂ (Function.update res₁ i r) ref₁ (Function.update res₂ j s) ref₂ := by
  refine ⟨h.left.stray hi r, h.right.stray hj s, fun {k'} hk' => ?_⟩
  rcases hi' : ref₁ k' with _ | i'
  · rw [(h.eq_none_iff hk').mp hi']
    rfl
  obtain ⟨j', hj', heq⟩ := h.some hk' hi'
  have hne₁ : i' ≠ i := fun heq => hi k' (heq ▸ hi')
  have hne₂ : j' ≠ j := fun heq => hj k' (heq ▸ hj')
  simp [hj', hne₁, hne₂, heq]

omit [DecidableEq κ] in
/-- The same name stands on both sides for what nobody refers to. -/
theorem strays (h : Twin aside look old₁ old₂ res₁ ref₁ res₂ ref₂) (hi : res₁ i = none)
    (hj : res₂ j = none) (r s : Option ρ) :
    Twin aside look old₁ old₂ (Function.update res₁ i r) ref₁ (Function.update res₂ j s) ref₂ :=
  h.stray (h.left.toRefers.ne_of_none hi) (h.right.toRefers.ne_of_none hj) r s

/-- The same slot is emptied on both sides, and what it refers to given up. -/
theorem clear (h : Twin aside look old₁ old₂ res₁ ref₁ res₂ ref₂) (hk : ¬ aside k) :
    Twin aside look old₁ old₂ ((ref₁ k).elim res₁ fun i => Function.update res₁ i none)
      (Function.update ref₁ k none) ((ref₂ k).elim res₂ fun j => Function.update res₂ j none)
      (Function.update ref₂ k none) := by
  refine ⟨h.left.clear k, h.right.clear k, fun {k'} hk' => ?_⟩
  rcases hi : ref₁ k with _ | i
  · rw [(h.eq_none_iff hk).mp hi]
    exact (h.drop k).same hk'
  obtain ⟨j, hj, -⟩ := h.some hk hi
  have gone : ∀ {ref : κ → Option ι} {res : ι → Option ρ} {i : ι}, Refers res ref →
      ref k = .some i → ∀ k', Function.update ref k none k' ≠ .some i := by
    intro ref res i href hi k' hk'
    rcases eq_or_ne k' k with heq | hne
    · rw [heq, Function.update_self] at hk'
      cases hk'
    · rw [Function.update_of_ne hne] at hk'
      exact hne (href.unique hk' hi)
  rw [hj]
  exact ((h.drop k).stray (gone h.left.toRefers hi) (gone h.right.toRefers hj) none none).same hk'

end Twin

/-- A name on either side that is no slot of an object: the same slots have it, none
of them was put aside, and it stands for the same. -/
structure Tracked (aside : κ → Prop) (res₁ : ι → Option ρ) (ref₁ : κ → Option ι)
    (res₂ : ι → Option ρ) (ref₂ : κ → Option ι) (i j : ι) : Prop where
  slots : ∀ {k}, ¬ aside k → (ref₁ k = some i ↔ ref₂ k = some j)
  left : ∀ {k}, aside k → ref₁ k ≠ some i
  right : ∀ {k}, aside k → ref₂ k ≠ some j
  same : res₁ i = res₂ j

namespace Tracked

variable {aside : κ → Prop} {old₁ old₂ res₁ res₂ : ι → Option ρ}
  {ref₁ ref₂ : κ → Option ι} {k : κ} {i j i' j' : ι} {r : ρ}

/-- What a slot refers to can be tracked. -/
theorem of_slot (h : Twin aside id old₁ old₂ res₁ ref₁ res₂ ref₂) (hk : ¬ aside k)
    (hi : ref₁ k = some i) (hj : ref₂ k = some j) : Tracked aside res₁ ref₁ res₂ ref₂ i j where
  slots {k'} _ := by
    constructor
    · intro hi'
      rw [h.left.unique hi' hi]
      exact hj
    · intro hj'
      rw [h.right.unique hj' hj]
      exact hi
  left hk' hi' := hk (h.left.unique hi' hi ▸ hk')
  right hk' hj' := hk (h.right.unique hj' hj ▸ hk')
  same := by
    have hsame := h.same hk
    rw [hi, hj] at hsame
    simpa using hsame

variable [DecidableEq κ] [DecidableEq ι]

omit [DecidableEq κ] in
theorem change (h : Tracked aside res₁ ref₁ res₂ ref₂ i j) (hk : ¬ aside k)
    (hi' : ref₁ k = some i') (hj' : ref₂ k = some j') (v : Option ρ) :
    Tracked aside (Function.update res₁ i' v) ref₁ (Function.update res₂ j' v) ref₂ i j := by
  refine ⟨h.slots, h.left, h.right, ?_⟩
  have hslot := h.slots hk
  rw [hi', hj', Option.some.injEq, Option.some.injEq] at hslot
  by_cases heq : i' = i
  · simp [heq, hslot.mp heq]
  · have hne : j' ≠ j := fun hj => heq (hslot.mpr hj)
    rw [Function.update_of_ne (Ne.symm heq), Function.update_of_ne hne.symm]
    exact h.same

theorem acquire (h : Tracked aside res₁ ref₁ res₂ ref₂ i j) (hi' : i' ≠ i) (hj' : j' ≠ j)
    (r : ρ) (hk : ¬ aside k) : Tracked aside (Function.update res₁ i' (some r))
      (Function.update ref₁ k (some i')) (Function.update res₂ j' (some r))
      (Function.update ref₂ k (some j')) i j := by
  refine ⟨fun {k'} hk' => ?_, fun {k'} hk' => ?_, fun {k'} hk' => ?_, ?_⟩
  · rcases eq_or_ne k' k with heq | hne
    · simp [heq, hi', hj']
    · rw [Function.update_of_ne hne, Function.update_of_ne hne]
      exact h.slots hk'
  · have hne : k' ≠ k := fun heq => hk (heq ▸ hk')
    rw [Function.update_of_ne hne]
    exact h.left hk'
  · have hne : k' ≠ k := fun heq => hk (heq ▸ hk')
    rw [Function.update_of_ne hne]
    exact h.right hk'
  · rw [Function.update_of_ne hi'.symm, Function.update_of_ne hj'.symm]
    exact h.same

omit [DecidableEq ι] in
theorem drop (h : Tracked aside res₁ ref₁ res₂ ref₂ i j) (hk : ¬ aside k) :
    Tracked aside res₁ (Function.update ref₁ k none) res₂ (Function.update ref₂ k none) i j := by
  refine ⟨fun {k'} hk' => ?_, fun {k'} hk' => ?_, fun {k'} hk' => ?_, h.same⟩
  · rcases eq_or_ne k' k with heq | hne
    · simp [heq]
    · rw [Function.update_of_ne hne, Function.update_of_ne hne]
      exact h.slots hk'
  · have hne : k' ≠ k := fun heq => hk (heq ▸ hk')
    rw [Function.update_of_ne hne]
    exact h.left hk'
  · have hne : k' ≠ k := fun heq => hk (heq ▸ hk')
    rw [Function.update_of_ne hne]
    exact h.right hk'

theorem clear (h : Tracked aside res₁ ref₁ res₂ ref₂ i j) (hk : ¬ aside k)
    (hnone : ref₁ k = none ↔ ref₂ k = none) :
    Tracked aside ((ref₁ k).elim res₁ fun i => Function.update res₁ i none)
      (Function.update ref₁ k none) ((ref₂ k).elim res₂ fun j => Function.update res₂ j none)
      (Function.update ref₂ k none) i j := by
  rcases hi : ref₁ k with _ | i'
  · rw [hnone.mp hi]
    exact h.drop hk
  rcases hj : ref₂ k with _ | j'
  · rw [hnone.mpr hj] at hi
    cases hi
  · exact (h.change hk hi hj none).drop hk

omit [DecidableEq κ] in
/-- What the name stands for changes, for the slots that have it as well. -/
theorem set (h : Tracked aside res₁ ref₁ res₂ ref₂ i j)
    (ht : Twin aside id old₁ old₂ res₁ ref₁ res₂ ref₂) (r : ρ) :
    Twin aside id old₁ old₂ (Function.update res₁ i (some r)) ref₁
      (Function.update res₂ j (some r)) ref₂ ∧
    Tracked aside (Function.update res₁ i (some r)) ref₁ (Function.update res₂ j (some r)) ref₂
      i j := by
  constructor
  · by_cases hslot : ∃ k, ref₁ k = some i
    · obtain ⟨k, hi⟩ := hslot
      have hk : ¬ aside k := fun hk => h.left hk hi
      exact ht.change hk hi ((h.slots hk).mp hi) rfl
    · have hi : ∀ k, ref₁ k ≠ some i := fun k hk => hslot ⟨k, hk⟩
      apply ht.stray hi
      intro k hj
      by_cases hk : aside k
      · exact h.right hk hj
      · exact hi k ((h.slots hk).mpr hj)
  · exact ⟨h.slots, h.left, h.right, by simp⟩

end Tracked

end Relational
