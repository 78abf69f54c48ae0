import Mathlib.Logic.Function.Basic
import Mathlib.Tactic.Common

/-!
Tables of resources and the references that own them. A table says which
resources exist; the references match it when every reference leads to an
existing resource and every existing resource has exactly one reference. The
references are slots of the objects of a second table, so that an object can be
created and destroyed, and its slots can be set and cleared one by one.
-/
namespace Ownership

variable {κ ι ρ ω σ : Type*}

/-- References and existing resources correspond one to one. -/
structure Owns (res : ι → Option ρ) (ref : κ → Option ι) : Prop where
  live : ∀ {k i}, ref k = some i → (res i).isSome
  held : ∀ {i}, (res i).isSome → ∃ k, ref k = some i
  unique : ∀ {k k' i}, ref k = some i → ref k' = some i → k = k'

namespace Owns

variable {res res' : ι → Option ρ} {ref : κ → Option ι}

theorem empty : Owns (fun _ : ι => (none : Option ρ)) (fun _ : κ => none) where
  live h := by cases h
  held h := by cases h
  unique h := by cases h

theorem existsUnique (h : Owns res ref) {i : ι} (hi : (res i).isSome) : ∃! k, ref k = some i := by
  obtain ⟨k, hk⟩ := h.held hi
  exact ⟨k, hk, fun k' hk' => h.unique hk' hk⟩

theorem ne_of_none (h : Owns res ref) {i : ι} (hi : res i = none) (k : κ) : ref k ≠ some i := by
  intro hk
  have hlive := h.live hk
  rw [hi] at hlive
  cases hlive

/-- Only the existence of the resources matters. -/
theorem congr_isSome (h : Owns res ref) (hres : ∀ i, (res' i).isSome = (res i).isSome) :
    Owns res' ref where
  live hk := by rw [hres]; exact h.live hk
  held hi := h.held (by rw [← hres]; exact hi)
  unique := h.unique

variable [DecidableEq κ] [DecidableEq ι]

theorem acquire (h : Owns res ref) {i : ι} {k : κ} (hi : res i = none) (hk : ref k = none)
    (r : ρ) : Owns (Function.update res i (some r)) (Function.update ref k (some i)) where
  live {k' j} hj := by
    rcases eq_or_ne j i with rfl | hne
    · simp
    · rcases eq_or_ne k' k with rfl | hne'
      · simp only [Function.update_self, Option.some.injEq] at hj
        exact absurd hj.symm hne
      · rw [Function.update_of_ne hne'] at hj
        rw [Function.update_of_ne hne]
        exact h.live hj
  held {j} hj := by
    rcases eq_or_ne j i with rfl | hne
    · exact ⟨k, Function.update_self ..⟩
    · rw [Function.update_of_ne hne] at hj
      obtain ⟨k', hk'⟩ := h.held hj
      refine ⟨k', ?_⟩
      rw [Function.update_of_ne, hk']
      rintro rfl
      rw [hk] at hk'
      cases hk'
  unique {k₁ k₂ j} h₁ h₂ := by
    have hfree := h.ne_of_none hi
    rcases eq_or_ne k₁ k with rfl | hne₁
    · rcases eq_or_ne k₂ k₁ with rfl | hne₂
      · rfl
      · rw [Function.update_self] at h₁
        rw [Function.update_of_ne hne₂, ← h₁] at h₂
        exact absurd h₂ (hfree k₂)
    · rw [Function.update_of_ne hne₁] at h₁
      rcases eq_or_ne k₂ k with rfl | hne₂
      · rw [Function.update_self] at h₂
        rw [← h₂] at h₁
        exact absurd h₁ (hfree k₁)
      · rw [Function.update_of_ne hne₂] at h₂
        exact h.unique h₁ h₂

theorem release (h : Owns res ref) {i : ι} {k : κ} (hk : ref k = some i) :
    Owns (Function.update res i none) (Function.update ref k none) where
  live {k' j} hj := by
    rcases eq_or_ne k' k with rfl | hne
    · rw [Function.update_self] at hj
      cases hj
    · rw [Function.update_of_ne hne] at hj
      rw [Function.update_of_ne]
      · exact h.live hj
      · rintro rfl
        exact hne (h.unique hj hk)
  held {j} hj := by
    rcases eq_or_ne j i with rfl | hne
    · rw [Function.update_self] at hj
      cases hj
    · rw [Function.update_of_ne hne] at hj
      obtain ⟨k', hk'⟩ := h.held hj
      refine ⟨k', ?_⟩
      rw [Function.update_of_ne, hk']
      rintro rfl
      rw [hk] at hk'
      exact hne (Option.some.inj hk').symm
  unique {k₁ k₂ j} h₁ h₂ := by
    rcases eq_or_ne k₁ k with rfl | hne₁
    · rw [Function.update_self] at h₁
      cases h₁
    · rcases eq_or_ne k₂ k with rfl | hne₂
      · rw [Function.update_self] at h₂
        cases h₂
      · rw [Function.update_of_ne hne₁] at h₁
        rw [Function.update_of_ne hne₂] at h₂
        exact h.unique h₁ h₂

/-- A slot whose content, if there is one, is given up. -/
theorem clear (h : Owns res ref) (k : κ) :
    Owns ((ref k).elim res fun i => Function.update res i none) (Function.update ref k none) := by
  rcases hk : ref k with _ | i
  · rw [Option.elim_none, ← hk, Function.update_eq_self]
    exact h
  · exact h.release hk

end Owns

/-- References lead to existing resources, and no two of them to the same one.
There may be resources without a reference. -/
structure Refers (res : ι → Option ρ) (ref : κ → Option ι) : Prop where
  live : ∀ {k i}, ref k = some i → (res i).isSome
  unique : ∀ {k k' i}, ref k = some i → ref k' = some i → k = k'

namespace Refers

variable {res res' : ι → Option ρ} {ref ref' : κ → Option ι}

theorem empty : Refers (fun _ : ι => (none : Option ρ)) (fun _ : κ => none) where
  live h := by cases h
  unique h := by cases h

theorem ne_of_none (h : Refers res ref) {i : ι} (hi : res i = none) (k : κ) : ref k ≠ some i := by
  intro hk
  have hlive := h.live hk
  rw [hi] at hlive
  cases hlive

theorem mono (h : Refers res ref) (hres : ∀ i, (res i).isSome → (res' i).isSome) :
    Refers res' ref where
  live hk := hres _ (h.live hk)
  unique := h.unique

theorem anti (h : Refers res ref) (href : ∀ {k i}, ref' k = some i → ref k = some i) :
    Refers res ref' where
  live hk := h.live (href hk)
  unique h₁ h₂ := h.unique (href h₁) (href h₂)

variable [DecidableEq κ] [DecidableEq ι]

omit [DecidableEq κ] in
/-- A resource comes or changes. -/
theorem add (h : Refers res ref) (i : ι) (r : ρ) : Refers (Function.update res i (some r)) ref := by
  apply h.mono
  intro j hj
  rcases eq_or_ne j i with rfl | hne
  · rw [Function.update_self]
    rfl
  · rw [Function.update_of_ne hne]
    exact hj

omit [DecidableEq ι] in
theorem drop (h : Refers res ref) (k : κ) : Refers res (Function.update ref k none) := by
  apply h.anti
  intro k' i hk'
  rcases eq_or_ne k' k with rfl | hne
  · rw [Function.update_self] at hk'
    cases hk'
  · rwa [Function.update_of_ne hne] at hk'

theorem acquire (h : Refers res ref) {i : ι} (hi : res i = none) (k : κ) (r : ρ) :
    Refers (Function.update res i (some r)) (Function.update ref k (some i)) where
  live {k' j} hj := by
    rcases eq_or_ne k' k with rfl | hne
    · rw [Function.update_self] at hj
      cases hj
      rw [Function.update_self]
      rfl
    · rw [Function.update_of_ne hne] at hj
      exact (h.add i r).live hj
  unique {k₁ k₂ j} h₁ h₂ := by
    have hfree := h.ne_of_none hi
    rcases eq_or_ne k₁ k with rfl | hne₁
    · rcases eq_or_ne k₂ k₁ with rfl | hne₂
      · rfl
      · rw [Function.update_self] at h₁
        cases h₁
        rw [Function.update_of_ne hne₂] at h₂
        exact absurd h₂ (hfree k₂)
    · rw [Function.update_of_ne hne₁] at h₁
      rcases eq_or_ne k₂ k with rfl | hne₂
      · rw [Function.update_self] at h₂
        cases h₂
        exact absurd h₁ (hfree k₁)
      · rw [Function.update_of_ne hne₂] at h₂
        exact h.unique h₁ h₂

/-- A slot is emptied, and the resource it referred to, if any, given up. -/
theorem clear (h : Refers res ref) (k : κ) :
    Refers ((ref k).elim res fun i => Function.update res i none) (Function.update ref k none) := by
  rcases hk : ref k with _ | i
  · exact h.drop k
  · refine ⟨fun {k' j} hj => ?_, (h.drop k).unique⟩
    rcases eq_or_ne k' k with rfl | hne
    · rw [Function.update_self] at hj
      cases hj
    · rw [Function.update_of_ne hne] at hj
      rw [Option.elim_some, Function.update_of_ne]
      · exact h.live hj
      · rintro rfl
        exact hne (h.unique hj hk)

end Refers

/-- The slots of all objects: `slot s k` is what the object `s` holds in its slot `k`. -/
def refs (slot : σ → κ → Option ι) (objs : ω → Option σ) (x : ω × κ) : Option ι :=
  (objs x.1).bind fun s => slot s x.2

section Refs
variable {slot : σ → κ → Option ι} {objs : ω → Option σ}

theorem refs_eq_some {x : ω × κ} {i : ι} :
    refs slot objs x = some i ↔ ∃ s, objs x.1 = some s ∧ slot s x.2 = some i :=
  Option.bind_eq_some_iff

variable [DecidableEq ω]

theorem refs_self (o : ω) (s : σ) (k : κ) :
    refs slot (Function.update objs o (some s)) (o, k) = slot s k := by
  simp [refs]

theorem refs_congr (o : ω) {s s' : σ} (h : slot s' = slot s) :
    refs slot (Function.update objs o (some s')) = refs slot (Function.update objs o (some s)) := by
  funext x
  unfold refs
  rcases eq_or_ne x.1 o with hx | hne
  · rw [hx, Function.update_self, Function.update_self, Option.bind_some, Option.bind_some, h]
  · rw [Function.update_of_ne hne, Function.update_of_ne hne]

/-- An object without content is as good as none. -/
theorem refs_vacant (o : ω) {s : σ} (h : slot s = fun _ => none) :
    refs slot (Function.update objs o none) = refs slot (Function.update objs o (some s)) := by
  funext x
  unfold refs
  rcases eq_or_ne x.1 o with hx | hne
  · rw [hx, Function.update_self, Function.update_self, Option.bind_none, Option.bind_some, h]
  · rw [Function.update_of_ne hne, Function.update_of_ne hne]

variable [DecidableEq κ]

/-- One slot of one object changes. -/
theorem refs_update (o : ω) {s s' : σ} {k : κ} {v : Option ι}
    (h : slot s' = Function.update (slot s) k v) :
    refs slot (Function.update objs o (some s')) =
      Function.update (refs slot (Function.update objs o (some s))) (o, k) v := by
  funext x
  rcases eq_or_ne x (o, k) with rfl | hne
  · rw [refs_self, h, Function.update_self, Function.update_self]
  · rw [Function.update_of_ne hne]
    unfold refs
    rcases eq_or_ne x.1 o with hx | hne'
    · have hk : x.2 ≠ k := fun hk => hne (Prod.ext hx hk)
      rw [hx, Function.update_self, Function.update_self, Option.bind_some, Option.bind_some, h,
        Function.update_of_ne hk]
    · rw [Function.update_of_ne hne', Function.update_of_ne hne']

end Refs

end Ownership
