import Mathlib.Logic.Basic

/-!
How a computation that can fail may end: with a value that meets a postcondition, or
in one of the ways that are allowed. There is one rule for each way in which such a
computation is put together.
-/
namespace Outcomes

variable {E α β : Type*}

/-- The computation returns what `Q` holds of, or fails with an allowed error. -/
def Ends (allowed : E → Prop) (Q : α → Prop) : Except E α → Prop
  | .ok a => Q a
  | .error e => allowed e

namespace Ends

variable {allowed allowed' : E → Prop} {P Q : α → Prop} {R : β → Prop} {x : Except E α}

/-- Nothing is asked of the result. -/
theorem of_ok {a : α} (h : x = .ok a) : Ends allowed (fun _ => True) x := by
  rw [h]
  trivial

theorem mono (h : Ends allowed P x) (hpost : ∀ {a}, x = .ok a → P a → Q a)
    (herror : ∀ {e}, x = .error e → allowed e → allowed' e) : Ends allowed' Q x := by
  cases x with
  | ok a => exact hpost rfl h
  | error e => exact herror rfl h

/-- What is known of every returned value may be added. -/
theorem post (h : Ends allowed P x) (hpost : ∀ {a}, x = .ok a → Q a) : Ends allowed Q x :=
  h.mono (fun hx _ => hpost hx) fun _ he => he

/-- The sequence: the first part returns what the second one needs. -/
theorem bind (h : Ends allowed P x) {f : α → Except E β}
    (hf : ∀ {a}, x = .ok a → P a → Ends allowed R (f a)) : Ends allowed R (x.bind f) := by
  cases x with
  | ok a => exact hf rfl h
  | error e => exact h

theorem ite {c : Prop} [Decidable c] {y : Except E α} (hx : c → Ends allowed Q x)
    (hy : ¬ c → Ends allowed Q y) : Ends allowed Q (if c then x else y) := by
  split
  · exact hx (by assumption)
  · exact hy (by assumption)

theorem error_allowed (h : Ends allowed Q x) {e : E} (hx : x = .error e) : allowed e := by
  rw [hx] at h
  exact h

theorem ok_post (h : Ends allowed Q x) {a : α} (hx : x = .ok a) : Q a := by
  rw [hx] at h
  exact h

end Ends

end Outcomes
