import Mathlib.Data.List.Basic

/-!
Frames written to a stream by attempts that may stop short. An attempt puts a
prefix of its frame on the stream and is not resumed. The stream keeps its
framing exactly when nothing is put behind an incomplete frame.
-/
namespace KcpEv.Attempts

variable {α : Type*}

/-- A frame, and how many of its letters one attempt puts on the stream. -/
structure Attempt (α : Type*) where
  frame : List α
  count : ℕ
  nonempty : frame ≠ []

namespace Attempt

variable (x : Attempt α)

def put : List α := x.frame.take x.count

/-- The whole frame is put on the stream. -/
def Whole : Prop := x.frame.length ≤ x.count

instance : Decidable x.Whole := inferInstanceAs (Decidable (_ ≤ _))

/-- Some letters of the frame are put on the stream, but not all. -/
def Short : Prop := 0 < x.count ∧ x.count < x.frame.length

theorem put_eq_nil_iff : x.put = [] ↔ x.count = 0 := by
  unfold put
  rw [List.take_eq_nil_iff]
  constructor
  · rintro (h | h)
    · exact h
    · exact absurd h x.nonempty
  · exact Or.inl

theorem not_whole_of_count {x : Attempt α} (h : x.count = 0) : ¬ x.Whole := by
  have hpos := List.length_pos_of_ne_nil x.nonempty
  unfold Whole
  omega

end Attempt

/-- What a sequence of attempts puts on the stream. -/
def stream (l : List (Attempt α)) : List α := l.flatMap Attempt.put

/-- The frames of the attempts that succeeded. -/
def wholes (l : List (Attempt α)) : List α := (l.filter (·.Whole)).flatMap Attempt.frame

theorem stream_append (l l' : List (Attempt α)) : stream (l ++ l') = stream l ++ stream l' :=
  List.flatMap_append

theorem wholes_append (l l' : List (Attempt α)) : wholes (l ++ l') = wholes l ++ wholes l' := by
  rw [wholes, List.filter_append, List.flatMap_append]
  rfl

theorem stream_cons (x : Attempt α) (l : List (Attempt α)) :
    stream (x :: l) = x.put ++ stream l := List.flatMap_cons

theorem wholes_cons_whole {x : Attempt α} (l : List (Attempt α)) (h : x.Whole) :
    wholes (x :: l) = x.frame ++ wholes l := by
  rw [wholes, List.filter_cons_of_pos (by simpa using h), List.flatMap_cons]
  rfl

theorem wholes_cons {x : Attempt α} (l : List (Attempt α)) (h : ¬ x.Whole) :
    wholes (x :: l) = wholes l := by
  rw [wholes, List.filter_cons_of_neg (by simpa using h)]
  rfl

theorem stream_eq_nil_iff (l : List (Attempt α)) : stream l = [] ↔ ∀ x ∈ l, x.count = 0 := by
  unfold stream
  rw [List.flatMap_eq_nil_iff]
  constructor
  · intro h x hx
    exact (x.put_eq_nil_iff).mp (h x hx)
  · intro h x hx
    exact (x.put_eq_nil_iff).mpr (h x hx)

theorem wholes_eq_nil {l : List (Attempt α)} (h : ∀ x ∈ l, x.count = 0) : wholes l = [] := by
  rw [wholes, List.filter_eq_nil_iff.mpr, List.flatMap_nil]
  intro x hx
  simpa using Attempt.not_whole_of_count (h x hx)

/-- Without short attempts there are only whole frames. -/
theorem stream_eq_wholes {l : List (Attempt α)} (h : ∀ x ∈ l, ¬ x.Short) :
    stream l = wholes l := by
  induction l with
  | nil => rfl
  | cons x l ih =>
    have hrest := ih fun y hy => h y (List.mem_cons_of_mem x hy)
    by_cases hx : x.Whole
    · rw [stream_cons, wholes_cons_whole l hx, hrest, Attempt.put, List.take_of_length_le hx]
    · have hcount : x.count = 0 := by
        have hshort := h x List.mem_cons_self
        unfold Attempt.Short at hshort
        unfold Attempt.Whole at hx
        omega
      rw [stream_cons, wholes_cons l hx, hrest, (x.put_eq_nil_iff).mpr hcount, List.nil_append]

theorem length_wholes_le (l : List (Attempt α)) : (wholes l).length ≤ (stream l).length := by
  induction l with
  | nil => exact Nat.le_refl _
  | cons x l ih =>
    by_cases hx : x.Whole
    · rw [stream_cons, wholes_cons_whole l hx, Attempt.put, List.take_of_length_le hx,
        List.length_append, List.length_append]
      omega
    · rw [stream_cons, wholes_cons l hx, List.length_append]
      omega

/-- A short attempt shows in the length of the stream. -/
theorem length_wholes_lt {l : List (Attempt α)} {x : Attempt α} (hx : x ∈ l) (h : x.Short) :
    (wholes l).length < (stream l).length := by
  obtain ⟨p, q, rfl⟩ := List.append_of_mem hx
  have hp := length_wholes_le p
  have hq := length_wholes_le q
  have hwhole : ¬ x.Whole := Nat.not_le.mpr h.2
  have hpos := h.1
  have hlt := h.2
  rw [stream_append, wholes_append, stream_cons, wholes_cons q hwhole, Attempt.put]
  simp only [List.length_append, List.length_take]
  omega

/-- At every moment there are whole frames on the stream, and behind them at
most one incomplete frame; then nothing else is put there. -/
def Intact (l : List (Attempt α)) : Prop :=
  ∀ l₁ l₂, l = l₁ ++ l₂ → stream l₁ = wholes l₁ ∨
    ∃ x ∈ l₁, ∃ part, part <+: x.frame ∧ part ≠ x.frame ∧
      stream l₁ = wholes l₁ ++ part ∧ stream l₂ = []

theorem Intact.quiet {l l₁ l₂ : List (Attempt α)} {x : Attempt α} (h : Intact l)
    (hl : l = l₁ ++ x :: l₂) (hx : x.Short) : ∀ y ∈ l₂, y.count = 0 := by
  rcases h (l₁ ++ [x]) l₂ (by simp [hl]) with hwhole | ⟨-, -, -, -, -, -, hrest⟩
  · have hlt := length_wholes_lt (show x ∈ l₁ ++ [x] by simp) hx
    rw [hwhole] at hlt
    omega
  · exact (stream_eq_nil_iff l₂).mp hrest

/-- The framing survives exactly when a short attempt is the last that puts
anything on the stream. -/
theorem intact_iff (l : List (Attempt α)) :
    Intact l ↔ ∀ l₁ x l₂, l = l₁ ++ x :: l₂ → x.Short → ∀ y ∈ l₂, y.count = 0 := by
  constructor
  · intro h l₁ x l₂ hl hx
    exact h.quiet hl hx
  · rintro h l₁ l₂ rfl
    by_cases hshort : ∃ x ∈ l₁, x.Short
    · obtain ⟨x, hx, hxs⟩ := hshort
      obtain ⟨p, q, rfl⟩ := List.append_of_mem hx
      have hquiet := h p x (q ++ l₂) (by simp) hxs
      have hq : ∀ y ∈ q, y.count = 0 := fun y hy => hquiet y (by simp [hy])
      have hp : ∀ z ∈ p, ¬ z.Short := by
        intro z hz hzs
        obtain ⟨p₁, p₂, rfl⟩ := List.append_of_mem hz
        have hcount := h p₁ z (p₂ ++ x :: q ++ l₂) (by simp) hzs x (by simp)
        have hpos := hxs.1
        omega
      refine Or.inr ⟨x, hx, x.put, List.take_prefix _ _, ?_, ?_, ?_⟩
      · intro heq
        have hlength := congrArg List.length heq
        have hlt := hxs.2
        rw [Attempt.put, List.length_take] at hlength
        omega
      · rw [stream_append, wholes_append, stream_cons, wholes_cons q (Nat.not_le.mpr hxs.2),
          stream_eq_wholes hp, (stream_eq_nil_iff q).mpr hq, wholes_eq_nil hq]
        simp only [List.append_nil]
      · exact (stream_eq_nil_iff l₂).mpr fun y hy => hquiet y (by simp [hy])
    · left
      apply stream_eq_wholes
      intro x hx hxs
      exact hshort ⟨x, hx, hxs⟩

end KcpEv.Attempts
