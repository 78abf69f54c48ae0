import Mathlib.Data.List.Infix
import Mathlib.Data.List.Basic

/-!
A channel that keeps the order, seen in a history of events: an event sends messages,
and it may receive one. When everything that was sent has been received, a message was
received after the event that sent it.
-/

variable {M B : Type*} (sent : M → List B) (received : M → Option B)

/-- Every event that receives, receives the next of the messages sent before it. -/
inductive Fifo : List M → Prop
  | nil : Fifo []
  | snoc {ms : List M} (h : Fifo ms) (m : M)
    (next : ∀ b, received m = some b → ms.filterMap received ++ [b] <+: ms.flatMap sent) :
    Fifo (ms ++ [m])

namespace Fifo

variable {sent : M → List B} {received : M → Option B} {ms : List M} {m : M} {b : B}

theorem of_snoc (h : Fifo sent received (ms ++ [m])) : Fifo sent received ms ∧
    ∀ b, received m = some b → ms.filterMap received ++ [b] <+: ms.flatMap sent := by
  generalize hms : ms ++ [m] = all at h
  cases h with
  | nil => simp at hms
  | snoc h m' next =>
    obtain ⟨rfl, hm⟩ := List.append_inj' hms rfl
    cases hm
    exact ⟨h, next⟩

theorem of_append {rest : List M} (h : Fifo sent received (ms ++ rest)) :
    Fifo sent received ms := by
  induction rest using List.reverseRecOn with
  | nil => rwa [List.append_nil] at h
  | append_singleton rest m ih =>
    rw [← List.append_assoc] at h
    exact ih h.of_snoc.1

/-- What an event and those before it have received was sent before it. -/
theorem received_before (h : Fifo sent received (ms ++ [m]))
    (hold : ms.filterMap received <+: ms.flatMap sent) :
    (ms ++ [m]).filterMap received <+: ms.flatMap sent := by
  rw [List.filterMap_append]
  rcases hm : received m with _ | b
  · simpa [hm] using hold
  · simpa [hm] using h.of_snoc.2 b hm

theorem received_initial (h : Fifo sent received ms) :
    ms.filterMap received <+: ms.flatMap sent := by
  induction h with
  | nil => exact List.prefix_rfl
  | @snoc ms h m next ih =>
    have hbefore := received_before (h.snoc m next) ih
    rw [List.flatMap_append]
    exact hbefore.trans (List.prefix_append _ _)

/-- When nothing is left, what an event has sent was received later. -/
theorem received_later {rest : List M} (h : Fifo sent received (ms ++ m :: rest))
    (hdrained : (ms ++ m :: rest).filterMap received = (ms ++ m :: rest).flatMap sent)
    (hb : b ∈ sent m) : ∃ m' ∈ rest, received m' = some b := by
  rw [List.append_cons] at h hdrained
  obtain ⟨left, hleft⟩ := received_before h.of_append h.of_append.of_snoc.1.received_initial
  rw [List.filterMap_append, List.flatMap_append, List.flatMap_append, ← hleft,
    List.append_assoc, List.append_assoc] at hdrained
  have hrest : rest.filterMap received = left ++ (List.flatMap sent [m] ++ rest.flatMap sent) :=
    List.append_cancel_left hdrained
  have hmem : b ∈ rest.filterMap received := by
    rw [hrest]
    simp [hb]
  exact List.mem_filterMap.mp hmem

end Fifo
