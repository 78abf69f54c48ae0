import Mathlib.Data.List.Basic
import Mathlib.Algebra.Order.Group.Nat

/-!
Queues of bounded length over an arbitrary alphabet, as a data type with
operations and answers. What an operation leaves behind is a function of the
queue; what it answers is a relation, since a reader may be handed any non-empty
part of the front. An implementation keeps an invariant, and each of its
operations does to the contents what the queue does; then every sequence of
permitted operations succeeds and answers as the queue.
-/
namespace BoundedQueue

variable {α E S : Type*}

inductive Op (α : Type*)
  | put (data : List α)
  /-- read from the front, and leave it there -/
  | copy (len : ℕ)
  /-- look at some part of the front -/
  | chunk
  | consume (len : ℕ)
  | clear

inductive Reply (α : Type*)
  | put (accepted : Bool)
  | copied (data : Option (List α))
  | chunk (data : List α)
  | done
  deriving DecidableEq

def next (n : ℕ) (q : List α) : Op α → List α
  | .put data => if q.length + data.length ≤ n then q ++ data else q
  | .copy _ | .chunk => q
  | .consume len => q.drop len
  | .clear => []

/-- The answers an operation may give. -/
def Answers (n : ℕ) (q : List α) : Op α → Reply α → Prop
  | .put data, .put accepted => accepted = decide (q.length + data.length ≤ n)
  | .copy len, .copied data => data = if q.length < len then none else some (q.take len)
  | .chunk, .chunk data => data <+: q ∧ (data = [] ↔ q = [])
  | .consume _, .done | .clear, .done => True
  | _, _ => False

/-- Nobody consumes more than there is. -/
def Permitted (q : List α) : Op α → Prop
  | .consume len => len ≤ q.length
  | _ => True

def PermittedFrom (n : ℕ) : List α → List (Op α) → Prop
  | _, [] => True
  | q, op :: ops => Permitted q op ∧ PermittedFrom n (next n q op) ops

def AnswersFrom (n : ℕ) : List α → List (Op α) → List (Reply α) → Prop
  | _, [], [] => True
  | q, op :: ops, reply :: replies =>
    Answers n q op reply ∧ AnswersFrom n (next n q op) ops replies
  | _, _, _ => False

instance (q : List α) (op : Op α) : Decidable (Permitted q op) := by
  unfold Permitted
  split <;> infer_instance

instance decidablePermittedFrom (n : ℕ) : (q : List α) → (ops : List (Op α)) →
    Decidable (PermittedFrom n q ops)
  | _, [] => .isTrue trivial
  | q, op :: ops =>
    have := decidablePermittedFrom n (next n q op) ops
    inferInstanceAs (Decidable (_ ∧ _))

theorem length_next_le {n : ℕ} {q : List α} (h : q.length ≤ n) (op : Op α) :
    (next n q op).length ≤ n := by
  cases op with
  | put data =>
    rw [next]
    split
    · rw [List.length_append]
      assumption
    · exact h
  | copy len => exact h
  | chunk => exact h
  | consume len =>
    rw [next, List.length_drop]
    omega
  | clear => exact Nat.zero_le n

theorem length_foldl_le {n : ℕ} {q : List α} (h : q.length ≤ n) (ops : List (Op α)) :
    (ops.foldl (next n) q).length ≤ n := by
  induction ops generalizing q with
  | nil => exact h
  | cons op ops ih => exact ih (length_next_le h op)

/-- Execute operations one after the other, and collect the answers. -/
def exec (apply : S → Op α → Except E (S × Reply α)) :
    S → List (Op α) → Except E (S × List (Reply α))
  | s, [] => .ok (s, [])
  | s, op :: ops => do
    let (s, reply) ← apply s op
    let (s, replies) ← exec apply s ops
    return (s, reply :: replies)

/-- The states that meet an invariant are queues of this capacity. -/
structure Implements (apply : S → Op α → Except E (S × Reply α)) (inv : S → Prop)
    (contents : S → List α) (n : ℕ) : Prop where
  apply_ok : ∀ {s op}, inv s → Permitted (contents s) op →
    ∃ s' reply, apply s op = .ok (s', reply) ∧ inv s' ∧ Answers n (contents s) op reply ∧
      contents s' = next n (contents s) op

/-- Permitted operations succeed and answer as those of the queue. -/
theorem Implements.exec_ok {apply : S → Op α → Except E (S × Reply α)} {inv : S → Prop}
    {contents : S → List α} {n : ℕ} (h : Implements apply inv contents n) {s : S} (hs : inv s)
    {ops : List (Op α)} (hops : PermittedFrom n (contents s) ops) :
    ∃ s' replies, exec apply s ops = .ok (s', replies) ∧ inv s' ∧
      AnswersFrom n (contents s) ops replies ∧ contents s' = ops.foldl (next n) (contents s) := by
  induction ops generalizing s with
  | nil => exact ⟨s, [], rfl, hs, trivial, rfl⟩
  | cons op ops ih =>
    obtain ⟨hop, hrest⟩ := hops
    obtain ⟨s₁, reply, happly, hs₁, hanswer, hnext⟩ := h.apply_ok hs hop
    rw [← hnext] at hrest
    obtain ⟨s₂, replies, hexec, hs₂, hanswers, hfinal⟩ := ih hs₁ hrest
    refine ⟨s₂, reply :: replies, ?_, hs₂, ⟨hanswer, ?_⟩, ?_⟩
    · simp only [exec, happly, hexec, bind, Except.bind, pure, Except.pure]
    · rw [← hnext]
      exact hanswers
    · rw [hfinal, hnext, List.foldl_cons]

end BoundedQueue
