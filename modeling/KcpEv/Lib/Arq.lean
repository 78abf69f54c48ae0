import Mathlib.Data.Set.Insert
import Mathlib.Logic.Relation
import Mathlib.Data.List.Infix
import Mathlib.Data.List.Basic

/-!
One direction of a transfer with automatic repeat requests. The sender numbers
what it is given and keeps it until it knows that it has arrived. The receiver
keeps what arrives out of order and releases it in order. The network may lose,
repeat and reorder what the two say, so whatever was said once may be heard at any
time, and as often as it likes.
-/
namespace Arq

open Relation

variable {α : Type*}

/-- What is said: an item with its number, that an item has arrived, and that all
below a number were released. -/
inductive Statement (α : Type*)
  | data (n : ℕ) (a : α)
  | got (n : ℕ)
  | upto (n : ℕ)

structure Sender (α : Type*) where
  offered : List α
  numbered : ℕ
  /-- numbered, and not known to have arrived -/
  outstanding : Set (ℕ × α)

structure Receiver (α : Type*) where
  /-- arrived, and not released -/
  buffered : Set (ℕ × α)
  released : List α

structure State (α : Type*) where
  sender : Sender α
  wire : Set (Statement α)
  receiver : Receiver α

def State.init : State α := ⟨⟨[], 0, ∅⟩, ∅, ⟨∅, []⟩⟩

def Receiver.Got (r : Receiver α) (n : ℕ) : Prop :=
  n < r.released.length ∨ ∃ a, (n, a) ∈ r.buffered

/-- It was said that an item has arrived. -/
def Acknowledged (wire : Set (Statement α)) (n : ℕ) : Prop :=
  .got n ∈ wire ∨ ∃ m, n < m ∧ .upto m ∈ wire

/-- A step of the sender, which hears what is on the wire. -/
inductive SenderStep (wire : Set (Statement α)) (s : Sender α) : Sender α → Prop
  | offer (items : List α) : SenderStep wire s { s with offered := s.offered ++ items }
  | number {a : α} (h : s.offered[s.numbered]? = some a) :
    SenderStep wire s
      { s with numbered := s.numbered + 1, outstanding := insert (s.numbered, a) s.outstanding }
  | settle {left : Set (ℕ × α)} (hleft : left ⊆ s.outstanding)
    (h : ∀ p ∈ s.outstanding, p ∈ left ∨ Acknowledged wire p.1) :
    SenderStep wire s { s with outstanding := left }

/-- A step of the receiver. -/
inductive ReceiverStep (wire : Set (Statement α)) (r : Receiver α) : Receiver α → Prop
  | arrive {n : ℕ} {a : α} (h : .data n a ∈ wire) (hnew : r.released.length ≤ n) :
    ReceiverStep wire r { r with buffered := insert (n, a) r.buffered }
  | release {left : Set (ℕ × α)} {a : α} (h : (r.released.length, a) ∈ r.buffered)
    (hleft : left ⊆ r.buffered) (hrest : ∀ p ∈ r.buffered, p ∈ left ∨ p.1 = r.released.length)
    (hlast : ∀ p ∈ left, p.1 ≠ r.released.length) :
    ReceiverStep wire r ⟨left, r.released ++ [a]⟩

/-- What the two may say. -/
def State.May (s : State α) : Statement α → Prop
  | .data n a => (n, a) ∈ s.sender.outstanding
  | .got n => s.receiver.Got n
  | .upto n => n ≤ s.receiver.released.length

inductive Step (s : State α) : State α → Prop
  | send {sender : Sender α} (h : SenderStep s.wire s.sender sender) : Step s { s with sender }
  | receive {receiver : Receiver α} (h : ReceiverStep s.wire s.receiver receiver) :
    Step s { s with receiver }
  | say {said : Set (Statement α)} (h : ∀ st ∈ said, s.May st) :
    Step s { s with wire := s.wire ∪ said }

def Reachable (s : State α) : Prop := ReflTransGen Step .init s

/-- What holds of every reachable state: whatever is kept or said is true. -/
structure Inv (s : State α) : Prop where
  numbered : s.sender.numbered ≤ s.sender.offered.length
  outstanding : ∀ p ∈ s.sender.outstanding,
    p.1 < s.sender.numbered ∧ s.sender.offered[p.1]? = some p.2
  buffered : ∀ p ∈ s.receiver.buffered, s.receiver.released.length ≤ p.1 ∧
    p.1 < s.sender.numbered ∧ s.sender.offered[p.1]? = some p.2
  released : s.receiver.released = s.sender.offered.take s.receiver.released.length
  released_le : s.receiver.released.length ≤ s.sender.numbered
  arrived : ∀ n < s.sender.numbered, (∃ a, (n, a) ∈ s.sender.outstanding) ∨ s.receiver.Got n
  data : ∀ n a, .data n a ∈ s.wire → n < s.sender.numbered ∧ s.sender.offered[n]? = some a
  got : ∀ n, .got n ∈ s.wire → s.receiver.Got n
  upto : ∀ n, .upto n ∈ s.wire → n ≤ s.receiver.released.length

theorem inv_init : Inv (State.init : State α) where
  numbered := Nat.le_refl 0
  outstanding := fun _ h => h.elim
  buffered := fun _ h => h.elim
  released := rfl
  released_le := Nat.le_refl 0
  arrived := fun n h => absurd h (Nat.not_lt_zero n)
  data := fun _ _ h => h.elim
  got := fun _ h => h.elim
  upto := fun _ h => h.elim

theorem Inv.acknowledged {s : State α} (h : Inv s) {n : ℕ} (hn : Acknowledged s.wire n) :
    s.receiver.Got n := by
  rcases hn with hgot | ⟨m, hlt, hupto⟩
  · exact h.got n hgot
  · exact Or.inl (Nat.lt_of_lt_of_le hlt (h.upto m hupto))

theorem ReceiverStep.got {wire : Set (Statement α)} {r r' : Receiver α}
    (h : ReceiverStep wire r r') {n : ℕ} (hn : r.Got n) : r'.Got n := by
  cases h with
  | arrive hdata hnew => exact hn.imp id fun ⟨a, ha⟩ => ⟨a, Set.mem_insert_of_mem _ ha⟩
  | release hnext hleft hrest hlast =>
    rcases hn with hlt | ⟨a, ha⟩
    · left
      rw [List.length_append]
      exact Nat.lt_add_right _ hlt
    · rcases hrest _ ha with hin | heq
      · exact Or.inr ⟨a, hin⟩
      · left
        rw [List.length_append, List.length_singleton]
        exact Nat.lt_succ_of_le (Nat.le_of_eq heq)

theorem ReceiverStep.released {wire : Set (Statement α)} {r r' : Receiver α}
    (h : ReceiverStep wire r r') : r.released <+: r'.released := by
  cases h with
  | arrive hdata hnew => exact List.prefix_rfl
  | release hnext hleft hrest hlast => exact List.prefix_append _ _

theorem released_steps {wire : Set (Statement α)} {r r' : Receiver α}
    (h : ReflTransGen (ReceiverStep wire) r r') : r.released <+: r'.released := by
  induction h with
  | refl => exact List.prefix_rfl
  | tail _ hstep ih => exact ih.trans hstep.released

theorem Inv.send {s : State α} (h : Inv s) {sender : Sender α}
    (hstep : SenderStep s.wire s.sender sender) : Inv { s with sender } := by
  cases hstep with
  | offer items =>
    -- what was offered before keeps its place
    have keep : ∀ {n : ℕ} {a : α}, n < s.sender.numbered ∧ s.sender.offered[n]? = some a →
        n < s.sender.numbered ∧ (s.sender.offered ++ items)[n]? = some a := by
      rintro n a ⟨hlt, ha⟩
      exact ⟨hlt, by rw [List.getElem?_append_left (List.getElem?_eq_some_iff.mp ha).1, ha]⟩
    have hle := h.released_le.trans h.numbered
    refine { h with
      numbered := ?_
      outstanding := fun p hp => keep (h.outstanding p hp)
      buffered := fun p hp => ⟨(h.buffered p hp).1, keep (h.buffered p hp).2⟩
      released := ?_
      data := fun n a hn => keep (h.data n a hn) }
    · rw [List.length_append]
      exact Nat.le_add_right_of_le h.numbered
    · rw [List.take_append_of_le_length hle]
      exact h.released
  | @number a ha =>
    have hlt := (List.getElem?_eq_some_iff.mp ha).1
    refine { h with
      numbered := hlt
      outstanding := ?_
      buffered := fun p hp => ⟨(h.buffered p hp).1, Nat.lt_succ_of_lt (h.buffered p hp).2.1,
        (h.buffered p hp).2.2⟩
      released_le := Nat.le_succ_of_le h.released_le
      arrived := ?_
      data := fun n a hn => ⟨Nat.lt_succ_of_lt (h.data n a hn).1, (h.data n a hn).2⟩ }
    · rintro p (rfl | hp)
      · exact ⟨Nat.lt_succ_self _, ha⟩
      · exact ⟨Nat.lt_succ_of_lt (h.outstanding p hp).1, (h.outstanding p hp).2⟩
    · intro n hn
      rcases Nat.lt_succ_iff_lt_or_eq.mp hn with hold | rfl
      · exact (h.arrived n hold).imp (fun ⟨b, hb⟩ => ⟨b, Set.mem_insert_of_mem _ hb⟩) id
      · exact Or.inl ⟨a, Set.mem_insert _ _⟩
  | settle hleft hrest =>
    refine { h with outstanding := fun p hp => h.outstanding p (hleft hp), arrived := ?_ }
    intro n hn
    rcases h.arrived n hn with ⟨a, ha⟩ | hgot
    · exact (hrest _ ha).imp (fun hin => ⟨a, hin⟩) h.acknowledged
    · exact Or.inr hgot

theorem Inv.receive {s : State α} (h : Inv s) {receiver : Receiver α}
    (hstep : ReceiverStep s.wire s.receiver receiver) : Inv { s with receiver } := by
  refine { h with
    buffered := ?_, released := ?_, released_le := ?_
    arrived := fun n hn => (h.arrived n hn).imp id hstep.got
    got := fun n hn => hstep.got (h.got n hn)
    upto := fun n hn => (h.upto n hn).trans hstep.released.length_le }
  all_goals cases hstep with
  | arrive hdata hnew => ?_
  | @release left a hnext hleft hrest hlast => ?_
  · rintro p (rfl | hp)
    · exact ⟨hnew, h.data _ _ hdata⟩
    · exact h.buffered p hp
  · intro p hp
    obtain ⟨hge, htrue⟩ := h.buffered p (hleft hp)
    rw [List.length_append, List.length_singleton]
    exact ⟨Nat.lt_of_le_of_ne hge (Ne.symm (hlast p hp)), htrue⟩
  · exact h.released
  · obtain ⟨-, -, ha⟩ := h.buffered _ hnext
    have htake := h.released
    rw [List.length_append, List.length_singleton, List.take_add_one, ha, Option.toList_some,
      ← htake]
  · exact h.released_le
  · rw [List.length_append, List.length_singleton]
    exact (h.buffered _ hnext).2.1

theorem Inv.step {s s' : State α} (h : Inv s) (hstep : Step s s') : Inv s' := by
  cases hstep with
  | send hsend => exact h.send hsend
  | receive hreceive => exact h.receive hreceive
  | say hsaid =>
    refine { h with data := ?_, got := ?_, upto := ?_ }
    · rintro n a (hold | hnew)
      · exact h.data n a hold
      · exact h.outstanding _ (hsaid _ hnew)
    · rintro n (hold | hnew)
      · exact h.got n hold
      · exact hsaid _ hnew
    · rintro n (hold | hnew)
      · exact h.upto n hold
      · exact hsaid _ hnew

theorem Reachable.inv {s : State α} (h : Reachable s) : Inv s := by
  induction h with
  | refl => exact inv_init
  | tail _ hstep ih => exact ih.step hstep

/-! Steps of one party are steps of the transfer. -/

theorem Reachable.send {s : State α} (h : Reachable s) {sender : Sender α}
    (hsteps : ReflTransGen (SenderStep s.wire) s.sender sender) : Reachable { s with sender } := by
  induction hsteps with
  | refl => exact h
  | tail _ hstep ih => exact ih.tail (.send hstep)

theorem Reachable.receive {s : State α} (h : Reachable s) {receiver : Receiver α}
    (hsteps : ReflTransGen (ReceiverStep s.wire) s.receiver receiver) :
    Reachable { s with receiver } := by
  induction hsteps with
  | refl => exact h
  | tail _ hstep ih => exact ih.tail (.receive hstep)

theorem Reachable.say {s : State α} (h : Reachable s) {said : Set (Statement α)}
    (hsaid : ∀ st ∈ said, s.May st) : Reachable { s with wire := s.wire ∪ said } :=
  h.tail (.say hsaid)

/-! What the transfer is for. -/

/-- What is released was offered, in the same order and once. -/
theorem Reachable.released_initial {s : State α} (h : Reachable s) :
    s.receiver.released <+: s.sender.offered := by
  rw [h.inv.released]
  exact List.take_prefix _ _

/-- When the sender waits for nothing, everything has arrived. -/
theorem Reachable.all_arrived {s : State α} (h : Reachable s)
    (hnumbered : s.sender.numbered = s.sender.offered.length)
    (hnone : s.sender.outstanding = ∅) {n : ℕ} (hn : n < s.sender.offered.length) :
    s.receiver.Got n := by
  rw [← hnumbered] at hn
  rcases h.inv.arrived n hn with ⟨a, ha⟩ | hgot
  · rw [hnone] at ha
    exact ha.elim
  · exact hgot

/-- When the receiver has moreover nothing to release, everything was released. -/
theorem Reachable.all_released {s : State α} (h : Reachable s)
    (hnumbered : s.sender.numbered = s.sender.offered.length)
    (hnone : s.sender.outstanding = ∅)
    (hstuck : ∀ a, (s.receiver.released.length, a) ∉ s.receiver.buffered) :
    s.receiver.released = s.sender.offered := by
  refine h.released_initial.eq_of_length_le ?_
  by_contra hlt
  rcases h.all_arrived hnumbered hnone (Nat.not_le.mp hlt) with hpast | ⟨a, ha⟩
  · exact absurd hpast (Nat.lt_irrefl _)
  · exact hstuck a ha

end Arq
