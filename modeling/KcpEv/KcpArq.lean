import KcpEv.Bounded
import KcpEv.Lib.Arq

/-!
A control block as a party of a transfer with automatic repeat requests. As long as
the serial numbers do not come around, its outgoing half is a sender and its incoming
half a receiver, and every call makes them take the steps they may take.
-/
namespace KcpEv

open Relation Arq

/-- What a segment carries. -/
def IkcpSeg.content (seg : IkcpSeg) : UInt8 × Bytes := (seg.frg, seg.data)

abbrev Content := UInt8 × Bytes

theorem IkcpSeg.Same.content {seg seg' : IkcpSeg} (h : seg.Same seg') :
    seg'.content = seg.content :=
  Prod.ext h.frg h.data

namespace Ikcp

/-- Below this, differences of serial numbers and of ends of windows are exact. -/
def serialLimit : ℕ := 2 ^ 31 - 128

/-- What a segment says about the data of its sender, and about that of its receiver. -/
structure Hears (data acks : Set (Statement Content)) (seg : IkcpSeg) : Prop where
  push : seg.cmd = .push → .data seg.sn.toNat seg.content ∈ data
  ack : seg.cmd = .ack → .got seg.sn.toNat ∈ acks
  una : .upto seg.una.toNat ∈ acks

/-- Numbered contents. -/
def carried (segs : List IkcpSeg) : Set (ℕ × Content) :=
  { p | ∃ seg ∈ segs, (seg.sn.toNat, seg.content) = p }

theorem carried_subset {segs segs' : List IkcpSeg} (h : segs ⊆ segs') :
    carried segs ⊆ carried segs' := by
  rintro p ⟨seg, hseg, heq⟩
  exact ⟨seg, h hseg, heq⟩

theorem carried_middle (below above : List IkcpSeg) (seg : IkcpSeg) :
    carried (below ++ seg :: above) =
      insert (seg.sn.toNat, seg.content) (carried (below ++ above)) := by
  ext p
  simp only [carried, List.mem_append, List.mem_cons, Set.mem_insert_iff, Set.mem_ofPred_eq]
  constructor
  · rintro ⟨s, hs | rfl | hs, heq⟩
    · exact Or.inr ⟨s, Or.inl hs, heq⟩
    · exact Or.inl heq.symm
    · exact Or.inr ⟨s, Or.inr hs, heq⟩
  · rintro (rfl | ⟨s, hs | hs, heq⟩)
    · exact ⟨seg, Or.inr (Or.inl rfl), rfl⟩
    · exact ⟨s, Or.inl hs, heq⟩
    · exact ⟨s, Or.inr (Or.inr hs), heq⟩

theorem carried_same {segs segs' : List IkcpSeg} (h : List.Forall₂ IkcpSeg.Same segs segs') :
    carried segs' = carried segs := by
  induction h with
  | nil => rfl
  | @cons seg seg' segs segs' hsame _ ih =>
    have hfirst := carried_middle [] segs seg
    have hfirst' := carried_middle [] segs' seg'
    rw [List.nil_append, List.nil_append] at hfirst hfirst'
    rw [hfirst, hfirst', ih, hsame.sn, hsame.content]

/-! The sender. -/

/-- The outgoing half of a block that was given these contents. -/
def Outgoing.sender (s : Outgoing) (offered : List Content) : Arq.Sender Content :=
  ⟨offered, s.nxt.toNat, carried s.buf⟩

/-- The queue is what has not been numbered. -/
structure Outgoing.Tied (conv : ℕ) (offered : List Content) (s : Outgoing) : Prop where
  queue : s.queue.map IkcpSeg.content = offered.drop s.nxt.toNat
  nxt : s.nxt.toNat ≤ offered.length
  buf : ∀ seg ∈ s.buf, seg.sn.toNat < s.nxt.toNat ∧ seg.conv = UInt32.ofNat conv

section Sender
variable {conv : ℕ} {sndWnd : UInt32} {data acks : Set (Statement Content)} {offered : List Content}
  {s s' : Outgoing}

/-- What is forgotten was acknowledged. -/
theorem Outgoing.sender_settle (h : s.Tied conv offered) (hlimit : offered.length < serialLimit)
    (hacks : ∀ n, .upto n ∈ acks → n < 2 ^ 31) {seg : IkcpSeg} {left : List IkcpSeg}
    (hseg : Hears data acks seg) (hleft : left.Sublist s.buf)
    (hrest : ∀ sent ∈ s.buf, sent ∈ left ∨ Settles seg sent) :
    SenderStep acks (s.sender offered)
      (Outgoing.sender { s with una := firstSn left s.nxt, buf := left } offered) := by
  have hlim : serialLimit = 2 ^ 31 - 128 := rfl
  refine .settle (s := s.sender offered) (carried_subset hleft.subset) ?_
  rintro p ⟨sent, hsent, rfl⟩
  rcases hrest sent hsent with hin | huna | ⟨hcmd, hsn⟩
  · exact Or.inl ⟨sent, hin, rfl⟩
  · have hsmall := (h.buf sent hsent).1
    have hnxt := h.nxt
    have hupto := hacks _ hseg.una
    rw [itimediff_small hupto (by omega)] at huna
    exact Or.inr (Or.inr ⟨seg.una.toNat, by dsimp only; omega, hseg.una⟩)
  · exact Or.inr (Or.inl (hsn ▸ hseg.ack hcmd))

theorem Outgoing.tied_settle (h : s.Tied conv offered) {left : List IkcpSeg}
    (hleft : left.Sublist s.buf) :
    Outgoing.Tied conv offered { s with una := firstSn left s.nxt, buf := left } :=
  { h with buf := fun seg hseg => h.buf seg (hleft.subset hseg) }

/-- The first of the queue is the next content. -/
theorem Outgoing.Tied.next (h : s.Tied conv offered) {seg : IkcpSeg} {queue : List IkcpSeg}
    (hqueue : s.queue = seg :: queue) : offered[s.nxt.toNat]? = some seg.content ∧
      queue.map IkcpSeg.content = offered.drop (s.nxt.toNat + 1) := by
  have hdrop := h.queue
  rw [hqueue, List.map_cons] at hdrop
  constructor
  · rw [← List.head?_drop, ← hdrop]
    rfl
  · rw [← List.tail_drop, ← hdrop]
    rfl

theorem Outgoing.step_sender (h : s.Tied conv offered) (hlimit : offered.length < serialLimit)
    (hacks : ∀ n, .upto n ∈ acks → n < 2 ^ 31)
    (hstep : s.Step conv sndWnd (Hears data acks) s') :
    ReflTransGen (SenderStep acks) (s.sender offered) (s'.sender offered) ∧
      s'.Tied conv offered := by
  have hlim : serialLimit = 2 ^ 31 - 128 := rfl
  cases hstep with
  | settle hseg hleft hrest =>
    exact ⟨.single (sender_settle h hlimit hacks hseg hleft hrest), tied_settle h hleft⟩
  | @number seg newseg queue cwnd hqueue hwnd hroom hconv hcmd hsn hfrg hdata =>
    obtain ⟨hnext, htail⟩ := h.next hqueue
    have hlt := (List.getElem?_eq_some_iff.mp hnext).1
    have hsucc : (s.nxt + 1).toNat = s.nxt.toNat + 1 := toNat_succ (by omega)
    have hcontent : newseg.content = seg.content := Prod.ext hfrg hdata
    refine ⟨.single ?_, ?_⟩
    · have hnumber : SenderStep acks (s.sender offered) _ := .number hnext
      unfold Outgoing.sender at hnumber ⊢
      dsimp only at hnumber ⊢
      rw [hsucc, carried_middle s.buf [] newseg, List.append_nil, hsn, hcontent]
      exact hnumber
    · refine ⟨?_, ?_, ?_⟩
      · rw [hsucc]
        exact htail
      · rw [hsucc]
        exact hlt
      · intro x hx
        rw [hsucc]
        rcases List.mem_append.mp hx with hx | hx
        · exact ⟨Nat.lt_succ_of_lt (h.buf x hx).1, (h.buf x hx).2⟩
        · rw [List.mem_singleton.mp hx, hsn]
          exact ⟨Nat.lt_succ_self _, hconv⟩
  | @touch buf hsame =>
    have hsender : Outgoing.sender { s with buf } offered = s.sender offered :=
      congrArg (Arq.Sender.mk offered s.nxt.toNat) (carried_same hsame)
    rw [hsender]
    refine ⟨.refl, { h with buf := fun x hx => ?_ }⟩
    obtain ⟨seg, hseg, hsegsame⟩ := same_mem hsame hx
    rw [hsegsame.sn, hsegsame.conv]
    exact h.buf seg hseg

theorem Outgoing.steps_sender (h : s.Tied conv offered) (hlimit : offered.length < serialLimit)
    (hacks : ∀ n, .upto n ∈ acks → n < 2 ^ 31)
    (hsteps : ReflTransGen (Outgoing.Step conv sndWnd (Hears data acks)) s s') :
    ReflTransGen (SenderStep acks) (s.sender offered) (s'.sender offered) ∧
      s'.Tied conv offered := by
  induction hsteps with
  | refl => exact ⟨.refl, h⟩
  | tail _ hstep ih =>
    obtain ⟨hone, htied⟩ := step_sender ih.2 hlimit hacks hstep
    exact ⟨ih.1.trans hone, htied⟩

end Sender

/-! The receiver. -/

/-- The incoming half of a block from which these contents were read. -/
def Incoming.receiver (s : Incoming) (read : List Content) : Arq.Receiver Content :=
  ⟨carried s.buf, read ++ s.queue.map IkcpSeg.content⟩

/-- What was released is counted, and what is to be acknowledged has arrived. -/
structure Incoming.Tied (rcvWnd : UInt32) (read : List Content) (s : Incoming) : Prop where
  ok : s.Ok rcvWnd
  nxt : s.nxt.toNat = (read ++ s.queue.map IkcpSeg.content).length
  acks : ∀ p ∈ s.acks, (s.receiver read).Got p.1.toNat
  near : s.nxt.toNat ≤ serialLimit
  buf : ∀ seg ∈ s.buf, seg.sn.toNat < serialLimit

section Receiver
variable {rcvWnd : UInt32} {data acks : Set (Statement Content)} {read : List Content}
  {s s' : Incoming}

theorem Incoming.step_receiver (h : s.Tied rcvWnd read) (hwnd : rcvWnd.toNat < 2 ^ 31)
    (hdata : ∀ n a, .data n a ∈ data → n < serialLimit)
    (hstep : s.Step rcvWnd (Hears data acks) s') :
    ReflTransGen (ReceiverStep data) (s.receiver read) (s'.receiver read) ∧
      s'.Tied rcvWnd read := by
  have hlim : serialLimit = 2 ^ 31 - 128 := rfl
  have hnear := h.near
  have hlen := h.nxt
  have hok := h.ok.step hwnd hstep
  cases hstep with
  | @insert seg below above hseg hcmd hfirst hlast hbuf habove hbelow =>
    have hsaid := hseg.push hcmd
    have hsmall := hdata _ _ hsaid
    rw [itimediff_small (by omega) (by omega)] at hfirst
    have hnew : (s.receiver read).released.length ≤ seg.sn.toNat := by
      change (read ++ s.queue.map IkcpSeg.content).length ≤ _
      omega
    have harrive := ReceiverStep.arrive hsaid hnew
    have heq : Incoming.receiver { s with buf := below ++ seg :: above } read =
        { s.receiver read with
          buffered := insert (seg.sn.toNat, seg.content) (s.receiver read).buffered } := by
      unfold Incoming.receiver
      dsimp only
      rw [carried_middle, hbuf]
    rw [heq]
    refine ⟨.single harrive, ⟨hok, hlen, fun p hp => ?_, hnear, fun x hx => ?_⟩⟩
    · rw [heq]
      exact harrive.got (h.acks p hp)
    · rcases List.mem_append.mp hx with hx | hx
      · exact h.buf x (hbuf ▸ List.mem_append_left _ hx)
      · rcases List.mem_cons.mp hx with rfl | hx
        · exact hsmall
        · exact h.buf x (hbuf ▸ List.mem_append_right _ hx)
  | @note seg hseg hcmd hlast hgot =>
    refine ⟨.refl, ⟨hok, hlen, fun p hp => ?_, hnear, h.buf⟩⟩
    rcases List.mem_append.mp hp with hp | hp
    · exact h.acks p hp
    · rw [List.mem_singleton.mp hp]
      have hsmall := hdata _ _ (hseg.push hcmd)
      rcases hgot with hold | ⟨other, hother, heq⟩
      · rw [itimediff_small (by omega) (by omega)] at hold
        left
        change seg.sn.toNat < (read ++ s.queue.map IkcpSeg.content).length
        omega
      · exact Or.inr ⟨other.content, other, hother, by rw [heq]⟩
  | @advance seg buf hbuf hsn hroom =>
    have hfirst : seg ∈ s.buf := hbuf ▸ List.mem_cons_self
    have hsmall := h.buf seg hfirst
    rw [hsn] at hsmall
    have hsucc : (s.nxt + 1).toNat = s.nxt.toNat + 1 := toNat_succ (by omega)
    have hnumber : seg.sn.toNat = (s.receiver read).released.length := by
      rw [hsn]
      exact hlen
    have hlater : ∀ x ∈ buf, x.sn.toNat ≠ seg.sn.toNat := by
      intro x hx heq
      have hsorted := h.ok.sorted
      rw [hbuf] at hsorted
      have hlt := (List.pairwise_cons.mp hsorted).1 x.sn (List.mem_map_of_mem hx)
      rw [UInt32.toNat_inj.mp heq] at hlt
      exact Nat.lt_irrefl _ hlt
    have hrelease : ReceiverStep data (s.receiver read)
        ⟨carried buf, (s.receiver read).released ++ [seg.content]⟩ := by
      refine .release ⟨seg, hfirst, Prod.ext hnumber rfl⟩ ?_ ?_ ?_
      · exact carried_subset (hbuf ▸ List.subset_cons_self _ _)
      · rintro p ⟨x, hx, rfl⟩
        rw [hbuf] at hx
        rcases List.mem_cons.mp hx with rfl | hx
        · exact Or.inr hnumber
        · exact Or.inl ⟨x, hx, rfl⟩
      · rintro p ⟨x, hx, rfl⟩ heq
        exact hlater x hx (heq.trans hnumber.symm)
    have heq : Incoming.receiver { s with nxt := s.nxt + 1, queue := s.queue ++ [seg], buf } read =
        ⟨carried buf, (s.receiver read).released ++ [seg.content]⟩ := by
      unfold Incoming.receiver
      dsimp only
      rw [List.map_append, ← List.append_assoc]
      rfl
    rw [heq]
    refine ⟨.single hrelease, ⟨hok, ?_, fun p hp => ?_, ?_, fun x hx => ?_⟩⟩
    · dsimp only
      rw [hsucc, hlen]
      simp only [List.map_append, List.length_append, List.map_singleton, List.length_singleton,
        Nat.add_assoc]
    · rw [heq]
      exact hrelease.got (h.acks p hp)
    · dsimp only
      omega
    · exact h.buf x (hbuf ▸ List.mem_cons_of_mem seg hx)
  | clear => exact ⟨.refl, ⟨hok, hlen, List.forall_mem_nil _, hnear, h.buf⟩⟩

theorem Incoming.steps_receiver (h : s.Tied rcvWnd read) (hwnd : rcvWnd.toNat < 2 ^ 31)
    (hdata : ∀ n a, .data n a ∈ data → n < serialLimit)
    (hsteps : ReflTransGen (Incoming.Step rcvWnd (Hears data acks)) s s') :
    ReflTransGen (ReceiverStep data) (s.receiver read) (s'.receiver read) ∧
      s'.Tied rcvWnd read := by
  induction hsteps with
  | refl => exact ⟨.refl, h⟩
  | tail _ hstep ih =>
    obtain ⟨hone, htied⟩ := step_receiver ih.2 hwnd hdata hstep
    exact ⟨ih.1.trans hone, htied⟩

end Receiver

end Ikcp

end KcpEv
