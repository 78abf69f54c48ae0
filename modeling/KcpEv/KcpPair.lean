import KcpEv.KcpArq
import KcpEv.Link

/-!
Two control blocks and a network that loses, repeats and reorders their datagrams.
The two take their calls in any order; a datagram that comes in was put out by the
other end at some time. Each direction is a transfer with automatic repeat requests.
-/
namespace KcpEv

open Guarded Relation Arq

/-- A call of the control block. -/
inductive Call
  | send (buffer : Bytes)
  | recv (len : ℕ)
  | input (data : Bytes)
  | update (now : UInt32)
  deriving DecidableEq, Repr

namespace Ikcp

def call (conv : ℕ) (k : Ikcp) : Call → Ikcp
  | .send buffer => (k.send buffer).1
  | .recv len => (k.recv len).1
  | .input data => (k.input conv data).1
  | .update now => (k.update conv now).1

/-- The messages that `ikcp_send` accepts in a call. -/
def accepts (k : Ikcp) : Call → List Bytes
  | .send buffer => if (k.send buffer).2 = 0 then [buffer] else []
  | _ => []

/-- The messages that `ikcp_recv` gives out. -/
def delivers (k : Ikcp) : Call → List Bytes
  | .recv len => (k.recv len).2.toList
  | _ => []

/-- What it takes out of the queue for them. -/
def reads (k : Ikcp) : Call → List Content
  | .recv len =>
    if (k.recv len).2.isSome then (firstMessage k.rcvQueue).map IkcpSeg.content else []
  | _ => []

/-- The datagrams given to the output callback. -/
def outputs (conv : ℕ) (k : Ikcp) : Call → List Bytes
  | .update now => (k.update conv now).2
  | _ => []

/-- The contents of the fragments of a message. -/
def contents (buffer : Bytes) : List Content :=
  (fragment (fragmentCount buffer.length) buffer).map IkcpSeg.content

/-! What one call does. -/

/-- A block that was given these contents, and from which these were read. -/
structure Synced (conv : ℕ) (offered read : List Content) (k : Ikcp) : Prop where
  bounded : k.Bounded
  sending : k.outgoing.Tied conv offered
  receiving : k.incoming.Tied k.rcvWnd read

/-- A datagram whose statements a block may make. -/
structure Says (conv : ℕ) (read : List Content) (k : Ikcp) (segs : List IkcpSeg) : Prop where
  ne : segs ≠ []
  sendable : Sendable conv segs
  push : ∀ seg ∈ segs, seg.cmd = .push → (seg.sn.toNat, seg.content) ∈ carried k.sndBuf
  ack : ∀ seg ∈ segs, seg.cmd = .ack → (k.incoming.receiver read).Got seg.sn.toNat
  una : ∀ seg ∈ segs, seg.una.toNat ≤ (k.incoming.receiver read).released.length

/-- A call takes the steps of a sender and of a receiver. -/
structure Does (conv : ℕ) (data acks : Set (Statement Content)) (offered read : List Content)
    (k : Ikcp) (c : Call) : Prop where
  synced : Synced conv (offered ++ (k.accepts c).flatMap contents) (read ++ k.reads c)
    (k.call conv c)
  sender : ReflTransGen (SenderStep acks) (k.outgoing.sender offered)
    ((k.call conv c).outgoing.sender (offered ++ (k.accepts c).flatMap contents))
  receiver : ReflTransGen (ReceiverStep data) (k.incoming.receiver read)
    ((k.call conv c).incoming.receiver (read ++ k.reads c))
  speaks : ∀ d ∈ k.outputs conv c, ∃ segs, d = datagram segs ∧
    Says conv (read ++ k.reads c) (k.call conv c) segs

section Call
variable {conv : ℕ} {data acks : Set (Statement Content)} {offered read : List Content}
  {k k' : Ikcp}

theorem Synced.moves (h : Synced conv offered read k) (hlimit : offered.length < serialLimit)
    (hacks : ∀ n, .upto n ∈ acks → n < 2 ^ 31) (hdata : ∀ n a, .data n a ∈ data → n < serialLimit)
    (hmoves : Moves conv (Hears data acks) k k') : Synced conv offered read k' ∧
      ReflTransGen (SenderStep acks) (k.outgoing.sender offered) (k'.outgoing.sender offered) ∧
      ReflTransGen (ReceiverStep data) (k.incoming.receiver read) (k'.incoming.receiver read) := by
  have hrcv : k'.rcvWnd = k.rcvWnd := congrArg Config.rcvWnd hmoves.config
  have hwnd : k.rcvWnd.toNat < 2 ^ 31 := by
    rw [h.bounded.windows.2]
    decide
  obtain ⟨hsender, hsending⟩ := Outgoing.steps_sender h.sending hlimit hacks hmoves.outgoing
  obtain ⟨hreceiver, hreceiving⟩ :=
    Incoming.steps_receiver h.receiving hwnd hdata hmoves.incoming
  rw [← hrcv] at hreceiving
  exact ⟨⟨h.bounded.moves hmoves, hsending, hreceiving⟩, hsender, hreceiver⟩

theorem Synced.send (h : Synced conv offered read k) (buffer : Bytes) :
    Does conv data acks offered read k (.send buffer) := by
  rcases send_cases k buffer with heq | ⟨-, heq⟩
  · have hcall : k.call conv (.send buffer) = k := congrArg Prod.fst heq
    have haccepts : k.accepts (.send buffer) = [] := by
      simp [accepts, heq]
    have hreads : k.reads (.send buffer) = [] := rfl
    refine ⟨?_, ?_, ?_, fun d hd => by cases hd⟩
    all_goals rw [hcall]
    · rw [haccepts, hreads, List.flatMap_nil, List.append_nil, List.append_nil]
      exact h
    · simp only [haccepts, List.flatMap_nil, List.append_nil]
      exact .refl
    · simp only [hreads, List.append_nil]
      exact .refl
  · have hcall : k.call conv (.send buffer) =
        { k with sndQueue := k.sndQueue ++ fragment (fragmentCount buffer.length) buffer } :=
      congrArg Prod.fst heq
    have haccepts : (k.accepts (.send buffer)).flatMap contents = contents buffer := by
      simp [accepts, heq]
    have hreads : k.reads (.send buffer) = [] := rfl
    have hnxt : k.sndNxt.toNat ≤ offered.length := h.sending.nxt
    have hbounded : (k.call conv (.send buffer)).Bounded := h.bounded.send buffer
    refine ⟨⟨hbounded, ?_, ?_⟩, ?_, ?_, fun d hd => by cases hd⟩
    all_goals rw [hcall]
    · rw [haccepts]
      refine ⟨?_, ?_, h.sending.buf⟩
      · change (k.sndQueue ++ _).map IkcpSeg.content =
        (offered ++ contents buffer).drop k.sndNxt.toNat
        rw [List.map_append, List.drop_append_of_le_length hnxt]
        exact congrArg (· ++ contents buffer) h.sending.queue
      · rw [List.length_append]
        exact Nat.le_add_right_of_le hnxt
    · rw [hreads, List.append_nil]
      exact h.receiving
    · rw [haccepts]
      exact .single (.offer (contents buffer))
    · simp only [hreads, List.append_nil]
      exact .refl

theorem Synced.recv (h : Synced conv offered read k) (hlimit : offered.length < serialLimit)
    (hacks : ∀ n, .upto n ∈ acks → n < 2 ^ 31) (hdata : ∀ n a, .data n a ∈ data → n < serialLimit)
    (len : ℕ) : Does conv data acks offered read k (.recv len) := by
  have haccepts : (k.accepts (.recv len)).flatMap contents = [] := rfl
  rcases recv_cases conv (Hears data acks) k len with heq | ⟨rest, k', hqueue, -, hmoves, heq⟩
  · have hcall : k.call conv (.recv len) = k := congrArg Prod.fst heq
    have hreads : k.reads (.recv len) = [] := by
      simp [reads, heq]
    refine ⟨?_, ?_, ?_, fun d hd => by cases hd⟩
    all_goals rw [hcall]
    · rw [haccepts, hreads, List.append_nil, List.append_nil]
      exact h
    · simp only [haccepts, List.append_nil]
      exact .refl
    · simp only [hreads, List.append_nil]
      exact .refl
  · have hcall : k.call conv (.recv len) = k' := congrArg Prod.fst heq
    have hreads : k.reads (.recv len) = (firstMessage k.rcvQueue).map IkcpSeg.content := by
      simp [reads, heq]
    -- what is released stays the same when a message is read
    have hreleased : (read ++ (firstMessage k.rcvQueue).map IkcpSeg.content) ++
        rest.map IkcpSeg.content = read ++ k.rcvQueue.map IkcpSeg.content := by
      rw [List.append_assoc, ← List.map_append, ← hqueue]
    have hreceiver : Incoming.receiver { k with rcvQueue := rest }.incoming
        (read ++ (firstMessage k.rcvQueue).map IkcpSeg.content) = k.incoming.receiver read :=
      congrArg (Arq.Receiver.mk (carried k.rcvBuf)) hreleased
    have hlen := congrArg List.length hqueue
    rw [List.length_append] at hlen
    have hbound : Bounded { k with rcvQueue := rest } := by
      refine { h.bounded with incoming := { h.bounded.incoming with queue := ?_ } }
      have hle := h.bounded.incoming.queue
      change rest.length ≤ k.rcvWnd.toNat
      change k.rcvQueue.length ≤ k.rcvWnd.toNat at hle
      omega
    have hsynced : Synced conv offered
        (read ++ (firstMessage k.rcvQueue).map IkcpSeg.content) { k with rcvQueue := rest } := by
      refine ⟨hbound, h.sending, ⟨hbound.incoming, ?_, ?_, h.receiving.near, h.receiving.buf⟩⟩
      · exact h.receiving.nxt.trans (congrArg List.length hreleased.symm)
      · intro p hp
        rw [hreceiver]
        exact h.receiving.acks p hp
    obtain ⟨hsynced', hsends, hreceives⟩ := hsynced.moves hlimit hacks hdata hmoves
    rw [hreceiver] at hreceives
    refine ⟨?_, ?_, ?_, fun d hd => by cases hd⟩
    all_goals rw [hcall]
    · rw [haccepts, hreads, List.append_nil]
      exact hsynced'
    · rw [haccepts, List.append_nil]
      exact hsends
    · rw [hreads]
      exact hreceives

theorem Synced.input (h : Synced conv offered read k) (hlimit : offered.length < serialLimit)
    (hacks : ∀ n, .upto n ∈ acks → n < 2 ^ 31) (hdata : ∀ n a, .data n a ∈ data → n < serialLimit)
    {segs : List IkcpSeg} (hne : segs ≠ []) (hsendable : Sendable conv segs)
    (hears : ∀ seg ∈ segs, Hears data acks seg.arrived) :
    Does conv data acks offered read k (.input (datagram segs)) := by
  obtain ⟨hsynced, hsends, hreceives⟩ :=
    h.moves hlimit hacks hdata (moves_datagram hsendable hne hears k)
  have haccepts : (k.accepts (.input (datagram segs))).flatMap contents = [] := rfl
  have hreads : k.reads (.input (datagram segs)) = [] := rfl
  refine ⟨?_, ?_, ?_, fun d hd => by cases hd⟩
  · rw [haccepts, hreads, List.append_nil, List.append_nil]
    exact hsynced
  · rw [haccepts, List.append_nil]
    exact hsends
  · rw [hreads, List.append_nil]
    exact hreceives

theorem Synced.speaks (h : Synced conv offered read k)
    (hsynced : Synced conv offered read (k.flush conv).1) (hupdated : k.updated = true)
    {segs : List IkcpSeg} (hne : segs ≠ []) (hsegs : segs ⊆ k.flushSent conv) :
    Says conv read (k.flush conv).1 segs := by
  have hmss : ikcpMss = 1376 := rfl
  have hreceiver : (k.flush conv).1.incoming.receiver read = k.incoming.receiver read := by
    rw [flush_incoming conv hupdated]
    rfl
  refine ⟨hne, fun seg hseg => ?_, fun seg hseg hcmd => ?_, fun seg hseg hcmd => ?_,
    fun seg hseg => ?_⟩
  all_goals obtain ⟨huna, hcontrol | hsent⟩ := mem_flushSent hupdated (hsegs hseg)
  · obtain ⟨-, hnil, hconv, -⟩ := mem_controlSegs hcontrol
    refine ⟨hconv, ?_⟩
    rw [hnil]
    exact Nat.two_pow_pos 32
  · have hsized := hsynced.bounded.outgoing.sized seg (List.mem_append_right _ hsent)
    exact ⟨(hsynced.sending.buf seg hsent).2, by omega⟩
  · exact absurd hcmd (mem_controlSegs hcontrol).2.2.2.1
  · exact ⟨seg, hsent, rfl⟩
  · obtain ⟨ts, hack⟩ := (mem_controlSegs hcontrol).2.2.2.2 hcmd
    rw [hreceiver]
    exact h.receiving.acks _ hack
  · have hpush := hsynced.bounded.outgoing.pushes seg hsent
    rw [hcmd] at hpush
    cases hpush
  all_goals
    rw [hreceiver, huna]
    exact Nat.le_of_eq h.receiving.nxt

theorem Synced.update (h : Synced conv offered read k) (hlimit : offered.length < serialLimit)
    (hacks : ∀ n, .upto n ∈ acks → n < 2 ^ 31) (hdata : ∀ n a, .data n a ∈ data → n < serialLimit)
    (now : UInt32) : Does conv data acks offered read k (.update now) := by
  have haccepts : (k.accepts (.update now)).flatMap contents = [] := rfl
  have hreads : k.reads (.update now) = [] := rfl
  obtain ⟨hsynced, hsends, hreceives⟩ := h.moves hlimit hacks hdata (moves_update k now)
  refine ⟨?_, ?_, ?_, ?_⟩
  · rw [haccepts, hreads, List.append_nil, List.append_nil]
    exact hsynced
  · rw [haccepts, List.append_nil]
    exact hsends
  · rw [hreads, List.append_nil]
    exact hreceives
  · rw [hreads, List.append_nil]
    intro d hd
    obtain ⟨tsFlush, heq | heq⟩ := update_cases conv k now
    · have hnone : k.outputs conv (.update now) = [] := congrArg Prod.snd heq
      rw [hnone] at hd
      cases hd
    · have hcall : k.call conv (.update now) = _ := congrArg Prod.fst heq
      have hout : k.outputs conv (.update now) = _ := congrArg Prod.snd heq
      have hclock : Synced conv offered read { k with current := now, updated := true, tsFlush } :=
        ⟨⟨h.bounded.config, h.bounded.incoming, h.bounded.outgoing, h.bounded.rto,
          h.bounded.ssthresh⟩, h.sending, h.receiving⟩
      obtain ⟨ds, hds, hflat, hfits⟩ := hclock.bounded.flush_datagrams conv rfl
      rw [hout, hds] at hd
      obtain ⟨segs, hsegs, rfl⟩ := List.mem_map.mp hd
      have hsub : segs ⊆ ds.flatten := fun seg hseg => List.mem_flatten_of_mem hsegs hseg
      rw [hflat] at hsub
      rw [hcall]
      have hsynced' : Synced conv offered read (k.call conv (.update now)) := hsynced
      rw [hcall] at hsynced'
      exact ⟨segs, rfl, hclock.speaks hsynced' rfl (hfits segs hsegs).ne hsub⟩

end Call

/-- A call never fails. -/
def next (conv : ℕ) (k : Ikcp) (c : Call) : Except Empty Ikcp := .ok (k.call conv c)

theorem next_ok {conv : ℕ} {k k' : Ikcp} {c : Call} (h : k.next conv c = .ok k') :
    k' = k.call conv c := by
  cases h
  rfl

end Ikcp

/-! The two ends. -/

open Ikcp

abbrev Pair := Joint.State End Ikcp Call

/-- What the calls at an end have done, the first of them first. -/
def Pair.log {β : Type} (f : Ikcp → Call → List β) (s : Pair) (e : End) : List β :=
  (s.history.filter fun m => m.who = e).flatMap fun m => f m.before m.input

def Pair.accepted (s : Pair) (e : End) : List Bytes := s.log accepts e

def Pair.delivered (s : Pair) (e : End) : List Bytes := s.log delivers e

def Pair.sent (conv : ℕ) (s : Pair) (e : End) : List Bytes := s.log (outputs conv) e

def Pair.offered (s : Pair) (e : End) : List Content := (s.accepted e).flatMap contents

def Pair.taken (s : Pair) (e : End) : List Content := s.log reads e

/-- A datagram that comes in was sent by the other end, once or several times ago. -/
def Genuine (conv : ℕ) (s : Pair) (i : End × Call) : Prop :=
  match i.2 with
  | .input data => data ∈ s.sent conv i.1.other
  | _ => True

instance (conv : ℕ) (s : Pair) : (i : End × Call) → Decidable (Genuine conv s i)
  | (e, .input data) =>
    decidable_of_iff (∃ d ∈ s.sent conv e.other, d = data) (by simp [Genuine])
  | (_, .send _) | (_, .recv _) | (_, .update _) => .isTrue trivial

/-- The two ends before their first calls. -/
def Pair.start : Pair := .init fun _ => Ikcp.kcpevCreateKcp

section Step
variable {conv : ℕ} {s s' : Pair} {e : End} {c : Call}

theorem End.eq_or (x e : End) : x = e ∨ x = e.other := by
  cases x <;> cases e <;> simp [End.other]

theorem End.other_ne (e : End) : e.other ≠ e := by
  cases e <;> simp [End.other]

theorem log_self {β : Type} (f : Ikcp → Call → List β)
    (h : Joint.step (next conv) s (e, c) = .ok s') :
    s'.log f e = s.log f e ++ f (s.party e) c := by
  unfold Pair.log
  rw [(Joint.step_self h).2]
  simp

theorem log_other {β : Type} (f : Ikcp → Call → List β)
    (h : Joint.step (next conv) s (e, c) = .ok s') : s'.log f e.other = s.log f e.other := by
  unfold Pair.log
  rw [(Joint.step_self h).2]
  simp [e.other_ne.symm]

theorem offered_self (h : Joint.step (next conv) s (e, c) = .ok s') :
    s'.offered e = s.offered e ++ (accepts (s.party e) c).flatMap contents := by
  unfold Pair.offered Pair.accepted
  rw [log_self accepts h, List.flatMap_append]

theorem offered_other (h : Joint.step (next conv) s (e, c) = .ok s') :
    s'.offered e.other = s.offered e.other := by
  unfold Pair.offered Pair.accepted
  rw [log_other accepts h]

theorem offered_grows (h : Joint.step (next conv) s (e, c) = .ok s') (x : End) :
    s.offered x <+: s'.offered x := by
  rcases x.eq_or e with rfl | rfl
  · rw [offered_self h]
    exact List.prefix_append _ _
  · rw [offered_other h]

end Step

/-! The simulation. -/

theorem Ikcp.Hears.mono {data data' acks acks' : Set (Statement Content)} {seg : IkcpSeg}
    (h : Hears data acks seg) (hdata : data ⊆ data') (hacks : acks ⊆ acks') :
    Hears data' acks' seg :=
  ⟨fun hcmd => hdata (h.push hcmd), fun hcmd => hacks (h.ack hcmd), hacks h.una⟩

/-- A datagram says what was said in a transfer. -/
def Said (conv : ℕ) (data acks : Set (Statement Content)) (d : Bytes) : Prop :=
  ∃ segs, d = datagram segs ∧ segs ≠ [] ∧ Sendable conv segs ∧
    ∀ seg ∈ segs, Hears data acks seg.arrived

theorem Said.mono {conv : ℕ} {data data' acks acks' : Set (Statement Content)} {d : Bytes}
    (h : Said conv data acks d) (hdata : data ⊆ data') (hacks : acks ⊆ acks') :
    Said conv data' acks' d := by
  obtain ⟨segs, hd, hne, hsendable, hears⟩ := h
  exact ⟨segs, hd, hne, hsendable, fun seg hseg => (hears seg hseg).mono hdata hacks⟩

/-- Each end is the sender of one transfer and the receiver of the other. -/
structure Simulates (conv : ℕ) (s : Pair) (arq : End → Arq.State Content) : Prop where
  reachable : ∀ e, Reachable (arq e)
  synced : ∀ e, Synced conv (s.offered e) (s.taken e) (s.party e)
  sender : ∀ e, (arq e).sender = (s.party e).outgoing.sender (s.offered e)
  receiver : ∀ e, (arq e).receiver = (s.party e.other).incoming.receiver (s.taken e.other)
  wire : ∀ e, ∀ d ∈ s.sent conv e, Said conv (arq e).wire (arq e.other).wire d

/-- The transfers after a call at an end: one gets another sender and the other one
another receiver, and whatever may be said is said. -/
def follow (arq : End → Arq.State Content) (e : End) (sender : Arq.Sender Content)
    (receiver : Arq.Receiver Content) (x : End) : Arq.State Content :=
  let a := if x = e then { arq x with sender } else { arq x with receiver }
  { a with wire := a.wire ∪ { st | a.May st } }

section Simulation
variable {conv : ℕ} {s s' : Pair} {arq : End → Arq.State Content} {e : End} {c : Call}

theorem carried_nil : carried [] = ∅ := by
  ext p
  simp [carried]

theorem simulates_init : Simulates conv Pair.start fun _ => .init where
  reachable := fun _ => .refl
  synced := fun _ => ⟨bounded_create, ⟨rfl, Nat.le_refl 0, List.forall_mem_nil _⟩,
    ⟨bounded_create.incoming, rfl, List.forall_mem_nil _, Nat.zero_le _, List.forall_mem_nil _⟩⟩
  sender := fun _ => congrArg (Arq.Sender.mk [] 0) carried_nil.symm
  receiver := fun _ => congrArg (Arq.Receiver.mk · []) carried_nil.symm
  wire := fun _ _ hd => absurd hd List.not_mem_nil

/-- The numbers that were said are below the limit. -/
theorem Simulates.bounds (h : Simulates conv s arq) (e : End)
    (hlimit : (s.offered e).length < serialLimit) :
    (∀ n, .upto n ∈ (arq e).wire → n < 2 ^ 31) ∧
      ∀ n a, .data n a ∈ (arq e).wire → n < serialLimit := by
  have hlim : serialLimit = 2 ^ 31 - 128 := rfl
  have hinv := (h.reachable e).inv
  have hnumbered := hinv.numbered
  rw [h.sender e] at hnumbered
  change (s.party e).sndNxt.toNat ≤ (s.offered e).length at hnumbered
  constructor
  · intro n hn
    have hle := hinv.upto n hn
    have hreleased := hinv.released_le
    rw [h.sender e] at hreleased
    change _ ≤ (s.party e).sndNxt.toNat at hreleased
    omega
  · intro n a hn
    have hlt := (hinv.data n a hn).1
    rw [h.sender e] at hlt
    change n < (s.party e).sndNxt.toNat at hlt
    omega

/-- What a call does, in the terms of the two transfers. -/
theorem Simulates.does (h : Simulates conv s arq) (hlimit : ∀ x, (s.offered x).length < serialLimit)
    (hgenuine : Genuine conv s (e, c)) :
    Does conv (arq e.other).wire (arq e).wire (s.offered e) (s.taken e) (s.party e) c := by
  have hacks := (h.bounds e (hlimit e)).1
  have hdata := (h.bounds e.other (hlimit e.other)).2
  have hsynced := h.synced e
  cases c with
  | send buffer => exact hsynced.send buffer
  | recv len => exact hsynced.recv (hlimit e) hacks hdata len
  | input data =>
    obtain ⟨segs, rfl, hne, hsendable, hears⟩ := h.wire e.other data hgenuine
    rw [e.other_other] at hears
    exact hsynced.input (hlimit e) hacks hdata hne hsendable hears
  | update now => exact hsynced.update (hlimit e) hacks hdata now

theorem Simulates.step (h : Simulates conv s arq) (hlimit : ∀ x, (s.offered x).length < serialLimit)
    (hgenuine : Genuine conv s (e, c)) (hstep : Joint.step (next conv) s (e, c) = .ok s') :
    ∃ arq', Simulates conv s' arq' := by
  have hdoes := h.does hlimit hgenuine
  have hparty : s'.party e = (s.party e).call conv c := next_ok (Joint.step_self hstep).1
  have hother : s'.party e.other = s.party e.other := Joint.step_other hstep e.other_ne
  have htaken : s'.taken e = s.taken e ++ reads (s.party e) c := log_self reads hstep
  have htaken' : s'.taken e.other = s.taken e.other := log_other reads hstep
  have hsent : s'.sent conv e = s.sent conv e ++ outputs conv (s.party e) c :=
    log_self (outputs conv) hstep
  have hsent' : s'.sent conv e.other = s.sent conv e.other := log_other (outputs conv) hstep
  have hoffered := offered_self hstep
  have hoffered' := offered_other hstep
  have hsender := hdoes.sender
  have hreceiver := hdoes.receiver
  have hreceived := h.receiver e.other
  rw [e.other_other] at hreceived
  rw [← hoffered, ← hparty, ← h.sender e] at hsender
  rw [← htaken, ← hparty, ← hreceived] at hreceiver
  generalize hout : (s'.party e).outgoing.sender (s'.offered e) = sender at hsender
  generalize hin : (s'.party e).incoming.receiver (s'.taken e) = receiver at hreceiver
  have hself : follow arq e sender receiver e =
      { sender, receiver := (arq e).receiver
        wire := (arq e).wire ∪ { st | State.May { arq e with sender } st } } := by
    simp [follow]
  have hpeer : follow arq e sender receiver e.other =
      { sender := (arq e.other).sender, receiver
        wire := (arq e.other).wire ∪ { st | State.May { arq e.other with receiver } st } } := by
    simp [follow, e.other_ne]
  refine ⟨follow arq e sender receiver, ?_, ?_, ?_, ?_, ?_⟩
  all_goals intro x
  all_goals rcases x.eq_or e with rfl | rfl
  · rw [hself]
    exact ((h.reachable x).send hsender).say fun _ hst => hst
  · rw [hpeer]
    exact ((h.reachable e.other).receive hreceiver).say fun _ hst => hst
  · have hsynced := hdoes.synced
    rwa [← hoffered, ← htaken, ← hparty] at hsynced
  · rw [hoffered', htaken', hother]
    exact h.synced e.other
  · rw [hself]
    exact hout.symm
  · rw [hpeer, hother, hoffered']
    exact h.sender e.other
  · rw [hself, hother, htaken']
    exact h.receiver x
  · rw [hpeer, e.other_other]
    exact hin.symm
  · rw [hself, hpeer, hsent]
    intro d hd
    rcases List.mem_append.mp hd with hold | hnew
    · exact (h.wire x d hold).mono Set.subset_union_left Set.subset_union_left
    · obtain ⟨segs, heq, hsays⟩ := hdoes.speaks d hnew
      rw [← htaken, ← hparty] at hsays
      refine ⟨segs, heq, hsays.ne, hsays.sendable, fun seg hseg => ⟨?_, ?_, ?_⟩⟩
      · intro hcmd
        right
        change (seg.sn.toNat, seg.content) ∈ sender.outstanding
        rw [← hout]
        exact hsays.push seg hseg hcmd
      · intro hcmd
        right
        change receiver.Got seg.sn.toNat
        rw [← hin]
        exact hsays.ack seg hseg hcmd
      · right
        change seg.una.toNat ≤ receiver.released.length
        rw [← hin]
        exact hsays.una seg hseg
  · rw [e.other_other, hself, hpeer, hsent']
    intro d hd
    have hold := h.wire e.other d hd
    rw [e.other_other] at hold
    exact hold.mono Set.subset_union_left Set.subset_union_left

/-- In every run in which the serial numbers do not come around, each direction is a
transfer with automatic repeat requests. -/
theorem run_simulates {is : List (End × Call)}
    (hrun : Run (Joint.step (next conv)) (Genuine conv) Pair.start is s)
    (hlimit : ∀ x, (s.offered x).length < serialLimit) : ∃ arq, Simulates conv s arq := by
  induction hrun with
  | nil => exact ⟨_, simulates_init⟩
  | @snoc is s s' i hrun hok hstep ih =>
    have hbefore : ∀ x, (s.offered x).length < serialLimit := fun x =>
      Nat.lt_of_le_of_lt (offered_grows hstep x).length_le (hlimit x)
    obtain ⟨arq, harq⟩ := ih hbefore
    exact harq.step hbefore hok hstep

end Simulation

end KcpEv
