import KcpEv.Agreement
import KcpEv.Streams

/-!
The bytes between the two ends of a connection. The network hands each end the bytes
that the other has put, cut anywhere and as late as it likes. While each write is whole
and what arrives is kept, an end dispatches what the other has put, frame by frame: a
run over bytes is a run over a connection that keeps the order.
-/
namespace KcpEv

open Framing Guarded TcpRecv

variable {K T : Type}

section Ends
variable (x : End → ℕ)

/-- What a step of this end receives on the connection. -/
def Moment.arrives (e : End) (m : Moment K T) : Bytes :=
  if m.who = e then tcpArrival (x e) m.before m.input else []

/-- The bytes that have arrived on the connection at an end. -/
def Link.arrived (l : Link K T) (e : End) : Bytes := l.history.flatMap (Moment.arrives x e)

/-- The bytes that have arrived after the next step are the first of those that were put,
the frames among these were taken whole, and what arrives is kept. -/
structure Wired (l : Link K T) (i : End × Input T) : Prop where
  bytes : l.arrived x i.1 ++ tcpArrival (x i.1) (l.party i.1) i.2 <+:
    (l.put x i.1.other).flatten
  whole : ∀ frame ∈ l.put x i.1.other, header.IsFrame frame
  room : (l.party i.1).KeepsData (x i.1) i.2

instance (l : Link K T) (i : End × Input T) : Decidable (Wired x l i) :=
  decidable_of_iff ((l.arrived x i.1 ++ tcpArrival (x i.1) (l.party i.1) i.2 <+:
      (l.put x i.1.other).flatten) ∧
    (∀ frame ∈ l.put x i.1.other, header.len ≤ frame.length ∧ 0 < frame.length ∧
      header.size frame = frame.length) ∧ (l.party i.1).KeepsData (x i.1) i.2)
    ⟨fun h => ⟨h.1, h.2.1, h.2.2⟩, fun h => ⟨h.bytes, h.whole, h.room⟩⟩

end Ends

theorem tcpDispatched_eq (p : Process K T) (i : Input T) (c : ℕ) :
    tcpDispatched c p i = (p.hearsTcp i c).toList := by
  unfold Process.hearsTcp Process.hears
  cases i with
  | round a =>
    rw [tcpDispatched]
    rcases hctl : p.ctl with _ | ⟨src, addr, buf⟩ | ⟨src, addr⟩ | d
    · rfl
    · cases src <;> rfl
    · rfl
    · rfl
  | _ => rfl

theorem live_of_hearsTcp [KcpImpl K] [ClockImpl T] {p p' : Process K T} {i : Input T} {c : ℕ}
    {buf : Bytes} (h : p.hearsTcp i c = some buf) (hs : step p i = .ok p') :
    (p.world.objs c).isSome := by
  obtain ⟨src, addr, a, ⟨hctl, rfl⟩, hsrc⟩ := hearsTcp_eq_some h
  by_contra hdead
  rw [Option.not_isSome_iff_eq_none] at hdead
  have hgone : p.world.kcpev c = .error .useAfterFree := by
    simp [World.kcpev, hdead]
  simp only [step, callbackRound, hctl] at hs
  obtain ⟨r, hround, -⟩ := bind_eq_ok.mp hs
  obtain ⟨r', hdispatch, -⟩ := bind_eq_ok.mp hround
  rcases hsrc with rfl | rfl
  · obtain ⟨client, hclient, -⟩ := bind_eq_ok.mp hdispatch
    rw [hgone] at hclient
    cases hclient
  · have herror : onClientRecv p.world c buf a = .error .useAfterFree := by
      simp [onClientRecv, hgone, bind, Except.bind]
    change onClientRecv p.world c buf a = _ at hdispatch
    rw [herror] at hdispatch
    cases hdispatch

section Run
variable [KcpImpl K] [ClockImpl T] {x : End → ℕ} {ok : Link K T → End × Input T → Prop}
  {now : End → T} {is : List (End × Input T)} {l l' : Link K T} {e : End} {i : End × Input T}

/-! What a step adds. -/

omit [KcpImpl K] [ClockImpl T] in
theorem arrived_snoc {m : Moment K T} (h : l'.history = l.history ++ [m]) (e : End) :
    l'.arrived x e = l.arrived x e ++ Moment.arrives x e m := by
  simp [Link.arrived, h]

omit [KcpImpl K] [ClockImpl T] in
theorem heard_snoc {m : Moment K T} (h : l'.history = l.history ++ [m]) (e : End) :
    l'.heard x e = l.heard x e ++ (Moment.hears x e m).toList := by
  rw [heard_eq, heard_eq, h, List.filterMap_append]
  rcases hm : Moment.hears x e m with _ | buf
  · simp [hm]
  · simp [hm]

omit [KcpImpl K] [ClockImpl T] in
theorem put_snoc {m : Moment K T} (h : l'.history = l.history ++ [m]) (e : End) :
    l'.put x e = l.put x e ++ Moment.puts x e m := by
  rw [put_eq, put_eq, h]
  simp

theorem party_streaming (hok : ∀ {l i}, ok l i → Wired x l i)
    (hrun : Run (Joint.step step) ok (.init (ends now)) is l) (e : End) :
    Streaming (x e) (l.arrived x e) (l.heard x e) (l.party e) := by
  induction hrun with
  | nil => exact .init (now e) (x e)
  | @snoc is l l' i hrun hi hs ih =>
    obtain ⟨hnext, hhistory⟩ := Joint.step_self hs
    rw [arrived_snoc hhistory, heard_snoc hhistory]
    rcases eq_or_ne i.1 e with rfl | hne
    · obtain ⟨js, hjs⟩ := Joint.party_run (Q := fun _ _ => True) (fun _ => trivial) hrun i.1
      have hstep := ih.step (run_typed hjs) (run_ringsOk hjs) (hok hi).room hnext
      rw [tcpDispatched_eq] at hstep
      simpa [Moment.arrives, Moment.hears, Moment.heard] using hstep
    · rw [Joint.step_other hs hne.symm]
      simpa [Moment.arrives, Moment.hears, hne] using ih

theorem arrived_initial (hok : ∀ {l i}, ok l i → Wired x l i)
    (hrun : Run (Joint.step step) ok (.init (ends now)) is l) (e : End) :
    l.arrived x e <+: (l.put x e.other).flatten := by
  induction hrun with
  | nil => exact List.prefix_rfl
  | @snoc is l l' i hrun hi hs ih =>
    obtain ⟨-, hhistory⟩ := Joint.step_self hs
    rw [arrived_snoc hhistory, put_snoc hhistory, List.flatten_append]
    rcases eq_or_ne i.1 e with rfl | hne
    · have hbytes := (hok hi).bytes
      rw [Moment.arrives, if_pos rfl]
      exact hbytes.trans (List.prefix_append _ _)
    · rw [Moment.arrives, if_neg hne, List.append_nil]
      exact ih.trans (List.prefix_append _ _)

/-- The frame that is dispatched next is the next that was put. -/
theorem wired_next (hok : ∀ {l i}, ok l i → Wired x l i)
    (hrun : Run (Joint.step step) ok (.init (ends now)) is l) (hi : ok l i)
    (hs : Joint.step step l i = .ok l') : InOrder x l i := by
  intro buf hbuf
  obtain ⟨hnext, -⟩ := Joint.step_self hs
  have hlive := live_of_hearsTcp hbuf hnext
  have hsplit := (party_streaming hok hrun i.1).split hlive
  have hframe : (l.party i.1).ctl.tcpFrame (x i.1) = some buf := by
    obtain ⟨src, addr, a, ⟨hctl, -⟩, hsrc⟩ := hearsTcp_eq_some hbuf
    rw [hctl]
    rcases hsrc with rfl | rfl
    · simp [Control.tcpFrame]
    · simp [Control.tcpFrame]
  have hpart := header.split_prefix (hok hi).whole (arrived_initial hok hrun i.1)
  rw [hsplit, hframe] at hpart
  exact (List.prefix_append _ _).trans hpart

theorem run_inOrder (hok : ∀ {l i}, ok l i → Wired x l i)
    (hrun : Run (Joint.step step) ok (.init (ends now)) is l) :
    Run (Joint.step step) (fun l i => ok l i ∧ InOrder x l i) (.init (ends now)) is l := by
  induction hrun with
  | nil => exact .nil
  | snoc hrun hi hs ih => exact ih.snoc ⟨hi, wired_next hok hrun hi hs⟩ hs

/-- A run over bytes is one over a connection that keeps the order. When no callback of a
connection runs, the ring holds what is not a whole frame yet; and when all the bytes have
arrived, all the frames have been dispatched. -/
theorem wired_keeps_order (hrun : Run (Joint.step step) (Wired x) (.init (ends now)) is l) :
    Run (Joint.step step) (InOrder x) (.init (ends now)) is l ∧
      ∀ {e obj}, (l.party e).world.objs (x e) = some obj →
        (l.party e).ctl.onTcp (x e) = false →
          header.split (l.arrived x e) = (l.heard x e, pending obj.tcp.rb) ∧
            ((∀ frame ∈ l.put x e.other, header.IsFrame frame) →
              l.arrived x e = (l.put x e.other).flatten → l.heard x e = l.put x e.other) := by
  refine ⟨(run_inOrder id hrun).mono And.right, fun {e obj} hobj hoff => ?_⟩
  have hall := (party_streaming id hrun e).all hobj hoff
  refine ⟨hall, fun hwhole hflat => ?_⟩
  rw [hflat, header.split_frames hwhole] at hall
  exact (Prod.mk.inj hall).1.symm

omit [KcpImpl K] [ClockImpl T] in
theorem InOrder.fromPeer (h : InOrder x l i)
    (hkcp : ∀ {c q buf}, (l.party i.1).hears i.2 = some (.tryKcpRecv c q, buf) → c = x i.1 →
      buf ∈ l.gave x i.1.other) : FromPeer x l i := by
  have tcp : ∀ {src : Source} {c : ℕ} {buf : Bytes},
      (l.party i.1).hears i.2 = some (src, buf) →
      src = .serverTcpRecv c ∨ src = .clientTcpRecv c → c = x i.1 →
      buf ∈ l.put x i.1.other := by
    intro src c buf hhears hsrc hc
    have hheard : (l.party i.1).hearsTcp i.2 (x i.1) = some buf := by
      rw [Process.hearsTcp, hhears]
      rcases hsrc with rfl | rfl
      · simp [hc]
      · simp [hc]
    exact (h buf hheard).subset (List.mem_append_right _ (List.mem_singleton_self buf))
  unfold FromPeer
  split
  · rename_i hhears
    exact hkcp hhears
  · rename_i hhears
    exact tcp hhears (Or.inl rfl)
  · rename_i hhears
    exact tcp hhears (Or.inr rfl)
  · trivial
  · trivial
  · trivial
  · trivial

/-- So `Connects` asks nothing of a connection of bytes that `Wired` does not. -/
theorem run_connects (hok : ∀ {l i}, ok l i → Wired x l i)
    (hkinds : ∀ {l i}, ok l i → ∀ obj ∈ (l.party i.1).world.objs (x i.1),
      obj.hasServer = decide (i.1 = .server))
    (hkcp : ∀ {l i}, ok l i → ∀ {c q buf},
      (l.party i.1).hears i.2 = some (.tryKcpRecv c q, buf) → c = x i.1 →
        buf ∈ Link.gave x l i.1.other)
    (hsends : ∀ {l i}, ok l i → i.2.SendsWhole)
    (hrun : Run (Joint.step step) ok (.init (ends now)) is l) :
    Run (Joint.step step) (Connects x) (.init (ends now)) is l := by
  refine (run_inOrder hok hrun).mono fun {l i} hi => ?_
  obtain ⟨hi, horder⟩ := hi
  exact
    { kinds := hkinds hi
      peer := horder.fromPeer fun hhears => hkcp hi hhears
      order := horder
      sends := hsends hi }

end Run

/-! The key of a session arrives at its client in two chunks. -/

/-- The client connects, and the key arrives. -/
def keyOnWire : List (End × Input ℕ) :=
  bothReady.take 4 ++ [
    (.client, .io 3 (.receives ((handshakeFrame .shakeHand1).take 5) 9)),
    (.client, .round (.socket 0)),
    (.client, .io 3 (.receives ((handshakeFrame .shakeHand1).drop 5) 9)),
    (.client, .round (.socket 0)), (.client, .round (.socket 0)), (.client, .round (.socket 0))]

theorem wired_keeps_order_key : ∃ l : Link Mailbox ℕ,
    Run (Joint.step step) (Wired sampleEnds) (.init (ends fun _ => 0)) keyOnWire l ∧
      Run (Joint.step step) (InOrder sampleEnds) (.init (ends fun _ => 0)) keyOnWire l ∧
      l.heard sampleEnds .client = l.put sampleEnds .server ∧
      l.put sampleEnds .server = [handshakeFrame .shakeHand1] := by
  obtain ⟨l, hrun, htest⟩ := Run.exists_of_exec (Joint.step step) (Wired sampleEnds)
    (.init (ends fun _ => 0)) keyOnWire
    (fun l : Link Mailbox ℕ => ((l.party .client).world.objs 1).isSome ∧
      (l.party .client).ctl = .loop ∧ l.put sampleEnds .server = [handshakeFrame .shakeHand1] ∧
      l.arrived sampleEnds .client = handshakeFrame .shakeHand1) (by decide +kernel)
  obtain ⟨hlive, hctl, hput, harrived⟩ := of_decide_eq_true htest
  obtain ⟨obj, hobj⟩ := Option.isSome_iff_exists.mp hlive
  obtain ⟨horder, hends⟩ := wired_keeps_order hrun
  have hrest := (hends (e := .client) hobj (by rw [hctl]; rfl)).2
  refine ⟨l, hrun, horder, hrest ?_ ?_, hput⟩
  · intro frame hframe
    have hone : frame ∈ [handshakeFrame .shakeHand1] := hput ▸ hframe
    rw [List.mem_singleton.mp hone]
    exact handshakeFrame_fromServer.isFrame
  · have hflat : (Link.put sampleEnds l .server).flatten = handshakeFrame .shakeHand1 := by
      rw [hput]
      rfl
    exact harrived.trans hflat.symm

end KcpEv
