import KcpEv.Typed

/-!
The messages of the KCP objects: in front of which of them a callback stands it has got from
`ikcp_recv`, and the KCP object is one of its client.
-/
namespace KcpEv

variable {K T : Type}

section Step
variable [KcpImpl K] [ClockImpl T]

omit [ClockImpl T] in
/-- The message that a step takes out of a KCP object, in a callback of an object. -/
def kcpTaken (c q : ℕ) (p : Process K T) : Input T → List Bytes
  | .round _ =>
    match p.ctl with
    | .drain (.tryKcpRecv d r) _ =>
      if d = c ∧ r = q then
        ((p.world.os.kcps q).bind fun k => (KcpImpl.recv k.state kcpevBufferSize).2).toList
      else []
    | _ => []
  | _ => []

variable {w w' : World K T} {src src' : Source} {addr addr' : Addr} {buf : Bytes} {c p : ℕ}
  {ctl : Control}

omit [ClockImpl T] in
theorem drainRound_message
    (h : drainRound w src addr = .ok (w', .frame (.tryKcpRecv c p) addr' buf)) :
    src = .tryKcpRecv c p ∧ ∃ k, w.os.kcps p = some k ∧
      (KcpImpl.recv k.state kcpevBufferSize).2 = some buf := by
  have stream : ∀ {d : ℕ}, src = .serverTcpRecv d ∨ src = .clientTcpRecv d →
      (do
        let client ← w.kcpev d
        let r ← TcpRecv.getTcpBufChunk client.tcp.rb kcpevBufferSize
        if r.2 = [] then return (w.setRb d client r.1, Control.loop)
        else return (w.setRb d client r.1).toFrame src addr r.2) =
          .ok (w', .frame (.tryKcpRecv c p) addr' buf) → False := by
    intro d hsrc h
    obtain ⟨client, -, h⟩ := bind_eq_ok.mp h
    obtain ⟨r, -, h⟩ := bind_eq_ok.mp h
    split at h
    · cases h
    · cases h
      rcases hsrc with hsrc | hsrc
      · cases hsrc
      · cases hsrc
  unfold drainRound at h
  split at h
  · exact (stream (Or.inl rfl) h).elim
  · exact (stream (Or.inr rfl) h).elim
  · obtain ⟨⟨w₁, answer⟩, hrecv, h⟩ := bind_eq_ok.mp h
    unfold World.ikcpRecv at hrecv
    split at hrecv
    · cases hrecv
    rename_i k hk
    rcases hx : KcpImpl.recv k.state kcpevBufferSize with ⟨state, answer'⟩
    rw [hx] at hrecv
    cases hrecv
    rcases answer with _ | _ | ⟨b, rest⟩
    · cases h
    · cases h
    dsimp only at h
    split at h
    · cases h
    obtain ⟨obj, -, h⟩ := bind_eq_ok.mp h
    split at h
    · split at h
      · cases h
      · cases h
        exact ⟨rfl, k, hk, by rw [hx]⟩
    · cases h
      exact ⟨rfl, k, hk, by rw [hx]⟩
  · cases h
  · cases h
  · cases h

omit [KcpImpl K] [ClockImpl T] in
theorem tryKcpRecv_kcp (h : tryKcpRecv w c = .ok (w', ctl)) :
    ∃ obj kcp, w.objs c = some obj ∧ obj.udp.kcp = some kcp ∧
      ctl = .drain (.tryKcpRecv c kcp) 0 := by
  obtain ⟨obj, hobj, h⟩ := bind_eq_ok.mp h
  rw [World.kcpev_ok] at hobj
  split at h
  · cases h
  · rename_i kcp hkcp
    cases h
    exact ⟨obj, kcp, hobj, hkcp, rfl⟩

omit [ClockImpl T] in
theorem kcpReceived_kcp {client : Kcpev T} {data : Bytes}
    (h : kcpReceived w c client data = .ok (w', ctl)) :
    ∃ obj kcp, w.objs c = some obj ∧ obj.udp.kcp = some kcp ∧
      ctl = .drain (.tryKcpRecv c kcp) 0 := by
  unfold kcpReceived at h
  split at h
  · cases h
  · obtain ⟨os, -, h⟩ := bind_eq_ok.mp h
    have hkcp := tryKcpRecv_kcp h
    exact hkcp

omit [KcpImpl K] [ClockImpl T] in
theorem dispatched_ne_frame {ret : ℤ} : dispatched src addr ret ≠ .ok (.frame src' addr' buf) := by
  intro h
  unfold dispatched at h
  split at h
  · split at h <;> cases h
  · split at h <;> cases h
  · split at h <;> cases h
  · cases h
  · cases h
  · cases h

/-- A callback that has just started: it has taken no message out of a KCP object, and if it
is going to drain one, it is that of its client. -/
def Started (w : World K T) (ctl : Control) : Prop :=
  (∀ c q addr buf, ctl ≠ .frame (.tryKcpRecv c q) addr buf) ∧
    ∀ c q, ctl.source = some (.tryKcpRecv c q) → ∃ obj, w.objs c = some obj ∧ obj.udp.kcp = some q

omit [KcpImpl K] [ClockImpl T] in
theorem started_kcp (h : ∃ obj kcp, w.objs c = some obj ∧ obj.udp.kcp = some kcp ∧
    ctl = .drain (.tryKcpRecv c kcp) 0) : Started w ctl := by
  obtain ⟨obj, kcp, hobj, hkcp, rfl⟩ := h
  constructor
  · intro c' q addr buf hctl
    cases hctl
  · intro c' q hsrc
    cases hsrc
    exact ⟨obj, hobj, hkcp⟩

omit [KcpImpl K] [ClockImpl T] in
theorem started_other (h : ∀ c q, ctl.source ≠ some (.tryKcpRecv c q)) : Started w ctl := by
  constructor
  · intro c q addr buf hctl
    exact h c q (by rw [hctl]; rfl)
  · intro c q hsrc
    exact absurd hsrc (h c q)

omit [KcpImpl K] [ClockImpl T] in
theorem started_idle (h : ctl.source = none) : Started w ctl :=
  started_other fun c q hsrc => by
    rw [h] at hsrc
    cases hsrc

omit [KcpImpl K] [ClockImpl T] in
theorem started_tcp {client : Kcpev T} {data : Bytes} {a : IoAnswer}
    (hsrc : src = .serverTcpRecv c ∨ src = .clientTcpRecv c)
    (h : tcpReceived w src c client addr data a = .ok (w', ctl)) : Started w ctl := by
  obtain ⟨⟨rb, size⟩, -, h⟩ := bind_eq_ok.mp h
  have hctl : ctl.source = some src := by
    dsimp only at h
    generalize toInt size = len at h
    split at h
    · cases h
      rfl
    · cases h
      rfl
  refine started_other fun c' q hs => ?_
  rw [hctl] at hs
  rcases hsrc with rfl | rfl
  · cases hs
  · cases hs

theorem ioEvent_started {e : EvIo} {a : IoAnswer} (h : ioEvent w e a = .ok (w', ctl)) :
    Started w ctl := by
  unfold ioEvent at h
  split at h
  · obtain ⟨w₁, -, h⟩ := bind_eq_ok.mp h
    cases h
    exact started_idle rfl
  · have hall := Except.ok.inj h
    unfold serverUdpRecvAll at hall
    split at hall
    · cases hall
      exact started_idle rfl
    · cases hall
      exact started_other fun c' q hs => by cases hs
  · rename_i c' hcb hdata
    obtain ⟨client, hobj, h⟩ := bind_eq_ok.mp h
    split at h
    · cases h
      exact started_idle rfl
    · rename_i data hrecv
      exact started_tcp (Or.inl rfl) h
  · unfold serverUdpRecv at h
    split at h
    · cases h
      exact started_idle rfl
    obtain ⟨client, -, h⟩ := bind_eq_ok.mp h
    split at h
    · split at h
      · cases h
        exact started_idle rfl
      · cases h
        exact started_other fun c' q hs => by cases hs
    · exact started_kcp (kcpReceived_kcp h)
  · rename_i c' hcb hdata
    unfold clientTcpRecv at h
    split at h
    · cases h
    rename_i data hrecv
    obtain ⟨client, hobj, h⟩ := bind_eq_ok.mp h
    exact started_tcp (Or.inr rfl) h
  · unfold clientUdpRecv at h
    split at h
    · cases h
      exact started_idle rfl
    obtain ⟨client, -, h⟩ := bind_eq_ok.mp h
    split at h
    · cases h
      exact started_other fun c' q hs => by cases hs
    · exact started_kcp (kcpReceived_kcp h)
  · cases h
    exact started_idle rfl

theorem timerRepeat_objs {output : ℕ → Option ℕ}
    (h : kcpevTimerRepeat w c output = .ok w') : w'.objs = w.objs := by
  obtain ⟨client, -, h⟩ := bind_eq_ok.mp h
  split at h
  · cases h
    rfl
  split at h
  · cases h
  dsimp only at h
  split at h
  · cases h
  · cases h
    rfl

theorem timerEvent_started {t : EvTimer} {a : TimerAnswer}
    (h : timerEvent w t a = .ok (w', ctl)) : Started w ctl := by
  unfold timerEvent at h
  split at h
  · obtain ⟨w₁, hrepeat, h⟩ := bind_eq_ok.mp h
    have hkcp := tryKcpRecv_kcp h
    rw [timerRepeat_objs hrepeat] at hkcp
    exact started_kcp hkcp
  · obtain ⟨w₁, -, h⟩ := bind_eq_ok.mp h
    cases h
    exact started_idle rfl
  · obtain ⟨w₁, -, h⟩ := bind_eq_ok.mp h
    cases h
    exact started_idle rfl
  · cases h
    exact started_idle rfl

/-- Whatever message a callback stands in front of after a step, it stood there before, or
the step has taken it; and whatever KCP object is drained, it was drained before, or it is
that of the client. -/
theorem step_started {p p' : Process K T} {i : Input T} (h : step p i = .ok p') :
    (∀ c q addr buf, p'.ctl = .frame (.tryKcpRecv c q) addr buf →
      p.ctl = .frame (.tryKcpRecv c q) addr buf ∨ buf ∈ kcpTaken c q p i) ∧
    ∀ c q, p'.ctl.source = some (.tryKcpRecv c q) →
      p.ctl.source = some (.tryKcpRecv c q) ∨
        ∃ obj, p.world.objs c = some obj ∧ obj.udp.kcp = some q := by
  have started : ∀ {ctl : Control}, Started p.world ctl →
      (∀ c q addr buf, ctl = .frame (.tryKcpRecv c q) addr buf →
        p.ctl = .frame (.tryKcpRecv c q) addr buf ∨ buf ∈ kcpTaken c q p i) ∧
      ∀ c q, ctl.source = some (.tryKcpRecv c q) →
        p.ctl.source = some (.tryKcpRecv c q) ∨
          ∃ obj, p.world.objs c = some obj ∧ obj.udp.kcp = some q :=
    fun hs => ⟨fun c q addr buf hctl => absurd hctl (hs.1 c q addr buf),
      fun c q hsrc => Or.inr (hs.2 c q hsrc)⟩
  unfold step at h
  split at h
  · obtain ⟨⟨w₁, ctl₁⟩, hround, h⟩ := bind_eq_ok.mp h
    cases h
    refine ⟨fun c q addr buf hctl => Or.inr ?_, fun c q hsrc => Or.inl ?_⟩
    · dsimp only at hctl
      subst hctl
      unfold callbackRound at hround
      split at hround
      · cases hround
      · rename_i src addr' hctl
        obtain ⟨rfl, k, hk, hrecv⟩ := drainRound_message hround
        simp [kcpTaken, hctl, hk, hrecv]
      · obtain ⟨⟨w₂, ret⟩, -, hround⟩ := bind_eq_ok.mp hround
        obtain ⟨ctl₂, hnext, hround⟩ := bind_eq_ok.mp hround
        cases hround
        exact absurd hnext dispatched_ne_frame
      · obtain ⟨w₂, -, hround⟩ := bind_eq_ok.mp hround
        cases hround
    · exact callbackRound_source hround hsrc
  · split at h
    · rename_i q a _ _ e hctl he
      obtain ⟨⟨w₁, ctl₁⟩, hio, h⟩ := bind_eq_ok.mp h
      cases h
      exact started (ioEvent_started hio)
    · cases h
      exact ⟨fun _ _ _ _ hctl => Or.inl hctl, fun _ _ hsrc => Or.inl hsrc⟩
  · split at h
    · obtain ⟨⟨w₁, ctl₁⟩, htimer, h⟩ := bind_eq_ok.mp h
      cases h
      exact started (timerEvent_started htimer)
    · cases h
      exact ⟨fun _ _ _ _ hctl => Or.inl hctl, fun _ _ hsrc => Or.inl hsrc⟩
  · split at h
    · obtain ⟨w₁, -, h⟩ := bind_eq_ok.mp h
      cases h
      exact ⟨fun _ _ _ _ hctl => Or.inl hctl, fun _ _ hsrc => Or.inl hsrc⟩
    · cases h
      exact ⟨fun _ _ _ _ hctl => Or.inl hctl, fun _ _ hsrc => Or.inl hsrc⟩
  · split at h
    · obtain ⟨w₁, -, h⟩ := bind_eq_ok.mp h
      cases h
      exact ⟨fun _ _ _ _ hctl => Or.inl hctl, fun _ _ hsrc => Or.inl hsrc⟩
    · cases h
      exact ⟨fun _ _ _ _ hctl => Or.inl hctl, fun _ _ hsrc => Or.inl hsrc⟩

end Step

end KcpEv
