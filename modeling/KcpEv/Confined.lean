import KcpEv.Bounded
import KcpEv.ServerHash
import KcpEv.Setup

/-!
What holds of every KCP object of a process, and of everything that is put on a socket.
A property of control blocks that the calls of `ikcp.c` keep is kept by every step: the
library never touches a control block in another way. The windows of the real control
blocks are such a property, whatever the peers send.
-/
namespace KcpEv

open Guarded

variable {K T : Type}

/-- The calls keep a property of control blocks, and the datagrams of a block with this
property have another one. -/
structure KcpKept [KcpImpl K] (P : K → Prop) (D : Bytes → Prop) : Prop where
  create : P KcpImpl.create
  send : ∀ {k}, P k → ∀ buf, P (KcpImpl.send k buf).1
  recv : ∀ {k}, P k → ∀ len, P (KcpImpl.recv k len).1
  input : ∀ {k}, P k → ∀ conv data, P (KcpImpl.input conv k data).1
  update : ∀ {k}, P k → ∀ conv now, P (KcpImpl.update conv k now).1
  output : ∀ {k}, P k → ∀ conv now, ∀ d ∈ (KcpImpl.update conv k now).2, D d

/-- What `send` is given: a frame of the library, or a datagram of a KCP object. -/
def Posted (D : Bytes → Prop) (whole : Bytes) : Prop :=
  (∃ command msg, Frame command msg whole) ∨ D whole

/-- The KCP objects have a property, and only frames and datagrams were sent; `send` may
take a part of one. -/
structure Os.Confined (P : K → Prop) (D : Bytes → Prop) (os : Os K T) : Prop where
  kcps : ∀ {q kcp}, os.kcps q = some kcp → P kcp.state
  sent : ∀ {fd buf}, .sent fd buf ∈ os.out → ∃ whole k, Posted D whole ∧ buf = whole.take k

namespace Os.Confined

variable {P : K → Prop} {D : Bytes → Prop} {os os' : Os K T}

theorem same (h : os.Confined P D) (hout : os'.out = os.out) (hkcps : os'.kcps = os.kcps) :
    os'.Confined P D :=
  ⟨fun hq => h.kcps (by rw [← hkcps]; exact hq), fun hs => h.sent (by rw [← hout]; exact hs)⟩

theorem emit (h : os.Confined P D) {o : Output} (ho : ∀ fd buf, o ≠ .sent fd buf) :
    (os.emit o).Confined P D := by
  refine ⟨h.kcps, fun {fd buf} hs => ?_⟩
  rcases List.mem_append.mp hs with hold | hnew
  · exact h.sent hold
  · exact absurd (List.mem_singleton.mp hnew).symm (ho fd buf)

theorem emitSent (h : os.Confined P D) {whole : Bytes} (hwhole : Posted D whole) (fd k : ℕ) :
    (os.emit (.sent fd (whole.take k))).Confined P D := by
  refine ⟨h.kcps, fun {fd' buf} hs => ?_⟩
  rcases List.mem_append.mp hs with hold | hnew
  · exact h.sent hold
  · have heq := List.mem_singleton.mp hnew
    injection heq with _ hbuf
    exact ⟨whole, k, hwhole, hbuf⟩

theorem setKcp (h : os.Confined P D) (q : ℕ) {kcp : Ikcpcb K} (hkcp : P kcp.state) :
    (os.setKcp q kcp).Confined P D := by
  refine ⟨fun {r kcp'} hr => ?_, h.sent⟩
  rcases eq_or_ne r q with heq | hne
  · simp only [Os.setKcp, heq, Function.update_self, Option.some.injEq] at hr
    rw [← hr]
    exact hkcp
  · simp only [Os.setKcp, Function.update_of_ne hne] at hr
    exact h.kcps hr

theorem send (h : os.Confined P D) {whole : Bytes} (hwhole : Posted D whole) (fd : ℕ)
    (answer : Option ℕ) : (os.send fd whole answer).1.Confined P D := by
  rcases os.send_cases fd whole answer with hs | ⟨k, hs⟩
  · rw [hs]
    exact h
  · rw [hs]
    exact h.emitSent hwhole fd k

theorem udpOutputs (sock : ℕ) (answers : ℕ → Option ℕ) {bufs : List Bytes}
    (hbufs : ∀ d ∈ bufs, D d) (n : ℕ) (h : os.Confined P D) :
    (KcpEv.udpOutputs sock answers n os bufs).Confined P D := by
  induction bufs generalizing n os with
  | nil => exact h
  | cons d bufs ih =>
    have hsend := h.send (Or.inr (hbufs d List.mem_cons_self)) sock (answers n)
    exact ih (fun d' hd' => hbufs d' (List.mem_cons_of_mem d hd')) (n + 1) hsend

theorem sockSendCommand (h : os.Confined P D) {sock : ℕ} {command : Command} {msg : Bytes}
    {a : SendAnswer} {ret : ℤ}
    (hsend : KcpEv.sockSendCommand os sock command msg a = .ok (os', ret)) :
    os'.Confined P D := by
  rcases sockSendCommand_cases hsend with ⟨rfl, -⟩ | ⟨frame, k, hframe, rfl, -⟩
  · exact h
  · exact h.emitSent (Or.inl ⟨command, msg, hframe⟩) sock k

theorem createTimer (h : os.Confined P D) {o : Owner} {udp udp' : KcpevUdp T} {hcb : TimerCb}
    {evt evh : Bool} {ret : ℤ}
    (htimer : checkCreateKcpTimer os o udp hcb evt evh = .ok (os', udp', ret)) :
    os'.Confined P D := by
  rcases checkCreateKcpTimer_cases htimer with ⟨-, -, rfl, -⟩ | ⟨-, -, -, -, rfl, -⟩ |
    ⟨-, -, -, -, rfl, -⟩
  · exact h
  · exact h.same rfl rfl
  · exact h.same rfl rfl

theorem evTimerAgain (h : os.Confined P D) (q again : ℕ) :
    (os.evTimerAgain q again).Confined P D := by
  unfold Os.evTimerAgain
  split
  · exact h
  · exact h.same rfl rfl

section Kcp
variable [KcpImpl K]

/-- Objects are set up and destroyed with control blocks that are new. -/
theorem setup (hkept : KcpKept P D) :
    Os.Setup (K := K) (T := T) fun os os' => os.Confined P D → os'.Confined P D where
  refl _ := id
  trans h h' := h' ∘ h
  rest hout hkcps _ _ h := h.same hout hkcps
  stop _ _ h := h.same rfl rfl
  release os q h := by
    refine ⟨fun {r kcp} hr => ?_, h.sent⟩
    rcases eq_or_ne r q with heq | hne
    · simp [Os.ikcpRelease, heq] at hr
    · simp only [Os.ikcpRelease, Function.update_of_ne hne] at hr
      exact h.kcps hr
  create os conv h := by
    refine ⟨fun {r kcp} hr => ?_, h.sent⟩
    rcases eq_or_ne r os.next with heq | hne
    · simp only [Os.ikcpCreate, heq, Function.update_self, Option.some.injEq] at hr
      rw [← hr]
      exact hkept.create
    · simp only [Os.ikcpCreate, Function.update_of_ne hne] at hr
      exact h.kcps hr

theorem ikcpSend (h : os.Confined P D) (hkept : KcpKept P D) {q : ℕ} {buf : Bytes} {ret : ℤ}
    (hsend : KcpEv.ikcpSend os q buf = .ok (os', ret)) : os'.Confined P D := by
  obtain ⟨kcp, hkcp, rfl, -⟩ := ikcpSend_cases hsend
  exact h.setKcp q (hkept.send (h.kcps hkcp) buf)

theorem kcpSendCommand (h : os.Confined P D) (hkept : KcpKept P D) {udp : KcpevUdp T}
    {command : Command} {msg : Bytes} {stack : ℕ → UInt8} {ret : ℤ}
    (hsend : KcpEv.kcpSendCommand os udp command msg stack = .ok (os', ret)) :
    os'.Confined P D := by
  obtain ⟨⟨buf, n⟩, -, hsend⟩ := bind_eq_ok.mp hsend
  dsimp only at hsend
  split at hsend
  · cases hsend
    exact h
  split at hsend
  · split at hsend
    · cases hsend
    · exact h.ikcpSend hkept hsend
  · cases hsend
    exact h

theorem kcpevSendCommand (h : os.Confined P D) (hkept : KcpKept P D) {b : KcpevBase T}
    {command : Command} {msg : Bytes} {a : SendAnswer} {ret : ℤ}
    (hsend : KcpEv.kcpevSendCommand os b command msg a = .ok (os', ret)) :
    os'.Confined P D := by
  by_cases hvalid : b.udp.isKcpValid
  · rw [kcpevSendCommand_kcp os hvalid] at hsend
    exact h.kcpSendCommand hkept hsend
  · rw [kcpevSendCommand_tcp os hvalid] at hsend
    exact h.sockSendCommand hsend

end Kcp

end Os.Confined

/-! The steps. -/

section Step
variable [KcpImpl K] {P : K → Prop} {D : Bytes → Prop} {w w' : World K T} {c : ℕ} {addr : Addr}
  {buf : Bytes} {a : RecvAnswer} {ret : ℤ} {ctl ctl' : Control}

theorem confined_serverRecv (hkept : KcpKept P D) (h : w.os.Confined P D) {client : Option ℕ}
    (hrecv : ServerRecv w client buf addr a w' ret) : w'.os.Confined P D := by
  cases hrecv with
  | unchanged => exact h
  | data => exact h.emit nofun
  | shakeHand1Failed hname hfind hconn =>
    exact (Os.Confined.setup hkept).connectClientUdp hconn h
  | shakeHand1 hname hfind hconn hsend =>
    exact ((Os.Confined.setup hkept).connectClientUdp hconn h).sockSendCommand hsend
  | shakeHand2Failed hname hfind hstatus htimer => exact h.createTimer htimer
  | shakeHand2 hname hfind hstatus htimer => exact h.createTimer htimer
  | heartbeat1 ret' hclient hobj hsend => exact h.kcpSendCommand hkept hsend
  | heartbeat2 => exact h

theorem confined_clientRecv (hkept : KcpKept P D) (h : w.os.Confined P D)
    (hrecv : ClientRecv w c buf a w' ret) : w'.os.Confined P D := by
  cases hrecv with
  | unchanged => exact h
  | data => exact h.emit nofun
  | shakeHand1Unsent hparse hobj hsend => exact h.sockSendCommand hsend
  | shakeHand1 hparse hobj hsend => exact h.sockSendCommand hsend
  | shakeHand2Unsent hparse hobj hsock hstatus hsend => exact h.sockSendCommand hsend
  | shakeHand2Failed hparse hobj hsock hstatus hsend htimer =>
    exact (h.sockSendCommand hsend).createTimer htimer
  | shakeHand2 hparse hobj hsock hstatus hsend htimer hkcp hp =>
    have htimers := (h.sockSendCommand hsend).createTimer htimer
    have hlive := htimers.kcps hp
    exact htimers.setKcp _ hlive
  | heartbeat1Unsent hobj hsend => exact h.kcpevSendCommand hkept hsend
  | heartbeat1 hobj hsend => exact h.kcpevSendCommand hkept hsend
  | udpInvalid => exact h

omit [KcpImpl K] in
theorem confined_tcpReceived (h : w.os.Confined P D) {src : Source} {client : Kcpev T}
    {data : Bytes} {a : IoAnswer}
    (hrecv : tcpReceived w src c client addr data a = .ok (w', ctl)) : w'.os.Confined P D := by
  obtain ⟨⟨rb, size⟩, -, hrecv⟩ := bind_eq_ok.mp hrecv
  dsimp only at hrecv
  split at hrecv
  · cases hrecv
    exact h.emit nofun
  · cases hrecv
    exact h

omit [KcpImpl K] in
theorem confined_tryKcpRecv (h : w.os.Confined P D) (hrecv : tryKcpRecv w c = .ok (w', ctl)) :
    w'.os.Confined P D := by
  obtain ⟨kcpev, -, hrecv⟩ := bind_eq_ok.mp hrecv
  split at hrecv
  · cases hrecv
  · cases hrecv
    exact h

theorem confined_kcpReceived (hkept : KcpKept P D) (h : w.os.Confined P D) {client : Kcpev T}
    {data : Bytes} (hrecv : kcpReceived w c client data = .ok (w', ctl)) :
    w'.os.Confined P D := by
  unfold kcpReceived at hrecv
  split at hrecv
  · cases hrecv
  rename_i q _
  obtain ⟨os, hinput, hrecv⟩ := bind_eq_ok.mp hrecv
  unfold ikcpInput at hinput
  split at hinput
  · cases hinput
  rename_i kcp hkcp
  cases hinput
  have hset : (w.os.setKcp q
      { kcp with state := (KcpImpl.input kcp.conv kcp.state data).1 }).Confined P D :=
    h.setKcp q (hkept.input (h.kcps hkcp) kcp.conv data)
  exact confined_tryKcpRecv hset hrecv

theorem confined_drainRound (hkept : KcpKept P D) (h : w.os.Confined P D) {src : Source}
    (hdrain : drainRound w src addr = .ok (w', ctl)) : w'.os.Confined P D := by
  have stream : ∀ {c : ℕ} {src : Source},
      (do
        let client ← w.kcpev c
        let r ← TcpRecv.getTcpBufChunk client.tcp.rb kcpevBufferSize
        if r.2 = [] then return (w.setRb c client r.1, Control.loop)
        else return (w.setRb c client r.1).toFrame src addr r.2) = .ok (w', ctl) →
      w'.os.Confined P D := by
    intro c src hdrain
    obtain ⟨client, -, hdrain⟩ := bind_eq_ok.mp hdrain
    obtain ⟨r, -, hdrain⟩ := bind_eq_ok.mp hdrain
    split at hdrain
    · cases hdrain
      exact h
    · cases hdrain
      exact h.emit nofun
  rcases src with c | c | c | c | _ | ⟨c, q⟩
  · exact stream hdrain
  · exact stream hdrain
  · cases hdrain
    exact h
  · cases hdrain
    exact h
  · cases hdrain
    exact h
  · obtain ⟨⟨w₁, answer⟩, hrecv, hdrain⟩ := bind_eq_ok.mp hdrain
    have hset : w₁.os.Confined P D := by
      unfold World.ikcpRecv at hrecv
      split at hrecv
      · cases hrecv
      rename_i kcp hkcp
      cases hrecv
      exact h.setKcp q (hkept.recv (h.kcps hkcp) kcpevBufferSize)
    rcases answer with _ | _ | ⟨b, rest⟩
    · cases hdrain
      exact hset
    · cases hdrain
      exact hset
    dsimp only at hdrain
    split at hdrain
    · cases hdrain
    obtain ⟨kcpev, -, hdrain⟩ := bind_eq_ok.mp hdrain
    split at hdrain
    · split at hdrain
      · cases hdrain
        exact hset
      · cases hdrain
        exact hset.emit nofun
    · cases hdrain
      exact hset.emit nofun

variable [ClockImpl T]

theorem confined_dispatch (hkept : KcpKept P D) (h : w.os.Confined P D) {src : Source}
    (hdispatch : dispatch w src addr buf a = .ok (w', ret)) : w'.os.Confined P D := by
  have session : ∀ {c : ℕ}, onSessionRecv w c buf addr a = .ok (w', ret) →
      w'.os.Confined P D := by
    intro c hsession
    obtain ⟨client, -, hsession⟩ := bind_eq_ok.mp hsession
    split at hsession
    · cases hsession
    · exact confined_serverRecv hkept h (onServerRecv_cases hsession)
  rcases src with c | c | c | c | _ | ⟨c, q⟩
  · exact session hdispatch
  · exact confined_clientRecv hkept h (onClientRecv_cases hdispatch)
  · exact session hdispatch
  · exact confined_clientRecv hkept h (onClientRecv_cases hdispatch)
  · exact confined_serverRecv hkept h (onServerRecv_cases hdispatch)
  · obtain ⟨kcpev, -, hdispatch⟩ := bind_eq_ok.mp hdispatch
    split at hdispatch
    · exact session hdispatch
    · exact confined_clientRecv hkept h (onClientRecv_cases hdispatch)

theorem confined_callbackRound (hkept : KcpKept P D) (h : w.os.Confined P D)
    (hround : callbackRound w ctl a = .ok (w', ctl')) : w'.os.Confined P D := by
  rcases ctl with _ | ⟨src, addr, buf⟩ | ⟨src, addr⟩ | c
  · cases hround
    exact h
  · obtain ⟨⟨w₁, ret⟩, hdispatch, hround⟩ := bind_eq_ok.mp hround
    obtain ⟨ctl₁, -, hround⟩ := bind_eq_ok.mp hround
    cases hround
    exact confined_dispatch hkept h hdispatch
  · exact confined_drainRound hkept h hround
  · obtain ⟨w₁, hclose, hround⟩ := bind_eq_ok.mp hround
    cases hround
    exact (Os.Confined.setup hkept).closeClient hclose h

theorem confined_acceptClient (hkept : KcpKept P D) {os : Os K T} (h : os.Confined P D) {c s : ℕ}
    {a : AcceptAnswer} (haccept : acceptClient w os c s a = .ok w') : w'.os.Confined P D := by
  obtain ⟨server, -, haccept⟩ := bind_eq_ok.mp haccept
  rcases hinit : kcpevInitEv os (.kcpev c) (acceptBase s : KcpevBase T) (some .serverTcpRecv) none
    { tcp := a.evio, udp := true } with ⟨os₁, b, r⟩
  have hstarted := (Os.Confined.setup hkept).initEv hinit h
  simp only [hinit] at haccept
  split at haccept
  · cases haccept
    exact (Os.Confined.setup hkept).destroy _ _ hstarted
  obtain ⟨⟨os₂, ret⟩, hsend, haccept⟩ := bind_eq_ok.mp haccept
  have hsent := hstarted.sockSendCommand hsend
  dsimp only at haccept
  split at haccept
  · cases haccept
    exact (Os.Confined.setup hkept).destroy _ _ hsent
  · cases haccept
    exact hsent

theorem confined_tcpAccept (hkept : KcpKept P D) (h : w.os.Confined P D) {fd : ℕ}
    {answer : Option AcceptAnswer} (haccept : tcpAccept w fd answer = .ok w') :
    w'.os.Confined P D := by
  unfold tcpAccept at haccept
  split at haccept
  · cases haccept
    exact h
  · cases haccept
    exact h
  split at haccept
  · cases haccept
    exact h
  rename_i a _ _ os s hopen
  have hopened := (Os.Confined.setup hkept).openSock hopen h
  split at haccept
  · cases haccept
    exact hopened
  split at haccept
  · cases haccept
    exact hopened.same rfl rfl
  split at haccept
  · cases haccept
    exact hopened.same rfl rfl
  · have hnext : ({ os with next := os.next + 1 } : Os K T).Confined P D := hopened.same rfl rfl
    exact confined_acceptClient hkept hnext haccept

theorem confined_ioEvent (hkept : KcpKept P D) (h : w.os.Confined P D) {e : EvIo} {a : IoAnswer}
    (hio : ioEvent w e a = .ok (w', ctl)) : w'.os.Confined P D := by
  unfold ioEvent at hio
  split at hio
  · obtain ⟨w₁, haccept, hio⟩ := bind_eq_ok.mp hio
    cases hio
    exact confined_tcpAccept hkept h haccept
  · unfold serverUdpRecvAll at hio
    split at hio
    · cases hio
      exact h
    · cases hio
      exact h.emit nofun
  · obtain ⟨client, -, hio⟩ := bind_eq_ok.mp hio
    split at hio
    · cases hio
      exact h
    · exact confined_tcpReceived h hio
  · unfold serverUdpRecv at hio
    split at hio
    · cases hio
      exact h
    obtain ⟨client, -, hio⟩ := bind_eq_ok.mp hio
    split at hio
    · split at hio
      · cases hio
        exact h
      · cases hio
        exact h.emit nofun
    · exact confined_kcpReceived hkept h hio
  · unfold clientTcpRecv at hio
    split at hio
    · cases hio
    obtain ⟨client, -, hio⟩ := bind_eq_ok.mp hio
    exact confined_tcpReceived h hio
  · unfold clientUdpRecv at hio
    split at hio
    · cases hio
      exact h
    obtain ⟨client, -, hio⟩ := bind_eq_ok.mp hio
    split at hio
    · cases hio
      exact h.emit nofun
    · exact confined_kcpReceived hkept h hio
  · cases hio
    exact h

theorem confined_timerRepeat (hkept : KcpKept P D) (h : w.os.Confined P D) {output : ℕ → Option ℕ}
    (hrepeat : kcpevTimerRepeat w c output = .ok w') : w'.os.Confined P D := by
  obtain ⟨kcpev, -, hrepeat⟩ := bind_eq_ok.mp hrepeat
  split at hrepeat
  · cases hrepeat
    exact h
  rename_i q _
  split at hrepeat
  · cases hrepeat
  rename_i kcp hkcp
  have hstate := h.kcps hkcp
  have hout := h.udpOutputs kcpev.udp.sock output
    (hkept.output hstate kcp.conv (ClockImpl.ms w.os.now)) 0
  dsimp only at hrepeat
  split at hrepeat
  · cases hrepeat
  cases hrepeat
  refine Os.Confined.evTimerAgain ?_ _ _
  split
  · exact hout.setKcp q (hkept.update hstate kcp.conv _)
  · exact h.setKcp q hstate

theorem confined_timerEvent (hkept : KcpKept P D) (h : w.os.Confined P D) {t : EvTimer}
    {a : TimerAnswer} (htimer : timerEvent w t a = .ok (w', ctl)) : w'.os.Confined P D := by
  unfold timerEvent at htimer
  split at htimer
  · obtain ⟨w₁, hrepeat, htimer⟩ := bind_eq_ok.mp htimer
    exact confined_tryKcpRecv (confined_timerRepeat hkept h hrepeat) htimer
  · obtain ⟨w₁, hheart, htimer⟩ := bind_eq_ok.mp htimer
    cases htimer
    obtain ⟨client, -, hheart⟩ := bind_eq_ok.mp hheart
    split at hheart
    · cases hheart
      exact h
    split at hheart
    · cases hheart
      exact h
    obtain ⟨⟨os, ret⟩, hsend, hheart⟩ := bind_eq_ok.mp hheart
    cases hheart
    exact h.kcpSendCommand hkept hsend
  · obtain ⟨w₁, hheart, htimer⟩ := bind_eq_ok.mp htimer
    cases htimer
    obtain ⟨client, -, hheart⟩ := bind_eq_ok.mp hheart
    split at hheart
    · cases hheart
      exact h
    split at hheart
    · obtain ⟨⟨os, ret⟩, hsend, hheart⟩ := bind_eq_ok.mp hheart
      cases hheart
      exact h.sockSendCommand hsend
    · cases hheart
      exact h
  · cases htimer
    exact h

theorem confined_apply (hkept : KcpKept P D) (h : w.os.Confined P D) {i : Input T}
    (happly : apply w i = .ok w') : w'.os.Confined P D := by
  cases i with
  | createClient a =>
    cases happly
    exact (Os.Confined.setup hkept).createClient w a h
  | createServer a =>
    cases happly
    split
    · exact h
    · exact (Os.Confined.setup hkept).createServer w a h
  | setCb c =>
    obtain ⟨client, -, happly⟩ := bind_eq_ok.mp happly
    cases happly
    exact h
  | serverSetCb =>
    obtain ⟨server, -, happly⟩ := bind_eq_ok.mp happly
    cases happly
    exact h
  | connect c addr a =>
    obtain ⟨client, -, happly⟩ := bind_eq_ok.mp happly
    split at happly
    · cases happly
      exact h
    · rcases hconn : kcpevConnect w.os client.toKcpevBase addr a with ⟨os, b, ret⟩
      rw [hconn] at happly
      cases happly
      exact (Os.Confined.setup hkept).kcpevConnect hconn h
  | send c msg a =>
    obtain ⟨client, -, happly⟩ := bind_eq_ok.mp happly
    obtain ⟨⟨os, ret⟩, hsend, happly⟩ := bind_eq_ok.mp happly
    cases happly
    exact h.kcpevSendCommand hkept hsend
  | sendTcp c msg a =>
    obtain ⟨client, -, happly⟩ := bind_eq_ok.mp happly
    obtain ⟨⟨os, ret⟩, hsend, happly⟩ := bind_eq_ok.mp happly
    cases happly
    exact h.sockSendCommand hsend
  | now now =>
    cases happly
    exact h.same rfl rfl
  | _ =>
    cases happly
    exact h

theorem confined_step (hkept : KcpKept P D) {p p' : Process K T} {i : Input T}
    (h : p.world.os.Confined P D) (hs : step p i = .ok p') : p'.world.os.Confined P D := by
  unfold step at hs
  split at hs
  · obtain ⟨⟨w₁, ctl₁⟩, hround, hs⟩ := bind_eq_ok.mp hs
    cases hs
    exact confined_callbackRound hkept h hround
  · split at hs
    · obtain ⟨⟨w₁, ctl₁⟩, hio, hs⟩ := bind_eq_ok.mp hs
      cases hs
      exact confined_ioEvent hkept h hio
    · cases hs
      exact h
  · split at hs
    · obtain ⟨⟨w₁, ctl₁⟩, htimer, hs⟩ := bind_eq_ok.mp hs
      cases hs
      exact confined_timerEvent hkept h htimer
    · cases hs
      exact h
  · split at hs
    · obtain ⟨w₁, hdestroy, hs⟩ := bind_eq_ok.mp hs
      cases hs
      exact (Os.Confined.setup hkept).serverDestroy hdestroy h
    · cases hs
      exact h
  · split at hs
    · obtain ⟨w₁, happly, hs⟩ := bind_eq_ok.mp hs
      cases hs
      exact confined_apply hkept h happly
    · cases hs
      exact h

theorem run_confined (hkept : KcpKept P D) {ok : Process K T → Input T → Prop} {now : T}
    {is : List (Input T)} {p : Process K T} (hrun : Run step ok (.init now) is p) :
    p.world.os.Confined P D := by
  refine hrun.invariant (P := fun p => p.world.os.Confined P D) ⟨nofun, nofun⟩ ?_
  exact fun h _ hs => confined_step hkept h hs

end Step

/-! The control blocks of `ikcp.c`. -/

namespace Ikcp

/-- A control block stays within its windows: each number is in use once, the data of a
segment fits, and nothing that can be read waits in `rcv_buf`. -/
structure InWindow (k : Ikcp) : Prop where
  rcvQueue : k.rcvQueue.length ≤ 128
  rcvBuf : k.rcvBuf.length ≤ 128
  sndBuf : k.sndBuf.length ≤ 128
  inFlight : ahead k.sndUna k.sndNxt ≤ 128
  received : Ascending k.rcvNxt (sns k.rcvBuf)
  unacked : Ascending k.sndUna (sns k.sndBuf)
  sized : ∀ seg ∈ k.sndQueue ++ k.sndBuf, seg.data.length ≤ ikcpMss
  rto : 30 ≤ k.rxRto.toInt ∧ k.rxRto.toInt ≤ 60000
  filled : k.rcvQueue.length < 128 → ∀ seg, k.rcvBuf.head? = some seg → seg.sn ≠ k.rcvNxt

theorem Bounded.inWindow {k : Ikcp} (h : k.Bounded) (hfilled : k.Filled) : k.InWindow := by
  obtain ⟨hsnd, hrcv⟩ := h.windows
  have hsent : k.sndWnd.toNat = 128 := congrArg UInt32.toNat hsnd
  have hroom : k.rcvWnd.toNat = 128 := congrArg UInt32.toNat hrcv
  have hwindow : ahead k.sndUna k.sndNxt ≤ 128 := h.outgoing.window.trans_eq hsent
  have hkept : (sns k.rcvBuf).length ≤ 128 :=
    h.incoming.sorted.length_le fun x hx => (h.incoming.near x hx).trans_eq hroom
  have hunacked : (sns k.sndBuf).length ≤ 128 :=
    h.outgoing.sorted.length_le fun x hx => (h.outgoing.before x hx).trans_le hwindow
  rw [sns, List.length_map] at hkept hunacked
  exact
    { rcvQueue := h.queue_le
      rcvBuf := hkept
      sndBuf := hunacked
      inFlight := hwindow
      received := h.incoming.sorted
      unacked := h.outgoing.sorted
      sized := h.outgoing.sized
      rto := h.rto
      filled := fun hlt => hfilled (hlt.trans_eq hroom.symm) }

/-- Whole segments, not more than the mtu. -/
def IsDatagram (d : Bytes) : Prop := ∃ segs, d = datagram segs ∧ Fits segs

theorem Bounded.datagrams {k : Ikcp} (h : k.Bounded) (conv : ℕ) (now : UInt32) :
    ∀ d ∈ (k.update conv now).2, IsDatagram d := by
  intro d hd
  obtain ⟨tsFlush, heq | heq⟩ := update_cases conv k now
  · rw [heq] at hd
    cases hd
  · have hclock : Bounded { k with current := now, updated := true, tsFlush } :=
      ⟨h.config, h.incoming, h.outgoing, h.rto, h.ssthresh⟩
    obtain ⟨ds, hds, -, hfits⟩ := hclock.flush_datagrams conv rfl
    rw [heq, hds] at hd
    obtain ⟨segs, hsegs, rfl⟩ := List.mem_map.mp hd
    exact ⟨segs, rfl, hfits segs hsegs⟩

theorem kept_bounded : KcpKept (fun k : Ikcp => k.Bounded ∧ k.Filled) IsDatagram where
  create := ⟨bounded_create, nofun⟩
  send h buf := by
    refine ⟨h.1.send buf, ?_⟩
    rcases send_cases _ buf with heq | ⟨-, heq⟩
    · exact (congrArg (fun x => Filled x.1) heq).mpr h.2
    · exact (congrArg (fun x => Filled x.1) heq).mpr h.2
  recv h len := ⟨h.1.recv len, h.2.recv len⟩
  input := by
    intro k h conv data
    have hmoves : Moves conv (fun _ => True) k (k.input conv data).1 := moves_input k data
    exact ⟨h.1.moves hmoves, h.2.input conv data⟩
  update := by
    intro k h conv now
    have hmoves : Moves conv (fun _ => True) k (k.update conv now).1 := moves_update k now
    exact ⟨h.1.moves hmoves, h.2.update now⟩
  output h conv now := h.1.datagrams conv now

end Ikcp

section Windows
variable {ok : Process Ikcp T → Input T → Prop} {now : T} {is : List (Input T)}
  {p : Process Ikcp T} [ClockImpl T]

/-- In every run, whatever arrives, the KCP objects of all sessions stay within their
windows, and what goes to a socket is a frame or a datagram of whole segments. -/
theorem run_inWindow (hrun : Run step ok (.init now) is p) :
    (∀ q kcp, p.world.os.kcps q = some kcp → kcp.state.InWindow) ∧
      ∀ fd buf, .sent fd buf ∈ p.world.os.out →
        ∃ whole k, Posted Ikcp.IsDatagram whole ∧ buf = whole.take k := by
  have hconfined := run_confined Ikcp.kept_bounded hrun
  refine ⟨fun q kcp hkcp => ?_, fun fd buf hsent => hconfined.sent hsent⟩
  obtain ⟨hbounded, hfilled⟩ := hconfined.kcps hkcp
  exact hbounded.inWindow hfilled

end Windows

/-- A server gets ready with a client and sends it a message. -/
def postedMessage : List (Input ℕ) :=
  [.createServer (.sockets 3 4), .io 1 (.accepts (.connection 5 9 sampleKey)),
    .io 2 (.receives (handshakeFrame .shakeHand1) 9), .round (.socket 6),
    .io 2 (.receives (handshakeFrame .shakeHand2) 9), .round (.socket 7),
    .send 3 [1, 2, 3] .whole, .timer 7 { output := fun _ => some 65536, send := .whole }]

theorem run_inWindow_posted : ∃ p : Process Ikcp ℕ,
    Run step (fun _ _ => True) (.init 0) postedMessage p ∧
      ((∀ q kcp, p.world.os.kcps q = some kcp → kcp.state.InWindow) ∧
        ∀ fd buf, .sent fd buf ∈ p.world.os.out →
          ∃ whole k, Posted Ikcp.IsDatagram whole ∧ buf = whole.take k) ∧
      ∃ kcp, p.world.os.kcps 5 = some kcp ∧ kcp.state.sndBuf.length = 1 := by
  obtain ⟨p, hrun, hend⟩ := Run.exists_of_exec (step (K := Ikcp)) (fun _ _ => True) (.init 0)
    postedMessage (fun p => (p.world.os.kcps 5).any fun kcp => kcp.state.sndBuf.length = 1)
    (by decide +kernel)
  rcases hkcp : p.world.os.kcps 5 with _ | kcp
  · rw [hkcp] at hend
    cases hend
  · rw [hkcp] at hend
    exact ⟨p, hrun, run_inWindow hrun, kcp, hkcp, of_decide_eq_true hend⟩

end KcpEv
