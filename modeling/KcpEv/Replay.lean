import KcpEv.KcpTimers

/-!
A handshake that starts again on the server. The second message restores a
session exactly when the session had no KCP timer: `connect_client_udp` does not
stop the old timers, and `check_create_kcp_timer` refuses to replace them.
-/
namespace KcpEv

open Guarded

variable {K T : Type}

/-- The calls a second handshake message makes succeed. -/
structure RecvAnswer.Allocates (a : RecvAnswer) : Prop where
  getnameinfo : a.getnameinfo
  evt : a.evt
  evh : a.evh

/-- The calls a first handshake message makes succeed: `socket` gives new
descriptors. -/
structure RecvAnswer.Succeeds (a : RecvAnswer) (os : Os K T) : Prop where
  getnameinfo : a.getnameinfo
  getaddrinfo : a.bind.getaddrinfo
  addrs : a.bind.addrs ≠ []
  sockets : ∀ x ∈ a.bind.addrs,
    x.setsockopt ∧ x.bind ∧ ∃ fd, x.socket = some fd ∧ fd ≠ 0 ∧ os.socks fd = none
  connect : a.connect
  kcp : a.kcp
  evio : a.evio

/-- A frame that is about to be dispatched. -/
structure Arrival where
  client : Option ℕ
  buf : Bytes
  addr : Addr
  answer : RecvAnswer

section Recovers
variable [KcpImpl K] [ClockImpl T]

def Arrival.dispatch (x : Arrival) (w : World K T) : Exec (World K T × ℤ) :=
  onServerRecv w x.client x.buf x.addr x.answer

/-- After `x`, whatever it returns, `y` is accepted and makes the KCP of the session valid. -/
def World.Recovers (w : World K T) (c : ℕ) (x y : Arrival) : Prop :=
  ∃ w₁ ret w₂ obj, x.dispatch w = .ok (w₁, ret) ∧ y.dispatch w₁ = .ok (w₂, 0) ∧
    w₂.objs c = some obj ∧ obj.udp.isKcpValid

end Recovers

theorem kcpevBindSocket_succeeds {os : Os K T} (sock : KcpevSock) (reuse : Bool) {a : RecvAnswer}
    (h : a.Succeeds os) : (kcpevBindSocket os sock reuse a.bind).2.2 = 0 := by
  obtain ⟨x, rest, hx⟩ := List.exists_cons_of_ne_nil h.addrs
  obtain ⟨hset, hbind, fd, hsock, hne, hfree⟩ := h.sockets x (by rw [hx]; exact List.mem_cons_self)
  simp [kcpevBindSocket, h.getaddrinfo, hx, bindLoop, Os.openSock, hsock, hfree, hset, hbind, hne]

theorem sockSendCommand_returns (os : Os K T) (sock : ℕ) (command : Command) {msg : Bytes}
    (a : SendAnswer) (h : msg.length + 8 ≤ kcpevBufferSize) :
    ∃ os' ret, sockSendCommand os sock command msg a = .ok (os', ret) := by
  obtain ⟨buf, hpack, -⟩ := packSendBuf_fits a.stack command.toByte msg h
  simp [sockSendCommand, hpack, bind, Except.bind, pure, Except.pure]

theorem checkCreateKcpTimer_starts (os : Os K T) (o : Owner) (hcb : TimerCb) {udp : KcpevUdp T}
    (hevt : udp.evt = none) : ∃ os', checkCreateKcpTimer os o udp hcb true true =
      .ok (os', { udp with evt := some os.next, evh := some (os.next + 1), heart := os.now },
        0) := by
  simp [checkCreateKcpTimer, hevt, Os.evTimerStart]

theorem checkCreateKcpTimer_refuses (os : Os K T) (o : Owner) (hcb : TimerCb) {udp : KcpevUdp T}
    (evt evh : Bool) (hevt : udp.evt.isSome) :
    checkCreateKcpTimer os o udp hcb evt evh = .ok (os, udp, -1) := by
  simp [checkCreateKcpTimer, hevt]

section Server
variable [KcpImpl K] [ClockImpl T] {w : World K T} {server : KcpevServer T} {key : KcpevKey}
  {c : ℕ} {obj : Kcpev T} {x y : Arrival}

omit [ClockImpl T] in
theorem connectClientUdp_succeeds {os : Os K T} {a : RecvAnswer} (h : a.Succeeds os) (c : ℕ)
    (obj : Kcpev T) (addr : Addr) : ∃ os' obj', connectClientUdp os c obj addr a = (os', obj', 0) ∧
      Connected os c obj addr a os' obj' := by
  rcases hconn : connectClientUdp os c obj addr a with ⟨os', obj', ret⟩
  rcases connectClientUdp_cases hconn with ⟨rfl, -⟩ | ⟨rfl, hconnected⟩
  · rcases connectClientUdp_failed hconn with hbind | hconn | hkcp
    · rw [kcpevBindSocket_succeeds _ _ h] at hbind
      omega
    · exact absurd h.connect (by simp [hconn])
    · exact absurd h.kcp (by simp [hkcp])
  · exact ⟨os', obj', rfl, hconnected⟩

/-- A session in the middle of the handshake: only its timers may be left from before. -/
structure ShakingHand (key : KcpevKey) (c : ℕ) (obj : Kcpev T) (w : World K T)
    (obj' : Kcpev T) : Prop where
  live : w.objs c = some obj'
  find : ∃ server, w.server = some server ∧ server.hashFind key = some c
  sock : obj'.udp.sock ≠ 0
  kcp : obj'.udp.kcp.isSome
  status : obj'.udp.status = .shakingHand
  evt : obj'.udp.evt = obj.udp.evt

/-- The first message: whatever the session had, it has a new socket and a new
KCP object now, and its timers are those it had before. -/
theorem shakeHand1_dispatch (hserver : w.server = some server)
    (hfind : server.hashFind key = some c) (hobj : w.objs c = some obj)
    (hparse : Parses x.buf .shakeHand1 key.val) (hx : x.answer.Succeeds w.os) :
    ∃ w₁ obj₁, x.dispatch w = .ok (w₁, 0) ∧ ShakingHand key c obj w₁ obj₁ := by
  obtain ⟨os, obj₁, hconn, hconnected⟩ := connectClientUdp_succeeds hx c obj x.addr
  have hlen : obj₁.key.val.length + 8 ≤ kcpevBufferSize := by
    rw [obj₁.key.property, kcpevBufferSize_eq]
    omega
  obtain ⟨os', ret, hsend⟩ := sockSendCommand_returns os obj₁.udp.sock .shakeHand2 x.answer.send
    hlen
  have hserver' : w.kcpevServer = .ok server := World.kcpevServer_ok.mpr hserver
  have hobj' : w.kcpev c = .ok obj := World.kcpev_ok.mpr hobj
  rw [Parses] at hparse
  refine ⟨w.store os' c { obj₁ with udp := { obj₁.udp with status := .shakingHand } },
    { obj₁ with udp := { obj₁.udp with status := .shakingHand } }, ?_, ?_⟩
  · simp [Arrival.dispatch, onServerRecv, hparse, hx.getnameinfo, Command.ofByte_toByte,
      serverShakeHand1, hserver', hobj', hfind, hconn, hsend, bind, Except.bind, pure, Except.pure]
  · have hfields := hconnected.fields
    refine ⟨by simp [World.store], ⟨server, hserver, hfind⟩, hconnected.sock, ?_, rfl, ?_⟩
    · rw [hfields]
      rfl
    · rw [hfields]

theorem shakeHand2_dispatch {w₁ : World K T} {obj₁ : Kcpev T} (h : ShakingHand key c obj w₁ obj₁)
    (hparse : Parses y.buf .shakeHand2 key.val) (hy : y.answer.Allocates)
    (hevt : obj.udp.evt = none) :
    ∃ w₂ obj₂, y.dispatch w₁ = .ok (w₂, 0) ∧ w₂.objs c = some obj₂ ∧ obj₂.udp.isKcpValid := by
  obtain ⟨server, hserver, hfind⟩ := h.find
  obtain ⟨os, htimer⟩ := checkCreateKcpTimer_starts w₁.os (.kcpev c) .onServerHeartbeatTimer
    (h.evt.trans hevt)
  have hserver' : w₁.kcpevServer = .ok server := World.kcpevServer_ok.mpr hserver
  have hobj' : w₁.kcpev c = .ok obj₁ := World.kcpev_ok.mpr h.live
  rw [Parses] at hparse
  let obj₂ : Kcpev T := { obj₁ with udp := { obj₁.udp with
    evt := some w₁.os.next, evh := some (w₁.os.next + 1), heart := w₁.os.now, status := .ready } }
  refine ⟨w₁.store os c obj₂, obj₂, ?_, by simp [World.store], h.sock, h.kcp, Or.inl rfl, rfl⟩
  simp [Arrival.dispatch, onServerRecv, hparse, hy.getnameinfo, Command.ofByte_toByte,
    serverShakeHand2, hserver', hobj', hfind, h.status, hy.evt, hy.evh, htimer, obj₂, bind,
    Except.bind, pure, Except.pure]

theorem shakeHand2_refused {w₁ : World K T} {obj₁ : Kcpev T} (h : ShakingHand key c obj w₁ obj₁)
    (hparse : Parses y.buf .shakeHand2 key.val) (hy : y.answer.getnameinfo)
    (hevt : obj.udp.evt.isSome) : ∃ w₂, y.dispatch w₁ = .ok (w₂, -1) := by
  obtain ⟨server, hserver, hfind⟩ := h.find
  have hserver' : w₁.kcpevServer = .ok server := World.kcpevServer_ok.mpr hserver
  have hobj' : w₁.kcpev c = .ok obj₁ := World.kcpev_ok.mpr h.live
  rw [Parses] at hparse
  rw [← h.evt] at hevt
  have htimer := checkCreateKcpTimer_refuses w₁.os (.kcpev c) .onServerHeartbeatTimer
    y.answer.evt y.answer.evh hevt
  simp [Arrival.dispatch, onServerRecv, hparse, hy, Command.ofByte_toByte, serverShakeHand2,
    hserver', hobj', hfind, h.status, htimer, bind, Except.bind, pure, Except.pure]

/-- With timers left, no second message brings the session back. -/
theorem not_recovers (hserver : w.server = some server) (hfind : server.hashFind key = some c)
    (hobj : w.objs c = some obj) (hparse : Parses x.buf .shakeHand1 key.val)
    (hx : x.answer.Succeeds w.os) (hparse' : Parses y.buf .shakeHand2 key.val)
    (hy : y.answer.getnameinfo) (hevt : obj.udp.evt.isSome) : ¬ w.Recovers c x y := by
  rintro ⟨w₁, ret, w₂, obj₂, hfirst, hsecond, -⟩
  obtain ⟨w₁', obj₁, hfirst', hshaking⟩ := shakeHand1_dispatch hserver hfind hobj hparse hx
  rw [hfirst'] at hfirst
  cases hfirst
  obtain ⟨w₂', hrefused⟩ := shakeHand2_refused hshaking hparse' hy hevt
  rw [hrefused] at hsecond
  cases hsecond

/-- A session recovers from a further first message exactly when it had no KCP
timer. -/
theorem recovers_iff (hserver : w.server = some server) (hfind : server.hashFind key = some c)
    (hobj : w.objs c = some obj) (hparse : Parses x.buf .shakeHand1 key.val)
    (hx : x.answer.Succeeds w.os) (hparse' : Parses y.buf .shakeHand2 key.val)
    (hy : y.answer.Allocates) : w.Recovers c x y ↔ obj.udp.evt = none := by
  constructor
  · intro hrecovers
    by_contra hevt
    exact not_recovers hserver hfind hobj hparse hx hparse' hy.getnameinfo
      (Option.isSome_iff_ne_none.mpr hevt) hrecovers
  · intro hevt
    obtain ⟨w₁, obj₁, hfirst, hshaking⟩ := shakeHand1_dispatch hserver hfind hobj hparse hx
    obtain ⟨w₂, obj₂, hsecond, hlive, hvalid⟩ := shakeHand2_dispatch hshaking hparse' hy hevt
    exact ⟨w₁, 0, w₂, obj₂, hfirst, hsecond, hlive, hvalid⟩

end Server

/-! The two handshake messages of the sample client. -/

/-- A first message at the socket of the server; `socket` gives `fd`. -/
def firstArrival (fd : ℕ) : Arrival where
  client := none
  buf := handshakeFrame .shakeHand1
  addr := 9
  answer := .socket fd

/-- A second message at the socket of the session. -/
def secondArrival : Arrival where
  client := some 3
  buf := handshakeFrame .shakeHand2
  addr := 9
  answer := .socket 0

theorem socket_succeeds {os : Os K T} {fd : ℕ} (hne : fd ≠ 0) (hfree : os.socks fd = none) :
    (RecvAnswer.socket fd).Succeeds os := by
  refine ⟨rfl, rfl, by simp [RecvAnswer.socket, BindAnswer.socket], ?_, rfl, rfl, rfl⟩
  simp [RecvAnswer.socket, BindAnswer.socket, hne, hfree]

/-- What the examples test: the session is the client's, the descriptor is free, and
the session has timers or not. -/
def World.sampleSession (w : World K T) (fd : ℕ) (timers : Bool) : Bool :=
  (w.os.socks fd).isNone && w.server.any (fun server => server.hashFind sampleKey = some 3) &&
    (w.objs 3).any fun obj => obj.udp.evt.isSome = timers

theorem sampleSession_iff {w : World K T} {fd : ℕ} {timers : Bool}
    (h : w.sampleSession fd timers = true) : w.os.socks fd = none ∧
      (∃ server, w.server = some server ∧ server.hashFind sampleKey = some 3) ∧
      ∃ obj, w.objs 3 = some obj ∧ obj.udp.evt.isSome = timers := by
  simpa [World.sampleSession, Option.any_eq_true, and_assoc] using h

/-- The first message comes once more before the second one. -/
theorem recovers_repeated : ∃ (p : Process Unit ℕ) (obj : Kcpev ℕ),
    Run step (fun _ _ => True) (.init 0) firstShakeHand1 p ∧ p.world.objs 3 = some obj ∧
      obj.udp.status = .shakingHand ∧ p.world.Recovers 3 (firstArrival 7) secondArrival := by
  obtain ⟨p, hrun, htest⟩ := Run.exists_of_exec (step (K := Unit)) (fun _ _ => True)
    (.init 0) firstShakeHand1 (fun p => p.world.sampleSession 7 false &&
      (p.world.objs 3).all fun obj => obj.udp.status = .shakingHand) (by decide)
  rw [Bool.and_eq_true] at htest
  obtain ⟨hfree, ⟨server, hserver, hfind⟩, obj, hobj, hevt⟩ := sampleSession_iff htest.1
  have hstatus : obj.udp.status = .shakingHand := by simpa [hobj] using htest.2
  refine ⟨p, obj, hrun, hobj, hstatus, ?_⟩
  exact (recovers_iff hserver hfind hobj (by decide) (socket_succeeds (by decide) hfree)
    (by decide) ⟨rfl, rfl, rfl⟩).mpr (by simpa using hevt)

/-- A handshake that is complete. -/
def completeHandshake : List (Input ℕ) :=
  firstShakeHand1 ++ [.io 6 (.receives (handshakeFrame .shakeHand2) 9), .round (.socket 0)]

/-- The session is ready, and a repeated first message turns it into one that no
second message makes ready again. -/
theorem complete_handshake_replayed : ∃ (p : Process Unit ℕ) (obj : Kcpev ℕ),
    Run step (fun _ _ => True) (.init 0) completeHandshake p ∧ p.world.objs 3 = some obj ∧
      obj.udp.isKcpValid ∧ Parses (firstArrival 7).buf .shakeHand1 sampleKey.val ∧
      (firstArrival 7).answer.Succeeds p.world.os ∧
      Parses secondArrival.buf .shakeHand2 sampleKey.val ∧ secondArrival.answer.Allocates ∧
      ¬ p.world.Recovers 3 (firstArrival 7) secondArrival := by
  obtain ⟨p, hrun, htest⟩ := Run.exists_of_exec (step (K := Unit)) (fun _ _ => True)
    (.init 0) completeHandshake (fun p => p.world.sampleSession 7 true &&
      (p.world.objs 3).all fun obj => obj.udp.isKcpValid) (by decide)
  rw [Bool.and_eq_true] at htest
  obtain ⟨hfree, ⟨server, hserver, hfind⟩, obj, hobj, hevt⟩ := sampleSession_iff htest.1
  have hvalid : obj.udp.isKcpValid := by simpa [hobj] using htest.2
  have hsucceeds : (firstArrival 7).answer.Succeeds p.world.os :=
    socket_succeeds (by decide) hfree
  refine ⟨p, obj, hrun, hobj, hvalid, by decide, hsucceeds, by decide, ⟨rfl, rfl, rfl⟩, ?_⟩
  exact not_recovers hserver hfind hobj (by decide) hsucceeds (by decide) rfl hevt

end KcpEv
