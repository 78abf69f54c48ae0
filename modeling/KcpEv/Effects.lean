import KcpEv.Quiet
import KcpEv.Lib.Guarded

/-!
What one step of a process can do to its objects. A step that is not quiet
creates, connects, accepts, closes or destroys, or dispatches one of the
handshake frames. Every invariant of a process is proved from these cases.
-/
namespace KcpEv

variable {K T : Type}

def Source.ToServer (w : World K T) : Source → Prop
  | .serverTcpRecv _ | .serverUdpRecv _ | .serverUdpRecvAll => True
  | .tryKcpRecv c _ => ∃ obj, w.objs c = some obj ∧ obj.hasServer = true
  | .clientTcpRecv _ | .clientUdpRecv _ => False

/-- The frame goes to `on_client_recv` of a client. -/
def Source.ToClient (w : World K T) (c : ℕ) : Source → Prop
  | .clientTcpRecv c' | .clientUdpRecv c' => c' = c
  | .tryKcpRecv c' _ => c' = c ∧ ∃ obj, w.objs c = some obj ∧ obj.hasServer = false
  | .serverTcpRecv _ | .serverUdpRecv _ | .serverUdpRecvAll => False

/-- The step dispatches a frame in `on_server_recv`, and its checks of the sender
succeed. -/
def ServerFrame (p : Process K T) (i : Input T) (buf : Bytes) (addr : Addr) (a : RecvAnswer) :
    Prop :=
  ∃ src, p.ctl = .frame src addr buf ∧ i = .round a ∧ src.ToServer p.world ∧ a.getnameinfo

/-- The step dispatches a frame in `on_client_recv`. -/
def ClientFrame (p : Process K T) (i : Input T) (c : ℕ) (buf : Bytes) (a : RecvAnswer) : Prop :=
  ∃ src addr, p.ctl = .frame src addr buf ∧ i = .round a ∧ src.ToClient p.world c

/-- The pointer to a `Kcpev` a dispatcher gets. -/
def Source.client : Source → Option ℕ
  | .serverTcpRecv c | .clientTcpRecv c | .serverUdpRecv c | .clientUdpRecv c
  | .tryKcpRecv c _ => some c
  | .serverUdpRecvAll => none

/-- The step dispatches a frame in `on_server_recv` that it passes on to the
callback of the server. -/
def DataFrame (p : Process K T) (i : Input T) (src : Source) (buf data : Bytes) : Prop :=
  ∃ addr a, p.ctl = .frame src addr buf ∧ i = .round a ∧ a.getnameinfo ∧
    src.ToServer p.world ∧ Parses buf .data data ∧
    ∀ c, src.client = some c → ∃ obj, p.world.objs c = some obj ∧ obj.hasServer = true

/-- The session after `connect_client_udp` has returned `ret`. -/
def Kcpev.begun (client : Kcpev T) (ret : ℤ) : Kcpev T :=
  { client with udp := { client.udp with
    status := if ret = 0 then .shakingHand else client.udp.status } }

variable [KcpImpl K] [ClockImpl T]

inductive Effect (p : Process K T) (i : Input T) : World K T → Prop
  | quiet {w : World K T} (hquiet : p.world.Quiet w) (hconvs : p.world.os.SameConvs w.os) :
    Effect p i w
  | data {src : Source} {buf data : Bytes} (hdata : DataFrame p i src buf data) :
    Effect p i { p.world with os := p.world.os.emit (.serverRecvCb src.client data) }
  | createClient {a : CreateClientAnswer} (hi : i = .createClient a) (hctl : p.ctl.appMayCall) :
    Effect p i (kcpevCreateClient p.world a)
  | createServer {a : CreateServerAnswer} (hi : i = .createServer a)
    (hserver : p.world.server = none) (hctl : p.ctl.appMayCall) :
    Effect p i (kcpevCreateServer p.world a)
  | serverDestroy {w : World K T} (hi : i = .serverDestroy) (hctl : p.ctl = .loop)
    (hw : p.world.kcpevServerDestroy = .ok w) : Effect p i w
  | connect {c : ℕ} {addr : Addr} {a : KcpevConnectAnswer} {obj : Kcpev T} {os : Os K T}
    {b : KcpevBase T} {ret : ℤ} (hi : i = .connect c addr a) (hobj : p.world.objs c = some obj)
    (hclient : obj.hasServer = false)
    (hconn : kcpevConnect p.world.os obj.toKcpevBase addr a = (os, b, ret))
    (hctl : p.ctl.appMayCall) :
    Effect p i (p.world.store os c { obj with toKcpevBase := b })
  | accept {q : ℕ} {a : IoAnswer} {e : EvIo} {w : World K T} (hi : i = .io q a)
    (hctl : p.ctl = .loop) (he : p.world.os.ios q = some e) (hcb : e.cb = .tcpAccept)
    (hdata : e.data = .server) (hw : tcpAccept p.world e.fd a.accept = .ok w) : Effect p i w
  | close {c : ℕ} {w : World K T} (hctl : p.ctl = .closing c)
    (hw : p.world.closeClient c = .ok w) : Effect p i w
  | connectSession {buf : Bytes} {addr : Addr} {a : RecvAnswer} {c : ℕ} {obj obj' : Kcpev T}
    {os : Os K T} {ret : ℤ} {w : World K T} (hframe : ServerFrame p i buf addr a)
    (hfind : Finds p.world buf .shakeHand1 c obj)
    (hconn : connectClientUdp p.world.os c obj addr a = (os, obj', ret))
    (hquiet : (p.world.store os c (obj'.begun ret)).Quiet w) (hconvs : os.SameConvs w.os) :
    Effect p i w
  | serverTimers {buf : Bytes} {addr : Addr} {a : RecvAnswer} {c : ℕ} {obj : Kcpev T}
    {os : Os K T} {udp : KcpevUdp T} {ret : ℤ} {w : World K T}
    (hframe : ServerFrame p i buf addr a) (hfind : Finds p.world buf .shakeHand2 c obj)
    (hstatus : obj.udp.status = .shakingHand)
    (htimer : checkCreateKcpTimer p.world.os (.kcpev c) obj.udp .onServerHeartbeatTimer
      a.evt a.evh = .ok (os, udp, ret))
    (hquiet : (p.world.store os c { obj with udp }).Quiet w) (hconvs : os.SameConvs w.os) :
    Effect p i w
  | clientTimers {buf : Bytes} {a : RecvAnswer} {c : ℕ} {obj : Kcpev T} {os os' : Os K T}
    {udp : KcpevUdp T} {ret : ℤ} {w : World K T} (hframe : ClientFrame p i c buf a)
    (hobj : p.world.objs c = some obj) (hparse : Parses buf .shakeHand2 obj.key.val)
    (hsock : obj.udp.sock ≠ 0) (hstatus : obj.udp.status = .shakingHand)
    (hsend : sockSendCommand p.world.os obj.udp.sock .shakeHand2 obj.key.val a.send = .ok (os, 0))
    (htimer : checkCreateKcpTimer os (.kcpev c) obj.udp .onClientHeartbeatTimer a.evt a.evh =
      .ok (os', udp, ret))
    (hquiet : (p.world.store os' c { obj with udp }).Quiet w)
    (hconvs : ∀ {q k'}, w.os.kcps q = some k' → ∃ k, os'.kcps q = some k ∧
      (k'.conv = k.conv ∨ udp.kcp = some q ∧ k'.conv = obj.key.conv)) : Effect p i w

section Apply
variable {p : Process K T} {i : Input T} {w' : World K T}

theorem Effect.of_calm (h : p.world.Calm w') : Effect p i w' := .quiet h.toQuiet h.convs

theorem apply_effect (hctl : p.ctl.appMayCall) (h : apply p.world i = .ok w') :
    Effect p i w' := by
  unfold apply at h
  split at h
  · cases h
    exact .createClient rfl hctl
  · cases h
    split
    · exact .of_calm (World.Calm.refl _)
    · rename_i hserver
      exact .createServer rfl (Option.not_isSome_iff_eq_none.mp hserver) hctl
  · obtain ⟨obj, hobj, h⟩ := bind_eq_ok.mp h
    cases h
    exact .quiet (World.quiet_store _ (World.kcpev_ok.mp hobj) (Os.Same.refl _) rfl rfl id)
      fun _ => rfl
  · obtain ⟨server, hserver, h⟩ := bind_eq_ok.mp h
    rw [World.kcpevServer_ok] at hserver
    cases h
    refine .of_calm (.of_objs rfl (Os.Keeps.refl _) ?_ ?_ ?_)
    · funext o
      rcases o with _ | c
      · simp [World.slots, hserver]
      · rfl
    · simp [World.hash, hserver]
    · simp [hserver]
  · obtain ⟨obj, hobj, h⟩ := bind_eq_ok.mp h
    rw [World.kcpev_ok] at hobj
    split at h
    · cases h
      exact .of_calm (World.Calm.refl _)
    · rename_i hclient
      cases h
      exact .connect rfl hobj (by simpa using hclient) rfl hctl
  · obtain ⟨obj, -, h⟩ := bind_eq_ok.mp h
    obtain ⟨⟨os, r⟩, hsend, h⟩ := bind_eq_ok.mp h
    cases h
    exact .of_calm (World.calm_os _ (kcpevSendCommand_cases hsend).1)
  · obtain ⟨obj, -, h⟩ := bind_eq_ok.mp h
    obtain ⟨⟨os, r⟩, hsend, h⟩ := bind_eq_ok.mp h
    cases h
    exact .of_calm (World.calm_os _ (keeps_sockSendCommand hsend))
  · cases h
    exact .of_calm (World.calm_os _ (Os.keeps_now _ _))
  all_goals
    cases h
    exact .of_calm (World.Calm.refl _)

end Apply

section Dispatch
variable {p : Process K T} {i : Input T} {src : Source} {addr : Addr} {buf : Bytes}
  {a : RecvAnswer} {w' : World K T} {ret : ℤ}

omit [KcpImpl K] [ClockImpl T] in
/-- What follows the change of one object, up to what is quiet. -/
theorem quiet_after {w : World K T} {os os' : Os K T} {c : ℕ} {obj obj' : Kcpev T}
    (hos : os.Same os') (hslots : obj'.toKcpevBase.slots = obj.toKcpevBase.slots)
    (hrole : obj'.role = obj.role) (hshaking : obj'.Shaking → obj.Shaking) :
    (w.store os c obj).Quiet (w.store os' c obj') := by
  have hobj : (w.store os c obj).objs c = some obj := Function.update_self ..
  have hquiet := World.quiet_store (w.store os c obj) hobj hos hslots hrole hshaking
  simpa [World.store] using hquiet

theorem onServerRecv_effect (hctl : p.ctl = .frame src addr buf) (hi : i = .round a)
    (hsrc : src.ToServer p.world)
    (hlive : ∀ c, src.client = some c → ∃ obj, p.world.objs c = some obj ∧ obj.hasServer = true)
    (h : onServerRecv p.world src.client buf addr a = .ok (w', ret)) : Effect p i w' := by
  have hframe : a.getnameinfo = true → ServerFrame p i buf addr a :=
    fun hname => ⟨src, hctl, hi, hsrc, hname⟩
  cases onServerRecv_cases h with
  | unchanged => exact .of_calm (World.Calm.refl _)
  | data hname hparse => exact .data ⟨addr, a, hctl, hi, hname, hsrc, hparse, hlive⟩
  | shakeHand1Failed hname hfind hconn =>
    exact .connectSession (hframe hname) hfind hconn (World.Quiet.refl _) fun _ => rfl
  | shakeHand1 hname hfind hconn hsend =>
    exact .connectSession (hframe hname) hfind hconn
      (quiet_after (keeps_sockSendCommand hsend).toSame rfl rfl id)
      (keeps_sockSendCommand hsend).convs
  | shakeHand2Failed hname hfind hstatus htimer =>
    exact .serverTimers (hframe hname) hfind hstatus htimer (World.Quiet.refl _) fun _ => rfl
  | shakeHand2 hname hfind hstatus htimer =>
    exact .serverTimers (hframe hname) hfind hstatus htimer
      (quiet_after (Os.Same.refl _) rfl rfl fun h => by cases h.2) fun _ => rfl
  | heartbeat1 _ _ _ hsend =>
    exact .of_calm (World.calm_os _ (keeps_kcpSendCommand hsend).1)
  | heartbeat2 _ hobj =>
    exact .of_calm (World.calm_store _ hobj (Os.Keeps.refl _) rfl rfl id)

omit [ClockImpl T] in
theorem role_of_client {client client' : Kcpev T} (h : client.hasServer = false)
    (h' : client'.hasServer = client.hasServer) : client'.role = client.role := by
  simp [Kcpev.role, h', h]

omit [KcpImpl K] [ClockImpl T] in
theorem not_shaking_of_client {client client' : Kcpev T} (h : client.hasServer = false)
    (hserver : client'.hasServer = client.hasServer) (hshaking : client'.Shaking) :
    client.Shaking := by
  rw [hserver.symm.trans hshaking.1] at h
  cases h

theorem onClientRecv_effect {c : ℕ} (hctl : p.ctl = .frame src addr buf) (hi : i = .round a)
    (hsrc : src.ToClient p.world c)
    (hclient : ∀ obj, p.world.objs c = some obj → obj.hasServer = false)
    (h : onClientRecv p.world c buf a = .ok (w', ret)) : Effect p i w' := by
  have hframe : ClientFrame p i c buf a := ⟨src, addr, hctl, hi, hsrc⟩
  cases onClientRecv_cases h with
  | unchanged => exact .of_calm (World.Calm.refl _)
  | data hparse => exact .of_calm (World.calm_emit _ _ rfl)
  | shakeHand1Unsent hparse hobj hsend =>
    exact .of_calm (World.calm_store _ hobj (keeps_sockSendCommand hsend) rfl
      (role_of_client (hclient _ hobj) rfl) (not_shaking_of_client (hclient _ hobj) rfl))
  | shakeHand1 hparse hobj hsend =>
    exact .of_calm (World.calm_store _ hobj (keeps_sockSendCommand hsend) rfl
      (role_of_client (hclient _ hobj) rfl) (not_shaking_of_client (hclient _ hobj) rfl))
  | shakeHand2Unsent hparse hobj hsock hstatus hsend =>
    exact .of_calm (World.calm_os _ (keeps_sockSendCommand hsend))
  | shakeHand2Failed hparse hobj hsock hstatus hsend htimer =>
    exact .clientTimers hframe hobj hparse hsock hstatus hsend htimer (World.Quiet.refl _)
      fun hq => ⟨_, hq, Or.inl rfl⟩
  | @shakeHand2 obj os os' udp r kcp hparse hobj hsock hstatus hsend htimer hkcp hp =>
    refine .clientTimers hframe hobj hparse hsock hstatus hsend htimer
      (quiet_after (Os.same_setKcp _ hp _) rfl rfl fun h => by cases h.2) fun {q k'} hq => ?_
    rcases eq_or_ne q r with rfl | hne
    · simp only [World.store, Os.setKcp, Function.update_self, Option.some.injEq] at hq
      exact ⟨kcp, hp, Or.inr ⟨hkcp, by rw [← hq]⟩⟩
    · simp only [World.store, Os.setKcp, Function.update_of_ne hne] at hq
      exact ⟨k', hq, Or.inl rfl⟩
  | heartbeat1Unsent hobj hsend =>
    exact .of_calm (World.calm_os _ (kcpevSendCommand_cases hsend).1)
  | heartbeat1 hobj hsend =>
    exact .of_calm (World.calm_store _ hobj (kcpevSendCommand_cases hsend).1 rfl rfl id)
  | udpInvalid hobj =>
    exact .of_calm (World.calm_store _ hobj (Os.Keeps.refl _) (slots_setKcpInvalid _) rfl
      (not_shaking_setKcpInvalid _))

end Dispatch

end KcpEv
