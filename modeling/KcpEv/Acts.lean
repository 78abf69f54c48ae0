import KcpEv.Traffic
import KcpEv.Steady

/-!
What a step does to an object and what the object puts and gives in it, in one
case for each thing an object can do. Everything that is proved about the two ends
of a connection is proved from these cases.
-/
namespace KcpEv

open Ownership

variable {K T : Type}

/-- Nothing happens on the UDP side, except that a failed `connect` closes the socket of a
client. -/
structure Kcpev.Still (obj obj' : Kcpev T) : Prop where
  hasServer : obj'.hasServer = obj.hasServer
  key : obj'.key = obj.key
  tcp : obj'.tcp.sock = obj.tcp.sock
  sock : obj'.udp.sock = obj.udp.sock ∨ obj.hasServer = false ∧ obj'.udp.sock = 0
  kcp : obj'.udp.kcp = obj.udp.kcp
  evt : obj'.udp.evt = obj.udp.evt
  status : obj'.udp.status = obj.udp.status
  heart : obj'.udp.heart = obj.udp.heart

theorem Kcpev.Still.refl (obj : Kcpev T) : obj.Still obj :=
  ⟨rfl, rfl, rfl, Or.inl rfl, rfl, rfl, rfl, rfl⟩

/-- The frame goes to `on_server_recv` with a session. -/
def Source.ToSession (c : ℕ) : Source → Prop
  | .serverTcpRecv c' | .serverUdpRecv c' | .tryKcpRecv c' _ => c' = c
  | .clientTcpRecv _ | .clientUdpRecv _ | .serverUdpRecvAll => False

structure Dispatches (p : Process K T) (i : Input T) (src : Source) (addr : Addr) (buf : Bytes)
    (a : RecvAnswer) : Prop where
  ctl : p.ctl = .frame src addr buf
  input : i = .round a

/-- The step is a tick of the heartbeat timer of an object. -/
structure Ticks (p : Process K T) (i : Input T) (c : ℕ) (cb : TimerCb) (a : TimerAnswer) :
    Prop where
  ctl : p.ctl = .loop
  input : ∃ q e, i = .timer q a ∧ p.world.os.timers q = some e ∧ e.cb = cb ∧ e.data = .kcpev c

/-- The bytes are a datagram, or the start of one, that a KCP object hands to the output
callback. -/
def Os.Emits [KcpImpl K] (os : Os K T) (buf : Bytes) : Prop :=
  ∃ q kcp now, os.kcps q = some kcp ∧
    ∃ d ∈ (KcpImpl.update kcp.conv kcp.state now).2, ∃ k, buf = d.take k

/-- The UDP side of an object when the timers have been started. -/
def KcpevUdp.started (udp : KcpevUdp T) (next : ℕ) (now : T) : KcpevUdp T :=
  { udp with evt := some next, evh := some (next + 1), heart := now }

inductive Act [KcpImpl K] [ClockImpl T] (p : Process (Logged K) T) (i : Input T) (c : ℕ)
    (obj obj' : Kcpev T) : Traffic → Prop
  | still (hstill : obj.Still obj') : Act p i c obj obj' .none
  /-- the application sends -/
  | data {t : Traffic} (hobj : obj' = obj)
    (hkcp : ∀ frame ∈ t.kcp, ∃ msg, Frame .data msg frame)
    (htcp : ∀ buf ∈ t.tcp, ∃ msg frame k, Frame .data msg frame ∧ buf = frame.take k)
    (hudp : t.udp = []) : Act p i c obj obj' t
  /-- the KCP timer outputs datagrams -/
  | segments {bufs : List Bytes} (hctl : p.ctl = .loop) (hobj : obj' = obj)
    (hbufs : ∀ buf ∈ bufs, p.world.os.Emits buf) : Act p i c obj obj' ⟨[], [], bufs⟩
  /-- the client sends a heartbeat -/
  | ask {a : TimerAnswer} {frame : Bytes} (htick : Ticks p i c .onClientHeartbeatTimer a)
    (hvalid : obj.udp.isKcpValid) (hearly : ClockImpl.late p.world.os.now obj.udp.heart = false)
    (hframe : Frame .heartbeat1 obj.key.val frame) (hobj : obj' = obj) :
    Act p i c obj obj' ⟨[frame], [], []⟩
  /-- the client has waited too long -/
  | clientLate {a : TimerAnswer} (htick : Ticks p i c .onClientHeartbeatTimer a)
    (hvalid : obj.udp.isKcpValid) (hlate : ClockImpl.late p.world.os.now obj.udp.heart = true)
    (hobj : obj' = { obj with udp := obj.udp.setKcpInvalid }) : Act p i c obj obj' .none
  /-- the server has waited too long -/
  | serverLate {a : TimerAnswer} {ret : ℤ} {os : Os (Logged K) T} {bufs : List Bytes}
    (htick : Ticks p i c .onServerHeartbeatTimer a)
    (hvalid : obj.udp.isKcpValid) (hlate : ClockImpl.late p.world.os.now obj.udp.heart = true)
    (hsend : sockSendCommand p.world.os obj.tcp.sock .udpInvalid obj.key.val a.send =
      .ok (os, ret))
    (hparts : Parts .udpInvalid obj.key.val ret bufs)
    (hobj : obj' = { obj with udp := obj.udp.setKcpInvalid }) :
    Act p i c obj obj' ⟨[], if obj.tcp.sock = 0 then [] else bufs, []⟩
  /-- the server answers a heartbeat -/
  | reply {src : Source} {addr : Addr} {buf frame : Bytes} {a : RecvAnswer}
    (hframe : Dispatches p i src addr buf a) (hsrc : src.ToSession c)
    (hserver : obj.hasServer = true) (hvalid : obj.udp.isKcpValid)
    (hparse : Parses buf .heartbeat1 obj.key.val)
    (hreply : Frame .heartbeat1 (obj.key.val ++ htobe64 (ClockImpl.bits obj.udp.heart)) frame)
    (hobj : obj' = obj) : Act p i c obj obj' ⟨[frame], [], []⟩
  /-- the server takes the answer to its answer -/
  | refresh {src : Source} {addr : Addr} {buf data : Bytes} {a : RecvAnswer}
    (hframe : Dispatches p i src addr buf a) (hsrc : src.ToSession c)
    (hserver : obj.hasServer = true) (hvalid : obj.udp.isKcpValid)
    (hparse : Parses buf .heartbeat2 data) (hlen : data.length = heartbeatSize)
    (hkey : data.take 16 = obj.key.val)
    (htoken : be64toh (data.drop 16) = ClockImpl.bits obj.udp.heart)
    (hobj : obj' = { obj with udp := { obj.udp with heart := p.world.os.now } }) :
    Act p i c obj obj' .none
  /-- the client answers the server -/
  | echo {src : Source} {addr : Addr} {buf data frame : Bytes} {a : RecvAnswer}
    (hframe : Dispatches p i src addr buf a) (hsrc : src.ToClient p.world c)
    (hvalid : obj.udp.isKcpValid) (hparse : Parses buf .heartbeat1 data)
    (hlen : data.length = heartbeatSize) (hkey : data.take 16 = obj.key.val)
    (hecho : Frame .heartbeat2 data frame)
    (hobj : obj' = { obj with udp := { obj.udp with heart := p.world.os.now } }) :
    Act p i c obj obj' ⟨[frame], [], []⟩
  /-- the client is told that the server has waited too long -/
  | told {src : Source} {addr : Addr} {buf : Bytes} {a : RecvAnswer}
    (hframe : Dispatches p i src addr buf a) (hsrc : src.ToClient p.world c)
    (hvalid : obj.udp.isKcpValid) (hparse : Parses buf .udpInvalid obj.key.val)
    (hobj : obj' = { obj with udp := obj.udp.setKcpInvalid }) : Act p i c obj obj' .none
  /-- the client gets its key -/
  | keyed {src : Source} {addr : Addr} {buf : Bytes} {key : KcpevKey} {a : RecvAnswer} {ret : ℤ}
    {bufs : List Bytes} (hframe : Dispatches p i src addr buf a) (hsrc : src.ToClient p.world c)
    (hparse : Parses buf .shakeHand1 key.val) (hsock : obj.udp.sock ≠ 0)
    (hparts : Parts .shakeHand1 key.val ret bufs)
    (hobj : obj' = { obj with
      key, udp := if ret = 0 then { obj.udp with status := .shakingHand } else obj.udp }) :
    Act p i c obj obj' ⟨[], [], bufs⟩
  /-- the client answers the second message, without getting ready -/
  | confirm {src : Source} {addr : Addr} {buf : Bytes} {a : RecvAnswer} {ret : ℤ}
    {bufs : List Bytes} (hframe : Dispatches p i src addr buf a) (hsrc : src.ToClient p.world c)
    (hparse : Parses buf .shakeHand2 obj.key.val) (hstatus : obj.udp.status = .shakingHand)
    (hparts : Parts .shakeHand2 obj.key.val ret bufs) (hstill : obj.Still obj')
    (hfailed : ret ≠ 0 ∨ obj.udp.evt.isSome ∨ a.evh = false) : Act p i c obj obj' ⟨[], [], bufs⟩
  /-- the client gets ready -/
  | ready {src : Source} {addr : Addr} {buf frame : Bytes} {a : RecvAnswer} {next : ℕ}
    (hframe : Dispatches p i src addr buf a) (hsrc : src.ToClient p.world c)
    (hparse : Parses buf .shakeHand2 obj.key.val) (hsock : obj.udp.sock ≠ 0)
    (hstatus : obj.udp.status = .shakingHand) (hevt : obj.udp.evt = none)
    (hsent : Frame .shakeHand2 obj.key.val frame)
    (hobj : obj' = { obj with
      udp := { obj.udp.started next p.world.os.now with status := .ready } }) :
    Act p i c obj obj' ⟨[], [], [frame]⟩
  /-- the session loses its UDP side -/
  | cleared {src : Source} {addr : Addr} {buf : Bytes} {a : RecvAnswer}
    {os : Os (Logged K) T} {client : Kcpev T} (hframe : Dispatches p i src addr buf a)
    (hsrc : src.ToServer p.world) (hname : a.getnameinfo)
    (hfind : Finds p.world buf .shakeHand1 c obj)
    (hfailed : connectClientUdp p.world.os c obj addr a = (os, client, -1))
    (hobj : obj' = { obj with udp := obj.udp.cleared }) : Act p i c obj obj' .none
  /-- the session gets a UDP socket -/
  | connected {src : Source} {addr : Addr} {buf : Bytes} {a : RecvAnswer}
    {os : Os (Logged K) T} {client : Kcpev T} {ret : ℤ} {bufs : List Bytes}
    (hframe : Dispatches p i src addr buf a) (hsrc : src.ToServer p.world)
    (hfind : Finds p.world buf .shakeHand1 c obj)
    (hconn : Connected p.world.os c obj addr a os client)
    (hparts : Parts .shakeHand2 obj.key.val ret bufs)
    (hobj : obj' = { client with udp := { client.udp with status := .shakingHand } }) :
    Act p i c obj obj' ⟨[], [], bufs⟩
  /-- the session gets ready -/
  | started {src : Source} {addr : Addr} {buf : Bytes} {a : RecvAnswer} {next : ℕ}
    (hframe : Dispatches p i src addr buf a) (hsrc : src.ToServer p.world)
    (hfind : Finds p.world buf .shakeHand2 c obj) (hstatus : obj.udp.status = .shakingHand)
    (hevt : obj.udp.evt = none)
    (hobj : obj' = { obj with
      udp := { obj.udp.started next p.world.os.now with status := .ready } }) :
    Act p i c obj obj' .none

section Act
variable [KcpImpl K] [ClockImpl T] {p : Process (Logged K) T} {i : Input T} {c d : ℕ}
  {obj obj' client client' : Kcpev T} {w' : World (Logged K) T} {os : Os (Logged K) T}

theorem Act.mute (hobj : obj.Still obj') (h : p.world.os.Mute w'.os) :
    Act p i c obj obj' (p.world.traffic w' c) := by
  rw [World.traffic_mute h]
  exact .still hobj

theorem Act.of_store (hsep : (p.world.store os d client').Separate)
    (hclient : p.world.objs d = some client) (honly : p.world.os.Only os client'.toKcpevBase)
    (hobj : p.world.objs c = some obj) (hobj' : (p.world.store os d client').objs c = some obj')
    (hself : Act p i d client client' (p.world.traffic (p.world.store os d client') d)) :
    Act p i c obj obj' (p.world.traffic (p.world.store os d client') c) := by
  have hstored : (p.world.store os d client').objs d = some client' := by simp [World.store]
  rcases eq_or_ne c d with heq | hne
  · subst heq
    rw [hclient, Option.some.injEq] at hobj
    rw [hstored, Option.some.injEq] at hobj'
    rw [← hobj, ← hobj']
    exact hself
  · rw [World.traffic_other hsep hobj' hstored hne honly]
    simp only [World.store, Function.update_of_ne hne] at hobj'
    rw [hobj, Option.some.injEq] at hobj'
    rw [← hobj']
    exact .still (.refl obj)

theorem Act.of_store_mute (hsep : (p.world.store os d client').Separate)
    (hclient : p.world.objs d = some client) (hmute : p.world.os.Mute os)
    (hobj : p.world.objs c = some obj) (hobj' : (p.world.store os d client').objs c = some obj')
    (hself : Act p i d client client' .none) :
    Act p i c obj obj' (p.world.traffic (p.world.store os d client') c) := by
  refine .of_store hsep hclient (hmute.only _) hobj hobj' ?_
  have htraffic : p.world.traffic (p.world.store os d client') d = .none :=
    World.traffic_mute hmute
  rw [htraffic]
  exact hself

theorem Act.of_os (hsep : ({ p.world with os } : World (Logged K) T).Separate)
    (hclient : p.world.objs d = some client) (honly : p.world.os.Only os client.toKcpevBase)
    (hobj : p.world.objs c = some obj) (hobj' : p.world.objs c = some obj')
    (hself : Act p i d client client (p.world.traffic { p.world with os } d)) :
    Act p i c obj obj' (p.world.traffic { p.world with os } c) := by
  obtain rfl : obj = obj' := by
    rw [hobj] at hobj'
    exact Option.some.inj hobj'
  rcases eq_or_ne c d with heq | hne
  · subst heq
    rw [hclient, Option.some.injEq] at hobj
    rw [← hobj]
    exact hself
  · rw [World.traffic_other hsep hobj hclient hne honly]
    exact .still (.refl obj)

theorem Act.of_still (hmute : p.world.os.Mute w'.os)
    (hold : ∀ {obj'}, w'.objs c = some obj' → ∃ obj, p.world.objs c = some obj ∧ obj.Still obj')
    (hobj : p.world.objs c = some obj) (hobj' : w'.objs c = some obj') :
    Act p i c obj obj' (p.world.traffic w' c) := by
  obtain ⟨obj₀, hobj₀, hstill⟩ := hold hobj'
  rw [hobj, Option.some.injEq] at hobj₀
  rw [hobj₀]
  exact .mute hstill hmute

/-- The frame is that of the object, whatever the object does with it. -/
theorem Act.of_objs (hmute : p.world.os.Mute w'.os)
    (hobjs : ∀ {obj'}, w'.objs c = some obj' → p.world.objs c = some obj')
    (hobj : p.world.objs c = some obj) (hobj' : w'.objs c = some obj') :
    Act p i c obj obj' (p.world.traffic w' c) :=
  .of_still hmute (fun h => ⟨_, hobjs h, .refl _⟩) hobj hobj'

theorem Act.unchanged {ret ret' : ℤ} (h : (.ok (p.world, ret') : Exec _) = .ok (w', ret))
    (hobj : p.world.objs c = some obj) (hobj' : w'.objs c = some obj') :
    Act p i c obj obj' (p.world.traffic w' c) := by
  cases h
  exact .of_objs (.refl _) id hobj hobj'

end Act

/-! Starting the timers. -/

/-- The timers were not started: nothing is left of them that counts. -/
theorem still_timers {os os' : Os K T} {o : Owner} {obj : Kcpev T} {udp : KcpevUdp T}
    {hcb : TimerCb}
    {evt evh : Bool}
    (h : checkCreateKcpTimer os o obj.udp hcb evt evh = .ok (os', udp, -1)) :
    obj.Still { obj with udp } ∧ (obj.udp.evt.isSome ∨ evh = false) := by
  rcases checkCreateKcpTimer_cases h with ⟨-, hevt, -, rfl⟩ | ⟨-, hevt, -, hevh, -, rfl⟩ | ⟨hret, -⟩
  · exact ⟨.refl obj, Or.inl hevt⟩
  · exact ⟨⟨rfl, rfl, rfl, Or.inl rfl, rfl, hevt.symm, rfl, rfl⟩, Or.inr hevh⟩
  · cases hret

theorem started_timers {os os' : Os K T} {o : Owner} {udp udp' : KcpevUdp T} {hcb : TimerCb}
    {evt evh : Bool} (h : checkCreateKcpTimer os o udp hcb evt evh = .ok (os', udp', 0)) :
    udp.evt = none ∧ udp' = udp.started os.next os.now := by
  rcases checkCreateKcpTimer_cases h with ⟨hret, -⟩ | ⟨hret, -⟩ | ⟨-, hevt, -, -, -, rfl⟩
  · cases hret
  · cases hret
  · exact ⟨hevt, rfl⟩

/-! Frames for the server. -/

section Server
variable [KcpImpl K] [ClockImpl T] {p : Process (Logged K) T} {i : Input T} {c d : ℕ}
  {obj obj' : Kcpev T} {w' : World (Logged K) T} {src : Source} {addr : Addr} {buf data : Bytes}
  {a : RecvAnswer} {ret : ℤ} {client : Option ℕ}

/-- Where a frame for the server comes from, and for which session it is. -/
structure ServesSession (p : Process K T) (src : Source) (client : Option ℕ) : Prop where
  toServer : src.ToServer p.world
  session : ∀ {d}, client = some d → src.ToSession d
  live : ∀ {d client'}, client = some d → p.world.objs d = some client' →
    client'.hasServer = true

theorem serverHeartbeat1_act (hframe : Dispatches p i src addr buf a)
    (hserves : ServesSession p src client) (hparse : Parses buf .heartbeat1 data)
    (h : serverHeartbeat1 p.world client data a = .ok (w', ret)) (hsep : w'.Separate)
    (hobj : p.world.objs c = some obj) (hobj' : w'.objs c = some obj') :
    Act p i c obj obj' (p.world.traffic w' c) := by
  unfold serverHeartbeat1 at h
  split at h
  · exact .unchanged h hobj hobj'
  rename_i d
  obtain ⟨client, hclient, h⟩ := bind_eq_ok.mp h
  rw [World.kcpev_ok] at hclient
  split at h
  · exact .unchanged h hobj hobj'
  rename_i hvalid
  rw [not_not] at hvalid
  split at h
  · exact .unchanged h hobj hobj'
  split at h
  · exact .unchanged h hobj hobj'
  rename_i hkey
  rw [ne_eq, not_not] at hkey
  obtain ⟨⟨os, r⟩, hsend, h⟩ := bind_eq_ok.mp h
  cases h
  rcases kcpSendCommand_valid hvalid hsend with ⟨rfl, -⟩ | ⟨q, frame, hq, hreply, hgiven⟩
  · exact .of_objs (.refl _) id hobj hobj'
  have honly : p.world.os.Only os client.toKcpevBase := by
    obtain ⟨k, -, rfl, -⟩ := ikcpSend_cases hgiven
    exact Os.only_setKcp _ _ hq
  refine .of_os hsep hclient honly hobj hobj' ?_
  have htraffic : p.world.traffic { p.world with os } d =
      ⟨if r = 0 then [frame] else [], [], []⟩ := World.traffic_kcp hclient hgiven hq
  rw [htraffic]
  by_cases hr : r = 0
  · rw [if_pos hr]
    rw [hkey] at hparse
    exact .reply hframe (hserves.session rfl) (hserves.live rfl hclient) hvalid hparse hreply rfl
  · rw [if_neg hr]
    exact .still (.refl client)

theorem serverHeartbeat2_act (hframe : Dispatches p i src addr buf a)
    (hserves : ServesSession p src client) (hparse : Parses buf .heartbeat2 data)
    (h : serverHeartbeat2 p.world client data = .ok (w', ret)) (hsep : w'.Separate)
    (hobj : p.world.objs c = some obj) (hobj' : w'.objs c = some obj') :
    Act p i c obj obj' (p.world.traffic w' c) := by
  unfold serverHeartbeat2 at h
  split at h
  · exact .unchanged h hobj hobj'
  rename_i d
  obtain ⟨client, hclient, h⟩ := bind_eq_ok.mp h
  rw [World.kcpev_ok] at hclient
  split at h
  · exact .unchanged h hobj hobj'
  rename_i hvalid
  rw [not_not] at hvalid
  split at h
  · exact .unchanged h hobj hobj'
  rename_i hlen
  rw [ne_eq, not_not] at hlen
  split at h
  · exact .unchanged h hobj hobj'
  rename_i hkey
  rw [ne_eq, not_not] at hkey
  split at h
  · exact .unchanged h hobj hobj'
  rename_i htoken
  rw [ne_eq, not_not] at htoken
  cases h
  refine .of_store_mute hsep hclient (.refl _) hobj hobj' ?_
  exact .refresh hframe (hserves.session rfl) (hserves.live rfl hclient) hvalid hparse hlen hkey
    htoken rfl

theorem serverShakeHand1_act (hframe : Dispatches p i src addr buf a)
    (hserves : ServesSession p src client) (hname : a.getnameinfo)
    (hparse : Parses buf .shakeHand1 data)
    (h : serverShakeHand1 p.world data addr a = .ok (w', ret)) (hsep : w'.Separate)
    (hobj : p.world.objs c = some obj) (hobj' : w'.objs c = some obj') :
    Act p i c obj obj' (p.world.traffic w' c) := by
  have hcases : ServerRecv p.world none buf addr a w' ret :=
    serverShakeHand1_cases hname hparse h
  cases hcases with
  | unchanged => exact .of_objs (.refl _) id hobj hobj'
  | data _ hdata =>
    have hcommand := (hdata.unique hparse).1
    cases hcommand
  | @shakeHand1Failed d client client' os hname hfind hconn =>
    have hmute := mute.connectClientUdp hconn
    obtain ⟨server, key, hkey, hserver, hhash, hclient⟩ := hfind
    refine .of_store_mute hsep hclient hmute hobj hobj' ?_
    rcases connectClientUdp_cases hconn with ⟨-, hclear⟩ | ⟨hret, -⟩
    · exact .cleared hframe hserves.toServer hname ⟨server, key, hkey, hserver, hhash, hclient⟩
        hconn hclear
    · cases hret
  | @shakeHand1 d client client' os os' r hname hfind hconn hsend =>
    have hmute := mute.connectClientUdp hconn
    obtain ⟨server, key, hkey, hserver, hhash, hclient⟩ := hfind
    rcases connectClientUdp_cases hconn with ⟨hret, -⟩ | ⟨-, hconnected⟩
    · cases hret
    obtain ⟨bufs, hputs, hparts⟩ := sockSendCommand_puts hsend
    have hall : p.world.os.Puts os' client'.udp.sock bufs := .after hmute hputs
    have honly : p.world.os.Only os'
        { client' with udp := { client'.udp with status := .shakingHand } }.toKcpevBase :=
      hall.only (Or.inr rfl)
    refine .of_store hsep hclient honly hobj hobj' ?_
    have hstored : (p.world.store os' d
        { client' with udp := { client'.udp with status := .shakingHand } }).objs d =
        some { client' with udp := { client'.udp with status := .shakingHand } } := by
      simp [World.store]
    rw [World.traffic_udp hstored hsep hall rfl, if_neg hconnected.sock]
    have hsame : client'.key = client.key := by rw [hconnected.fields]
    rw [hsame] at hparts
    exact .connected hframe hserves.toServer ⟨server, key, hkey, hserver, hhash, hclient⟩ hconnected
      hparts rfl
  | shakeHand2Failed _ hfind =>
    obtain ⟨server, key, hkey, -⟩ := hfind
    have hcommand := (hkey.unique hparse).1
    cases hcommand
  | shakeHand2 _ hfind =>
    obtain ⟨server, key, hkey, -⟩ := hfind
    have hcommand := (hkey.unique hparse).1
    cases hcommand
  | heartbeat1 _ hnone => cases hnone
  | heartbeat2 hnone => cases hnone

theorem serverShakeHand2_act (hframe : Dispatches p i src addr buf a)
    (hserves : ServesSession p src client) (hname : a.getnameinfo)
    (hparse : Parses buf .shakeHand2 data)
    (h : serverShakeHand2 p.world data a = .ok (w', ret)) (hsep : w'.Separate)
    (hobj : p.world.objs c = some obj) (hobj' : w'.objs c = some obj') :
    Act p i c obj obj' (p.world.traffic w' c) := by
  have hcases : ServerRecv p.world none buf addr a w' ret :=
    serverShakeHand2_cases hname hparse h
  cases hcases with
  | unchanged => exact .of_objs (.refl _) id hobj hobj'
  | data _ hdata =>
    have hcommand := (hdata.unique hparse).1
    cases hcommand
  | shakeHand1Failed _ hfind =>
    obtain ⟨server, key, hkey, -⟩ := hfind
    have hcommand := (hkey.unique hparse).1
    cases hcommand
  | shakeHand1 _ hfind =>
    obtain ⟨server, key, hkey, -⟩ := hfind
    have hcommand := (hkey.unique hparse).1
    cases hcommand
  | @shakeHand2Failed d client os udp _ hfind hstatus htimer =>
    have hmute := mute_timers htimer
    obtain ⟨server, key, hkey, hserver, hhash, hclient⟩ := hfind
    refine .of_store_mute hsep hclient hmute hobj hobj' ?_
    exact .still (still_timers htimer).1
  | @shakeHand2 d client os udp _ hfind hstatus htimer =>
    have hmute := mute_timers htimer
    obtain ⟨server, key, hkey, hserver, hhash, hclient⟩ := hfind
    refine .of_store_mute hsep hclient hmute hobj hobj' ?_
    obtain ⟨hevt, rfl⟩ := started_timers htimer
    exact .started hframe hserves.toServer ⟨server, key, hkey, hserver, hhash, hclient⟩
      hstatus hevt rfl
  | heartbeat1 _ hnone => cases hnone
  | heartbeat2 hnone => cases hnone

theorem onServerRecv_act (hframe : Dispatches p i src addr buf a)
    (hserves : ServesSession p src client)
    (h : onServerRecv p.world client buf addr a = .ok (w', ret)) (hsep : w'.Separate)
    (hobj : p.world.objs c = some obj) (hobj' : w'.objs c = some obj') :
    Act p i c obj obj' (p.world.traffic w' c) := by
  unfold onServerRecv at h
  split at h
  · exact .unchanged h hobj hobj'
  rename_i byte data hparse
  split at h
  · exact .unchanged h hobj hobj'
  rename_i hname
  rw [not_not] at hname
  split at h
  · obtain ⟨server, -, h⟩ := bind_eq_ok.mp h
    split at h
    · cases h
    · cases h
      exact .of_objs (.emit _ fun _ => rfl) id hobj hobj'
  · exact serverShakeHand1_act hframe hserves hname
      (parses_of_ofByte hparse (by assumption)) h hsep hobj hobj'
  · exact serverShakeHand2_act hframe hserves hname
      (parses_of_ofByte hparse (by assumption)) h hsep hobj hobj'
  · exact serverHeartbeat1_act hframe hserves (parses_of_ofByte hparse (by assumption)) h hsep
      hobj hobj'
  · exact serverHeartbeat2_act hframe hserves (parses_of_ofByte hparse (by assumption)) h hsep
      hobj hobj'
  · exact .unchanged h hobj hobj'
  · exact .unchanged h hobj hobj'

end Server

/-! Frames for a client. -/

section Client
variable [KcpImpl K] [ClockImpl T] {p : Process (Logged K) T} {i : Input T} {c d : ℕ}
  {obj obj' client : Kcpev T} {w' : World (Logged K) T} {src : Source} {addr : Addr}
  {buf data : Bytes} {a : RecvAnswer} {ret : ℤ}

theorem clientHeartbeat1_act (hframe : Dispatches p i src addr buf a)
    (hsrc : src.ToClient p.world d) (hclient : p.world.objs d = some client)
    (hparse : Parses buf .heartbeat1 data)
    (h : clientHeartbeat1 p.world d client data a = .ok (w', ret)) (hsep : w'.Separate)
    (hobj : p.world.objs c = some obj) (hobj' : w'.objs c = some obj') :
    Act p i c obj obj' (p.world.traffic w' c) := by
  unfold clientHeartbeat1 at h
  split at h
  · exact .unchanged h hobj hobj'
  rename_i hvalid
  rw [not_not] at hvalid
  split at h
  · exact .unchanged h hobj hobj'
  rename_i hlen
  rw [ne_eq, not_not] at hlen
  split at h
  · exact .unchanged h hobj hobj'
  split at h
  · exact .unchanged h hobj hobj'
  rename_i hkey
  rw [ne_eq, not_not] at hkey
  obtain ⟨⟨os, r⟩, hsend, h⟩ := bind_eq_ok.mp h
  rw [kcpevSendCommand_kcp p.world.os hvalid] at hsend
  have hnow : os.now = p.world.os.now := by
    rcases kcpSendCommand_valid hvalid hsend with ⟨rfl, -⟩ | ⟨q, frame, -, -, hgiven⟩
    · rfl
    · obtain ⟨k, -, rfl, -⟩ := ikcpSend_cases hgiven
      rfl
  by_cases hr : r = 0
  · subst hr
    cases h
    rcases kcpSendCommand_valid hvalid hsend with ⟨-, hret⟩ | ⟨q, frame, hq, hecho, hgiven⟩
    · cases hret
    have honly : p.world.os.Only os
        { client with udp := { client.udp with heart := os.now } }.toKcpevBase := by
      obtain ⟨k, -, rfl, -⟩ := ikcpSend_cases hgiven
      exact Os.only_setKcp _ _ hq
    refine .of_store hsep hclient honly hobj hobj' ?_
    have hstored :
      (p.world.store os d { client with udp := { client.udp with heart := os.now } }).objs
        d = some { client with udp := { client.udp with heart := os.now } } := by
      simp [World.store]
    rw [World.traffic_kcp hstored hgiven hq, if_pos rfl]
    exact .echo hframe hsrc hvalid hparse hlen hkey hecho (by rw [hnow])
  · simp only [ne_eq, hr, not_false_eq_true, if_true] at h
    cases h
    rcases kcpSendCommand_valid hvalid hsend with ⟨rfl, -⟩ | ⟨q, frame, hq, -, hgiven⟩
    · exact .of_objs (.refl _) id hobj hobj'
    have honly : p.world.os.Only os client.toKcpevBase := by
      obtain ⟨k, -, rfl, -⟩ := ikcpSend_cases hgiven
      exact Os.only_setKcp _ _ hq
    refine .of_os hsep hclient honly hobj hobj' ?_
    have htraffic : p.world.traffic { p.world with os } d =
        ⟨if r = 0 then [frame] else [], [], []⟩ := World.traffic_kcp hclient hgiven hq
    rw [htraffic, if_neg hr]
    exact .still (.refl client)

theorem clientUdpInvalid_act (hframe : Dispatches p i src addr buf a)
    (hsrc : src.ToClient p.world d) (hclient : p.world.objs d = some client)
    (hparse : Parses buf .udpInvalid data)
    (h : clientUdpInvalid p.world d client data = .ok (w', ret)) (hsep : w'.Separate)
    (hobj : p.world.objs c = some obj) (hobj' : w'.objs c = some obj') :
    Act p i c obj obj' (p.world.traffic w' c) := by
  unfold clientUdpInvalid at h
  split at h
  · exact .unchanged h hobj hobj'
  rename_i hvalid
  rw [not_not] at hvalid
  split at h
  · exact .unchanged h hobj hobj'
  split at h
  · exact .unchanged h hobj hobj'
  rename_i hkey
  rw [ne_eq, not_not] at hkey
  cases h
  rw [hkey] at hparse
  refine .of_store_mute hsep hclient (.refl _) hobj hobj' ?_
  exact .told hframe hsrc hvalid hparse rfl

theorem clientShakeHand1_act (hframe : Dispatches p i src addr buf a)
    (hsrc : src.ToClient p.world d) (hclient : p.world.objs d = some client)
    (hparse : Parses buf .shakeHand1 data)
    (h : clientShakeHand1 p.world d client data a = .ok (w', ret)) (hsep : w'.Separate)
    (hobj : p.world.objs c = some obj) (hobj' : w'.objs c = some obj') :
    Act p i c obj obj' (p.world.traffic w' c) := by
  unfold clientShakeHand1 at h
  split at h
  · exact .unchanged h hobj hobj'
  rename_i hsock
  split at h
  · exact .unchanged h hobj hobj'
  rename_i key hkey
  rw [KcpevKey.ofBytes_eq_some hkey] at hparse h
  obtain ⟨⟨os, r⟩, hsend, h⟩ := bind_eq_ok.mp h
  obtain ⟨bufs, hputs, hparts⟩ := sockSendCommand_puts hsend
  have stored : ∀ {obj₂ : Kcpev T}, w' = p.world.store os d obj₂ →
      obj₂ = { client with
        key, udp := if r = 0 then { client.udp with status := .shakingHand } else client.udp } →
      Act p i c obj obj' (p.world.traffic w' c) := by
    intro obj₂ hw hobj₂
    subst hw
    have hsock₂ : obj₂.udp.sock = client.udp.sock := by
      rw [hobj₂]
      dsimp only
      split <;> rfl
    have hstored : (p.world.store os d obj₂).objs d = some obj₂ := by simp [World.store]
    refine .of_store hsep hclient (hputs.only (Or.inr hsock₂.symm)) hobj hobj' ?_
    rw [World.traffic_udp hstored hsep hputs hsock₂.symm, if_neg hsock]
    exact .keyed hframe hsrc hparse hsock hparts hobj₂
  by_cases hr : r = 0
  · subst hr
    cases h
    exact stored rfl (by rw [if_pos rfl])
  · simp only [ne_eq, hr, not_false_eq_true, if_true] at h
    cases h
    exact stored rfl (by rw [if_neg hr])

theorem clientShakeHand2_act (hframe : Dispatches p i src addr buf a)
    (hsrc : src.ToClient p.world d) (hclient : p.world.objs d = some client)
    (hparse : Parses buf .shakeHand2 data)
    (h : clientShakeHand2 p.world d client data a = .ok (w', ret)) (hsep : w'.Separate)
    (hobj : p.world.objs c = some obj) (hobj' : w'.objs c = some obj') :
    Act p i c obj obj' (p.world.traffic w' c) := by
  unfold clientShakeHand2 at h
  split at h
  · exact .unchanged h hobj hobj'
  rename_i hsock
  split at h
  · exact .unchanged h hobj hobj'
  rename_i key hkey
  split at h
  · exact .unchanged h hobj hobj'
  rename_i hstatus
  rw [ne_eq, not_not] at hstatus
  split at h
  · exact .unchanged h hobj hobj'
  rename_i hmatch
  rw [ne_eq, not_not] at hmatch
  rw [KcpevKey.ofBytes_eq_some hkey, hmatch] at hparse h
  obtain ⟨⟨os, r⟩, hsend, h⟩ := bind_eq_ok.mp h
  obtain ⟨bufs, hputs, hparts⟩ := sockSendCommand_puts hsend
  by_cases hr : r = 0
  · subst hr
    obtain ⟨⟨os', udp, r'⟩, htimer, h⟩ := bind_eq_ok.mp h
    rcases checkCreateKcpTimer_ret htimer with rfl | rfl
    · cases h
      obtain ⟨hstill, hfailed⟩ := still_timers htimer
      have hall := hputs.before (mute_timers htimer)
      have hsame : udp.sock = client.udp.sock := by
        rcases checkCreateKcpTimer_cases htimer with ⟨-, -, -, rfl⟩ | ⟨-, -, -, -, -, rfl⟩ | ⟨h0, -⟩
        · rfl
        · rfl
        · cases h0
      have hstored :
        (p.world.store os' d { client with udp }).objs d = some { client with udp } := by
        simp [World.store]
      refine .of_store hsep hclient (hall.only (Or.inr hsame.symm)) hobj hobj' ?_
      rw [World.traffic_udp hstored hsep hall hsame.symm, if_neg hsock]
      exact .confirm hframe hsrc hparse hstatus hparts hstill (Or.inr hfailed)
    · simp only [lt_self_iff_false, if_false] at h
      split at h
      · cases h
      rename_i q hq
      split at h
      · cases h
      rename_i kcp hkcp
      cases h
      have hconv : os'.Mute (os'.setKcp q { kcp with conv := client.key.conv }) := .setKcp hkcp rfl
      have hall := (hputs.before (mute_timers htimer)).before hconv
      have hnow : os.now = p.world.os.now := by
        rcases sockSendCommand_cases hsend with ⟨rfl, -⟩ | ⟨frame, k, -, rfl, -⟩
        · rfl
        · rfl
      obtain ⟨hevt, rfl⟩ := started_timers htimer
      have hstored : ∀ (os₂ : Os (Logged K) T) (obj₂ : Kcpev T),
          (p.world.store os₂ d obj₂).objs d = some obj₂ := by
        intro os₂ obj₂
        simp [World.store]
      refine .of_store hsep hclient (hall.only (Or.inr rfl)) hobj hobj' ?_
      rw [World.traffic_udp (hstored _ _) hsep hall rfl, if_neg hsock]
      cases hparts with
      | unsent hret => cases hret
      | part _ _ hret => cases hret
      | whole hsent => exact .ready hframe hsrc hparse hsock hstatus hevt hsent (by rw [hnow])
  · simp only [ne_eq, hr, not_false_eq_true, if_true] at h
    cases h
    refine .of_os hsep hclient (hputs.only (Or.inr rfl)) hobj hobj' ?_
    have htraffic : p.world.traffic { p.world with os } d =
        ⟨[], [], if client.udp.sock = 0 then [] else bufs⟩ :=
      World.traffic_udp hclient hsep hputs rfl
    rw [htraffic, if_neg hsock]
    exact .confirm hframe hsrc hparse hstatus hparts (.refl client) (Or.inl hr)

theorem onClientRecv_act (hframe : Dispatches p i src addr buf a) (hsrc : src.ToClient p.world d)
    (h : onClientRecv p.world d buf a = .ok (w', ret)) (hsep : w'.Separate)
    (hobj : p.world.objs c = some obj) (hobj' : w'.objs c = some obj') :
    Act p i c obj obj' (p.world.traffic w' c) := by
  obtain ⟨client, hclient, h⟩ := bind_eq_ok.mp h
  rw [World.kcpev_ok] at hclient
  split at h
  · exact .unchanged h hobj hobj'
  rename_i byte data hparse
  split at h
  · unfold clientData at h
    split at h
    · cases h
    · cases h
      exact .of_objs (.emit _ fun _ => rfl) id hobj hobj'
  · exact clientShakeHand1_act hframe hsrc hclient (parses_of_ofByte hparse (by assumption)) h hsep
      hobj hobj'
  · exact clientShakeHand2_act hframe hsrc hclient (parses_of_ofByte hparse (by assumption)) h hsep
      hobj hobj'
  · exact clientHeartbeat1_act hframe hsrc hclient (parses_of_ofByte hparse (by assumption)) h hsep
      hobj hobj'
  · exact clientUdpInvalid_act hframe hsrc hclient (parses_of_ofByte hparse (by assumption)) h hsep
      hobj hobj'
  · exact .unchanged h hobj hobj'
  · exact .unchanged h hobj hobj'

end Client

/-! Accepting a connection. -/

/-- An object that was not there before: a client, or a session whose key was sent
on its connection. -/
inductive Birth [ClockImpl T] (obj : Kcpev T) : Traffic → Prop
  | client (hserver : obj.hasServer = false) (hstatus : obj.udp.status = .invalid)
    (hevt : obj.udp.evt = none) : Birth obj .none
  | session {frame : Bytes} (hserver : obj.hasServer = true)
    (hudp : obj.udp = (KcpevBase.zero : KcpevBase T).udp) (hsock : obj.tcp.sock ≠ 0)
    (hframe : Frame .shakeHand1 obj.key.val frame) : Birth obj ⟨[], [frame], []⟩

section Accept
variable [ClockImpl T] {w w' : World (Logged K) T} {fd : ℕ} {answer : Option AcceptAnswer}

/-- Nothing is put anywhere, or something on a new descriptor, which belongs to no
object, or to the new one. -/
inductive AcceptPuts (w w' : World (Logged K) T) : Prop
  | nothing (hmute : w.os.Mute w'.os) (hobjs : w'.objs = w.objs)
  | lost {s : ℕ} {bufs : List Bytes} (hfree : w.os.socks s = none)
    (hputs : w.os.Puts w'.os s bufs) (hobjs : w'.objs = w.objs)
  | added {c : ℕ} {obj : Kcpev T} {frame : Bytes} (hc : c = w.os.next)
    (hfree : w.os.socks obj.tcp.sock = none) (hputs : w.os.Puts w'.os obj.tcp.sock [frame])
    (hobjs : w'.objs = Function.update w.objs c (some obj))
    (hbirth : Birth obj ⟨[], [frame], []⟩)

omit [ClockImpl T] in
theorem kcpevSetEvIf_sock {K : Type} {os os' : Os K T} {o : Owner} {evs evs' : KcpevSock}
    {cb : Option IoCb} {alloc : Bool} {ret : ℤ}
    (h : kcpevSetEvIf os o evs cb alloc = (os', evs', ret)) : evs'.sock = evs.sock := by
  unfold kcpevSetEvIf kcpevSetEv at h
  split at h
  · cases h
    rfl
  split at h
  · cases h
    rfl
  split at h
  · cases h
    rfl
  · cases h
    rfl

theorem tcpAccept_puts [KcpImpl K] (h : tcpAccept w fd answer = .ok w') : AcceptPuts w w' := by
  unfold tcpAccept at h
  split at h
  · cases h
    exact .nothing (.refl _) rfl
  · cases h
    exact .nothing (.refl _) rfl
  split at h
  · cases h
    exact .nothing (.refl _) rfl
  rename_i a _ _ os s hopen
  have hmute := mute.openSock hopen
  have hfree : w.os.socks s = none ∧ os.next = w.os.next := by
    rcases w.os.openSock_cases (some a.sock) (some a.peer) with heq | ⟨s', hfree, heq⟩
    · rw [heq] at hopen
      cases hopen
    · rw [heq] at hopen
      cases hopen
      exact ⟨hfree, rfl⟩
  split at h
  · cases h
    exact .nothing hmute rfl
  rename_i hs
  split at h
  · cases h
    exact .nothing (hmute.trans (.of_eq rfl rfl)) rfl
  split at h
  · cases h
    exact .nothing (hmute.trans (.of_eq rfl rfl)) rfl
  obtain ⟨server, -, h⟩ := bind_eq_ok.mp h
  rcases hinit : kcpevInitEv { os with next := os.next + 1 } (.kcpev os.next)
    (acceptBase s : KcpevBase T) (some .serverTcpRecv) none { tcp := a.evio, udp := true } with
    ⟨os₁, b, r⟩
  have hnext : os.Mute { os with next := os.next + 1 } := .of_eq rfl rfl
  have hstarted : w.os.Mute os₁ := hmute.trans (hnext.trans (mute.initEv hinit))
  have hb : b.udp = (KcpevBase.zero : KcpevBase T).udp ∧ b.tcp.sock = s := by
    unfold kcpevInitEv at hinit
    rcases hset : kcpevSetEvIf { os with next := os.next + 1 } (.kcpev os.next)
      (acceptBase s : KcpevBase T).tcp.toKcpevSock (some .serverTcpRecv) a.evio with ⟨os₂, k, r₂⟩
    have hk := kcpevSetEvIf_sock hset
    rw [hset] at hinit
    dsimp only at hinit
    split at hinit
    · cases hinit
      exact ⟨rfl, hk⟩
    · cases hinit
      exact ⟨rfl, hk⟩
  simp only [hinit] at h
  split at h
  · cases h
    exact .nothing (hstarted.trans (mute.destroy _ _)) rfl
  obtain ⟨⟨os₂, ret⟩, hsend, h⟩ := bind_eq_ok.mp h
  obtain ⟨bufs, hputs, hparts⟩ := sockSendCommand_puts hsend
  have hall := Os.Puts.after hstarted hputs
  by_cases hret : ret = 0
  · subst hret
    cases h
    cases hparts with
    | unsent hret => cases hret
    | part _ _ hret => cases hret
    | @whole frame hframe =>
      obtain ⟨hudp, rfl⟩ := hb
      have hbirth : Birth ({ (kcpevCreate : Kcpev T) with
          toKcpevBase := b, key := a.uuid, hasServer := true }) ⟨[], [frame], []⟩ :=
        .session rfl hudp hs hframe
      refine .added hfree.2 ?_ ?_ rfl hbirth
      · exact hfree.1
      · exact hall
  · simp only [ne_eq, hret, not_false_eq_true, if_true] at h
    cases h
    exact .lost hfree.1 (hall.before (mute.destroy _ _)) rfl

omit [ClockImpl T] in
theorem World.Separate.open_sock (h : w.Separate) {c : ℕ} {obj : Kcpev T}
    (hobj : w.objs c = some obj) (side : Side)
    (hsock : (obj.toKcpevBase.slots.sock side).sock ≠ 0) :
    (w.os.socks (obj.toKcpevBase.slots.sock side).sock).isSome := by
  have href : refs Slots.sockSlot w.slots (.kcpev c, side) =
      some (obj.toKcpevBase.slots.sock side).sock := by
    rw [refs_eq_some]
    exact ⟨_, World.slots_some hobj, if_neg hsock⟩
  exact h.socks.live href

omit [ClockImpl T] in
/-- What is put on a new descriptor is no traffic of an old object. -/
theorem World.traffic_new (h : w.Separate) {c s : ℕ} {obj : Kcpev T} {bufs : List Bytes}
    (hobj : w.objs c = some obj) (hobj' : w'.objs c = some obj) (hfree : w.os.socks s = none)
    (hputs : w.os.Puts w'.os s bufs) : w.traffic w' c = .none := by
  have hput : ∀ side, w.os.put w'.os (obj.toKcpevBase.slots.sock side).sock = [] := by
    intro side
    apply Os.put_same
    intro hsock
    have hne : (obj.toKcpevBase.slots.sock side).sock ≠ s := by
      intro heq
      have hlive := h.open_sock hobj side hsock
      rw [heq, hfree] at hlive
      cases hlive
    rw [hputs.put, if_neg hne, List.append_nil]
  have htcp : w.os.put w'.os obj.tcp.sock = [] := hput .tcp
  have hudp : w.os.put w'.os obj.udp.sock = [] := hput .udp
  rw [World.traffic_some hobj', Os.given_same fun q _ => hputs.log q, htcp, hudp]
  rfl

end Accept

/-! Steps. -/

section Step
variable [KcpImpl K] [ClockImpl T] {p p' : Process (Logged K) T} {i : Input T} {c d fd : ℕ}
  {obj obj' : Kcpev T} {w' : World (Logged K) T} {src : Source} {addr : Addr} {buf : Bytes}
  {ctl : Control}

theorem dispatch_act {a : RecvAnswer} {ret : ℤ} (hframe : Dispatches p i src addr buf a)
    (h : dispatch p.world src addr buf a = .ok (w', ret)) (hsep : w'.Separate)
    (hobj : p.world.objs c = some obj) (hobj' : w'.objs c = some obj') :
    Act p i c obj obj' (p.world.traffic w' c) := by
  have session : ∀ {d : ℕ}, src.ToSession d → (∀ {o}, p.world.objs d = some o →
      o.hasServer = true → src.ToServer p.world) →
      onSessionRecv p.world d buf addr a = .ok (w', ret) →
      Act p i c obj obj' (p.world.traffic w' c) := by
    intro d hsession hserver h
    obtain ⟨client, hclient, h⟩ := bind_eq_ok.mp h
    rw [World.kcpev_ok] at hclient
    split at h
    · cases h
    rename_i hhas
    rw [not_not] at hhas
    refine onServerRecv_act hframe ⟨hserver hclient hhas, ?_, ?_⟩ h hsep hobj hobj'
    · intro e he
      rw [← Option.some.inj he]
      exact hsession
    · intro e client' he hclient'
      rw [← Option.some.inj he, hclient, Option.some.injEq] at hclient'
      rw [← hclient']
      exact hhas
  unfold dispatch at h
  split at h
  · exact session rfl (fun _ _ => trivial) h
  · exact session rfl (fun _ _ => trivial) h
  · exact onClientRecv_act hframe rfl h hsep hobj hobj'
  · exact onClientRecv_act hframe rfl h hsep hobj hobj'
  · refine onServerRecv_act hframe ⟨trivial, ?_, ?_⟩ h hsep hobj hobj'
    · intro d hd
      cases hd
    · intro d client' hd
      cases hd
  · obtain ⟨kcpev, hkcpev, h⟩ := bind_eq_ok.mp h
    rw [World.kcpev_ok] at hkcpev
    split at h
    · exact session rfl (fun ho hhas => ⟨_, ho, hhas⟩) h
    · rename_i hserver
      exact onClientRecv_act hframe ⟨rfl, kcpev, hkcpev, by simpa using hserver⟩ h hsep hobj hobj'

theorem Act.of_ring {client : Kcpev T} {rb : Option Ringbuf} {os : Os (Logged K) T}
    (hclient : p.world.objs d = some client) (hmute : p.world.os.Mute os)
    (hobj : p.world.objs c = some obj)
    (hobj' : (p.world.store os d { client with tcp := { client.tcp with rb } }).objs c =
      some obj') :
    Act p i c obj obj' (p.world.traffic
      (p.world.store os d { client with tcp := { client.tcp with rb } }) c) := by
  refine .of_still hmute ?_ hobj hobj'
  intro obj₂ hobj₂
  rcases eq_or_ne c d with heq | hne
  · subst heq
    simp only [World.store, Function.update_self, Option.some.injEq] at hobj₂
    rw [← hobj₂]
    exact ⟨client, hclient, ⟨rfl, rfl, rfl, Or.inl rfl, rfl, rfl, rfl, rfl⟩⟩
  · simp only [World.store, Function.update_of_ne hne] at hobj₂
    exact ⟨obj₂, hobj₂, .refl obj₂⟩

theorem tcpReceived_act {client : Kcpev T} {data : Bytes} {a : IoAnswer}
    (hclient : p.world.objs d = some client)
    (h : tcpReceived p.world src d client addr data a = .ok (w', ctl))
    (hobj : p.world.objs c = some obj) (hobj' : w'.objs c = some obj') :
    Act p i c obj obj' (p.world.traffic w' c) := by
  obtain ⟨⟨rb, size⟩, -, h⟩ := bind_eq_ok.mp h
  dsimp only at h
  split at h
  · cases h
    have hmute : p.world.os.Mute (p.world.os.emit (.received src
        (data.take (toInt size).toNat))) := .emit _ fun _ => rfl
    have hact : Act p i c obj obj' (p.world.traffic (p.world.store _ d
      { client with tcp := { client.tcp with rb } }) c) := .of_ring hclient hmute hobj hobj'
    exact hact
  · cases h
    exact .of_ring hclient (.refl _) hobj hobj'

theorem tcpAccept_act {answer : Option AcceptAnswer} (hp : p.world.Separate) (ht : Typed p.world)
    (h : tcpAccept p.world fd answer = .ok w') (hobj : p.world.objs c = some obj)
    (hobj' : w'.objs c = some obj') : Act p i c obj obj' (p.world.traffic w' c) := by
  have old : ∀ {s : ℕ} {bufs : List Bytes}, w'.objs c = p.world.objs c →
      p.world.os.socks s = none → p.world.os.Puts w'.os s bufs →
      Act p i c obj obj' (p.world.traffic w' c) := by
    intro s bufs hobjs hfree hputs
    obtain rfl : obj = obj' := by
      rw [hobjs, hobj] at hobj'
      exact Option.some.inj hobj'
    rw [World.traffic_new hp hobj hobj' hfree hputs]
    exact .still (.refl obj)
  cases tcpAccept_puts h with
  | nothing hmute hobjs => exact .of_objs hmute (fun hd => by rwa [hobjs] at hd) hobj hobj'
  | lost hfree hputs hobjs => exact old (by rw [hobjs]) hfree hputs
  | @added d _ _ hd hfree hputs hobjs hbirth =>
    have hne : c ≠ d := by
      intro heq
      have hnone := ht.fresh (hd.symm.trans heq.symm).le
      rw [hobj] at hnone
      cases hnone
    refine old ?_ hfree hputs
    rw [hobjs, Function.update_of_ne hne]

theorem ioEvent_act {e : EvIo} {a : IoAnswer} (hp : p.world.Separate) (ht : Typed p.world)
    (h : ioEvent p.world e a = .ok (w', ctl))
    (hobj : p.world.objs c = some obj) (hobj' : w'.objs c = some obj') :
    Act p i c obj obj' (p.world.traffic w' c) := by
  have received : ∀ {w₁ : World (Logged K) T} {src : Source} {addr : Addr} {data : Bytes},
      p.world.os.Mute w₁.os → w₁.objs = p.world.objs →
      (.ok (w₁.toFrame src addr data) : Exec _) = .ok (w', ctl) →
      Act p i c obj obj' (p.world.traffic w' c) := by
    intro w₁ src addr data hmute hobjs h
    cases h
    refine .of_objs (hmute.trans (.emit _ fun _ => rfl)) (fun hd => ?_) hobj hobj'
    rw [← hobjs]
    exact hd
  have kcp : ∀ {d : ℕ} {client : Kcpev T} {data : Bytes},
      kcpReceived p.world d client data = .ok (w', ctl) →
      Act p i c obj obj' (p.world.traffic w' c) := by
    intro d client data h
    unfold kcpReceived at h
    split at h
    · cases h
    obtain ⟨os, hin, h⟩ := bind_eq_ok.mp h
    obtain ⟨rfl, -⟩ := tryKcpRecv_steady h
    exact .of_objs (mute_ikcpInput hin) id hobj hobj'
  unfold ioEvent at h
  split at h
  · obtain ⟨w₁, haccept, h⟩ := bind_eq_ok.mp h
    cases h
    exact tcpAccept_act hp ht haccept hobj hobj'
  · unfold serverUdpRecvAll at h
    split at h
    · cases h
      exact .of_objs (.refl _) id hobj hobj'
    · exact received (.refl _) rfl h
  · obtain ⟨client, hclient, h⟩ := bind_eq_ok.mp h
    rw [World.kcpev_ok] at hclient
    split at h
    · cases h
      exact .of_objs (.refl _) id hobj hobj'
    · exact tcpReceived_act hclient h hobj hobj'
  · unfold serverUdpRecv at h
    split at h
    · cases h
      exact .of_objs (.refl _) id hobj hobj'
    obtain ⟨client, -, h⟩ := bind_eq_ok.mp h
    split at h
    · split at h
      · cases h
        exact .of_objs (.refl _) id hobj hobj'
      · exact received (.refl _) rfl h
    · exact kcp h
  · unfold clientTcpRecv at h
    split at h
    · cases h
    · obtain ⟨client, hclient, h⟩ := bind_eq_ok.mp h
      exact tcpReceived_act (World.kcpev_ok.mp hclient) h hobj hobj'
  · unfold clientUdpRecv at h
    split at h
    · cases h
      exact .of_objs (.refl _) id hobj hobj'
    obtain ⟨client, -, h⟩ := bind_eq_ok.mp h
    split at h
    · exact received (.refl _) rfl h
    · exact kcp h
  · cases h
    exact .of_objs (.refl _) id hobj hobj'

theorem kcpevTimerRepeat_puts {output : ℕ → Option ℕ} {client : Kcpev T}
    (hclient : p.world.objs d = some client)
    (h : kcpevTimerRepeat p.world d output = .ok w') :
    w'.objs = p.world.objs ∧ ∃ bufs, p.world.os.Puts w'.os client.udp.sock bufs ∧
      ∀ buf ∈ bufs, p.world.os.Emits buf := by
  obtain ⟨client', hclient', h⟩ := bind_eq_ok.mp h
  rw [World.kcpev_ok, hclient] at hclient'
  obtain rfl := Option.some.inj hclient'
  split at h
  · cases h
    exact ⟨rfl, [], .nil _ _, List.forall_mem_nil _⟩
  rename_i q hq
  split at h
  · cases h
  rename_i kcp hkcp
  dsimp only at h
  split at h
  · cases h
  rename_i evt hevt
  cases h
  refine ⟨rfl, ?_⟩
  have rearm : ∀ {os : Os (Logged K) T} {k : Ikcpcb (Logged K)} (again : ℕ), os.kcps q = some kcp →
      k.state.accepted = kcp.state.accepted → os.Mute ((os.setKcp q k).evTimerAgain evt again) :=
    fun again hlive hlog => (Os.Mute.setKcp hlive hlog).trans (mute_evTimerAgain _ _ again)
  split
  · obtain ⟨bufs, hputs, hparts⟩ := udpOutputs_puts client.udp.sock output
      (KcpImpl.update kcp.conv kcp.state (ClockImpl.ms p.world.os.now)).2 0 p.world.os
    have hlive : (udpOutputs client.udp.sock output 0 p.world.os
        (KcpImpl.update kcp.conv kcp.state (ClockImpl.ms p.world.os.now)).2).kcps q = some kcp := by
      rw [udpOutputs_kcps, hkcp]
    refine ⟨bufs, hputs.before (rearm _ hlive rfl), fun buf hbuf => ?_⟩
    exact ⟨q, kcp, _, hkcp, hparts buf hbuf⟩
  · exact ⟨[], .before (.nil _ _) (rearm _ hkcp rfl), List.forall_mem_nil _⟩

theorem timerEvent_act {q : ℕ} {e : EvTimer} {a : TimerAnswer} (hctl : p.ctl = .loop)
    (hi : i = .timer q a) (htimer : p.world.os.timers q = some e)
    (h : timerEvent p.world e a = .ok (w', ctl)) (hsep : w'.Separate)
    (hobj : p.world.objs c = some obj) (hobj' : w'.objs c = some obj') :
    Act p i c obj obj' (p.world.traffic w' c) := by
  unfold timerEvent at h
  split at h
  · rename_i d hcb hdata
    obtain ⟨w₁, hrepeat, h⟩ := bind_eq_ok.mp h
    obtain ⟨rfl, -⟩ := tryKcpRecv_steady h
    have hclient : ∃ client, p.world.objs d = some client := by
      obtain ⟨client, hclient, -⟩ := bind_eq_ok.mp hrepeat
      exact ⟨client, World.kcpev_ok.mp hclient⟩
    obtain ⟨client, hclient⟩ := hclient
    obtain ⟨hobjs, bufs, hputs, hbufs⟩ := kcpevTimerRepeat_puts hclient hrepeat
    have hclient' := hclient
    rw [← hobjs] at hclient'
    obtain rfl : obj = obj' := by
      rw [hobjs, hobj] at hobj'
      exact Option.some.inj hobj'
    rcases eq_or_ne c d with heq | hne
    · subst heq
      rw [hclient, Option.some.injEq] at hobj
      subst hobj
      rw [World.traffic_udp hobj' hsep hputs rfl]
      refine .segments hctl rfl fun buf hbuf => ?_
      split at hbuf
      · cases hbuf
      · exact hbufs buf hbuf
    · rw [World.traffic_other hsep hobj' hclient' hne (hputs.only (Or.inr rfl))]
      exact .still (.refl obj)
  · rename_i d hcb hdata
    have htick : Ticks p i d .onClientHeartbeatTimer a :=
      ⟨hctl, q, e, hi, htimer, hcb, hdata⟩
    obtain ⟨w₁, hheart, h⟩ := bind_eq_ok.mp h
    cases h
    obtain ⟨client, hclient, hheart⟩ := bind_eq_ok.mp hheart
    rw [World.kcpev_ok] at hclient
    split at hheart
    · cases hheart
      exact .of_objs (.refl _) id hobj hobj'
    rename_i hvalid
    rw [not_not] at hvalid
    split at hheart
    · rename_i hlate
      cases hheart
      refine .of_store_mute hsep hclient (.refl _) hobj hobj' ?_
      exact .clientLate htick hvalid hlate rfl
    · rename_i hearly
      obtain ⟨⟨os, r⟩, hsend, hheart⟩ := bind_eq_ok.mp hheart
      cases hheart
      rcases kcpSendCommand_valid hvalid hsend with ⟨rfl, -⟩ | ⟨q', frame, hq, hframe, hgiven⟩
      · exact .of_objs (.refl _) id hobj hobj'
      have honly : p.world.os.Only os client.toKcpevBase := by
        obtain ⟨k, -, rfl, -⟩ := ikcpSend_cases hgiven
        exact Os.only_setKcp _ _ hq
      refine .of_os hsep hclient honly hobj hobj' ?_
      have htraffic : p.world.traffic { p.world with os } d =
          ⟨if r = 0 then [frame] else [], [], []⟩ := World.traffic_kcp hclient hgiven hq
      rw [htraffic]
      by_cases hr : r = 0
      · rw [if_pos hr]
        exact .ask htick hvalid (by simpa using hearly) hframe rfl
      · rw [if_neg hr]
        exact .still (.refl client)
  · rename_i d hcb hdata
    have htick : Ticks p i d .onServerHeartbeatTimer a :=
      ⟨hctl, q, e, hi, htimer, hcb, hdata⟩
    obtain ⟨w₁, hheart, h⟩ := bind_eq_ok.mp h
    cases h
    obtain ⟨client, hclient, hheart⟩ := bind_eq_ok.mp hheart
    rw [World.kcpev_ok] at hclient
    split at hheart
    · cases hheart
      exact .of_objs (.refl _) id hobj hobj'
    rename_i hvalid
    rw [not_not] at hvalid
    split at hheart
    · rename_i hlate
      obtain ⟨⟨os, r⟩, hsend, hheart⟩ := bind_eq_ok.mp hheart
      cases hheart
      obtain ⟨bufs, hputs, hparts⟩ := sockSendCommand_puts hsend
      have hstored : (p.world.store os d { client with udp := client.udp.setKcpInvalid }).objs d =
          some { client with udp := client.udp.setKcpInvalid } := by
        simp [World.store]
      refine .of_store hsep hclient (hputs.only (Or.inl rfl)) hobj hobj' ?_
      rw [World.traffic_tcp hstored hsep hputs rfl]
      exact .serverLate htick hvalid hlate hsend hparts rfl
    · cases hheart
      exact .of_objs (.refl _) id hobj hobj'
  · cases h
    exact .of_objs (.refl _) id hobj hobj'

omit [KcpImpl K] [ClockImpl T] in
theorem kcpevConnect_still {K : Type} {os os' : Os K T} {client : Kcpev T} {b : KcpevBase T}
    {addr : Addr} {a : KcpevConnectAnswer} {ret : ℤ} (hclient : client.hasServer = false)
    (h : kcpevConnect os client.toKcpevBase addr a = (os', b, ret)) :
    client.Still { client with toKcpevBase := b } := by
  unfold kcpevConnect at h
  split at h
  split at h
  · cases h
    exact .refl client
  rcases hudp : kcpevConnectSocket _ client.udp.toKcpevSock addr a.udp with ⟨os₂, r₂⟩
  rw [hudp] at h
  dsimp only at h
  split at h
  · have hclosed : (closeSock os₂ client.udp.toKcpevSock).2.sock = 0 := by rw [closeSock_snd]
    cases h
    exact ⟨rfl, rfl, rfl, Or.inr ⟨hclient, hclosed⟩, rfl, rfl, rfl, rfl⟩
  · cases h
    exact .refl client

theorem Act.of_tcpData {client : Kcpev T} {os : Os (Logged K) T} {msg : Bytes} {ret : ℤ}
    {bufs : List Bytes} (hclient : p.world.objs d = some client)
    (hputs : p.world.os.Puts os client.tcp.sock bufs) (hparts : Parts .data msg ret bufs)
    (hsep : ({ p.world with os } : World (Logged K) T).Separate)
    (hobj : p.world.objs c = some obj) (hobj' : p.world.objs c = some obj') :
    Act p i c obj obj' (p.world.traffic { p.world with os } c) := by
  refine .of_os hsep hclient (hputs.only (Or.inl rfl)) hobj hobj' ?_
  have htraffic : p.world.traffic { p.world with os } d =
      ⟨[], if client.tcp.sock = 0 then [] else bufs, []⟩ :=
    World.traffic_tcp hclient hsep hputs rfl
  rw [htraffic]
  refine .data rfl (fun frame hmem => absurd hmem List.not_mem_nil) (fun buf hmem => ?_) rfl
  have hbuf : buf ∈ bufs := by
    split at hmem
    · cases hmem
    · exact hmem
  cases hparts with
  | unsent => cases hbuf
  | part hframe => exact ⟨msg, _, _, hframe, List.mem_singleton.mp hbuf⟩
  | @whole frame hframe =>
    refine ⟨msg, frame, frame.length, hframe, ?_⟩
    rw [List.take_length]
    exact List.mem_singleton.mp hbuf

theorem Act.of_kcpData {client : Kcpev T} {os : Os (Logged K) T} {msg frame : Bytes} {ret : ℤ}
    {q : ℕ} (hclient : p.world.objs d = some client) (hq : client.udp.kcp = some q)
    (hframe : Frame .data msg frame) (hgiven : ikcpSend p.world.os q frame = .ok (os, ret))
    (hsep : ({ p.world with os } : World (Logged K) T).Separate)
    (hobj : p.world.objs c = some obj) (hobj' : p.world.objs c = some obj') :
    Act p i c obj obj' (p.world.traffic { p.world with os } c) := by
  have honly : p.world.os.Only os client.toKcpevBase := by
    obtain ⟨k, -, rfl, -⟩ := ikcpSend_cases hgiven
    exact Os.only_setKcp _ _ hq
  refine .of_os hsep hclient honly hobj hobj' ?_
  have htraffic : p.world.traffic { p.world with os } d =
      ⟨if ret = 0 then [frame] else [], [], []⟩ := World.traffic_kcp hclient hgiven hq
  rw [htraffic]
  refine .data rfl (fun frame' hmem => ?_) (fun buf hmem => absurd hmem List.not_mem_nil) rfl
  dsimp only at hmem
  split at hmem
  · rw [List.mem_singleton.mp hmem]
    exact ⟨msg, hframe⟩
  · cases hmem

theorem apply_act (ht : Typed p.world) (h : apply p.world i = .ok w') (hsep : w'.Separate)
    (hobj : p.world.objs c = some obj) (hobj' : w'.objs c = some obj') :
    Act p i c obj obj' (p.world.traffic w' c) := by
  unfold apply at h
  split at h
  · cases h
    refine .of_objs (mute.createClient _ _) (fun {obj₂} hobj₂ => ?_) hobj hobj'
    have hne : c ≠ p.world.os.next := by
      intro heq
      have hnone := ht.fresh heq.ge
      rw [hobj] at hnone
      cases hnone
    rcases kcpevCreateClient_cases p.world _ with heq | ⟨os, b, -, -, heq | ⟨-, heq⟩⟩
    · rwa [heq] at hobj₂
    · rwa [heq] at hobj₂
    · rw [heq] at hobj₂
      simpa only [World.store, Function.update_of_ne hne] using hobj₂
  · cases h
    split at hobj'
    · rename_i hsome
      rw [if_pos hsome]
      exact .of_objs (.refl _) id hobj hobj'
    · rename_i hnone
      rw [if_neg hnone]
      refine .of_objs (mute.createServer _ _) (fun hobj₂ => ?_) hobj hobj'
      rcases kcpevCreateServer_cases p.world _ with heq | ⟨os, b, -, heq | heq⟩
      all_goals
        rwa [heq] at hobj₂
  · obtain ⟨client, hclient, h⟩ := bind_eq_ok.mp h
    rw [World.kcpev_ok] at hclient
    cases h
    exact .of_store_mute hsep hclient (.refl _) hobj hobj'
      (.still ⟨rfl, rfl, rfl, Or.inl rfl, rfl, rfl, rfl, rfl⟩)
  · obtain ⟨server, -, h⟩ := bind_eq_ok.mp h
    cases h
    exact .of_objs (.refl _) id hobj hobj'
  · obtain ⟨client, hclient, h⟩ := bind_eq_ok.mp h
    rw [World.kcpev_ok] at hclient
    split at h
    · cases h
      exact .of_objs (.refl _) id hobj hobj'
    · rename_i hserver
      split at h
      rename_i hconn
      cases h
      exact .of_store_mute hsep hclient (mute.kcpevConnect hconn) hobj hobj'
        (.still (kcpevConnect_still (by simpa using hserver) hconn))
  · obtain ⟨client, hclient, h⟩ := bind_eq_ok.mp h
    rw [World.kcpev_ok] at hclient
    obtain ⟨⟨os, r⟩, hsend, h⟩ := bind_eq_ok.mp h
    cases h
    rcases kcpevSend_cases hsend with rfl | ⟨q, frame, hq, hframe, hgiven⟩ | ⟨bufs, hputs, hparts⟩
    · exact .of_objs (.refl _) id hobj hobj'
    · exact .of_kcpData hclient hq hframe hgiven hsep hobj hobj'
    · exact .of_tcpData hclient hputs hparts hsep hobj hobj'
  · obtain ⟨client, hclient, h⟩ := bind_eq_ok.mp h
    rw [World.kcpev_ok] at hclient
    obtain ⟨⟨os, r⟩, hsend, h⟩ := bind_eq_ok.mp h
    cases h
    obtain ⟨bufs, hputs, hparts⟩ := sockSendCommand_puts hsend
    exact .of_tcpData hclient hputs hparts hsep hobj hobj'
  · cases h
    exact .of_objs (.of_eq rfl rfl) id hobj hobj'
  all_goals
    cases h
    exact .of_objs (.refl _) id hobj hobj'

theorem drainRound_act (h : drainRound p.world src addr = .ok (w', ctl))
    (hobj : p.world.objs c = some obj) (hobj' : w'.objs c = some obj') :
    Act p i c obj obj' (p.world.traffic w' c) := by
  have stream : ∀ {d : ℕ}, (do
      let client ← p.world.kcpev d
      let r ← TcpRecv.getTcpBufChunk client.tcp.rb kcpevBufferSize
      if r.2 = [] then return (p.world.setRb d client r.1, Control.loop)
      else return (p.world.setRb d client r.1).toFrame src addr r.2) = .ok (w', ctl) →
      Act p i c obj obj' (p.world.traffic w' c) := by
    intro d h
    obtain ⟨client, hclient, h⟩ := bind_eq_ok.mp h
    rw [World.kcpev_ok] at hclient
    obtain ⟨⟨rb, chunk⟩, -, h⟩ := bind_eq_ok.mp h
    dsimp only at h
    split at h
    · cases h
      exact .of_ring hclient (.refl _) hobj hobj'
    · cases h
      have hmute : p.world.os.Mute (p.world.os.emit (.received src chunk)) := .emit _ fun _ => rfl
      have hact : Act p i c obj obj' (p.world.traffic (p.world.store _ d
        { client with tcp := { client.tcp with rb } }) c) := .of_ring hclient hmute hobj hobj'
      exact hact
  have received : ∀ {w₁ : World (Logged K) T} {addr : Addr} {data : Bytes},
      p.world.os.Mute w₁.os → w₁.objs = p.world.objs →
      (.ok (w₁.toFrame src addr data) : Exec _) = .ok (w', ctl) →
      Act p i c obj obj' (p.world.traffic w' c) := by
    intro w₁ addr data hmute hobjs h
    cases h
    refine .of_objs (hmute.trans (.emit _ fun _ => rfl)) (fun hd => ?_) hobj hobj'
    rw [← hobjs]
    exact hd
  unfold drainRound at h
  split at h
  · exact stream h
  · exact stream h
  · obtain ⟨⟨w₁, answer⟩, hrecv, h⟩ := bind_eq_ok.mp h
    obtain ⟨hmute, hobjs⟩ := mute_ikcpRecv hrecv
    have idle : ∀ {ctl' : Control}, (.ok (w₁, ctl') : Exec _) = .ok (w', ctl) →
        Act p i c obj obj' (p.world.traffic w' c) := by
      intro ctl' h
      cases h
      exact .of_objs hmute (fun hd => by rwa [hobjs] at hd) hobj hobj'
    rcases answer with _ | _ | ⟨b, rest⟩
    · exact idle h
    · exact idle h
    dsimp only at h
    split at h
    · cases h
    obtain ⟨client, -, h⟩ := bind_eq_ok.mp h
    split at h
    · split at h
      · exact idle h
      · exact received hmute hobjs h
    · exact received hmute hobjs h
  · cases h
    exact .of_objs (.refl _) id hobj hobj'
  · cases h
    exact .of_objs (.refl _) id hobj hobj'
  · cases h
    exact .of_objs (.refl _) id hobj hobj'

/-- What a step does to an object that lives before it and after it. -/
theorem step_act (hp : p.Typed) (hsep : p.world.Separate) (h : step p i = .ok p')
    (hobj : p.world.objs c = some obj) (hobj' : p'.world.objs c = some obj') :
    Act p i c obj obj' (p.world.traffic p'.world c) := by
  have hsep' : p'.world.Separate := separate_effect hsep hp.world (step_effect hp h)
  unfold step at h
  split at h
  · obtain ⟨⟨w₁, ctl₁⟩, hround, h⟩ := bind_eq_ok.mp h
    cases h
    unfold callbackRound at hround
    split at hround
    · cases hround
      exact .of_objs (.refl _) id hobj hobj'
    · exact drainRound_act hround hobj hobj'
    · rename_i src addr buf hctl
      obtain ⟨⟨w₂, ret⟩, hdispatch, hround⟩ := bind_eq_ok.mp hround
      obtain ⟨ctl₂, -, hround⟩ := bind_eq_ok.mp hround
      cases hround
      exact dispatch_act ⟨hctl, rfl⟩ hdispatch hsep' hobj hobj'
    · obtain ⟨w₂, hclose, hround⟩ := bind_eq_ok.mp hround
      cases hround
      refine .of_objs (mute.closeClient hclose) (fun hd => ?_) hobj hobj'
      obtain ⟨client, server, -, -, -, rfl⟩ := World.closeClient_cases hclose
      exact World.objs_destroyKcpev _ hd
  · split at h
    · obtain ⟨⟨w₁, ctl₁⟩, hio, h⟩ := bind_eq_ok.mp h
      cases h
      exact ioEvent_act hsep hp.world hio hobj hobj'
    · cases h
      exact .of_objs (.refl _) id hobj hobj'
  · split at h
    · rename_i hctl htimer
      obtain ⟨⟨w₁, ctl₁⟩, hevent, h⟩ := bind_eq_ok.mp h
      cases h
      exact timerEvent_act hctl rfl htimer hevent hsep' hobj hobj'
    · cases h
      exact .of_objs (.refl _) id hobj hobj'
  · split at h
    · obtain ⟨w₁, hdestroy, h⟩ := bind_eq_ok.mp h
      cases h
      exact .of_objs (mute.serverDestroy hdestroy) (World.objs_serverDestroy hdestroy) hobj hobj'
    · cases h
      exact .of_objs (.refl _) id hobj hobj'
  · split at h
    · obtain ⟨w₁, happly, h⟩ := bind_eq_ok.mp h
      cases h
      exact apply_act hp.world happly hsep' hobj hobj'
    · cases h
      exact .of_objs (.refl _) id hobj hobj'

theorem tcpAccept_birth {answer : Option AcceptAnswer} {w : World (Logged K) T}
    (hsep' : w'.Separate)
    (h : tcpAccept w fd answer = .ok w') (hnone : w.objs c = none)
    (hobj' : w'.objs c = some obj') : Birth obj' (w.traffic w' c) := by
  have absent : ¬ w'.objs = w.objs := by
    intro hobjs
    rw [hobjs, hnone] at hobj'
    cases hobj'
  cases tcpAccept_puts h with
  | nothing hmute hobjs => exact absurd hobjs absent
  | lost hfree hputs hobjs => exact absurd hobjs absent
  | @added d client frame hd hfree hputs hobjs hbirth =>
    have heq : c = d := by
      by_contra hne
      rw [hobjs, Function.update_of_ne hne, hnone] at hobj'
      cases hobj'
    have hclient : client = obj' := by
      rw [hobjs, heq, Function.update_self] at hobj'
      exact Option.some.inj hobj'
    subst hclient
    have hsock : client.tcp.sock ≠ 0 := by
      cases hbirth with
      | session _ _ hsock => exact hsock
    rw [World.traffic_tcp hobj' hsep' hputs rfl, if_neg hsock]
    exact hbirth

theorem effect_birth (hsep' : w'.Separate) (heffect : Effect p i w') (hnone : p.world.objs c = none)
    (hobj' : w'.objs c = some obj') : Birth obj' (p.world.traffic w' c) := by
  have old : ∀ {w : World (Logged K) T}, (w.objs c).isSome = (p.world.objs c).isSome →
      w.Quiet w' → Birth obj' (p.world.traffic w' c) := by
    intro w hw hquiet
    have hlive := hquiet.isSome c
    rw [hobj', hw, hnone] at hlive
    cases hlive
  have stored : ∀ {os : Os (Logged K) T} {d : ℕ} {client client' : Kcpev T},
      p.world.objs d = some client → (p.world.store os d client').Quiet w' →
      Birth obj' (p.world.traffic w' c) := by
    intro os d client client' hclient hquiet
    refine old ?_ hquiet
    rcases eq_or_ne c d with heq | hne
    · rw [heq, hclient]
      simp [World.store]
    · simp [World.store, hne]
  cases heffect with
  | quiet hquiet => exact old rfl hquiet
  | data =>
    rw [hnone] at hobj'
    cases hobj'
  | @createClient a hi =>
    rw [World.traffic_mute (mute.createClient _ _)]
    have hfresh : obj'.udp.status = .invalid := by
      rcases (steady_createClient p.world a).objs hobj' with ⟨obj, hobj, -⟩ | ⟨-, hfresh⟩
      · rw [hnone] at hobj
        cases hobj
      · exact hfresh.status
    rcases kcpevCreateClient_cases p.world a with heq | ⟨os, b, hborn, -, heq | ⟨-, heq⟩⟩
    · rw [heq, hnone] at hobj'
      cases hobj'
    · rw [heq, hnone] at hobj'
      cases hobj'
    · rw [heq] at hobj'
      have hc : c = p.world.os.next := by
        by_contra hne
        simp only [World.store, Function.update_of_ne hne] at hobj'
        rw [hnone] at hobj'
        cases hobj'
      subst hc
      simp only [World.store, Function.update_self, Option.some.injEq] at hobj'
      subst hobj'
      exact .client rfl hfresh hborn.evt
  | @createServer a hi hserver =>
    rcases kcpevCreateServer_cases p.world a with heq | ⟨os, b, -, heq | heq⟩
    all_goals
      rw [heq, hnone] at hobj'
      cases hobj'
  | serverDestroy hi hctl hw =>
    have hobj := World.objs_serverDestroy hw hobj'
    rw [hnone] at hobj
    cases hobj
  | connect hi hobj => exact stored hobj (.refl _)
  | accept hi hctl he hcb hdata hw => exact tcpAccept_birth hsep' hw hnone hobj'
  | close hctl hw =>
    obtain ⟨client, server, -, -, -, rfl⟩ := World.closeClient_cases hw
    have hobj := World.objs_destroyKcpev _ hobj'
    rw [hnone] at hobj
    cases hobj
  | connectSession hframe hfind hconn hquiet =>
    obtain ⟨server, key, -, -, -, hclient⟩ := hfind
    exact stored hclient hquiet
  | serverTimers hframe hfind hstatus htimer hquiet =>
    obtain ⟨server, key, -, -, -, hclient⟩ := hfind
    exact stored hclient hquiet
  | clientTimers hframe hclient hparse hsock hstatus hsend htimer hquiet =>
    exact stored hclient hquiet

/-- What a step does that brings an object into being. -/
theorem step_birth (hp : p.Typed) (hsep : p.world.Separate) (h : step p i = .ok p')
    (hnone : p.world.objs c = none) (hobj' : p'.world.objs c = some obj') :
    Birth obj' (p.world.traffic p'.world c) :=
  effect_birth (separate_effect hsep hp.world (step_effect hp h)) (step_effect hp h) hnone hobj'

end Step

end KcpEv
