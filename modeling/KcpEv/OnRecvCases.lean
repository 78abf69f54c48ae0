import KcpEv.OnRecv

/-!
What a dispatched frame can do: one case for each way the two dispatchers
return. Everything that is proved about a dispatched frame is proved from these
cases.
-/
namespace KcpEv

variable {K T : Type} [KcpImpl K]

/-- A handshake frame whose key is that of a registered, live client. -/
def Finds (w : World K T) (buf : Bytes) (command : Command) (c : ℕ) (client : Kcpev T) : Prop :=
  ∃ (server : KcpevServer T) (key : KcpevKey), Parses buf command key.val ∧
    w.server = some server ∧ server.hashFind key = some c ∧ w.objs c = some client

inductive ServerRecv (w : World K T) (client : Option ℕ) (buf : Bytes) (addr : Addr)
    (a : RecvAnswer) : World K T → ℤ → Prop
  | unchanged (ret : ℤ) : ServerRecv w client buf addr a w ret
  | data {data : Bytes} (hname : a.getnameinfo) (hparse : Parses buf .data data) :
    ServerRecv w client buf addr a { w with os := w.os.emit (.serverRecvCb client data) } 0
  | shakeHand1Failed {c : ℕ} {obj obj' : Kcpev T} {os : Os K T}
    (hname : a.getnameinfo) (hfind : Finds w buf .shakeHand1 c obj)
    (hconn : connectClientUdp w.os c obj addr a = (os, obj', -1)) :
    ServerRecv w client buf addr a (w.store os c obj') (-1)
  | shakeHand1 {c : ℕ} {obj obj' : Kcpev T} {os os' : Os K T} {ret : ℤ}
    (hname : a.getnameinfo) (hfind : Finds w buf .shakeHand1 c obj)
    (hconn : connectClientUdp w.os c obj addr a = (os, obj', 0))
    (hsend : sockSendCommand os obj'.udp.sock .shakeHand2 obj'.key.val a.send = .ok (os', ret)) :
    ServerRecv w client buf addr a
      (w.store os' c { obj' with udp := { obj'.udp with status := .shakingHand } }) 0
  | shakeHand2Failed {c : ℕ} {obj : Kcpev T} {os : Os K T} {udp : KcpevUdp T}
    (hname : a.getnameinfo) (hfind : Finds w buf .shakeHand2 c obj)
    (hstatus : obj.udp.status = .shakingHand)
    (htimer : checkCreateKcpTimer w.os (.kcpev c) obj.udp .onServerHeartbeatTimer a.evt a.evh =
      .ok (os, udp, -1)) :
    ServerRecv w client buf addr a (w.store os c { obj with udp }) (-1)
  | shakeHand2 {c : ℕ} {obj : Kcpev T} {os : Os K T} {udp : KcpevUdp T}
    (hname : a.getnameinfo) (hfind : Finds w buf .shakeHand2 c obj)
    (hstatus : obj.udp.status = .shakingHand)
    (htimer : checkCreateKcpTimer w.os (.kcpev c) obj.udp .onServerHeartbeatTimer a.evt a.evh =
      .ok (os, udp, 0)) :
    ServerRecv w client buf addr a
      (w.store os c { obj with udp := { udp with status := .ready } }) 0
  | heartbeat1 {c : ℕ} {obj : Kcpev T} {os : Os K T} {msg : Bytes} {ret : ℤ} (ret' : ℤ)
    (hclient : client = some c) (hobj : w.objs c = some obj)
    (hsend : kcpSendCommand w.os obj.udp .heartbeat1 msg a.send.stack = .ok (os, ret)) :
    ServerRecv w client buf addr a { w with os } ret'
  | heartbeat2 {c : ℕ} {obj : Kcpev T} (hclient : client = some c) (hobj : w.objs c = some obj) :
    ServerRecv w client buf addr a
      (w.store w.os c { obj with udp := { obj.udp with heart := w.os.now } }) 0

inductive ClientRecv (w : World K T) (c : ℕ) (buf : Bytes) (a : RecvAnswer) :
    World K T → ℤ → Prop
  | unchanged (ret : ℤ) : ClientRecv w c buf a w ret
  | data {data : Bytes} (hparse : Parses buf .data data) :
    ClientRecv w c buf a { w with os := w.os.emit (.clientRecvCb c data) } 0
  | shakeHand1Unsent {obj : Kcpev T} {key : KcpevKey} {os : Os K T} {ret : ℤ}
    (hparse : Parses buf .shakeHand1 key.val) (hobj : w.objs c = some obj)
    (hsend : sockSendCommand w.os obj.udp.sock .shakeHand1 key.val a.send = .ok (os, ret)) :
    ClientRecv w c buf a (w.store os c { obj with key }) (-1)
  | shakeHand1 {obj : Kcpev T} {key : KcpevKey} {os : Os K T}
    (hparse : Parses buf .shakeHand1 key.val) (hobj : w.objs c = some obj)
    (hsend : sockSendCommand w.os obj.udp.sock .shakeHand1 key.val a.send = .ok (os, 0)) :
    ClientRecv w c buf a
      (w.store os c { obj with key, udp := { obj.udp with status := .shakingHand } }) 0
  | shakeHand2Unsent {obj : Kcpev T} {os : Os K T} {ret : ℤ}
    (hparse : Parses buf .shakeHand2 obj.key.val) (hobj : w.objs c = some obj)
    (hsock : obj.udp.sock ≠ 0) (hstatus : obj.udp.status = .shakingHand)
    (hsend : sockSendCommand w.os obj.udp.sock .shakeHand2 obj.key.val a.send = .ok (os, ret))
    (hret : ret ≠ 0) :
    ClientRecv w c buf a { w with os } (-1)
  | shakeHand2Failed {obj : Kcpev T} {os os' : Os K T} {udp : KcpevUdp T}
    (hparse : Parses buf .shakeHand2 obj.key.val) (hobj : w.objs c = some obj)
    (hsock : obj.udp.sock ≠ 0) (hstatus : obj.udp.status = .shakingHand)
    (hsend : sockSendCommand w.os obj.udp.sock .shakeHand2 obj.key.val a.send = .ok (os, 0))
    (htimer : checkCreateKcpTimer os (.kcpev c) obj.udp .onClientHeartbeatTimer a.evt a.evh =
      .ok (os', udp, -1)) :
    ClientRecv w c buf a (w.store os' c { obj with udp }) (-1)
  | shakeHand2 {obj : Kcpev T} {os os' : Os K T} {udp : KcpevUdp T} {p : ℕ} {kcp : Ikcpcb K}
    (hparse : Parses buf .shakeHand2 obj.key.val) (hobj : w.objs c = some obj)
    (hsock : obj.udp.sock ≠ 0) (hstatus : obj.udp.status = .shakingHand)
    (hsend : sockSendCommand w.os obj.udp.sock .shakeHand2 obj.key.val a.send = .ok (os, 0))
    (htimer : checkCreateKcpTimer os (.kcpev c) obj.udp .onClientHeartbeatTimer a.evt a.evh =
      .ok (os', udp, 0))
    (hkcp : udp.kcp = some p) (hp : os'.kcps p = some kcp) :
    ClientRecv w c buf a
      (w.store (os'.setKcp p { kcp with conv := obj.key.conv }) c
        { obj with udp := { udp with status := .ready } }) 0
  | heartbeat1Unsent {obj : Kcpev T} {os : Os K T} {msg : Bytes} {ret : ℤ}
    (hobj : w.objs c = some obj)
    (hsend : kcpevSendCommand w.os obj.toKcpevBase .heartbeat2 msg a.send = .ok (os, ret)) :
    ClientRecv w c buf a { w with os } (-1)
  | heartbeat1 {obj : Kcpev T} {os : Os K T} {msg : Bytes} (hobj : w.objs c = some obj)
    (hsend : kcpevSendCommand w.os obj.toKcpevBase .heartbeat2 msg a.send = .ok (os, 0)) :
    ClientRecv w c buf a (w.store os c { obj with udp := { obj.udp with heart := os.now } }) 0
  | udpInvalid {obj : Kcpev T} (hobj : w.objs c = some obj) :
    ClientRecv w c buf a (w.store w.os c { obj with udp := obj.udp.setKcpInvalid }) 0

/-- The byte of a known command, and what the frame is then. -/
theorem parses_of_ofByte {buf data : Bytes} {byte : UInt8} {command : Command}
    (h : parseFrame buf = some (byte, data)) (hbyte : Command.ofByte byte = some command) :
    Parses buf command data := by
  rw [Command.ofByte_eq_some_iff] at hbyte
  rw [Parses, h, hbyte]

section Server
variable {w w' : World K T} {client : Option ℕ} {buf data : Bytes} {addr : Addr}
  {a : RecvAnswer} {ret : ℤ}

theorem serverShakeHand1_cases (hname : a.getnameinfo) (hparse : Parses buf .shakeHand1 data)
    (h : serverShakeHand1 w data addr a = .ok (w', ret)) :
    ServerRecv w client buf addr a w' ret := by
  unfold serverShakeHand1 at h
  split at h
  · cases h
    exact .unchanged _
  rename_i key hkey
  obtain ⟨server, hserver, h⟩ := bind_eq_ok.mp h
  split at h
  · cases h
    exact .unchanged _
  rename_i c hc
  obtain ⟨obj, hobj, h⟩ := bind_eq_ok.mp h
  rw [KcpevKey.ofBytes_eq_some hkey] at hparse
  have hfind : Finds w buf .shakeHand1 c obj :=
    ⟨server, key, hparse, World.kcpevServer_ok.mp hserver, hc, World.kcpev_ok.mp hobj⟩
  have hret := connectClientUdp_ret w.os c obj addr a
  rcases hconn : connectClientUdp w.os c obj addr a with ⟨os, obj', r⟩
  rw [hconn] at h hret
  rcases hret with rfl | rfl
  · cases h
    exact .shakeHand1Failed hname hfind hconn
  · obtain ⟨⟨os', r'⟩, hsend, h⟩ := bind_eq_ok.mp h
    cases h
    exact .shakeHand1 hname hfind hconn hsend

theorem serverShakeHand2_cases (hname : a.getnameinfo) (hparse : Parses buf .shakeHand2 data)
    (h : serverShakeHand2 w data a = .ok (w', ret)) :
    ServerRecv w client buf addr a w' ret := by
  unfold serverShakeHand2 at h
  split at h
  · cases h
    exact .unchanged _
  rename_i key hkey
  obtain ⟨server, hserver, h⟩ := bind_eq_ok.mp h
  split at h
  · cases h
    exact .unchanged _
  rename_i c hc
  obtain ⟨obj, hobj, h⟩ := bind_eq_ok.mp h
  rw [KcpevKey.ofBytes_eq_some hkey] at hparse
  have hfind : Finds w buf .shakeHand2 c obj :=
    ⟨server, key, hparse, World.kcpevServer_ok.mp hserver, hc, World.kcpev_ok.mp hobj⟩
  split at h
  · cases h
    exact .unchanged _
  rename_i hstatus
  rw [ne_eq, not_not] at hstatus
  obtain ⟨⟨os, udp, r⟩, htimer, h⟩ := bind_eq_ok.mp h
  rcases checkCreateKcpTimer_ret htimer with rfl | rfl
  · cases h
    exact .shakeHand2Failed hname hfind hstatus htimer
  · cases h
    exact .shakeHand2 hname hfind hstatus htimer

theorem serverHeartbeat1_cases [ClockImpl T]
    (h : serverHeartbeat1 w client data a = .ok (w', ret)) :
    ServerRecv w client buf addr a w' ret := by
  unfold serverHeartbeat1 at h
  split at h
  · cases h
    exact .unchanged _
  obtain ⟨obj, hobj, h⟩ := bind_eq_ok.mp h
  split at h
  · cases h
    exact .unchanged _
  split at h
  · cases h
    exact .unchanged _
  split at h
  · cases h
    exact .unchanged _
  obtain ⟨⟨os, r⟩, hsend, h⟩ := bind_eq_ok.mp h
  cases h
  exact .heartbeat1 _ rfl (World.kcpev_ok.mp hobj) hsend

theorem serverHeartbeat2_cases [ClockImpl T] (h : serverHeartbeat2 w client data = .ok (w', ret)) :
    ServerRecv w client buf addr a w' ret := by
  unfold serverHeartbeat2 at h
  split at h
  · cases h
    exact .unchanged _
  obtain ⟨obj, hobj, h⟩ := bind_eq_ok.mp h
  split at h
  · cases h
    exact .unchanged _
  split at h
  · cases h
    exact .unchanged _
  split at h
  · cases h
    exact .unchanged _
  split at h
  · cases h
    exact .unchanged _
  cases h
  exact .heartbeat2 rfl (World.kcpev_ok.mp hobj)

theorem onServerRecv_cases [ClockImpl T] (h : onServerRecv w client buf addr a = .ok (w', ret)) :
    ServerRecv w client buf addr a w' ret := by
  unfold onServerRecv at h
  split at h
  · cases h
    exact .unchanged _
  rename_i byte data hframe
  split at h
  · cases h
    exact .unchanged _
  rename_i hname
  rw [not_not] at hname
  split at h
  · rename_i hbyte
    obtain ⟨server, -, h⟩ := bind_eq_ok.mp h
    split at h
    · cases h
    · cases h
      exact .data hname (parses_of_ofByte hframe hbyte)
  · exact serverShakeHand1_cases hname (parses_of_ofByte hframe (by assumption)) h
  · exact serverShakeHand2_cases hname (parses_of_ofByte hframe (by assumption)) h
  · exact serverHeartbeat1_cases h
  · exact serverHeartbeat2_cases h
  · cases h
    exact .unchanged _
  · cases h
    exact .unchanged _

end Server

section Client
variable {w w' : World K T} {c : ℕ} {obj : Kcpev T} {buf data : Bytes} {a : RecvAnswer} {ret : ℤ}

theorem clientShakeHand1_cases (hparse : Parses buf .shakeHand1 data) (hobj : w.objs c = some obj)
    (h : clientShakeHand1 w c obj data a = .ok (w', ret)) : ClientRecv w c buf a w' ret := by
  unfold clientShakeHand1 at h
  split at h
  · cases h
    exact .unchanged _
  split at h
  · cases h
    exact .unchanged _
  rename_i key hkey
  rw [KcpevKey.ofBytes_eq_some hkey] at hparse h
  obtain ⟨⟨os, r⟩, hsend, h⟩ := bind_eq_ok.mp h
  by_cases hr : r = 0
  · subst hr
    cases h
    have hrecv := ClientRecv.shakeHand1 hparse hobj hsend
    exact hrecv
  · simp only [ne_eq, hr, not_false_eq_true, if_true] at h
    cases h
    have hrecv := ClientRecv.shakeHand1Unsent hparse hobj hsend
    exact hrecv

theorem clientShakeHand2_cases (hparse : Parses buf .shakeHand2 data) (hobj : w.objs c = some obj)
    (h : clientShakeHand2 w c obj data a = .ok (w', ret)) : ClientRecv w c buf a w' ret := by
  unfold clientShakeHand2 at h
  split at h
  · cases h
    exact .unchanged _
  rename_i hsock
  split at h
  · cases h
    exact .unchanged _
  rename_i key hkey
  split at h
  · cases h
    exact .unchanged _
  rename_i hstatus
  rw [ne_eq, not_not] at hstatus
  split at h
  · cases h
    exact .unchanged _
  rename_i hmatch
  rw [ne_eq, not_not] at hmatch
  rw [KcpevKey.ofBytes_eq_some hkey, hmatch] at hparse h
  obtain ⟨⟨os, r⟩, hsend, h⟩ := bind_eq_ok.mp h
  by_cases hr : r = 0
  · subst hr
    obtain ⟨⟨os', udp, r'⟩, htimer, h⟩ := bind_eq_ok.mp h
    rcases checkCreateKcpTimer_ret htimer with rfl | rfl
    · cases h
      exact .shakeHand2Failed hparse hobj hsock hstatus hsend htimer
    · simp only [lt_self_iff_false, if_false] at h
      split at h
      · cases h
      rename_i p hp
      split at h
      · cases h
      rename_i kcp hkcp
      cases h
      exact .shakeHand2 hparse hobj hsock hstatus hsend htimer hp hkcp
  · simp only [ne_eq, hr, not_false_eq_true, if_true] at h
    cases h
    exact .shakeHand2Unsent hparse hobj hsock hstatus hsend hr

theorem clientHeartbeat1_cases (hobj : w.objs c = some obj)
    (h : clientHeartbeat1 w c obj data a = .ok (w', ret)) : ClientRecv w c buf a w' ret := by
  unfold clientHeartbeat1 at h
  split at h
  · cases h
    exact .unchanged _
  split at h
  · cases h
    exact .unchanged _
  split at h
  · cases h
    exact .unchanged _
  split at h
  · cases h
    exact .unchanged _
  obtain ⟨⟨os, r⟩, hsend, h⟩ := bind_eq_ok.mp h
  by_cases hr : r = 0
  · subst hr
    cases h
    exact .heartbeat1 hobj hsend
  · simp only [ne_eq, hr, not_false_eq_true, if_true] at h
    cases h
    exact .heartbeat1Unsent hobj hsend

theorem clientUdpInvalid_cases (hobj : w.objs c = some obj)
    (h : clientUdpInvalid w c obj data = .ok (w', ret)) : ClientRecv w c buf a w' ret := by
  unfold clientUdpInvalid at h
  split at h
  · cases h
    exact .unchanged _
  split at h
  · cases h
    exact .unchanged _
  split at h
  · cases h
    exact .unchanged _
  cases h
  exact .udpInvalid hobj

theorem onClientRecv_cases (h : onClientRecv w c buf a = .ok (w', ret)) :
    ClientRecv w c buf a w' ret := by
  obtain ⟨obj, hobj, h⟩ := bind_eq_ok.mp h
  rw [World.kcpev_ok] at hobj
  split at h
  · cases h
    exact .unchanged _
  rename_i byte data hframe
  split at h
  · rename_i hbyte
    unfold clientData at h
    split at h
    · cases h
    · cases h
      exact .data (parses_of_ofByte hframe hbyte)
  · exact clientShakeHand1_cases (parses_of_ofByte hframe (by assumption)) hobj h
  · exact clientShakeHand2_cases (parses_of_ofByte hframe (by assumption)) hobj h
  · exact clientHeartbeat1_cases hobj h
  · exact clientUdpInvalid_cases hobj h
  · cases h
    exact .unchanged _
  · cases h
    exact .unchanged _

end Client

end KcpEv
