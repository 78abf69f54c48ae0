import KcpEv.Registry

/-!
The clock of the loop. Only the loop moves it: whatever a callback or a call of the
application does, the clock is where it was.
-/
namespace KcpEv

variable {K T : Type}

/-! The functions on one object. -/

section Object
variable {os os' : Os K T}

theorem closeSock_now (os : Os K T) (evs : KcpevSock) : (closeSock os evs).1.now = os.now := by
  unfold closeSock
  split <;> rfl

theorem stopIo_now (os : Os K T) (evs : KcpevSock) : (stopIo os evs).1.now = os.now := by
  unfold stopIo
  split <;> rfl

theorem sock_destroy_now (os : Os K T) (evs : KcpevSock) : (evs.destroy os).1.now = os.now := by
  simp only [KcpevSock.destroy, stopIo_now, closeSock_now]

theorem udp_destroy_now (os : Os K T) (evs : KcpevUdp T) : (evs.destroy os).1.now = os.now := by
  have hevt : ∀ (os : Os K T) (evs : KcpevUdp T), (stopEvt os evs).1.now = os.now := by
    intro os evs
    unfold stopEvt
    split <;> rfl
  have hevh : ∀ (os : Os K T) (evs : KcpevUdp T), (stopEvh os evs).1.now = os.now := by
    intro os evs
    unfold stopEvh
    split <;> rfl
  have hkcp : ∀ (os : Os K T) (evs : KcpevUdp T), (releaseKcp os evs).1.now = os.now := by
    intro os evs
    unfold releaseKcp
    split <;> rfl
  simp only [KcpevUdp.destroy, hkcp, hevh, hevt, sock_destroy_now]

theorem base_destroy_now (os : Os K T) (b : KcpevBase T) : (b.destroy os).now = os.now := by
  simp only [KcpevBase.destroy, KcpevTcp.destroy, udp_destroy_now, sock_destroy_now]

theorem openSock_now {answer : Option ℕ} {peer : Option Addr} {fd : Option ℕ}
    (h : os.openSock answer peer = (os', fd)) : os'.now = os.now := by
  rcases os.openSock_cases answer peer with heq | ⟨s, -, heq⟩
  · rw [heq] at h
    cases h
    rfl
  · rw [heq] at h
    cases h
    rfl

theorem connect_now (os : Os K T) (fd : ℕ) (addr : Addr) : (os.connect fd addr).now = os.now := by
  unfold Os.connect
  split <;> rfl

theorem bindSocket_now {sock sock' : KcpevSock} {reuse : Bool} {a : BindAnswer} {ret : ℤ}
    (h : kcpevBindSocket os sock reuse a = (os', sock', ret)) : os'.now = os.now := by
  unfold kcpevBindSocket at h
  split at h
  · cases h
    rfl
  · rcases bindLoop_cases reuse a.addrs os with ⟨hl, -⟩ | ⟨s, -, hl, -⟩ | ⟨s, -, hl, -⟩
    all_goals
      rw [hl] at h
      cases h
      rfl

theorem bind_now {b b' : KcpevBase T} {reuse : Bool} {a : KcpevBindAnswer} {ret : ℤ}
    (h : kcpevBind os b reuse a = (os', b', ret)) : os'.now = os.now := by
  unfold kcpevBind at h
  rcases htcp : kcpevBindSocket os b.tcp.toKcpevSock reuse a.tcp with ⟨os₁, s, r⟩
  have hnow := bindSocket_now htcp
  rw [htcp] at h
  dsimp only at h
  split at h
  · cases h
    exact hnow
  split at h
  · cases h
    exact hnow
  split at h
  · cases h
    exact hnow
  rcases hudp : kcpevBindSocket os₁ b.udp.toKcpevSock reuse a.udp with ⟨os₂, s', r'⟩
  have hnow' := bindSocket_now hudp
  rw [hudp] at h
  cases h
  exact hnow'.trans hnow

theorem connectSocket_now {sock : KcpevSock} {addr : Addr} {a : ConnectAnswer} {ret : ℤ}
    (h : kcpevConnectSocket os sock addr a = (os', ret)) : os'.now = os.now := by
  unfold kcpevConnectSocket at h
  split at h
  · cases h
    rfl
  split at h
  · cases h
    rfl
  split at h
  · cases h
    exact connect_now os _ _
  · cases h
    rfl

theorem kcpevConnect_now {b b' : KcpevBase T} {addr : Addr} {a : KcpevConnectAnswer} {ret : ℤ}
    (h : kcpevConnect os b addr a = (os', b', ret)) : os'.now = os.now := by
  unfold kcpevConnect at h
  rcases htcp : kcpevConnectSocket os b.tcp.toKcpevSock addr a.tcp with ⟨os₁, r⟩
  have hnow := connectSocket_now htcp
  rw [htcp] at h
  dsimp only at h
  split at h
  · cases h
    exact hnow
  rcases hudp : kcpevConnectSocket os₁ b.udp.toKcpevSock addr a.udp with ⟨os₂, r'⟩
  have hnow' := (connectSocket_now hudp).trans hnow
  rw [hudp] at h
  dsimp only at h
  split at h
  · cases h
    rw [closeSock_now]
    exact hnow'
  · cases h
    exact hnow'

theorem initEv_now {o : Owner} {b b' : KcpevBase T} {tcpCb udpCb : Option IoCb} {a : InitEvAnswer}
    {ret : ℤ} (h : kcpevInitEv os o b tcpCb udpCb a = (os', b', ret)) : os'.now = os.now := by
  have hset : ∀ {os os' : Os K T} {k k' : KcpevSock} {cb : Option IoCb} {alloc : Bool} {r : ℤ},
      kcpevSetEvIf os o k cb alloc = (os', k', r) → os'.now = os.now := by
    intro os os' k k' cb alloc r h
    unfold kcpevSetEvIf kcpevSetEv at h
    split at h
    · cases h
      rfl
    split at h
    · cases h
      rfl
    split at h
    · cases h
      rfl
    · cases h
      rfl
  unfold kcpevInitEv at h
  split at h
  rename_i os₁ k r hr
  split at h
  · cases h
    exact hset hr
  · cases h
    exact (hset rfl).trans (hset hr)

theorem timers_now {data : Owner} {udp udp' : KcpevUdp T} {hcb : TimerCb} {evt evh : Bool} {ret : ℤ}
    (h : checkCreateKcpTimer os data udp hcb evt evh = .ok (os', udp', ret)) :
    os'.now = os.now := by
  rcases checkCreateKcpTimer_cases h with ⟨-, -, rfl, -⟩ | ⟨-, -, -, -, rfl, -⟩ |
    ⟨-, -, -, -, rfl, -⟩
  · rfl
  · rfl
  · rfl

theorem sockSendCommand_now {sock : ℕ} {command : Command} {msg : Bytes} {a : SendAnswer} {ret : ℤ}
    (h : sockSendCommand os sock command msg a = .ok (os', ret)) : os'.now = os.now := by
  rcases sockSendCommand_cases h with ⟨rfl, -⟩ | ⟨frame, k, -, rfl, -⟩
  · rfl
  · rfl

theorem udpOutputs_now (sock : ℕ) (answers : ℕ → Option ℕ) (bufs : List Bytes) (n : ℕ)
    (os : Os K T) : (udpOutputs sock answers n os bufs).now = os.now := by
  induction bufs generalizing n os with
  | nil => rfl
  | cons buf bufs ih =>
    unfold udpOutputs
    rw [ih]
    rcases os.send_cases sock buf (answers n) with hs | ⟨k, hs⟩
    · rw [hs]
    · rw [hs]
      rfl

theorem evTimerAgain_now (os : Os K T) (p again : ℕ) : (os.evTimerAgain p again).now = os.now := by
  unfold Os.evTimerAgain
  split <;> rfl

variable [KcpImpl K]

theorem createKcp_now {udp udp' : KcpevUdp T} {conv : ℕ} {alloc : Bool} {ret : ℤ}
    (h : kcpevCreateKcp os udp conv alloc = (os', udp', ret)) : os'.now = os.now := by
  unfold kcpevCreateKcp at h
  split at h
  · cases h
    rfl
  · cases h
    rfl

theorem connectClientUdp_now {c : ℕ} {client client' : Kcpev T} {addr : Addr} {a : RecvAnswer}
    {ret : ℤ} (h : connectClientUdp os c client addr a = (os', client', ret)) :
    os'.now = os.now := by
  have error : ∀ {os₁ : Os K T} {udp : KcpevUdp T}, os₁.now = os.now →
      connectClientUdpError os₁ client udp = (os', client', ret) → os'.now = os.now := by
    intro os₁ udp hnow herr
    rw [connectClientUdpError_eq] at herr
    cases herr
    rw [udp_destroy_now]
    exact hnow
  unfold connectClientUdp at h
  rcases hbind : kcpevBindSocket os client.udp.toKcpevSock true a.bind with ⟨os₁, k, r⟩
  have hnow := bindSocket_now hbind
  rw [hbind] at h
  dsimp only at h
  split at h
  · exact error hnow h
  split at h
  · exact error hnow h
  have hconnected := (connect_now os₁ k.sock addr).trans hnow
  rcases hcreate : kcpevCreateKcp (os₁.connect k.sock addr)
    { client.udp with toKcpevSock := k } client.key.conv a.kcp with ⟨os₂, udp, r₂⟩
  have hcreated := (createKcp_now hcreate).trans hconnected
  rw [hcreate] at h
  dsimp only at h
  split at h
  · exact error hcreated h
  rcases hinit : kcpevInitEv os₂ (.kcpev c) { client.toKcpevBase with udp } none
    (some .serverUdpRecv) { tcp := true, udp := a.evio } with ⟨os₃, b, r₃⟩
  have hdone := (initEv_now hinit).trans hcreated
  rw [hinit] at h
  dsimp only at h
  split at h
  · exact error hdone h
  · cases h
    exact hdone

theorem ikcpSend_now {kcp : ℕ} {buf : Bytes} {ret : ℤ} (h : ikcpSend os kcp buf = .ok (os', ret)) :
    os'.now = os.now := by
  obtain ⟨k, -, rfl, -⟩ := ikcpSend_cases h
  rfl

theorem kcpSendCommand_now {udp : KcpevUdp T} {command : Command} {msg : Bytes}
    {stack : ℕ → UInt8} {ret : ℤ} (h : kcpSendCommand os udp command msg stack = .ok (os', ret)) :
    os'.now = os.now := by
  obtain ⟨⟨buf, n⟩, -, h⟩ := bind_eq_ok.mp h
  dsimp only at h
  split at h
  · cases h
    rfl
  split at h
  · split at h
    · cases h
    · exact ikcpSend_now h
  · cases h
    rfl

theorem kcpevSendCommand_now {b : KcpevBase T} {command : Command} {msg : Bytes} {a : SendAnswer}
    {ret : ℤ} (h : kcpevSendCommand os b command msg a = .ok (os', ret)) : os'.now = os.now := by
  by_cases hvalid : b.udp.isKcpValid
  · rw [kcpevSendCommand_kcp os hvalid] at h
    exact kcpSendCommand_now h
  · rw [kcpevSendCommand_tcp os hvalid] at h
    exact sockSendCommand_now h

theorem ikcpInput_now {kcp : ℕ} {data : Bytes} (h : ikcpInput os kcp data = .ok os') :
    os'.now = os.now := by
  unfold ikcpInput at h
  split at h
  · cases h
  · cases h
    rfl

end Object

/-! Whole steps. -/

section Step
variable [KcpImpl K] [ClockImpl T] {p p' : Process K T} {i : Input T} {w w' : World K T} {c fd : ℕ}
  {src : Source} {addr : Addr} {buf : Bytes} {ctl : Control}

omit [ClockImpl T] in
theorem serverRecv_now {client : Option ℕ} {a : RecvAnswer} {ret : ℤ}
    (h : ServerRecv w client buf addr a w' ret) : w'.os.now = w.os.now := by
  cases h with
  | unchanged => rfl
  | data => rfl
  | shakeHand1Failed _ _ hconn =>
    have hnow := connectClientUdp_now hconn
    exact hnow
  | shakeHand1 _ _ hconn hsend =>
    have hnow := (sockSendCommand_now hsend).trans (connectClientUdp_now hconn)
    exact hnow
  | shakeHand2Failed _ _ _ htimer =>
    have hnow := timers_now htimer
    exact hnow
  | shakeHand2 _ _ _ htimer =>
    have hnow := timers_now htimer
    exact hnow
  | heartbeat1 _ _ _ hsend =>
    have hnow := kcpSendCommand_now hsend
    exact hnow
  | heartbeat2 => rfl

omit [ClockImpl T] in
theorem clientRecv_now {a : RecvAnswer} {ret : ℤ} (h : ClientRecv w c buf a w' ret) :
    w'.os.now = w.os.now := by
  cases h with
  | unchanged => rfl
  | data => rfl
  | shakeHand1Unsent _ _ hsend =>
    have hnow := sockSendCommand_now hsend
    exact hnow
  | shakeHand1 _ _ hsend =>
    have hnow := sockSendCommand_now hsend
    exact hnow
  | shakeHand2Unsent _ _ _ _ hsend =>
    have hnow := sockSendCommand_now hsend
    exact hnow
  | shakeHand2Failed _ _ _ _ hsend htimer =>
    have hnow := (timers_now htimer).trans (sockSendCommand_now hsend)
    exact hnow
  | shakeHand2 _ _ _ _ hsend htimer =>
    have hnow := (timers_now htimer).trans (sockSendCommand_now hsend)
    exact hnow
  | heartbeat1Unsent _ hsend =>
    have hnow := kcpevSendCommand_now hsend
    exact hnow
  | heartbeat1 _ hsend =>
    have hnow := kcpevSendCommand_now hsend
    exact hnow
  | udpInvalid => rfl

theorem dispatch_now {a : RecvAnswer} {ret : ℤ}
    (h : dispatch w src addr buf a = .ok (w', ret)) : w'.os.now = w.os.now := by
  have session : ∀ {d : ℕ}, onSessionRecv w d buf addr a = .ok (w', ret) →
      w'.os.now = w.os.now := by
    intro d h
    obtain ⟨client, -, h⟩ := bind_eq_ok.mp h
    split at h
    · cases h
    · exact serverRecv_now (onServerRecv_cases h)
  unfold dispatch at h
  split at h
  · exact session h
  · exact session h
  · exact clientRecv_now (onClientRecv_cases h)
  · exact clientRecv_now (onClientRecv_cases h)
  · exact serverRecv_now (onServerRecv_cases h)
  · obtain ⟨kcpev, -, h⟩ := bind_eq_ok.mp h
    split at h
    · exact session h
    · exact clientRecv_now (onClientRecv_cases h)

omit [KcpImpl K] in
theorem tcpAccept_now {answer : Option AcceptAnswer} (h : tcpAccept w fd answer = .ok w') :
    w'.os.now = w.os.now := by
  unfold tcpAccept at h
  split at h
  · cases h
    rfl
  · cases h
    rfl
  split at h
  · cases h
    rfl
  rename_i a _ _ os s hopen
  have hnow := openSock_now hopen
  split at h
  · cases h
    exact hnow
  split at h
  · cases h
    exact hnow
  split at h
  · cases h
    exact hnow
  obtain ⟨server, -, h⟩ := bind_eq_ok.mp h
  rcases hinit : kcpevInitEv { os with next := os.next + 1 } (.kcpev os.next)
    (acceptBase s : KcpevBase T) (some .serverTcpRecv) none { tcp := a.evio, udp := true } with
    ⟨os₁, b, r⟩
  have hstarted : os₁.now = w.os.now := (initEv_now hinit).trans hnow
  simp only [hinit] at h
  split at h
  · cases h
    dsimp only
    rw [base_destroy_now]
    exact hstarted
  obtain ⟨⟨os₂, ret⟩, hsend, h⟩ := bind_eq_ok.mp h
  have hsent := (sockSendCommand_now hsend).trans hstarted
  by_cases hret : ret = 0
  · subst hret
    cases h
    exact hsent
  · simp only [ne_eq, hret, not_false_eq_true, if_true] at h
    cases h
    dsimp only
    rw [base_destroy_now]
    exact hsent

omit [KcpImpl K] [ClockImpl T] in
theorem tcpReceived_now {client : Kcpev T} {data : Bytes} {a : IoAnswer}
    (h : tcpReceived w src c client addr data a = .ok (w', ctl)) : w'.os.now = w.os.now := by
  obtain ⟨⟨rb, size⟩, -, h⟩ := bind_eq_ok.mp h
  dsimp only at h
  split at h
  · cases h
    rfl
  · cases h
    rfl

omit [KcpImpl K] [ClockImpl T] in
theorem tryKcpRecv_now (h : tryKcpRecv w c = .ok (w', ctl)) : w'.os.now = w.os.now := by
  obtain ⟨client, -, h⟩ := bind_eq_ok.mp h
  split at h
  · cases h
  · cases h
    rfl

omit [ClockImpl T] in
theorem kcpReceived_now {client : Kcpev T} {data : Bytes}
    (h : kcpReceived w c client data = .ok (w', ctl)) : w'.os.now = w.os.now := by
  unfold kcpReceived at h
  split at h
  · cases h
  obtain ⟨os, hin, h⟩ := bind_eq_ok.mp h
  exact (tryKcpRecv_now h).trans (ikcpInput_now hin)

theorem ioEvent_now {e : EvIo} {a : IoAnswer} (h : ioEvent w e a = .ok (w', ctl)) :
    w'.os.now = w.os.now := by
  unfold ioEvent at h
  split at h
  · obtain ⟨w₁, haccept, h⟩ := bind_eq_ok.mp h
    cases h
    exact tcpAccept_now haccept
  · unfold serverUdpRecvAll at h
    split at h
    · cases h
      rfl
    · cases h
      rfl
  · obtain ⟨client, -, h⟩ := bind_eq_ok.mp h
    split at h
    · cases h
      rfl
    · exact tcpReceived_now h
  · unfold serverUdpRecv at h
    split at h
    · cases h
      rfl
    obtain ⟨client, -, h⟩ := bind_eq_ok.mp h
    split at h
    · split at h
      · cases h
        rfl
      · cases h
        rfl
    · exact kcpReceived_now h
  · unfold clientTcpRecv at h
    split at h
    · cases h
    · obtain ⟨client, -, h⟩ := bind_eq_ok.mp h
      exact tcpReceived_now h
  · unfold clientUdpRecv at h
    split at h
    · cases h
      rfl
    obtain ⟨client, -, h⟩ := bind_eq_ok.mp h
    split at h
    · cases h
      rfl
    · exact kcpReceived_now h
  · cases h
    rfl

theorem timerRepeat_now {output : ℕ → Option ℕ} (h : kcpevTimerRepeat w c output = .ok w') :
    w'.os.now = w.os.now := by
  obtain ⟨client, -, h⟩ := bind_eq_ok.mp h
  split at h
  · cases h
    rfl
  split at h
  · cases h
  dsimp only at h
  split at h
  · cases h
  cases h
  dsimp only
  rw [evTimerAgain_now]
  split
  · exact udpOutputs_now ..
  · rfl

theorem timerEvent_now {e : EvTimer} {a : TimerAnswer} (h : timerEvent w e a = .ok (w', ctl)) :
    w'.os.now = w.os.now := by
  unfold timerEvent at h
  split at h
  · obtain ⟨w₁, hrepeat, h⟩ := bind_eq_ok.mp h
    exact (tryKcpRecv_now h).trans (timerRepeat_now hrepeat)
  · obtain ⟨w₁, hheart, h⟩ := bind_eq_ok.mp h
    cases h
    obtain ⟨client, -, hheart⟩ := bind_eq_ok.mp hheart
    split at hheart
    · cases hheart
      rfl
    split at hheart
    · cases hheart
      rfl
    · obtain ⟨⟨os, r⟩, hsend, hheart⟩ := bind_eq_ok.mp hheart
      cases hheart
      exact kcpSendCommand_now hsend
  · obtain ⟨w₁, hheart, h⟩ := bind_eq_ok.mp h
    cases h
    obtain ⟨client, -, hheart⟩ := bind_eq_ok.mp hheart
    split at hheart
    · cases hheart
      rfl
    split at hheart
    · obtain ⟨⟨os, r⟩, hsend, hheart⟩ := bind_eq_ok.mp hheart
      cases hheart
      exact sockSendCommand_now hsend
    · cases hheart
      rfl
  · cases h
    rfl

theorem createClient_now (w : World K T) (a : CreateClientAnswer) :
    (kcpevCreateClient w a).os.now = w.os.now := by
  unfold kcpevCreateClient
  split
  · rfl
  dsimp only
  rcases hbind : kcpevBind { w.os with next := w.os.next + 1 }
    (kcpevCreate : Kcpev T).toKcpevBase false a.bind with ⟨os₁, b₁, r₁⟩
  have hbound := bind_now hbind
  have hbound : os₁.now = w.os.now := hbound
  dsimp only
  split
  · exact (base_destroy_now _ _).trans hbound
  rcases hcreate : kcpevCreateKcp os₁ b₁.udp (kcpevCreate : Kcpev T).key.conv a.kcp with
    ⟨os₂, udp, r₂⟩
  have hcreated := (createKcp_now hcreate).trans hbound
  dsimp only
  split
  · exact (base_destroy_now _ _).trans hcreated
  rcases hinit : kcpevInitEv os₂ (.kcpev w.os.next) { b₁ with udp } (some .clientTcpRecv)
    (some .clientUdpRecv) a.initEv with ⟨os₃, b₃, r₃⟩
  have hdone := (initEv_now hinit).trans hcreated
  dsimp only
  split
  · exact (base_destroy_now _ _).trans hdone
  · exact hdone

omit [KcpImpl K] in
theorem createServer_now (w : World K T) (a : CreateServerAnswer) :
    (kcpevCreateServer w a).os.now = w.os.now := by
  unfold kcpevCreateServer
  split
  · rfl
  dsimp only
  rcases hbind : kcpevBind w.os (kcpevServerCreate : KcpevServer T).toKcpevBase true a.bind with
    ⟨os₁, b₁, r₁⟩
  have hbound := bind_now hbind
  dsimp only
  split
  · exact (base_destroy_now _ _).trans hbound
  rcases hinit : kcpevInitEv os₁ .server b₁ (some .tcpAccept) (some .serverUdpRecvAll) a.initEv with
    ⟨os₃, b₃, r₃⟩
  have hdone := (initEv_now hinit).trans hbound
  dsimp only
  split
  · exact (base_destroy_now _ _).trans hdone
  split
  · exact (base_destroy_now _ _).trans hdone
  · exact hdone

omit [KcpImpl K] [ClockImpl T] in
theorem serverDestroy_now (h : w.kcpevServerDestroy = .ok w') : w'.os.now = w.os.now := by
  have hlist : ∀ {l : List (KcpevKey × ℕ)} {w w' : World K T}, w.deleteHash l = .ok w' →
      w'.os.now = w.os.now := by
    intro l
    induction l with
    | nil =>
      intro w w' h
      cases h
      rfl
    | cons e rest ih =>
      intro w w' h
      obtain ⟨w₁, hdestroy, h⟩ := bind_eq_ok.mp h
      obtain ⟨client, -, hdestroy⟩ := bind_eq_ok.mp hdestroy
      cases hdestroy
      exact (ih h).trans (base_destroy_now w.os client.toKcpevBase)
  obtain ⟨server, -, h⟩ := bind_eq_ok.mp h
  obtain ⟨w₁, hdelete, h⟩ := bind_eq_ok.mp h
  cases h
  exact (hlist hdelete).trans (base_destroy_now w.os server.toKcpevBase)

omit [ClockImpl T] in
theorem drainRound_now (h : drainRound w src addr = .ok (w', ctl)) : w'.os.now = w.os.now := by
  unfold drainRound at h
  split at h
  · obtain ⟨client, -, h⟩ := bind_eq_ok.mp h
    obtain ⟨⟨rb, chunk⟩, -, h⟩ := bind_eq_ok.mp h
    dsimp only at h
    split at h
    · cases h
      rfl
    · cases h
      rfl
  · obtain ⟨client, -, h⟩ := bind_eq_ok.mp h
    obtain ⟨⟨rb, chunk⟩, -, h⟩ := bind_eq_ok.mp h
    dsimp only at h
    split at h
    · cases h
      rfl
    · cases h
      rfl
  · obtain ⟨⟨w₁, answer⟩, hrecv, h⟩ := bind_eq_ok.mp h
    have hnow : w₁.os.now = w.os.now := by
      unfold World.ikcpRecv at hrecv
      split at hrecv
      · cases hrecv
      · cases hrecv
        rfl
    rcases answer with _ | _ | ⟨b, rest⟩
    · cases h
      exact hnow
    · cases h
      exact hnow
    dsimp only at h
    split at h
    · cases h
    obtain ⟨client, -, h⟩ := bind_eq_ok.mp h
    split at h
    · split at h
      · cases h
        exact hnow
      · cases h
        exact hnow
    · cases h
      exact hnow
  · cases h
    rfl
  · cases h
    rfl
  · cases h
    rfl

theorem apply_now (h : apply w i = .ok w') : w'.os.now = w.os.now ∨ i = .now w'.os.now := by
  unfold apply at h
  split at h
  · cases h
    exact Or.inl (createClient_now w _)
  · cases h
    split
    · exact Or.inl rfl
    · exact Or.inl (createServer_now w _)
  · obtain ⟨client, -, h⟩ := bind_eq_ok.mp h
    cases h
    exact Or.inl rfl
  · obtain ⟨server, -, h⟩ := bind_eq_ok.mp h
    cases h
    exact Or.inl rfl
  · obtain ⟨client, -, h⟩ := bind_eq_ok.mp h
    split at h
    · cases h
      exact Or.inl rfl
    · split at h
      rename_i hconn
      cases h
      exact Or.inl (kcpevConnect_now hconn)
  · obtain ⟨client, -, h⟩ := bind_eq_ok.mp h
    obtain ⟨⟨os, r⟩, hsend, h⟩ := bind_eq_ok.mp h
    cases h
    exact Or.inl (kcpevSendCommand_now hsend)
  · obtain ⟨client, -, h⟩ := bind_eq_ok.mp h
    obtain ⟨⟨os, r⟩, hsend, h⟩ := bind_eq_ok.mp h
    cases h
    exact Or.inl (sockSendCommand_now hsend)
  · cases h
    exact Or.inr rfl
  all_goals
    cases h
    exact Or.inl rfl

/-- A step leaves the clock alone, or it is the clock that moves. -/
theorem step_now (h : step p i = .ok p') :
    p'.world.os.now = p.world.os.now ∨ i = .now p'.world.os.now := by
  unfold step at h
  split at h
  · obtain ⟨⟨w₁, ctl₁⟩, hround, h⟩ := bind_eq_ok.mp h
    cases h
    unfold callbackRound at hround
    left
    split at hround
    · cases hround
      rfl
    · exact drainRound_now hround
    · obtain ⟨⟨w₂, ret⟩, hdispatch, hround⟩ := bind_eq_ok.mp hround
      obtain ⟨ctl₂, -, hround⟩ := bind_eq_ok.mp hround
      cases hround
      exact dispatch_now hdispatch
    · obtain ⟨w₂, hclose, hround⟩ := bind_eq_ok.mp hround
      cases hround
      obtain ⟨client, server, -, -, -, rfl⟩ := World.closeClient_cases hclose
      exact base_destroy_now _ _
  · split at h
    · obtain ⟨⟨w₁, ctl₁⟩, hio, h⟩ := bind_eq_ok.mp h
      cases h
      exact Or.inl (ioEvent_now hio)
    · cases h
      exact Or.inl rfl
  · split at h
    · obtain ⟨⟨w₁, ctl₁⟩, hevent, h⟩ := bind_eq_ok.mp h
      cases h
      exact Or.inl (timerEvent_now hevent)
    · cases h
      exact Or.inl rfl
  · split at h
    · obtain ⟨w₁, hdestroy, h⟩ := bind_eq_ok.mp h
      cases h
      exact Or.inl (serverDestroy_now hdestroy)
    · cases h
      exact Or.inl rfl
  · split at h
    · obtain ⟨w₁, happly, h⟩ := bind_eq_ok.mp h
      cases h
      exact apply_now happly
    · cases h
      exact Or.inl rfl

end Step

end KcpEv
