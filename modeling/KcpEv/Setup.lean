import KcpEv.Registry

/-!
The functions that set an object up or destroy it. They open and close sockets, start
and stop watchers, create and release KCP objects and stop timers; they send nothing
and start no timer. A relation that all of this respects is respected by them.
-/
namespace KcpEv

variable {K T : Type} [KcpImpl K]

/-- A relation that is respected by every change setting up and destroying is made of. -/
structure Os.Setup (R : Os K T → Os K T → Prop) : Prop where
  refl : ∀ os, R os os
  trans : ∀ {os os' os''}, R os os' → R os' os'' → R os os''
  rest : ∀ {os os'}, os'.out = os.out → os'.kcps = os.kcps → os'.timers = os.timers →
    os.next ≤ os'.next → R os os'
  stop : ∀ os q, R os (os.evTimerStop q)
  release : ∀ os q, R os (os.ikcpRelease q)
  create : ∀ os conv, R os (os.ikcpCreate conv).1

namespace Os.Setup

variable {R : Os K T → Os K T → Prop} {os os' : Os K T}

theorem closeSock (h : Setup R) (os : Os K T) (evs : KcpevSock) :
    R os (KcpEv.closeSock os evs).1 := by
  unfold KcpEv.closeSock
  split
  · exact h.refl os
  · exact h.rest rfl rfl rfl le_rfl

theorem stopIo (h : Setup R) (os : Os K T) (evs : KcpevSock) : R os (KcpEv.stopIo os evs).1 := by
  unfold KcpEv.stopIo
  split
  · exact h.refl os
  · exact h.rest rfl rfl rfl le_rfl

theorem destroySock (h : Setup R) (os : Os K T) (evs : KcpevSock) : R os (evs.destroy os).1 :=
  h.trans (h.closeSock os evs) (h.stopIo _ _)

theorem stopEvt (h : Setup R) (os : Os K T) (evs : KcpevUdp T) :
    R os (KcpEv.stopEvt os evs).1 := by
  unfold KcpEv.stopEvt
  split
  · exact h.refl os
  · exact h.stop os _

theorem stopEvh (h : Setup R) (os : Os K T) (evs : KcpevUdp T) :
    R os (KcpEv.stopEvh os evs).1 := by
  unfold KcpEv.stopEvh
  split
  · exact h.refl os
  · exact h.stop os _

theorem releaseKcp (h : Setup R) (os : Os K T) (evs : KcpevUdp T) :
    R os (KcpEv.releaseKcp os evs).1 := by
  unfold KcpEv.releaseKcp
  split
  · exact h.refl os
  · exact h.release os _

theorem destroyUdp (h : Setup R) (os : Os K T) (evs : KcpevUdp T) : R os (evs.destroy os).1 :=
  h.trans (h.trans (h.trans (h.destroySock os _) (h.stopEvt _ _)) (h.stopEvh _ _))
    (h.releaseKcp _ _)

theorem destroy (h : Setup R) (os : Os K T) (b : KcpevBase T) : R os (b.destroy os) :=
  h.trans (h.destroySock os _) (h.destroyUdp _ _)

theorem openSock (h : Setup R) {answer : Option ℕ} {peer : Option Addr} {fd : Option ℕ}
    (hopen : os.openSock answer peer = (os', fd)) : R os os' := by
  rcases os.openSock_cases answer peer with heq | ⟨s, -, heq⟩
  · rw [heq] at hopen
    cases hopen
    exact h.refl os
  · rw [heq] at hopen
    cases hopen
    exact h.rest rfl rfl rfl le_rfl

theorem bindSocket (h : Setup R) {sock sock' : KcpevSock} {reuse : Bool} {a : BindAnswer} {ret : ℤ}
    (hbind : kcpevBindSocket os sock reuse a = (os', sock', ret)) : R os os' := by
  unfold kcpevBindSocket at hbind
  split at hbind
  · cases hbind
    exact h.refl os
  · rcases bindLoop_cases reuse a.addrs os with ⟨hl, -⟩ | ⟨s, -, hl, -⟩ | ⟨s, -, hl, -⟩
    · rw [hl] at hbind
      cases hbind
      exact h.refl os
    · rw [hl] at hbind
      cases hbind
      exact h.rest rfl rfl rfl le_rfl
    · rw [hl] at hbind
      cases hbind
      exact h.rest rfl rfl rfl le_rfl

theorem bind (h : Setup R) {b b' : KcpevBase T} {reuse : Bool} {a : KcpevBindAnswer} {ret : ℤ}
    (hbind : kcpevBind os b reuse a = (os', b', ret)) : R os os' := by
  unfold kcpevBind at hbind
  rcases htcp : kcpevBindSocket os b.tcp.toKcpevSock reuse a.tcp with ⟨os₁, s, r⟩
  have hfirst := h.bindSocket htcp
  rw [htcp] at hbind
  dsimp only at hbind
  split at hbind
  · cases hbind
    exact hfirst
  split at hbind
  · cases hbind
    exact hfirst
  split at hbind
  · cases hbind
    exact hfirst
  rcases hudp : kcpevBindSocket os₁ b.udp.toKcpevSock reuse a.udp with ⟨os₂, s', r'⟩
  have hsecond := h.bindSocket hudp
  rw [hudp] at hbind
  cases hbind
  exact h.trans hfirst hsecond

theorem connect (h : Setup R) (os : Os K T) (fd : ℕ) (addr : Addr) : R os (os.connect fd addr) := by
  unfold Os.connect
  split
  · exact h.refl os
  · exact h.rest rfl rfl rfl le_rfl

theorem connectSocket (h : Setup R) {sock : KcpevSock} {addr : Addr} {a : ConnectAnswer} {ret : ℤ}
    (hconn : kcpevConnectSocket os sock addr a = (os', ret)) : R os os' := by
  unfold kcpevConnectSocket at hconn
  split at hconn
  · cases hconn
    exact h.refl os
  split at hconn
  · cases hconn
    exact h.refl os
  split at hconn
  · cases hconn
    exact h.connect os _ _
  · cases hconn
    exact h.refl os

theorem kcpevConnect (h : Setup R) {b b' : KcpevBase T} {addr : Addr} {a : KcpevConnectAnswer}
    {ret : ℤ} (hconn : KcpEv.kcpevConnect os b addr a = (os', b', ret)) : R os os' := by
  unfold KcpEv.kcpevConnect at hconn
  rcases htcp : kcpevConnectSocket os b.tcp.toKcpevSock addr a.tcp with ⟨os₁, r⟩
  have hfirst := h.connectSocket htcp
  rw [htcp] at hconn
  dsimp only at hconn
  split at hconn
  · cases hconn
    exact hfirst
  rcases hudp : kcpevConnectSocket os₁ b.udp.toKcpevSock addr a.udp with ⟨os₂, r'⟩
  have hsecond := h.trans hfirst (h.connectSocket hudp)
  rw [hudp] at hconn
  dsimp only at hconn
  split at hconn
  · cases hconn
    exact h.trans hsecond (h.closeSock _ _)
  · cases hconn
    exact hsecond

theorem setEvIf (h : Setup R) {o : Owner} {evs evs' : KcpevSock} {cb : Option IoCb} {alloc : Bool}
    {ret : ℤ} (hset : kcpevSetEvIf os o evs cb alloc = (os', evs', ret)) : R os os' := by
  unfold kcpevSetEvIf kcpevSetEv at hset
  split at hset
  · cases hset
    exact h.refl os
  split at hset
  · cases hset
    exact h.refl os
  split at hset
  · cases hset
    exact h.refl os
  · cases hset
    exact h.rest rfl rfl rfl (Nat.le_succ _)

theorem initEv (h : Setup R) {o : Owner} {b b' : KcpevBase T} {tcpCb udpCb : Option IoCb}
    {a : InitEvAnswer} {ret : ℤ} (hinit : kcpevInitEv os o b tcpCb udpCb a = (os', b', ret)) :
    R os os' := by
  unfold kcpevInitEv at hinit
  rcases htcp : kcpevSetEvIf os o b.tcp.toKcpevSock tcpCb a.tcp with ⟨os₁, s, r⟩
  have hfirst := h.setEvIf htcp
  rw [htcp] at hinit
  dsimp only at hinit
  split at hinit
  · cases hinit
    exact hfirst
  rcases hudp : kcpevSetEvIf os₁ o b.udp.toKcpevSock udpCb a.udp with ⟨os₂, s', r'⟩
  have hsecond := h.setEvIf hudp
  rw [hudp] at hinit
  cases hinit
  exact h.trans hfirst hsecond

theorem createKcp (h : Setup R) {udp udp' : KcpevUdp T} {conv : ℕ} {alloc : Bool} {ret : ℤ}
    (hcreate : kcpevCreateKcp os udp conv alloc = (os', udp', ret)) : R os os' := by
  unfold kcpevCreateKcp at hcreate
  split at hcreate
  · cases hcreate
    exact h.refl os
  · cases hcreate
    exact h.create os conv

theorem connectClientUdp (h : Setup R) {c : ℕ} {client client' : Kcpev T} {addr : Addr}
    {a : RecvAnswer} {ret : ℤ}
    (hconn : KcpEv.connectClientUdp os c client addr a = (os', client', ret)) : R os os' := by
  have error : ∀ {os₁ : Os K T} {udp : KcpevUdp T}, R os os₁ →
      connectClientUdpError os₁ client udp = (os', client', ret) → R os os' := by
    intro os₁ udp hdone herr
    rw [connectClientUdpError_eq] at herr
    cases herr
    exact h.trans hdone (h.destroyUdp _ _)
  unfold KcpEv.connectClientUdp at hconn
  rcases hbind : kcpevBindSocket os client.udp.toKcpevSock true a.bind with ⟨os₁, k, r⟩
  have hbound := h.bindSocket hbind
  rw [hbind] at hconn
  dsimp only at hconn
  split at hconn
  · exact error hbound hconn
  split at hconn
  · exact error hbound hconn
  have hconnected := h.trans hbound (h.connect os₁ k.sock addr)
  rcases hcreate : kcpevCreateKcp (os₁.connect k.sock addr)
    { client.udp with toKcpevSock := k } client.key.conv a.kcp with ⟨os₂, udp, r₂⟩
  have hcreated := h.trans hconnected (h.createKcp hcreate)
  rw [hcreate] at hconn
  dsimp only at hconn
  split at hconn
  · exact error hcreated hconn
  rcases hinit : kcpevInitEv os₂ (.kcpev c) { client.toKcpevBase with udp } none
    (some .serverUdpRecv) { tcp := true, udp := a.evio } with ⟨os₃, b, r₃⟩
  have hdone := h.trans hcreated (h.initEv hinit)
  rw [hinit] at hconn
  dsimp only at hconn
  split at hconn
  · exact error hdone hconn
  · cases hconn
    exact hdone

theorem deleteHash (h : Setup R) {w w' : World K T} {l : List (KcpevKey × ℕ)}
    (hdelete : w.deleteHash l = .ok w') : R w.os w'.os := by
  induction l generalizing w with
  | nil =>
    cases hdelete
    exact h.refl _
  | cons e rest ih =>
    obtain ⟨w₁, hdestroy, hdelete⟩ := bind_eq_ok.mp hdelete
    obtain ⟨client, -, hdestroy⟩ := bind_eq_ok.mp hdestroy
    cases hdestroy
    exact h.trans (h.destroy w.os client.toKcpevBase) (ih hdelete)

theorem serverDestroy (h : Setup R) {w w' : World K T} (hw : w.kcpevServerDestroy = .ok w') :
    R w.os w'.os := by
  obtain ⟨server, -, hw⟩ := bind_eq_ok.mp hw
  obtain ⟨w₁, hdelete, hw⟩ := bind_eq_ok.mp hw
  cases hw
  exact h.trans (h.destroy w.os server.toKcpevBase) (h.deleteHash hdelete)

theorem closeClient (h : Setup R) {w w' : World K T} {c : ℕ} (hw : w.closeClient c = .ok w') :
    R w.os w'.os := by
  obtain ⟨client, server, -, -, -, rfl⟩ := World.closeClient_cases hw
  exact h.destroy w.os client.toKcpevBase

variable [ClockImpl T]

theorem createClient (h : Setup R) (w : World K T) (a : CreateClientAnswer) :
    R w.os (kcpevCreateClient w a).os := by
  unfold kcpevCreateClient
  split
  · exact h.refl _
  dsimp only
  have hnext : R w.os { w.os with next := w.os.next + 1 } := h.rest rfl rfl rfl (Nat.le_succ _)
  rcases hbind : kcpevBind { w.os with next := w.os.next + 1 }
    (kcpevCreate : Kcpev T).toKcpevBase false a.bind with ⟨os₁, b₁, r₁⟩
  have hbound := h.trans hnext (h.bind hbind)
  dsimp only
  split
  · exact h.trans hbound (h.destroy _ _)
  rcases hcreate : kcpevCreateKcp os₁ b₁.udp (kcpevCreate : Kcpev T).key.conv a.kcp with
    ⟨os₂, udp, r₂⟩
  have hcreated := h.trans hbound (h.createKcp hcreate)
  dsimp only
  split
  · exact h.trans hcreated (h.destroy _ _)
  rcases hinit : kcpevInitEv os₂ (.kcpev w.os.next) { b₁ with udp } (some .clientTcpRecv)
    (some .clientUdpRecv) a.initEv with ⟨os₃, b₃, r₃⟩
  have hdone := h.trans hcreated (h.initEv hinit)
  dsimp only
  split
  · exact h.trans hdone (h.destroy _ _)
  · exact hdone

theorem createServer (h : Setup R) (w : World K T) (a : CreateServerAnswer) :
    R w.os (kcpevCreateServer w a).os := by
  unfold kcpevCreateServer
  split
  · exact h.refl _
  dsimp only
  rcases hbind : kcpevBind w.os (kcpevServerCreate : KcpevServer T).toKcpevBase true a.bind with
    ⟨os₁, b₁, r₁⟩
  have hbound := h.bind hbind
  dsimp only
  split
  · exact h.trans hbound (h.destroy _ _)
  rcases hinit : kcpevInitEv os₁ .server b₁ (some .tcpAccept) (some .serverUdpRecvAll) a.initEv with
    ⟨os₃, b₃, r₃⟩
  have hdone := h.trans hbound (h.initEv hinit)
  dsimp only
  split
  · exact h.trans hdone (h.destroy _ _)
  split
  · exact h.trans hdone (h.destroy _ _)
  · exact hdone

end Os.Setup

end KcpEv
