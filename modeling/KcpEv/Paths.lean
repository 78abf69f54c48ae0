import KcpEv.Sources

/-!
The UDP path of an object: its socket, with the address it is connected to, and its KCP
object, with the conversation number. A step leaves the path of a session alone, unless
it sets one up or takes it down, and only a client renumbers a KCP object, its own.
-/
namespace KcpEv

open Ownership

variable {K T : Type}

/-! Sockets. -/

namespace Os

/-- The open sockets stay as they are. -/
def Opens (os os' : Os K T) : Prop := ∀ fd, (os.socks fd).isSome → os'.socks fd = os.socks fd

/-- No socket gets open, or another peer. -/
def Shuts (os os' : Os K T) : Prop := ∀ fd, (os'.socks fd).isSome → os'.socks fd = os.socks fd

/-- A socket that was open and still is has the same peer. -/
def SameOpen (os os' : Os K T) : Prop :=
  ∀ fd, (os.socks fd).isSome → (os'.socks fd).isSome → os'.socks fd = os.socks fd

variable {os os' os'' : Os K T}

theorem Opens.of_eq (h : os'.socks = os.socks) : os.Opens os' := fun fd _ => congrFun h fd

theorem Opens.trans (h : os.Opens os') (h' : os'.Opens os'') : os.Opens os'' := by
  intro fd hfd
  have hsame := h fd hfd
  rw [← hsame] at hfd
  exact (h' fd hfd).trans hsame

theorem Opens.shuts (h : os.Opens os') (h' : os'.Shuts os'') : os.SameOpen os'' :=
  fun fd hfd hfd' => (h' fd hfd').trans (h fd hfd)

theorem Opens.same (h : os.Opens os') : os.SameOpen os' := fun fd hfd _ => h fd hfd

theorem opens_update {s : ℕ} (hfree : os.socks s = none) (v : Option Sock) :
    os.Opens { os with socks := Function.update os.socks s v } := by
  intro fd hfd
  have hne : fd ≠ s := by
    intro heq
    rw [heq, hfree] at hfd
    cases hfd
  exact Function.update_of_ne hne _ _

theorem Shuts.of_eq (h : os'.socks = os.socks) : os.Shuts os' := fun fd _ => congrFun h fd

theorem Shuts.trans (h : os.Shuts os') (h' : os'.Shuts os'') : os.Shuts os'' := by
  intro fd hfd
  have hsame := h' fd hfd
  rw [hsame] at hfd ⊢
  exact h fd hfd

theorem Shuts.same (h : os.Shuts os') : os.SameOpen os' := fun fd _ hfd' => h fd hfd'

theorem shuts_close (os : Os K T) (s : ℕ) : os.Shuts (os.close s) := by
  intro fd hfd
  simp only [close, Function.update_apply] at hfd ⊢
  split
  · rename_i heq
    rw [if_pos heq] at hfd
    cases hfd
  · rfl

end Os

section Socks
variable {os os' : Os K T} {b b' : KcpevBase T} {ret : ℤ}

theorem destroySock_shuts (os : Os K T) (evs : KcpevSock) : os.Shuts (evs.destroy os).1 := by
  have hclose : os.Shuts (closeSock os evs).1 := by
    unfold closeSock
    split
    · exact .of_eq rfl
    · exact os.shuts_close _
  have hstop : ∀ (os : Os K T) (evs : KcpevSock), (stopIo os evs).1.socks = os.socks := by
    intro os evs
    unfold stopIo
    split
    · rfl
    · rfl
  exact hclose.trans (.of_eq (hstop _ _))

theorem destroyUdp_shuts (os : Os K T) (evs : KcpevUdp T) : os.Shuts (evs.destroy os).1 := by
  refine (destroySock_shuts os evs.toKcpevSock).trans (.of_eq ?_)
  have hevt : ∀ (os : Os K T) (evs : KcpevUdp T), (stopEvt os evs).1.socks = os.socks := by
    intro os evs
    unfold stopEvt
    split
    · rfl
    · rfl
  have hevh : ∀ (os : Os K T) (evs : KcpevUdp T), (stopEvh os evs).1.socks = os.socks := by
    intro os evs
    unfold stopEvh
    split
    · rfl
    · rfl
  have hkcp : ∀ (os : Os K T) (evs : KcpevUdp T), (releaseKcp os evs).1.socks = os.socks := by
    intro os evs
    unfold releaseKcp
    split
    · rfl
    · rfl
  exact ((hkcp _ _).trans (hevh _ _)).trans (hevt _ _)

theorem destroy_shuts (os : Os K T) (b : KcpevBase T) : os.Shuts (b.destroy os) :=
  (destroySock_shuts os b.tcp.toKcpevSock).trans (destroyUdp_shuts _ b.udp)

theorem bindSocket_opens {sock sock' : KcpevSock} {reuse : Bool} {a : BindAnswer}
    (h : kcpevBindSocket os sock reuse a = (os', sock', ret)) : os.Opens os' := by
  unfold kcpevBindSocket at h
  split at h
  · cases h
    exact .of_eq rfl
  · rcases bindLoop_cases reuse a.addrs os with ⟨hl, -⟩ | ⟨s, hs, hl, -⟩ | ⟨s, hs, hl, -⟩
    · rw [hl] at h
      cases h
      exact .of_eq rfl
    · rw [hl] at h
      cases h
      exact os.opens_update hs _
    · rw [hl] at h
      cases h
      exact os.opens_update hs _

theorem bind_opens {reuse : Bool} {a : KcpevBindAnswer}
    (h : kcpevBind os b reuse a = (os', b', ret)) : os.Opens os' := by
  unfold kcpevBind at h
  rcases htcp : kcpevBindSocket os b.tcp.toKcpevSock reuse a.tcp with ⟨os₁, s, r⟩
  have hfirst := bindSocket_opens htcp
  rw [htcp] at h
  dsimp only at h
  split at h
  · cases h
    exact hfirst
  split at h
  · cases h
    exact hfirst
  split at h
  · cases h
    exact hfirst
  rcases hudp : kcpevBindSocket os₁ b.udp.toKcpevSock reuse a.udp with ⟨os₂, s', r'⟩
  rw [hudp] at h
  cases h
  exact hfirst.trans (bindSocket_opens hudp)

theorem kcpevConnect_socks {addr : Addr} {a : KcpevConnectAnswer} {fd : ℕ}
    (htcp : fd ≠ b.tcp.sock) (hudp : fd ≠ b.udp.sock)
    (h : kcpevConnect os b addr a = (os', b', ret)) : os'.socks fd = os.socks fd := by
  have connect : ∀ {os os' : Os K T} {sock : KcpevSock} {a : ConnectAnswer} {r : ℤ},
      fd ≠ sock.sock → kcpevConnectSocket os sock addr a = (os', r) →
      os'.socks fd = os.socks fd := by
    intro os os' sock a r hne h
    unfold kcpevConnectSocket at h
    split at h
    · cases h
      rfl
    split at h
    · cases h
      rfl
    split at h
    · cases h
      unfold Os.connect
      split
      · rfl
      · exact Function.update_of_ne hne _ _
    · cases h
      rfl
  unfold kcpevConnect at h
  rcases hfirst : kcpevConnectSocket os b.tcp.toKcpevSock addr a.tcp with ⟨os₁, r⟩
  have hsame := connect htcp hfirst
  rw [hfirst] at h
  dsimp only at h
  split at h
  · cases h
    exact hsame
  rcases hsecond : kcpevConnectSocket os₁ b.udp.toKcpevSock addr a.udp with ⟨os₂, r'⟩
  have hsame' := (connect hudp hsecond).trans hsame
  rw [hsecond] at h
  dsimp only at h
  split at h
  · cases h
    rw [← hsame']
    unfold closeSock
    split
    · rfl
    · exact Function.update_of_ne hudp _ _
  · cases h
    exact hsame'

section Kcp
variable [KcpImpl K]

theorem createKcp_socks {udp udp' : KcpevUdp T} {conv : ℕ} {alloc : Bool}
    (h : kcpevCreateKcp os udp conv alloc = (os', udp', ret)) : os'.socks = os.socks := by
  unfold kcpevCreateKcp at h
  split at h
  · cases h
    rfl
  · cases h
    rfl

theorem connectClientUdp_sameOpen {c : ℕ} {client client' : Kcpev T} {addr : Addr} {a : RecvAnswer}
    (h : connectClientUdp os c client addr a = (os', client', ret)) : os.SameOpen os' := by
  rcases connectClientUdp_cases h with ⟨hret, -⟩ | ⟨-, hconn⟩
  · have error : ∀ {os₁ : Os K T} {udp : KcpevUdp T}, os.Opens os₁ →
        connectClientUdpError os₁ client udp = (os', client', ret) → os.SameOpen os' := by
      intro os₁ udp hopens herr
      rw [connectClientUdpError_eq] at herr
      cases herr
      exact hopens.shuts (destroyUdp_shuts _ _)
    unfold connectClientUdp at h
    rcases hbind : kcpevBindSocket os client.udp.toKcpevSock true a.bind with ⟨os₁, k, r⟩
    rw [hbind] at h
    dsimp only at h
    split at h
    · exact error (bindSocket_opens hbind) h
    rename_i hr
    split at h
    · exact error (bindSocket_opens hbind) h
    obtain ⟨hfree, rfl⟩ := kcpevBindSocket_ok hbind hr
    have hconnected : os.Opens (Os.connect { os with
        socks := Function.update os.socks k.sock (some ⟨none⟩) } k.sock addr) := by
      simp only [Os.connect, Function.update_self, Function.update_idem]
      exact os.opens_update hfree _
    rcases hcreate : kcpevCreateKcp (({ os with
      socks := Function.update os.socks k.sock (some ⟨none⟩) } : Os K T).connect k.sock addr)
      { client.udp with toKcpevSock := k } client.key.conv a.kcp with ⟨os₂, udp, r₂⟩
    have hcreated := hconnected.trans (.of_eq (createKcp_socks hcreate))
    rw [hcreate] at h
    dsimp only at h
    split at h
    · exact error hcreated h
    rcases hinit : kcpevInitEv os₂ (.kcpev c) { client.toKcpevBase with udp } none
      (some .serverUdpRecv) { tcp := true, udp := a.evio } with ⟨os₃, b, r₃⟩
    have hdone := hcreated.trans (.of_eq (kcpevInitEv_socks hinit))
    rw [hinit] at h
    dsimp only at h
    split at h
    · exact error hdone h
    · cases h
      cases hret
  · intro fd hfd _
    have hne : fd ≠ client'.udp.sock := by
      intro heq
      rw [heq, hconn.free] at hfd
      cases hfd
    rw [hconn.socks, Function.update_of_ne hne]

variable [ClockImpl T]

theorem createClient_sameOpen (w : World K T) (a : CreateClientAnswer) :
    w.os.SameOpen (kcpevCreateClient w a).os := by
  unfold kcpevCreateClient
  split
  · exact (Os.Opens.of_eq rfl).same
  dsimp only
  have hnext : w.os.Opens { w.os with next := w.os.next + 1 } := .of_eq rfl
  rcases hbind : kcpevBind { w.os with next := w.os.next + 1 }
    (kcpevCreate : Kcpev T).toKcpevBase false a.bind with ⟨os₁, b₁, r₁⟩
  have hbound := hnext.trans (bind_opens hbind)
  dsimp only
  split
  · exact hbound.shuts (destroy_shuts _ _)
  rcases hcreate : kcpevCreateKcp os₁ b₁.udp (kcpevCreate : Kcpev T).key.conv a.kcp with
    ⟨os₂, udp, r₂⟩
  have hcreated := hbound.trans (.of_eq (createKcp_socks hcreate))
  dsimp only
  split
  · exact hcreated.shuts (destroy_shuts _ _)
  rcases hinit : kcpevInitEv os₂ (.kcpev w.os.next) { b₁ with udp } (some .clientTcpRecv)
    (some .clientUdpRecv) a.initEv with ⟨os₃, b₃, r₃⟩
  have hdone := hcreated.trans (.of_eq (kcpevInitEv_socks hinit))
  dsimp only
  split
  · exact hdone.shuts (destroy_shuts _ _)
  · exact hdone.same

omit [KcpImpl K] in
theorem createServer_sameOpen (w : World K T) (a : CreateServerAnswer) :
    w.os.SameOpen (kcpevCreateServer w a).os := by
  unfold kcpevCreateServer
  split
  · exact (Os.Opens.of_eq rfl).same
  dsimp only
  rcases hbind : kcpevBind w.os (kcpevServerCreate : KcpevServer T).toKcpevBase true a.bind with
    ⟨os₁, b₁, r₁⟩
  have hbound := bind_opens hbind
  dsimp only
  split
  · exact hbound.shuts (destroy_shuts _ _)
  rcases hinit : kcpevInitEv os₁ .server b₁ (some .tcpAccept) (some .serverUdpRecvAll) a.initEv with
    ⟨os₃, b₃, r₃⟩
  have hdone := hbound.trans (.of_eq (kcpevInitEv_socks hinit))
  dsimp only
  split
  · exact hdone.shuts (destroy_shuts _ _)
  split
  · exact hdone.shuts (destroy_shuts _ _)
  · exact hdone.same

omit [KcpImpl K] in
theorem tcpAccept_sameOpen {w w' : World K T} {fd : ℕ} {answer : Option AcceptAnswer}
    (h : tcpAccept w fd answer = .ok w') : w.os.SameOpen w'.os := by
  unfold tcpAccept at h
  split at h
  · cases h
    exact (Os.Opens.of_eq rfl).same
  · cases h
    exact (Os.Opens.of_eq rfl).same
  split at h
  · cases h
    exact (Os.Opens.of_eq rfl).same
  rename_i a _ _ os s hopen
  have hopens : w.os.Opens os := by
    rcases w.os.openSock_cases (some a.sock) (some a.peer) with heq | ⟨s', hfree, heq⟩
    · rw [heq] at hopen
      cases hopen
    · rw [heq] at hopen
      cases hopen
      exact w.os.opens_update hfree _
  split at h
  · cases h
    exact hopens.same
  split at h
  · cases h
    exact hopens.shuts (os.shuts_close s)
  split at h
  · cases h
    exact hopens.shuts (os.shuts_close s)
  obtain ⟨server, -, h⟩ := bind_eq_ok.mp h
  rcases hinit : kcpevInitEv { os with next := os.next + 1 } (.kcpev os.next)
    (acceptBase s : KcpevBase T) (some .serverTcpRecv) none { tcp := a.evio, udp := true } with
    ⟨os₁, b, r⟩
  have hnext : os.Opens { os with next := os.next + 1 } := .of_eq rfl
  have hstarted := hopens.trans (hnext.trans (.of_eq (kcpevInitEv_socks hinit)))
  simp only [hinit] at h
  split at h
  · cases h
    exact hstarted.shuts (destroy_shuts _ _)
  obtain ⟨⟨os₂, r₂⟩, hsend, h⟩ := bind_eq_ok.mp h
  have hsent := hstarted.trans (.of_eq (keeps_sockSendCommand hsend).socks)
  split at h
  · cases h
    exact hsent.shuts (destroy_shuts _ _)
  · cases h
    exact hsent.same

end Kcp

theorem deleteHash_shuts {w w' : World K T} {l : List (KcpevKey × ℕ)}
    (h : w.deleteHash l = .ok w') : w.os.Shuts w'.os := by
  induction l generalizing w with
  | nil =>
    cases h
    exact .of_eq rfl
  | cons e rest ih =>
    obtain ⟨w₁, hdestroy, h⟩ := bind_eq_ok.mp h
    obtain ⟨client, -, hdestroy⟩ := bind_eq_ok.mp hdestroy
    cases hdestroy
    have hrest := ih h
    exact (destroy_shuts w.os client.toKcpevBase).trans hrest

theorem serverDestroy_shuts {w w' : World K T} (h : w.kcpevServerDestroy = .ok w') :
    w.os.Shuts w'.os := by
  obtain ⟨server, -, h⟩ := bind_eq_ok.mp h
  obtain ⟨w₁, hdelete, h⟩ := bind_eq_ok.mp h
  cases h
  have hrest := deleteHash_shuts hdelete
  exact (destroy_shuts w.os server.toKcpevBase).trans hrest

end Socks

/-! Conversation numbers. -/

/-- A KCP object that stays keeps its conversation number; a new one has a new address. -/
structure Os.ConvsFrom (os os' : Os K T) : Prop where
  next : os.next ≤ os'.next
  old : ∀ {q k'}, os'.kcps q = some k' → os.next ≤ q ∨ ∃ k, os.kcps q = some k ∧ k'.conv = k.conv

namespace Os

variable {os os' os'' : Os K T}

theorem ConvsFrom.of_kcps (hkcps : os'.kcps = os.kcps) (hnext : os.next ≤ os'.next) :
    os.ConvsFrom os' :=
  ⟨hnext, fun hq => Or.inr ⟨_, by rw [← hkcps]; exact hq, rfl⟩⟩

theorem SameConvs.old (h : os.SameConvs os') {q : ℕ} {k' : Ikcpcb K} (hq : os'.kcps q = some k') :
    ∃ k, os.kcps q = some k ∧ k'.conv = k.conv := by
  have hsame := h q
  rw [hq, Option.map_some] at hsame
  obtain ⟨k, hk, hconv⟩ := Option.map_eq_some_iff.mp hsame.symm
  exact ⟨k, hk, hconv.symm⟩

theorem SameConvs.from (h : os.SameConvs os') (hnext : os.next ≤ os'.next) : os.ConvsFrom os' :=
  ⟨hnext, fun hq => Or.inr (h.old hq)⟩

theorem ConvsFrom.trans (h : os.ConvsFrom os') (h' : os'.ConvsFrom os'') : os.ConvsFrom os'' := by
  refine ⟨h.next.trans h'.next, fun hq => ?_⟩
  rcases h'.old hq with hnew | ⟨k', hk', hconv'⟩
  · exact Or.inl (h.next.trans hnew)
  rcases h.old hk' with hnew | ⟨k, hk, hconv⟩
  · exact Or.inl hnew
  · exact Or.inr ⟨k, hk, hconv'.trans hconv⟩

end Os

theorem convsFrom [KcpImpl K] : Os.Setup (K := K) (T := T) Os.ConvsFrom where
  refl _ := .of_kcps rfl le_rfl
  trans := .trans
  rest _ hkcps _ hnext := .of_kcps hkcps hnext
  stop _ _ := .of_kcps rfl le_rfl
  release os r := by
    refine ⟨le_rfl, fun {q k'} hq => Or.inr ⟨k', ?_, rfl⟩⟩
    simp only [Os.ikcpRelease, Function.update_apply] at hq
    split at hq
    · cases hq
    · exact hq
  create os conv := by
    refine ⟨Nat.le_succ _, fun {q k'} hq => ?_⟩
    rcases eq_or_ne q os.next with heq | hne
    · exact Or.inl heq.ge
    · simp only [Os.ikcpCreate, Function.update_of_ne hne] at hq
      exact Or.inr ⟨k', hq, rfl⟩

theorem timers_kcps {os os' : Os K T} {o : Owner} {udp udp' : KcpevUdp T} {hcb : TimerCb}
    {evt evh : Bool} {ret : ℤ}
    (h : checkCreateKcpTimer os o udp hcb evt evh = .ok (os', udp', ret)) :
    os'.kcps = os.kcps ∧ os'.socks = os.socks ∧ os.next ≤ os'.next ∧ udp'.kcp = udp.kcp := by
  rcases checkCreateKcpTimer_cases h with ⟨-, -, rfl, rfl⟩ | ⟨-, -, -, -, rfl, rfl⟩ |
    ⟨-, -, -, -, rfl, rfl⟩
  · exact ⟨rfl, rfl, le_rfl, rfl⟩
  · exact ⟨rfl, rfl, Nat.le_succ _, rfl⟩
  · refine ⟨rfl, rfl, ?_, rfl⟩
    simp only [Os.evTimerStart]
    omega

section Convs
variable [KcpImpl K] [ClockImpl T]

theorem accept_convs {w w' : World K T} {fd : ℕ} {answer : Option AcceptAnswer}
    (h : tcpAccept w fd answer = .ok w') : w.os.ConvsFrom w'.os := by
  have hsetup : Os.Setup (K := K) (T := T) Os.ConvsFrom := convsFrom
  unfold tcpAccept at h
  split at h
  · cases h
    exact hsetup.refl _
  · cases h
    exact hsetup.refl _
  split at h
  · cases h
    exact hsetup.refl _
  rename_i a _ _ os s hopen
  have hopened := hsetup.openSock hopen
  split at h
  · cases h
    exact hopened
  split at h
  · cases h
    exact hopened.trans (.of_kcps rfl le_rfl)
  split at h
  · cases h
    exact hopened.trans (.of_kcps rfl le_rfl)
  obtain ⟨server, -, h⟩ := bind_eq_ok.mp h
  rcases hinit : kcpevInitEv { os with next := os.next + 1 } (.kcpev os.next)
    (acceptBase s : KcpevBase T) (some .serverTcpRecv) none { tcp := a.evio, udp := true } with
    ⟨os₁, b, r⟩
  have hnext : os.ConvsFrom { os with next := os.next + 1 } := .of_kcps rfl (Nat.le_succ _)
  have hstarted := hopened.trans (hnext.trans (hsetup.initEv hinit))
  simp only [hinit] at h
  split at h
  · cases h
    exact hstarted.trans (hsetup.destroy _ _)
  obtain ⟨⟨os₂, r₂⟩, hsend, h⟩ := bind_eq_ok.mp h
  have hkeeps := keeps_sockSendCommand hsend
  have hconvs : os₁.SameConvs os₂ := hkeeps.convs
  have hsent := hstarted.trans (hconvs.from hkeeps.next.ge)
  split at h
  · cases h
    exact hsent.trans (hsetup.destroy _ _)
  · cases h
    exact hsent

section Step
variable {p p' : Process (Logged K) T} {i : Input T} {w' : World (Logged K) T} {c : ℕ}
  {obj obj' : Kcpev T}

omit [KcpImpl K] [ClockImpl T] in
/-- The KCP object of a live object is there. -/
theorem World.Separate.kcp_live {w : World (Logged K) T} (h : w.Separate)
    (hobj : w.objs c = some obj) {q : ℕ} (hkcp : obj.udp.kcp = some q) :
    (w.os.kcps q).isSome := by
  have href : refs Slots.kcpSlot w.slots (.kcpev c, ()) = some q := by
    rw [refs_eq_some]
    exact ⟨_, World.slots_some hobj, hkcp⟩
  exact h.kcps.live href

theorem effect_convs (h : Effect p i w') {q : ℕ} {k' : Ikcpcb (Logged K)}
    (hq : w'.os.kcps q = some k') :
    (p.world.os.next ≤ q ∨ ∃ k, p.world.os.kcps q = some k ∧ k'.conv = k.conv) ∨
      ∃ c obj, p.world.objs c = some obj ∧ obj.udp.kcp = some q ∧ k'.conv = obj.key.conv := by
  have hsetup : Os.Setup (K := Logged K) (T := T) Os.ConvsFrom := convsFrom
  cases h with
  | quiet _ hconvs => exact Or.inl (Or.inr (hconvs.old hq))
  | data => exact Or.inl (Or.inr ⟨k', hq, rfl⟩)
  | createClient => exact Or.inl ((hsetup.createClient _ _).old hq)
  | createServer => exact Or.inl ((hsetup.createServer _ _).old hq)
  | serverDestroy _ _ hw => exact Or.inl ((hsetup.serverDestroy hw).old hq)
  | connect _ _ _ hconn => exact Or.inl ((hsetup.kcpevConnect hconn).old hq)
  | accept _ _ _ _ _ hw => exact Or.inl ((accept_convs hw).old hq)
  | close _ hw => exact Or.inl ((hsetup.closeClient hw).old hq)
  | connectSession _ _ hconn _ hconvs =>
    obtain ⟨k, hk, hconv⟩ := hconvs.old hq
    rcases (hsetup.connectClientUdp hconn).old hk with hnew | ⟨k₀, hk₀, hconv₀⟩
    · exact Or.inl (Or.inl hnew)
    · exact Or.inl (Or.inr ⟨k₀, hk₀, hconv.trans hconv₀⟩)
  | serverTimers _ _ _ htimer _ hconvs =>
    obtain ⟨k, hk, hconv⟩ := hconvs.old hq
    rw [(timers_kcps htimer).1] at hk
    exact Or.inl (Or.inr ⟨k, hk, hconv⟩)
  | clientTimers _ hobj _ _ _ hsend htimer _ hconvs =>
    obtain ⟨hkcps, -, -, hkcp⟩ := timers_kcps htimer
    obtain ⟨k, hk, hconv⟩ := hconvs hq
    rw [hkcps] at hk
    have hsame : Os.SameConvs _ _ := (keeps_sockSendCommand hsend).convs
    obtain ⟨k₀, hk₀, hconv₀⟩ := hsame.old hk
    rcases hconv with hconv | ⟨hmine, hconv⟩
    · exact Or.inl (Or.inr ⟨k₀, hk₀, hconv.trans hconv₀⟩)
    · rw [hkcp] at hmine
      exact Or.inr ⟨_, _, hobj, hmine, hconv⟩

/-- The KCP object has the conversation number of the key. -/
def World.Numbered (w : World K T) (obj : Kcpev T) : Prop :=
  ∃ q kcp, obj.udp.kcp = some q ∧ w.os.kcps q = some kcp ∧ kcp.conv = obj.key.conv

theorem step_numbered (hp : p.Typed) (hsep : p.world.Separate) (h : step p i = .ok p')
    (hobj : p.world.objs c = some obj) (hobj' : p'.world.objs c = some obj')
    (hkcp : obj'.udp.kcp = obj.udp.kcp) (hkey : obj'.key = obj.key)
    (hnum : p.world.Numbered obj) : p'.world.Numbered obj' := by
  obtain ⟨q, k, hq, hk, hconv⟩ := hnum
  have heffect := step_effect hp h
  have hsep' := separate_effect hsep hp.world heffect
  rw [hq] at hkcp
  obtain ⟨k', hk'⟩ := Option.isSome_iff_exists.mp (hsep'.kcp_live hobj' hkcp)
  refine ⟨q, k', hkcp, hk', ?_⟩
  rw [hkey]
  rcases effect_convs heffect hk' with (hnew | ⟨k₀, hk₀, hsame⟩) | ⟨d, other, hother, hmine, hnum⟩
  · rw [(hsep.fresh hnew).2.2] at hk
    cases hk
  · rw [hk, Option.some.injEq] at hk₀
    rw [hsame, ← hk₀, hconv]
  · have heq : c = d := by
      by_contra hne
      exact hsep.kcp_ne hobj hother hne hq hmine
    subst heq
    rw [hobj, Option.some.injEq] at hother
    rw [hnum, hother]

/-! Paths. -/

theorem effect_sock (hsep : p.world.Separate) (h : Effect p i w') (hobj : p.world.objs c = some obj)
    (hserver : obj.hasServer = true) (hsock : obj.udp.sock ≠ 0)
    (hopen : (w'.os.socks obj.udp.sock).isSome) :
    w'.os.socks obj.udp.sock = p.world.os.socks obj.udp.sock := by
  have hlive := hsep.sock_open hobj hsock
  have same : p.world.os.SameOpen w'.os →
      w'.os.socks obj.udp.sock = p.world.os.socks obj.udp.sock := fun h => h _ hlive hopen
  cases h with
  | quiet hquiet => rw [hquiet.os.socks]
  | data => rfl
  | createClient => exact same (createClient_sameOpen _ _)
  | createServer => exact same (createServer_sameOpen _ _)
  | serverDestroy _ _ hw => exact same (serverDestroy_shuts hw).same
  | @connect d _ _ client _ _ _ _ hd hclient hconn =>
    have hne : c ≠ d := by
      intro heq
      rw [heq, hd, Option.some.injEq] at hobj
      rw [hobj, hserver] at hclient
      cases hclient
    exact kcpevConnect_socks (hsep.sock_ne hobj hd hne .udp .tcp hsock)
      (hsep.sock_ne hobj hd hne .udp .udp hsock) hconn
  | accept _ _ _ _ _ hw => exact same (tcpAccept_sameOpen hw)
  | close _ hw =>
    obtain ⟨client, server, -, -, -, rfl⟩ := World.closeClient_cases hw
    exact same (destroy_shuts _ _).same
  | connectSession _ _ hconn hquiet =>
    have hsame := connectClientUdp_sameOpen hconn
    have hos : w'.os.socks = _ := hquiet.os.socks
    rw [hos] at hopen ⊢
    exact hsame _ hlive hopen
  | serverTimers _ _ _ htimer hquiet =>
    have hos : w'.os.socks = _ := hquiet.os.socks
    rw [hos]
    exact congrFun (timers_kcps htimer).2.1 _
  | clientTimers _ _ _ _ _ hsend htimer hquiet =>
    have hos : w'.os.socks = _ := hquiet.os.socks
    rw [hos]
    exact (congrFun (timers_kcps htimer).2.1 _).trans
      (congrFun (keeps_sockSendCommand hsend).socks _)

/-- The session has a UDP socket that is connected to the address, and a KCP object with the
conversation number of its key. -/
structure World.Path (w : World K T) (obj : Kcpev T) (addr : Addr) : Prop where
  sock : obj.udp.sock ≠ 0
  peer : w.os.getpeername obj.udp.sock = some addr
  numbered : w.Numbered obj

theorem step_path (hp : p.Typed) (hsep : p.world.Separate) (h : step p i = .ok p')
    (hobj : p.world.objs c = some obj) (hobj' : p'.world.objs c = some obj')
    (hserver : obj.hasServer = true) (hsock : obj'.udp.sock = obj.udp.sock)
    (hkcp : obj'.udp.kcp = obj.udp.kcp) (hkey : obj'.key = obj.key) {addr : Addr}
    (hpath : p.world.Path obj addr) : p'.world.Path obj' addr := by
  have heffect := step_effect hp h
  have hsep' := separate_effect hsep hp.world heffect
  refine ⟨by rw [hsock]; exact hpath.sock, ?_,
    step_numbered hp hsep h hobj hobj' hkcp hkey hpath.numbered⟩
  have hopen := hsep'.sock_open hobj' (by rw [hsock]; exact hpath.sock)
  rw [hsock] at hopen ⊢
  have hsame := effect_sock hsep heffect hobj hserver hpath.sock hopen
  rw [Os.getpeername, hsame]
  exact hpath.peer

/-! The dispatched frames that set a path up. -/

section Dispatch
variable {src : Source} {addr : Addr} {buf : Bytes} {a : RecvAnswer}

theorem step_onServerRecv (hframe : Dispatches p i src addr buf a) (hsrc : src.ToServer p.world)
    (h : step p i = .ok p') :
    ∃ client ret, onServerRecv p.world client buf addr a = .ok (p'.world, ret) := by
  obtain ⟨hctl, rfl⟩ := hframe
  obtain ⟨⟨w₁, ctl₁⟩, hround, h⟩ := bind_eq_ok.mp h
  cases h
  rw [hctl] at hround
  obtain ⟨⟨w₂, ret⟩, hdispatch, hround⟩ := bind_eq_ok.mp hround
  obtain ⟨ctl₂, -, hround⟩ := bind_eq_ok.mp hround
  cases hround
  have session : ∀ {d : ℕ}, onSessionRecv p.world d buf addr a = .ok (w₁, ret) →
      ∃ client ret, onServerRecv p.world client buf addr a = .ok (w₁, ret) := by
    intro d h
    obtain ⟨client, -, h⟩ := bind_eq_ok.mp h
    split at h
    · cases h
    · exact ⟨some d, ret, h⟩
  cases src with
  | serverTcpRecv => exact session hdispatch
  | serverUdpRecv => exact session hdispatch
  | serverUdpRecvAll => exact ⟨none, ret, hdispatch⟩
  | clientTcpRecv => exact hsrc.elim
  | clientUdpRecv => exact hsrc.elim
  | tryKcpRecv d =>
    obtain ⟨client, hclient, hserver⟩ := hsrc
    obtain ⟨client', hclient', hdispatch⟩ := bind_eq_ok.mp hdispatch
    rw [World.kcpev_ok, hclient, Option.some.injEq] at hclient'
    rw [← hclient', if_pos hserver] at hdispatch
    exact session hdispatch

theorem step_onClientRecv (hframe : Dispatches p i src addr buf a) (hsrc : src.ToClient p.world c)
    (h : step p i = .ok p') : ∃ ret, onClientRecv p.world c buf a = .ok (p'.world, ret) := by
  obtain ⟨hctl, rfl⟩ := hframe
  obtain ⟨⟨w₁, ctl₁⟩, hround, h⟩ := bind_eq_ok.mp h
  cases h
  rw [hctl] at hround
  obtain ⟨⟨w₂, ret⟩, hdispatch, hround⟩ := bind_eq_ok.mp hround
  obtain ⟨ctl₂, -, hround⟩ := bind_eq_ok.mp hround
  cases hround
  cases src with
  | serverTcpRecv => exact hsrc.elim
  | serverUdpRecv => exact hsrc.elim
  | serverUdpRecvAll => exact hsrc.elim
  | clientTcpRecv d =>
    cases hsrc
    exact ⟨ret, hdispatch⟩
  | clientUdpRecv d =>
    cases hsrc
    exact ⟨ret, hdispatch⟩
  | tryKcpRecv d =>
    obtain ⟨rfl, client, hclient, hserver⟩ := hsrc
    obtain ⟨client', hclient', hdispatch⟩ := bind_eq_ok.mp hdispatch
    rw [World.kcpev_ok, hclient, Option.some.injEq] at hclient'
    rw [← hclient', hserver] at hdispatch
    exact ⟨ret, hdispatch⟩

/-- A session that gets a new socket gets a path to where the frame has come from. -/
theorem connected_path (hframe : Dispatches p i src addr buf a) (hsrc : src.ToServer p.world)
    (hfind : Finds p.world buf .shakeHand1 c obj) (h : step p i = .ok p')
    (hobj' : p'.world.objs c = some obj') (hsock : obj'.udp.sock ≠ 0)
    (hnew : obj'.udp.kcp ≠ obj.udp.kcp) : p'.world.Path obj' addr := by
  obtain ⟨client, ret, hrecv⟩ := step_onServerRecv hframe hsrc h
  generalize p'.world = w' at hrecv hobj' ⊢
  obtain ⟨server, key, hparse, hserver, hfound, hobj⟩ := hfind
  rw [Parses] at hparse
  have hsame : w'.objs c = p.world.objs c → False := by
    intro heq
    rw [heq, hobj, Option.some.injEq] at hobj'
    rw [hobj'] at hnew
    exact hnew rfl
  simp only [onServerRecv, hparse, Command.ofByte_toByte] at hrecv
  split at hrecv
  · cases hrecv
    exact (hsame rfl).elim
  simp only [serverShakeHand1, KcpevKey.ofBytes_val] at hrecv
  obtain ⟨server', hserver', hrecv⟩ := bind_eq_ok.mp hrecv
  rw [World.kcpevServer_ok, hserver, Option.some.injEq] at hserver'
  subst hserver'
  rw [hfound] at hrecv
  obtain ⟨client', hclient', hrecv⟩ := bind_eq_ok.mp hrecv
  rw [World.kcpev_ok, hobj, Option.some.injEq] at hclient'
  subst hclient'
  rcases hconn : connectClientUdp p.world.os c obj addr a with ⟨os, begun, r⟩
  rw [hconn] at hrecv
  rcases connectClientUdp_cases hconn with ⟨rfl, rfl⟩ | ⟨rfl, hconnected⟩
  · cases hrecv
    simp only [World.store, Function.update_self, Option.some.injEq] at hobj'
    rw [← hobj'] at hsock
    exact (hsock rfl).elim
  · obtain ⟨⟨os', r'⟩, hsend, hrecv⟩ := bind_eq_ok.mp hrecv
    cases hrecv
    simp only [World.store, Function.update_self, Option.some.injEq] at hobj'
    have hkeeps := keeps_sockSendCommand hsend
    have hkey : begun.key = obj.key := by rw [hconnected.fields]
    have hkcp : begun.udp.kcp = some p.world.os.next := by rw [hconnected.fields]
    subst hobj'
    refine ⟨hsock, ?_, p.world.os.next, ?_⟩
    · have hpeer : os'.socks begun.udp.sock = some ⟨some addr⟩ := by
        rw [hkeeps.socks, hconnected.socks, Function.update_self]
      rw [Os.getpeername]
      exact congrArg (fun s => s.bind Sock.peer) hpeer
    · have hconv := hkeeps.convs p.world.os.next
      rw [hconnected.kcps, Function.update_self, Option.map_some] at hconv
      obtain ⟨k, hk, hconv⟩ := Option.map_eq_some_iff.mp hconv
      exact ⟨k, hkcp, hk, hconv.trans (congrArg KcpevKey.conv hkey).symm⟩

/-- A client that gets ready numbers its KCP object. -/
theorem ready_numbered (hframe : Dispatches p i src addr buf a) (hsrc : src.ToClient p.world c)
    (hobj : p.world.objs c = some obj) (hparse : Parses buf .shakeHand2 obj.key.val)
    (hstatus : obj.udp.status = .shakingHand) (h : step p i = .ok p')
    (hobj' : p'.world.objs c = some obj') (hready : obj'.udp.status = .ready) :
    p'.world.Numbered obj' := by
  obtain ⟨ret, hrecv⟩ := step_onClientRecv hframe hsrc h
  generalize p'.world = w' at hrecv hobj' ⊢
  rw [Parses] at hparse
  have still : ∀ {o : Kcpev T}, obj' = o → o.udp.status = obj.udp.status → False := by
    intro o heq hsame
    rw [heq, hsame, hstatus] at hready
    cases hready
  have hsame : w'.objs c = p.world.objs c → False := by
    intro heq
    rw [heq, hobj, Option.some.injEq] at hobj'
    exact still hobj'.symm rfl
  obtain ⟨client, hclient, hrecv⟩ := bind_eq_ok.mp hrecv
  rw [World.kcpev_ok, hobj, Option.some.injEq] at hclient
  subst hclient
  simp only [hparse, Command.ofByte_toByte] at hrecv
  unfold clientShakeHand2 at hrecv
  split at hrecv
  · cases hrecv
    exact (hsame rfl).elim
  rw [KcpevKey.ofBytes_val] at hrecv
  simp only [hstatus, ne_eq, not_true_eq_false, if_false] at hrecv
  obtain ⟨⟨os, r⟩, hsend, hrecv⟩ := bind_eq_ok.mp hrecv
  split at hrecv
  · cases hrecv
    exact (hsame rfl).elim
  obtain ⟨⟨os', udp, r'⟩, htimer, hrecv⟩ := bind_eq_ok.mp hrecv
  dsimp only at hrecv
  split at hrecv
  · rename_i hneg
    cases hrecv
    simp only [World.store, Function.update_self, Option.some.injEq] at hobj'
    refine (still hobj'.symm ?_).elim
    rcases checkCreateKcpTimer_cases htimer with ⟨-, -, -, rfl⟩ | ⟨-, -, -, -, -, rfl⟩ |
      ⟨hret, -⟩
    · rfl
    · rfl
    · omega
  split at hrecv
  · cases hrecv
  rename_i q hq
  split at hrecv
  · cases hrecv
  rename_i kcp hkcp
  cases hrecv
  simp only [World.store, Function.update_self, Option.some.injEq] at hobj'
  subst hobj'
  exact ⟨q, { kcp with conv := obj.key.conv }, hq, Function.update_self .., rfl⟩

end Dispatch

end Step

end Convs

end KcpEv
