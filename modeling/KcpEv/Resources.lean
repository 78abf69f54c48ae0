import KcpEv.Slots

/-!
The functions of the library keep the resources of a process owned, as long as
their answers do not run into one of the places where a resource is dropped.
-/
namespace KcpEv

open Ownership

theorem Slots.withSock_sock (s : Slots) (side : Side) : s.withSock side (s.sock side) = s := by
  cases side <;> rfl

variable {K T : Type} {os os' : Os K T} {objs : Owner → Option Slots} {o : Owner} {s : Slots}
  {b b' : KcpevBase T} {ret : ℤ}

/-- `kcpev_bind_socket` does not drop the socket it has opened last: `setsockopt` does not
fail for it, and it is not bound with descriptor zero. -/
def BindAnswer.Sound (a : BindAnswer) (reuse : Bool) (os : Os K T) : Prop :=
  a.getaddrinfo → ∀ x ∈ a.addrs.find? (AddrAnswer.ends reuse os),
    (reuse → x.setsockopt) ∧ x.socket ≠ some 0

instance (a : BindAnswer) (reuse : Bool) (os : Os K T) : Decidable (a.Sound reuse os) :=
  inferInstanceAs (Decidable (_ → ∀ x ∈ a.addrs.find? _, _))

/-- The answers to `kcpev_bind` of a new object drop no socket. -/
def KcpevBindAnswer.Sound (a : KcpevBindAnswer) (reuse : Bool) (os : Os K T) : Prop :=
  let tcp := kcpevBindSocket os KcpevSock.zero reuse a.tcp
  a.tcp.Sound reuse os ∧
    (0 ≤ tcp.2.2 ∧ a.getsockname ∧ a.getnameinfo → a.udp.Sound reuse tcp.1)

instance (a : KcpevBindAnswer) (reuse : Bool) (os : Os K T) : Decidable (a.Sound reuse os) :=
  inferInstanceAs (Decidable (_ ∧ (_ → _)))

namespace Owned

theorem bindSocket (h : Owned os (Function.update objs o (some s))) (side : Side)
    (hside : s.sock side = KcpevSock.zero) {reuse : Bool} {a : BindAnswer}
    (ha : a.Sound reuse os)
    {k : KcpevSock} (hbind : kcpevBindSocket os (s.sock side) reuse a = (os', k, ret)) :
    Owned os' (Function.update objs o (some (s.withSock side k))) := by
  have hsame : s.withSock side { KcpevSock.zero with sock := 0 } = s := by
    have : ({ KcpevSock.zero with sock := 0 } : KcpevSock) = s.sock side := hside.symm
    rw [this]
    exact s.withSock_sock side
  unfold kcpevBindSocket at hbind
  split at hbind
  · cases hbind
    rw [s.withSock_sock side]
    exact h
  rename_i hinfo
  · rcases bindLoop_cases reuse a.addrs os with ⟨hl, -⟩ | ⟨fd, hfd, hl, x, hx, hsock, -⟩ |
      ⟨fd, hfd, hl, x, hx, hreuse, hset⟩
    · rw [hl, hside] at hbind
      cases hbind
      rw [hsame]
      exact h
    · rw [hl, hside] at hbind
      cases hbind
      have hne : fd ≠ 0 := by
        rintro rfl
        exact (ha (not_not.mp hinfo) x hx).2 hsock
      exact h.openSock side hside hne hfd _
    · exact absurd ((ha (not_not.mp hinfo) x hx).1 hreuse) hset

theorem connectSocket (h : Owned os objs) {k : KcpevSock} {addr : Addr} {a : ConnectAnswer}
    (hconn : kcpevConnectSocket os k addr a = (os', ret)) : Owned os' objs := by
  unfold kcpevConnectSocket at hconn
  split at hconn
  · cases hconn
    exact h
  split at hconn
  · cases hconn
    exact h
  split at hconn
  · cases hconn
    exact h.connect _ _
  · cases hconn
    exact h

theorem setEv (h : Owned os (Function.update objs o (some s))) (side : Side)
    (hside : (s.sock side).evio = none) {cb : IoCb} {alloc : Bool} {k : KcpevSock}
    (hset : kcpevSetEv os o (s.sock side) cb alloc = (os', k, ret)) :
    Owned os' (Function.update objs o (some (s.withSock side k))) := by
  unfold kcpevSetEv at hset
  split at hset
  · cases hset
    rw [s.withSock_sock side]
    exact h
  rename_i hfd
  split at hset
  · cases hset
    rw [s.withSock_sock side]
    exact h
  · cases hset
    have hk : s.sock side = { sock := (s.sock side).sock, evio := none } := by
      rw [← hside]
    exact h.startIo hk hfd cb

theorem setEvIf (h : Owned os (Function.update objs o (some s))) (side : Side) {cb : Option IoCb}
    (hside : cb = none ∨ (s.sock side).evio = none) {alloc : Bool} {k : KcpevSock}
    (hset : kcpevSetEvIf os o (s.sock side) cb alloc = (os', k, ret)) :
    Owned os' (Function.update objs o (some (s.withSock side k))) := by
  rcases cb with _ | cb
  · cases hset
    rw [s.withSock_sock side]
    exact h
  · rcases hside with hcb | hev
    · cases hcb
    · exact h.setEv side hev hset

theorem stopEvt_fst (os : Os K T) (evs : KcpevUdp T) :
    (stopEvt os evs).1 =
      { os with timers := evs.evt.elim os.timers fun p => Function.update os.timers p none } := by
  unfold stopEvt
  split
  · rename_i h
    rw [h]
    rfl
  · rename_i p h
    rw [h]
    rfl

theorem stopEvh_fst (os : Os K T) (evs : KcpevUdp T) :
    (stopEvh os evs).1 =
      { os with timers := evs.evh.elim os.timers fun p => Function.update os.timers p none } := by
  unfold stopEvh
  split
  · rename_i h
    rw [h]
    rfl
  · rename_i p h
    rw [h]
    rfl

theorem releaseKcp_fst (os : Os K T) (evs : KcpevUdp T) :
    (KcpEv.releaseKcp os evs).1 =
      { os with kcps := evs.kcp.elim os.kcps fun p => Function.update os.kcps p none } := by
  unfold KcpEv.releaseKcp
  split
  · rename_i h
    rw [h]
    rfl
  · rename_i p h
    rw [h]
    rfl

/-- `KcpevUdp_destroy` gives up everything on the UDP side. -/
theorem destroyUdp (h : Owned os (Function.update objs o (some b.slots))) :
    Owned (b.udp.destroy os).1 (Function.update objs o
      (some { Slots.empty with tcp := b.tcp.toKcpevSock })) := by
  have hsock := h.destroySock .udp
  have hkcp := ((hsock.stopTimer .evt).stopTimer .evh).releaseKcp
  have hos : (b.udp.destroy os).1 = (KcpEv.releaseKcp (stopEvh (stopEvt
      (b.udp.toKcpevSock.destroy os).1 { b.udp with toKcpevSock := KcpevSock.zero }).1
      { b.udp with toKcpevSock := KcpevSock.zero, evt := none }).1
      { b.udp with toKcpevSock := KcpevSock.zero, evt := none, evh := none }).1 := by
    simp only [KcpevUdp.destroy, KcpevSock.destroy_snd, stopEvt_snd, stopEvh_snd]
  rw [hos, releaseKcp_fst, stopEvh_fst, stopEvt_fst]
  exact hkcp

theorem destroy (h : Owned os (Function.update objs o (some b.slots))) :
    Owned (b.destroy os) (Function.update objs o none) := by
  have htcp := h.destroySock .tcp
  have hudp := htcp.destroyUdp (b := { b with tcp := { KcpevSock.zero with rb := none } })
  exact vacant.mpr hudp

theorem createKcp' [KcpImpl K] (h : Owned os (Function.update objs o (some b.slots)))
    (hkcp : b.udp.kcp = none) {conv : ℕ} {alloc : Bool} {udp : KcpevUdp T}
    (hcreate : kcpevCreateKcp os b.udp conv alloc = (os', udp, ret)) :
    Owned os' (Function.update objs o (some { b with udp }.slots)) := by
  unfold kcpevCreateKcp at hcreate
  split at hcreate
  · cases hcreate
    exact h
  · cases hcreate
    exact h.createKcp hkcp conv

/-- `kcpev_init_ev` starts watchers on sockets that had none. -/
theorem initEv (h : Owned os (Function.update objs o (some b.slots))) {tcpCb udpCb : Option IoCb}
    (htcp : tcpCb = none ∨ b.tcp.evio = none) (hudp : udpCb = none ∨ b.udp.evio = none)
    {a : InitEvAnswer} (hinit : kcpevInitEv os o b tcpCb udpCb a = (os', b', ret)) :
    Owned os' (Function.update objs o (some b'.slots)) := by
  unfold kcpevInitEv at hinit
  split at hinit
  rename_i os₁ k r hr
  have hfirst := h.setEvIf .tcp htcp hr
  split at hinit
  · cases hinit
    exact hfirst
  · cases hinit
    exact hfirst.setEvIf .udp hudp rfl

/-- The timers start when the object has none, and both of them or none. -/
theorem createTimer (h : Owned os (Function.update objs o (some b.slots)))
    (hpair : b.udp.evt = none → b.udp.evh = none) {hcb : TimerCb} {evt evh : Bool}
    (halloc : b.udp.evt = none → evt → evh) {udp : KcpevUdp T}
    (htimer : checkCreateKcpTimer os o b.udp hcb evt evh = .ok (os', udp, ret)) :
    Owned os' (Function.update objs o (some { b with udp }.slots)) := by
  unfold checkCreateKcpTimer at htimer
  split at htimer
  · cases htimer
    exact h
  rename_i hnone
  rw [Option.not_isSome_iff_eq_none] at hnone
  split at htimer
  · cases htimer
  rename_i hevt
  rw [not_not] at hevt
  dsimp only at htimer
  split at htimer
  · rename_i hevh
    exact absurd (halloc hnone hevt) hevh
  · cases htimer
    have hevt : b.slots.timerSlot .evt = none := hnone
    have hfirst := h.startTimer hevt .kcpevOnTimer 10
    have hevh : (b.slots.withClock .evt (some os.next)).timerSlot .evh = none := hpair hnone
    exact hfirst.startTimer hevh hcb 10000

/-- `kcpev_connect`, unless it closes a UDP socket that is watched. -/
theorem kcpevConnect (h : Owned os (Function.update objs o (some b.slots))) {addr : Addr}
    {a : KcpevConnectAnswer}
    (hwatched : b.udp.evio = none ∨ b.udp.sock = 0 ∨
      (a.udp.getaddrinfo = true ∧ a.udp.connects.any id = true) ∨
      ¬ (a.tcp.getaddrinfo = true ∧ a.tcp.connects.any id = true))
    (hconn : KcpEv.kcpevConnect os b addr a = (os', b', ret)) :
    Owned os' (Function.update objs o (some b'.slots)) := by
  unfold KcpEv.kcpevConnect at hconn
  split at hconn
  rename_i os₁ r₁ htcp
  have hfirst := h.connectSocket htcp
  split at hconn
  · cases hconn
    exact hfirst
  rename_i hr₁
  split at hconn
  rename_i os₂ r₂ hudp
  have hsecond := hfirst.connectSocket hudp
  split at hconn
  · rename_i hr₂
    cases hconn
    have hclose : closeSock os₂ b.udp.toKcpevSock = b.udp.toKcpevSock.destroy os₂ →
        Owned (closeSock os₂ b.udp.toKcpevSock).1 (Function.update objs o
          (some { b with udp := { b.udp with
            toKcpevSock := (closeSock os₂ b.udp.toKcpevSock).2 } }.slots)) := by
      intro heq
      rw [heq, KcpevSock.destroy_snd]
      exact hsecond.destroySock .udp
    have hevio : b.udp.evio = none := by
      rcases hwatched with hev | hsock | ⟨hinfo, hany⟩ | htcpFails
      · exact hev
      · exact hsecond.evio_none .udp hsock
      · unfold kcpevConnectSocket at hudp
        by_cases hsock : b.udp.sock = 0
        · exact hsecond.evio_none .udp hsock
        · rw [if_neg hsock, if_neg (not_not.mpr hinfo), if_pos hany] at hudp
          cases hudp
          omega
      · unfold kcpevConnectSocket at htcp
        split at htcp
        · cases htcp
          omega
        split at htcp
        · cases htcp
          omega
        rename_i hinfo
        split at htcp
        · rename_i hany
          exact absurd ⟨not_not.mp hinfo, hany⟩ htcpFails
        · cases htcp
          omega
    apply hclose
    unfold KcpevSock.destroy closeSock stopIo
    split <;> simp [hevio]
  · cases hconn
    exact hsecond

/-- `connect_client_udp` on a session without a UDP socket, or one that does not
get as far as to drop it. -/
theorem connectClientUdp [KcpImpl K] {c : ℕ} {client client' : Kcpev T} {addr : Addr}
    {a : RecvAnswer}
    (h : Owned os (Function.update objs (.kcpev c) (some client.toKcpevBase.slots)))
    (hfree : client.udp.sock = 0 ∧ client.udp.kcp = none ∨ a.bind.getaddrinfo = false)
    (ha : a.bind.Sound true os)
    (hconn : KcpEv.connectClientUdp os c client addr a = (os', client', ret)) :
    Owned os' (Function.update objs (.kcpev c) (some client'.toKcpevBase.slots)) := by
  have error : ∀ {os₁ os₂ : Os K T} {udp : KcpevUdp T} {client₂ : Kcpev T} {r : ℤ},
      Owned os₁ (Function.update objs (.kcpev c)
        (some { client.toKcpevBase with udp }.slots)) →
      connectClientUdpError os₁ client udp = (os₂, client₂, r) →
      Owned os₂ (Function.update objs (.kcpev c) (some client₂.toKcpevBase.slots)) := by
    intro os₁ os₂ udp client₂ r hown herr
    have hslots : ({ client.toKcpevBase with udp := (udp.destroy os₁).2 } : KcpevBase T).slots =
        { Slots.empty with tcp := client.tcp.toKcpevSock } := by
      rw [KcpevUdp.destroy_snd]
      rfl
    cases herr
    change Owned _ (Function.update objs (.kcpev c)
      (some ({ client.toKcpevBase with udp := (udp.destroy os₁).2 } : KcpevBase T).slots))
    rw [hslots]
    exact hown.destroyUdp
  rcases hfree with ⟨hsock, hkcp⟩ | hinfo
  · have hzero : client.toKcpevBase.slots.sock .udp = KcpevSock.zero := by
      have hevio := h.evio_none .udp hsock
      change client.udp.toKcpevSock = KcpevSock.zero
      change client.udp.evio = none at hevio
      have heta : client.udp.toKcpevSock = ⟨client.udp.sock, client.udp.evio⟩ := rfl
      rw [heta, hsock, hevio]
      rfl
    unfold KcpEv.connectClientUdp at hconn
    rcases hbind : kcpevBindSocket os client.udp.toKcpevSock true a.bind with ⟨os₁, k, r⟩
    rw [hbind] at hconn
    have hevio : k.evio = none := by
      have := (kcpevBindSocket_ret hbind).1
      rw [this]
      exact congrArg KcpevSock.evio hzero
    have hbound := h.bindSocket .udp hzero ha hbind
    dsimp only at hconn
    split at hconn
    · exact error hbound hconn
    split at hconn
    · exact error hbound hconn
    rcases hcreate : kcpevCreateKcp (os₁.connect k.sock addr)
      { client.udp with toKcpevSock := k } client.key.conv a.kcp with ⟨os₂, udp, r₂⟩
    rw [hcreate] at hconn
    have hconnected := hbound.connect k.sock addr
    have hcreated := hconnected.createKcp' (b := { client.toKcpevBase with
      udp := { client.udp with toKcpevSock := k } }) hkcp hcreate
    split at hconn
    · exact error hcreated hconn
    rcases hinit : kcpevInitEv os₂ (.kcpev c) { client.toKcpevBase with udp } none
      (some .serverUdpRecv) { tcp := true, udp := a.evio } with ⟨os₃, b, r₃⟩
    dsimp only at hconn
    rw [hinit] at hconn
    have hudp : udp.evio = none := by
      unfold kcpevCreateKcp at hcreate
      split at hcreate <;> cases hcreate <;> exact hevio
    have hdone := hcreated.initEv (Or.inl rfl) (Or.inr hudp) hinit
    split at hconn
    · have hbase : b = { client.toKcpevBase with udp := b.udp } := by
        unfold kcpevInitEv kcpevSetEvIf at hinit
        cases hinit
        rfl
      rw [hbase] at hdone
      exact error hdone hconn
    · cases hconn
      exact hdone
  · unfold KcpEv.connectClientUdp kcpevBindSocket at hconn
    rw [if_pos (by simp [hinfo])] at hconn
    exact error h hconn

/-- A new object that holds nothing is put at an address that is not in use. -/
theorem new (h : Owned os objs) (ho : objs o = none) :
    Owned os (Function.update objs o (some Slots.empty)) := by
  apply vacant.mp
  rw [← ho, Function.update_eq_self]
  exact h

theorem kcpevBind (h : Owned os (Function.update objs o (some b.slots)))
    (htcp : b.tcp.toKcpevSock = KcpevSock.zero) (hudp : b.udp.toKcpevSock = KcpevSock.zero)
    {reuse : Bool} {a : KcpevBindAnswer} (ha : a.Sound reuse os)
    (hbind : KcpEv.kcpevBind os b reuse a = (os', b', ret)) :
    Owned os' (Function.update objs o (some b'.slots)) ∧ b'.tcp.evio = none ∧
      b'.udp.evio = none ∧ b'.udp.kcp = b.udp.kcp := by
  unfold KcpEv.kcpevBind at hbind
  split at hbind
  rename_i os₁ k r htcpBind
  have hfirst := h.bindSocket .tcp htcp ha.1 htcpBind
  have hk := (kcpevBindSocket_ret htcpBind).1
  rw [htcp] at hk
  have hu : b.udp.evio = none := by rw [hudp]; rfl
  dsimp only at hbind
  split at hbind
  · cases hbind
    exact ⟨hfirst, hk, hu, rfl⟩
  rename_i hret
  split at hbind
  · cases hbind
    exact ⟨hfirst, hk, hu, rfl⟩
  rename_i hsockname
  split at hbind
  · cases hbind
    exact ⟨hfirst, hk, hu, rfl⟩
  · rename_i hnameinfo
    rcases hudpBind : kcpevBindSocket os₁ b.udp.toKcpevSock reuse a.udp with ⟨os₂, k₂, r₂⟩
    rw [hudpBind] at hbind
    cases hbind
    have hau : a.udp.Sound reuse os₁ := by
      have hlast := ha.2
      rw [← htcp, htcpBind] at hlast
      exact hlast ⟨not_lt.mp hret, not_not.mp hsockname, not_not.mp hnameinfo⟩
    have hk₂ := (kcpevBindSocket_ret hudpBind).1
    exact ⟨hfirst.bindSocket .udp hudp hau hudpBind, hk, hk₂.trans hu, rfl⟩

end Owned

end KcpEv
