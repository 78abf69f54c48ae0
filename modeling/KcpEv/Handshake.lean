import KcpEv.Send

/-!
The functions the UDP handshake is made of: the session socket of a client,
its KCP object, and the two timers that start when the handshake ends.
-/
namespace KcpEv

variable {K T : Type}

/-- What one dispatched frame gets from the system; a frame needs only some of it. -/
structure RecvAnswer where
  getnameinfo : Bool
  bind : BindAnswer
  connect : Bool
  /-- `ikcp_create` finds memory -/
  kcp : Bool
  /-- `malloc` of the watcher -/
  evio : Bool
  send : SendAnswer
  /-- `malloc` of the KCP timer -/
  evt : Bool
  /-- `malloc` of the heartbeat timer -/
  evh : Bool

def kcpevCreateKcp [KcpImpl K] (os : Os K T) (udp : KcpevUdp T) (conv : ℕ) (alloc : Bool) :
    Os K T × KcpevUdp T × ℤ :=
  if ¬ alloc then (os, udp, -1)
  else
    let (os, p) := os.ikcpCreate conv
    (os, { udp with kcp := some p }, 0)

/-- The `error` label of `connect_client_udp`. -/
def connectClientUdpError (os : Os K T) (client : Kcpev T) (udp : KcpevUdp T) :
    Os K T × Kcpev T × ℤ :=
  let (os, udp) := udp.destroy os
  (os, { client with udp }, -1)

/-- `connect_client_udp`. Whatever the session had before is not released on the
way to success. -/
def connectClientUdp [KcpImpl K] (os : Os K T) (c : ℕ) (client : Kcpev T) (addr : Addr)
    (a : RecvAnswer) : Os K T × Kcpev T × ℤ :=
  let (os, s, ret) := kcpevBindSocket os client.udp.toKcpevSock true a.bind
  let udp := { client.udp with toKcpevSock := s }
  if ret < 0 then connectClientUdpError os client udp
  else if ¬ a.connect then connectClientUdpError os client udp
  else
    let os := os.connect udp.sock addr
    let (os, udp, ret) := kcpevCreateKcp os udp client.key.conv a.kcp
    if ret < 0 then connectClientUdpError os client udp
    else
      let (os, b, ret) := kcpevInitEv os (.kcpev c) { client.toKcpevBase with udp } none
        (some .serverUdpRecv) { tcp := true, udp := a.evio }
      if ret < 0 then connectClientUdpError os client b.udp
      else (os, { client with toKcpevBase := b }, 0)

/-- `check_create_kcp_timer`. When there is no memory for the first timer, the
error path reads `evh`, which is not set yet; when there is none for the second,
the first one is freed without being stopped. -/
def checkCreateKcpTimer (os : Os K T) (data : Owner) (udp : KcpevUdp T) (hcb : TimerCb)
    (evt evh : Bool) : Exec (Os K T × KcpevUdp T × ℤ) :=
  if udp.evt.isSome then .ok (os, udp, -1)
  else if ¬ evt then .error .uninitialised
  else
    let (os, p) := os.evTimerStart { data, cb := .kcpevOnTimer, again := 10 }
    if ¬ evh then .ok (os, { udp with evt := none, evh := none }, -1)
    else
      let (os, q) := os.evTimerStart { data, cb := hcb, again := 10000 }
      .ok (os, { udp with evt := some p, evh := some q, heart := os.now }, 0)

/-! What the functions do to the fields of the object. -/

theorem closeSock_snd (os : Os K T) (evs : KcpevSock) :
    (closeSock os evs).2 = { evs with sock := 0 } := by
  unfold closeSock
  split
  · rename_i h
    rw [← h]
  · rfl

theorem stopIo_snd (os : Os K T) (evs : KcpevSock) :
    (stopIo os evs).2 = { evs with evio := none } := by
  unfold stopIo
  split
  · rename_i h
    rw [← h]
  · rfl

theorem KcpevSock.destroy_snd (os : Os K T) (evs : KcpevSock) :
    (evs.destroy os).2 = KcpevSock.zero := by
  simp [KcpevSock.destroy, stopIo_snd, closeSock_snd, KcpevSock.zero]

theorem stopEvt_snd (os : Os K T) (evs : KcpevUdp T) :
    (stopEvt os evs).2 = { evs with evt := none } := by
  unfold stopEvt
  split
  · rename_i h
    rw [← h]
  · rfl

theorem stopEvh_snd (os : Os K T) (evs : KcpevUdp T) :
    (stopEvh os evs).2 = { evs with evh := none } := by
  unfold stopEvh
  split
  · rename_i h
    rw [← h]
  · rfl

theorem releaseKcp_snd (os : Os K T) (evs : KcpevUdp T) :
    (releaseKcp os evs).2 = { evs with kcp := none } := by
  unfold releaseKcp
  split
  · rename_i h
    rw [← h]
  · rfl

/-- What `KcpevUdp_destroy` leaves: the status and the heart. -/
def KcpevUdp.cleared (udp : KcpevUdp T) : KcpevUdp T :=
  { KcpevSock.zero with
    evt := none, evh := none, kcp := none, status := udp.status, heart := udp.heart }

theorem KcpevUdp.destroy_snd (os : Os K T) (evs : KcpevUdp T) :
    (evs.destroy os).2 = evs.cleared := by
  simp [KcpevUdp.destroy, KcpevUdp.cleared, releaseKcp_snd, stopEvh_snd, stopEvt_snd,
    KcpevSock.destroy_snd]

/-- The loop of `kcpev_bind_socket` ends at this address: it opens a socket, and then
`setsockopt` fails or the socket gets bound. -/
def AddrAnswer.ends (reuse : Bool) (os : Os K T) (x : AddrAnswer) : Bool :=
  x.socket.any (fun s => (os.socks s).isNone) && (reuse && !x.setsockopt || x.bind)

theorem AddrAnswer.ends_iff {reuse : Bool} {os : Os K T} {x : AddrAnswer} :
    x.ends reuse os ↔ (∃ s, x.socket = some s ∧ os.socks s = none) ∧
      (reuse ∧ ¬ x.setsockopt ∨ x.bind) := by
  simp [AddrAnswer.ends, Option.any_eq_true]

theorem bindLoop_next {reuse : Bool} {os : Os K T} {x : AddrAnswer} (rest : List AddrAnswer)
    (h : ¬ x.ends reuse os) : bindLoop reuse os (x :: rest) = bindLoop reuse os rest := by
  rw [AddrAnswer.ends_iff, not_and, not_or] at h
  rcases hx : x.socket with _ | s
  · simp [bindLoop, Os.openSock, hx]
  rcases hs : os.socks s with _ | old
  · obtain ⟨hset, hbind⟩ := h ⟨s, hx, hs⟩
    simp only [bindLoop, Os.openSock, hx, hs, Option.isSome_none, if_neg hset]
    have hclose : ({ os with socks := Function.update os.socks s (some ⟨none⟩) } :
        Os K T).close s = os := by
      simp only [Os.close, Function.update_idem]
      rw [← hs, Function.update_eq_self]
    simp [hbind, hclose]
  · simp [bindLoop, Os.openSock, hx, hs]

/-- The loop comes to the end of the list, or it ends at an address. -/
theorem bindLoop_cases (reuse : Bool) (addrs : List AddrAnswer) (os : Os K T) :
    (bindLoop reuse os addrs = (os, some 0) ∧ addrs.find? (AddrAnswer.ends reuse os) = none) ∨
    (∃ s, os.socks s = none ∧ bindLoop reuse os addrs =
      ({ os with socks := Function.update os.socks s (some ⟨none⟩) }, some s) ∧
      ∃ x, addrs.find? (AddrAnswer.ends reuse os) = some x ∧ x.socket = some s ∧
        (reuse → x.setsockopt)) ∨
    (∃ s, os.socks s = none ∧ bindLoop reuse os addrs =
      ({ os with socks := Function.update os.socks s (some ⟨none⟩) }, none) ∧
      ∃ x, addrs.find? (AddrAnswer.ends reuse os) = some x ∧ reuse ∧ ¬ x.setsockopt) := by
  induction addrs with
  | nil => exact Or.inl ⟨rfl, rfl⟩
  | cons x rest ih =>
    by_cases hends : x.ends reuse os
    · rw [List.find?_cons_of_pos hends]
      obtain ⟨⟨s, hx, hs⟩, hlast⟩ := AddrAnswer.ends_iff.mp hends
      by_cases hset : reuse ∧ ¬ x.setsockopt
      · refine Or.inr (Or.inr ⟨s, hs, ?_, x, rfl, hset⟩)
        simp only [bindLoop, Os.openSock, hx, hs, Option.isSome_none, if_pos hset]
        rfl
      · have hbind := hlast.resolve_left hset
        refine Or.inr (Or.inl ⟨s, hs, ?_, x, rfl, hx, fun hr => ?_⟩)
        · simp only [bindLoop, Os.openSock, hx, hs, Option.isSome_none, if_neg hset]
          simp [hbind]
        · by_contra hno
          exact hset ⟨hr, hno⟩
    · rw [bindLoop_next rest hends, List.find?_cons_of_neg hends]
      exact ih

theorem kcpevBindSocket_ret {os os' : Os K T} {sock sock' : KcpevSock} {reuse : Bool}
    {a : BindAnswer} {ret : ℤ} (h : kcpevBindSocket os sock reuse a = (os', sock', ret)) :
    sock'.evio = sock.evio ∧ (ret < 0 ∨ sock'.sock ≠ 0) := by
  unfold kcpevBindSocket at h
  split at h
  · cases h
    exact ⟨rfl, Or.inl (by omega)⟩
  · split at h
    · cases h
      exact ⟨rfl, Or.inl (by omega)⟩
    · cases h
      refine ⟨rfl, ?_⟩
      split
      · exact Or.inl (by omega)
      · exact Or.inr (by assumption)

theorem kcpevBindSocket_ok {os os' : Os K T} {sock sock' : KcpevSock} {reuse : Bool}
    {a : BindAnswer} {ret : ℤ} (h : kcpevBindSocket os sock reuse a = (os', sock', ret))
    (hret : ¬ ret < 0) : os.socks sock'.sock = none ∧
      os' = { os with socks := Function.update os.socks sock'.sock (some ⟨none⟩) } := by
  unfold kcpevBindSocket at h
  split at h
  · cases h
    omega
  · rcases bindLoop_cases reuse a.addrs os with ⟨hl, -⟩ | ⟨fd, hfd, hl, -⟩ | ⟨fd, -, hl, -⟩
    · rw [hl] at h
      cases h
      exact absurd (by decide) hret
    · rw [hl] at h
      cases h
      exact ⟨hfd, rfl⟩
    · rw [hl] at h
      cases h
      omega

section Connect
variable [KcpImpl K] {os os' : Os K T} {c : ℕ} {client client' : Kcpev T} {addr : Addr}
  {a : RecvAnswer} {ret : ℤ}

/-- A session that got its UDP socket: a new one, connected to the client, with a
new KCP object. The timers are as before. -/
structure Connected (os : Os K T) (c : ℕ) (client : Kcpev T) (addr : Addr) (a : RecvAnswer)
    (os' : Os K T) (client' : Kcpev T) : Prop where
  fields : client' = { client with udp := { client.udp with
    sock := client'.udp.sock
    evio := if a.evio then some (os.next + 1) else client.udp.evio
    kcp := some os.next } }
  sock : client'.udp.sock ≠ 0
  free : os.socks client'.udp.sock = none
  socks : os'.socks = Function.update os.socks client'.udp.sock (some ⟨some addr⟩)
  kcps : os'.kcps = Function.update os.kcps os.next (some ⟨client.key.conv, KcpImpl.create⟩)
  ios : os'.ios = if a.evio then
    Function.update os.ios (os.next + 1)
      (some { fd := client'.udp.sock, data := .kcpev c, cb := .serverUdpRecv })
    else os.ios
  timers : os'.timers = os.timers
  next : os.next < os'.next
  now : os'.now = os.now
  out : os'.out = os.out

omit [KcpImpl K] in
theorem connectClientUdpError_eq (os : Os K T) (client : Kcpev T) (udp : KcpevUdp T) :
    connectClientUdpError os client udp =
      ((udp.destroy os).1, { client with udp := udp.cleared }, -1) := by
  rw [← KcpevUdp.destroy_snd os udp]
  rfl

omit [KcpImpl K] in
theorem kcpevInitEv_udp (o : Owner) (cb : IoCb) (evio : Bool) {b : KcpevBase T}
    (h : b.udp.sock ≠ 0) : kcpevInitEv os o b none (some cb) { tcp := true, udp := evio } =
      (if evio then (os.evIoStart { fd := b.udp.sock, data := o, cb }).1 else os,
        { b with udp := { b.udp with evio := if evio then some os.next else b.udp.evio } }, 0) := by
  rcases evio
  · simp [kcpevInitEv, kcpevSetEvIf, kcpevSetEv, h]
  · simp [kcpevInitEv, kcpevSetEvIf, kcpevSetEv, h, Os.evIoStart]

theorem kcpevCreateKcp_alloc {udp : KcpevUdp T} {conv : ℕ} {alloc : Bool} (h : alloc = true) :
    kcpevCreateKcp os udp conv alloc =
      ((os.ikcpCreate conv).1, { udp with kcp := some os.next }, 0) := by
  simp [kcpevCreateKcp, h, Os.ikcpCreate]

/-- `connect_client_udp` succeeds, or leaves the session without anything. -/
theorem connectClientUdp_cases (h : connectClientUdp os c client addr a = (os', client', ret)) :
    (ret = -1 ∧ client' = { client with udp := client.udp.cleared }) ∨
      (ret = 0 ∧ Connected os c client addr a os' client') := by
  have error : ∀ {os₁ : Os K T} {udp : KcpevUdp T},
      connectClientUdpError os₁ client udp = (os', client', ret) →
      udp.cleared = client.udp.cleared →
      ret = -1 ∧ client' = { client with udp := client.udp.cleared } := by
    intro os₁ udp herr hcleared
    rw [connectClientUdpError_eq, hcleared, Prod.mk.injEq, Prod.mk.injEq] at herr
    exact ⟨herr.2.2.symm, herr.2.1.symm⟩
  unfold connectClientUdp at h
  rcases hbind : kcpevBindSocket os client.udp.toKcpevSock true a.bind with ⟨os₁, k, r⟩
  rw [hbind] at h
  dsimp only at h
  split at h
  · exact Or.inl (error h rfl)
  rename_i hr
  obtain ⟨hevio, hsock⟩ := kcpevBindSocket_ret hbind
  obtain ⟨hfree, rfl⟩ := kcpevBindSocket_ok hbind hr
  have hne := hsock.resolve_left hr
  split at h
  · exact Or.inl (error h rfl)
  by_cases hkcp : a.kcp
  · have hconn : ({ os with socks := Function.update os.socks k.sock (some ⟨none⟩) } :
        Os K T).connect k.sock addr =
        { os with socks := Function.update os.socks k.sock (some ⟨some addr⟩) } := by
      simp [Os.connect]
    right
    rw [hconn] at h
    simp only [kcpevCreateKcp_alloc hkcp] at h
    rw [kcpevInitEv_udp _ _ _ hne] at h
    simp only [Int.reduceLT, if_false, Prod.mk.injEq] at h
    obtain ⟨rfl, rfl, rfl⟩ := h
    have hnext : os.next < os.next + 1 + 1 := by omega
    refine ⟨rfl, ?_, hne, hfree, ?_, ?_, ?_, ?_, ?_, ?_, ?_⟩
    all_goals
      cases a.evio
      · simp [hevio, Os.ikcpCreate]
      · simp [hnext, Os.ikcpCreate, Os.evIoStart]
  · left
    simp only [kcpevCreateKcp, hkcp, Bool.false_eq_true, not_false_eq_true, if_true] at h
    exact error h rfl

theorem connectClientUdp_failed (h : connectClientUdp os c client addr a = (os', client', -1)) :
    (kcpevBindSocket os client.udp.toKcpevSock true a.bind).2.2 < 0 ∨ a.connect = false ∨
      a.kcp = false := by
  unfold connectClientUdp at h
  rcases hbind : kcpevBindSocket os client.udp.toKcpevSock true a.bind with ⟨os₁, k, r⟩
  rw [hbind] at h
  dsimp only at h
  by_cases hr : r < 0
  · exact Or.inl hr
  have hne := (kcpevBindSocket_ret hbind).2.resolve_left hr
  by_cases hconn : a.connect
  · by_cases hkcp : a.kcp
    · simp only [hr, hconn, not_true_eq_false, if_false, kcpevCreateKcp_alloc hkcp] at h
      rw [kcpevInitEv_udp _ _ _ hne] at h
      simp at h
    · exact Or.inr (Or.inr (by simpa using hkcp))
  · exact Or.inr (Or.inl (by simpa using hconn))

theorem connectClientUdp_ret (os : Os K T) (c : ℕ) (client : Kcpev T) (addr : Addr)
    (a : RecvAnswer) :
    (connectClientUdp os c client addr a).2.2 = -1 ∨
      (connectClientUdp os c client addr a).2.2 = 0 := by
  rcases h : connectClientUdp os c client addr a with ⟨os', client', ret⟩
  rcases connectClientUdp_cases h with ⟨hret, -⟩ | ⟨hret, -⟩
  · exact Or.inl hret
  · exact Or.inr hret

end Connect

/-- `check_create_kcp_timer` finds a timer, starts the first one and loses it, or
starts both. -/
theorem checkCreateKcpTimer_cases {os os' : Os K T} {data : Owner} {udp udp' : KcpevUdp T}
    {hcb : TimerCb} {evt evh : Bool} {ret : ℤ}
    (h : checkCreateKcpTimer os data udp hcb evt evh = .ok (os', udp', ret)) :
    (ret = -1 ∧ udp.evt.isSome ∧ os' = os ∧ udp' = udp) ∨
      (ret = -1 ∧ udp.evt = none ∧ evt ∧ evh = false ∧
        os' = (os.evTimerStart { data, cb := .kcpevOnTimer, again := 10 }).1 ∧
        udp' = { udp with evt := none, evh := none }) ∨
      (ret = 0 ∧ udp.evt = none ∧ evt ∧ evh ∧
        os' = ((os.evTimerStart { data, cb := .kcpevOnTimer, again := 10 }).1.evTimerStart
          { data, cb := hcb, again := 10000 }).1 ∧
        udp' = { udp with evt := some os.next, evh := some (os.next + 1), heart := os.now }) := by
  unfold checkCreateKcpTimer at h
  split at h
  · rename_i hevt
    cases h
    exact Or.inl ⟨rfl, hevt, rfl, rfl⟩
  rename_i hevt
  rw [Option.not_isSome_iff_eq_none] at hevt
  split at h
  · cases h
  rename_i halloc
  rw [not_not] at halloc
  dsimp only at h
  split at h
  · rename_i hevh
    cases h
    exact Or.inr (Or.inl ⟨rfl, hevt, halloc, by simpa using hevh, rfl, rfl⟩)
  · rename_i hevh
    cases h
    exact Or.inr (Or.inr ⟨rfl, hevt, halloc, by simpa using hevh, rfl, rfl⟩)

theorem checkCreateKcpTimer_ret {os os' : Os K T} {data : Owner} {udp udp' : KcpevUdp T}
    {hcb : TimerCb} {evt evh : Bool} {ret : ℤ}
    (h : checkCreateKcpTimer os data udp hcb evt evh = .ok (os', udp', ret)) :
    ret = -1 ∨ ret = 0 := by
  rcases checkCreateKcpTimer_cases h with ⟨hret, -⟩ | ⟨hret, -⟩ | ⟨hret, -⟩
  · exact Or.inl hret
  · exact Or.inl hret
  · exact Or.inr hret

end KcpEv
