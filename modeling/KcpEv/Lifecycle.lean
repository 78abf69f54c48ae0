import KcpEv.Process
import KcpEv.Resources
import KcpEv.Watchers

/-!
How objects come and go: what the two creations, `tcp_accept`, `close_client`
and `kcpev_server_destroy` do to the world.
-/
namespace KcpEv

open Ownership

variable {K T : Type}

/-- An object that is being built at `o`: what it refers to is owned, provided
that the answers were sound, and it has no timers yet. -/
structure Born (os os' : Os K T) (o : Owner) (b : KcpevBase T) (P : EvIo → Prop) (sound : Prop) :
    Prop where
  starts : os.Starts P os'
  owned : ∀ {objs}, sound → objs o = none → Owned os objs →
    Owned os' (Function.update objs o (some b.slots))
  evt : b.udp.evt = none
  evh : b.udp.evh = none

/-- The creations drop no socket. -/
def CreateClientAnswer.Sound (a : CreateClientAnswer) (os : Os K T) : Prop :=
  a.alloc → a.bind.Sound false { os with next := os.next + 1 }

def CreateServerAnswer.Sound (a : CreateServerAnswer) (os : Os K T) : Prop :=
  a.alloc → a.bind.Sound true os

instance (a : CreateServerAnswer) (os : Os K T) : Decidable (a.Sound os) :=
  inferInstanceAs (Decidable (_ → _))

theorem kcpevBind_timers {os os' : Os K T} {b b' : KcpevBase T} {reuse : Bool}
    {a : KcpevBindAnswer} {ret : ℤ} (h : kcpevBind os b reuse a = (os', b', ret)) :
    b'.udp.evt = b.udp.evt ∧ b'.udp.evh = b.udp.evh := by
  unfold kcpevBind at h
  split at h
  dsimp only at h
  split at h
  · cases h
    exact ⟨rfl, rfl⟩
  split at h
  · cases h
    exact ⟨rfl, rfl⟩
  split at h
  · cases h
    exact ⟨rfl, rfl⟩
  · cases h
    exact ⟨rfl, rfl⟩

theorem kcpevInitEv_timers {os os' : Os K T} {o : Owner} {b b' : KcpevBase T}
    {tcpCb udpCb : Option IoCb} {a : InitEvAnswer} {ret : ℤ}
    (h : kcpevInitEv os o b tcpCb udpCb a = (os', b', ret)) :
    b'.udp.evt = b.udp.evt ∧ b'.udp.evh = b.udp.evh ∧ b'.udp.kcp = b.udp.kcp ∧
      b'.udp.status = b.udp.status ∧ b'.udp.sock = b.udp.sock ∧ b'.tcp.sock = b.tcp.sock := by
  have hset : ∀ {os os' : Os K T} {k k' : KcpevSock} {cb : Option IoCb} {alloc : Bool} {r : ℤ},
      kcpevSetEvIf os o k cb alloc = (os', k', r) → k'.sock = k.sock := by
    intro os os' k k' cb alloc r h
    unfold kcpevSetEvIf kcpevSetEv at h
    split at h
    · cases h
      rfl
    split at h
    · cases h
      rfl
    split at h
    · cases h
      rfl
    · cases h
      rfl
  unfold kcpevInitEv at h
  split at h
  rename_i os₁ k r hr
  have htcp := hset hr
  split at h
  · cases h
    exact ⟨rfl, rfl, rfl, rfl, rfl, htcp⟩
  · cases h
    exact ⟨rfl, rfl, rfl, rfl, hset rfl, htcp⟩

section Create
variable [ClockImpl T] (w : World K T)

/-- The watchers a new client gets. -/
def ClientIo (c : ℕ) (e : EvIo) : Prop :=
  e.data = .kcpev c ∧ (e.cb = .clientTcpRecv ∨ e.cb = .clientUdpRecv)

/-- A creation fails before it has an object, or it destroys the object it has
built, or it keeps it. -/
theorem kcpevCreateClient_cases [KcpImpl K] (a : CreateClientAnswer) :
    kcpevCreateClient w a = w ∨ ∃ os b,
      Born w.os os (.kcpev w.os.next) b (ClientIo w.os.next) (a.Sound w.os) ∧
      w.os.next < os.next ∧
      (kcpevCreateClient w a = { w with os := b.destroy os } ∨
        (b.udp.kcp.isSome ∧ kcpevCreateClient w a =
          w.store os w.os.next { (kcpevCreate : Kcpev T) with toKcpevBase := b })) := by
  unfold kcpevCreateClient
  split
  · exact Or.inl rfl
  rename_i halloc
  rw [not_not] at halloc
  right
  dsimp only
  rcases hbind : kcpevBind { w.os with next := w.os.next + 1 }
    (kcpevCreate : Kcpev T).toKcpevBase false a.bind with ⟨os₁, b₁, r₁⟩
  have htimers := kcpevBind_timers hbind
  have hstarts : Os.Starts (ClientIo w.os.next) { w.os with next := w.os.next + 1 } os₁ :=
    Os.Starts.kcpevBind hbind
  have hnew : w.os.Starts (ClientIo w.os.next) { w.os with next := w.os.next + 1 } :=
    Os.Starts.of_ios (Nat.le_succ _) rfl rfl
  have hown : ∀ {objs : Owner → Option Slots}, a.Sound w.os →
      objs (.kcpev w.os.next) = none → Owned w.os objs →
      Owned os₁ (Function.update objs (.kcpev w.os.next) (some b₁.slots)) ∧
        b₁.tcp.evio = none ∧ b₁.udp.evio = none ∧ b₁.udp.kcp = none := by
    intro objs hs ho h
    exact (h.malloc.new ho).kcpevBind (b := (kcpevCreate : Kcpev T).toKcpevBase) rfl rfl (hs halloc)
      hbind
  have hb₁ : Born w.os os₁ (.kcpev w.os.next) b₁ (ClientIo w.os.next) (a.Sound w.os) :=
    ⟨hnew.trans hstarts, fun hs ho h => (hown hs ho h).1, htimers.1, htimers.2⟩
  have hn₁ : w.os.next < os₁.next := hstarts.next
  dsimp only
  split
  · exact ⟨os₁, b₁, hb₁, hn₁, Or.inl rfl⟩
  rcases hcreate : kcpevCreateKcp os₁ b₁.udp (kcpevCreate : Kcpev T).key.conv a.kcp with
    ⟨os₂, udp, r₂⟩
  have hs₂ : Os.Starts (ClientIo w.os.next) os₁ os₂ := Os.Starts.createKcp hcreate
  have hudp : udp.evt = b₁.udp.evt ∧ udp.evh = b₁.udp.evh ∧ udp.evio = b₁.udp.evio := by
    unfold kcpevCreateKcp at hcreate
    split at hcreate <;> cases hcreate <;> exact ⟨rfl, rfl, rfl⟩
  have hkcp : r₂ < 0 ∨ udp.kcp.isSome := by
    unfold kcpevCreateKcp at hcreate
    split at hcreate
    · cases hcreate
      exact Or.inl (by omega)
    · cases hcreate
      exact Or.inr rfl
  have hb₂ : Born w.os os₂ (.kcpev w.os.next) { b₁ with udp } (ClientIo w.os.next)
      (a.Sound w.os) := by
    refine ⟨hb₁.starts.trans hs₂, fun hs ho h => ?_, hudp.1.trans hb₁.evt, hudp.2.1.trans hb₁.evh⟩
    obtain ⟨h₁, -, -, hk⟩ := hown hs ho h
    exact h₁.createKcp' hk hcreate
  have hn₂ : w.os.next < os₂.next := hn₁.trans_le hs₂.next
  dsimp only
  split
  · exact ⟨os₂, { b₁ with udp }, hb₂, hn₂, Or.inl rfl⟩
  rename_i hr₂
  rcases hinit : kcpevInitEv os₂ (.kcpev w.os.next) { b₁ with udp } (some .clientTcpRecv)
    (some .clientUdpRecv) a.initEv with ⟨os₃, b₃, r₃⟩
  have hs₃ : Os.Starts (ClientIo w.os.next) os₂ os₃ := by
    refine Os.Starts.initEv (fun fd cb hcb => ?_) (fun fd cb hcb => ?_) hinit
    · cases hcb
      exact ⟨rfl, Or.inl rfl⟩
    · cases hcb
      exact ⟨rfl, Or.inr rfl⟩
  have htimers₃ := kcpevInitEv_timers hinit
  have hb₃ : Born w.os os₃ (.kcpev w.os.next) b₃ (ClientIo w.os.next) (a.Sound w.os) := by
    refine ⟨hb₂.starts.trans hs₃, fun hs ho h => ?_, htimers₃.1.trans hb₂.evt,
      htimers₃.2.1.trans hb₂.evh⟩
    obtain ⟨h₁, htcp, hu, hk⟩ := hown hs ho h
    exact (h₁.createKcp' hk hcreate).initEv (Or.inr htcp) (Or.inr (hudp.2.2.trans hu)) hinit
  have hn₃ : w.os.next < os₃.next := hn₂.trans_le hs₃.next
  dsimp only
  split
  · exact ⟨os₃, b₃, hb₃, hn₃, Or.inl rfl⟩
  · refine ⟨os₃, b₃, hb₃, hn₃, Or.inr ⟨?_, rfl⟩⟩
    rw [htimers₃.2.2.1]
    exact hkcp.resolve_left hr₂

/-- The watchers a server gets. -/
def ServerIo (e : EvIo) : Prop := e.cb = .tcpAccept ∨ e.cb = .serverUdpRecvAll

theorem kcpevCreateServer_cases (a : CreateServerAnswer) :
    kcpevCreateServer w a = w ∨ ∃ os b,
      Born w.os os .server b ServerIo (a.Sound w.os) ∧
      (kcpevCreateServer w a = { w with os := b.destroy os } ∨
        kcpevCreateServer w a =
          { w with os, server := some { (kcpevServerCreate : KcpevServer T) with
            toKcpevBase := b } }) := by
  unfold kcpevCreateServer
  split
  · exact Or.inl rfl
  rename_i halloc
  rw [not_not] at halloc
  right
  dsimp only
  rcases hbind : kcpevBind w.os (kcpevServerCreate : KcpevServer T).toKcpevBase true a.bind with
    ⟨os₁, b₁, r₁⟩
  have htimers := kcpevBind_timers hbind
  have hstarts : Os.Starts ServerIo w.os os₁ := Os.Starts.kcpevBind hbind
  have hown : ∀ {objs : Owner → Option Slots}, a.Sound w.os → objs .server = none →
      Owned w.os objs → Owned os₁ (Function.update objs .server (some b₁.slots)) ∧
        b₁.tcp.evio = none ∧ b₁.udp.evio = none ∧ b₁.udp.kcp = none := by
    intro objs hs ho h
    exact (h.new ho).kcpevBind (b := (kcpevServerCreate : KcpevServer T).toKcpevBase) rfl rfl
      (hs halloc) hbind
  have hb₁ : Born w.os os₁ .server b₁ ServerIo (a.Sound w.os) :=
    ⟨hstarts, fun hs ho h => (hown hs ho h).1, htimers.1, htimers.2⟩
  dsimp only
  split
  · exact ⟨os₁, b₁, hb₁, Or.inl rfl⟩
  rcases hinit : kcpevInitEv os₁ .server b₁ (some .tcpAccept) (some .serverUdpRecvAll) a.initEv
    with ⟨os₂, b₂, r₂⟩
  have hs₂ : Os.Starts ServerIo os₁ os₂ := by
    refine Os.Starts.initEv (fun fd cb hcb => ?_) (fun fd cb hcb => ?_) hinit
    · cases hcb
      exact Or.inl rfl
    · cases hcb
      exact Or.inr rfl
  have htimers₂ := kcpevInitEv_timers hinit
  have hb₂ : Born w.os os₂ .server b₂ ServerIo (a.Sound w.os) := by
    refine ⟨hstarts.trans hs₂, fun hs ho h => ?_, htimers₂.1.trans hb₁.evt,
      htimers₂.2.1.trans hb₁.evh⟩
    obtain ⟨h₁, htcp, hu, -⟩ := hown hs ho h
    exact h₁.initEv (Or.inr htcp) (Or.inr hu) hinit
  dsimp only
  split
  · exact ⟨os₂, b₂, hb₂, Or.inl rfl⟩
  split
  · exact ⟨os₂, b₂, hb₂, Or.inl rfl⟩
  · exact ⟨os₂, b₂, hb₂, Or.inr rfl⟩

end Create

section Accept
variable [ClockImpl T]

/-- The watcher of a new session. -/
def SessionIo (c : ℕ) (e : EvIo) : Prop := e.data = .kcpev c ∧ e.cb = .serverTcpRecv

/-- `tcp_accept` on a listening socket gets as far as `HASH_ADD`. -/
def AcceptAnswer.Adds (a : AcceptAnswer) (os : Os K T) (fd : ℕ) : Prop :=
  (os.socks fd).isSome ∧ (os.socks a.sock).isNone ∧ a.sock ≠ 0 ∧ a.getnameinfo ∧ a.alloc

instance (a : AcceptAnswer) (os : Os K T) (fd : ℕ) : Decidable (a.Adds os fd) :=
  inferInstanceAs (Decidable (_ ∧ _))

/-- `tcp_accept` fails behind `HASH_ADD`: there is no memory for the watcher, or
the key is not sent as a whole. -/
def AcceptAnswer.Fails (a : AcceptAnswer) : Prop := a.evio = false ∨ a.send.send.getD 0 < 24

instance (a : AcceptAnswer) : Decidable a.Fails := inferInstanceAs (Decidable (_ ∨ _))

/-- What one call of `tcp_accept` does. -/
inductive Accept (w : World K T) (fd : ℕ) (answer : Option AcceptAnswer) : World K T → Prop
  | nothing (hnot : ∀ a, answer = some a → ¬ a.Adds w.os fd) : Accept w fd answer w
  | zero {a : AcceptAnswer} (ha : answer = some a) (hsock : a.sock = 0)
    (hfree : w.os.socks 0 = none) :
    Accept w fd answer { w with os :=
      { w.os with socks := Function.update w.os.socks 0 (some ⟨some a.peer⟩) } }
  /-- The client is destroyed, after it has been added to the hash. -/
  | failed {a : AcceptAnswer} {server : KcpevServer T} {os : Os K T} {b : KcpevBase T}
    (ha : answer = some a) (hadds : a.Adds w.os fd) (hserver : w.server = some server)
    (hborn : Born w.os os (.kcpev w.os.next) b (SessionIo w.os.next) True)
    (hnext : w.os.next < os.next) (hfails : a.Fails) :
    Accept w fd answer
      { w with server := some (server.hashAdd a.uuid w.os.next), os := b.destroy os }
  | added {a : AcceptAnswer} {server : KcpevServer T} {os os' : Os K T} {b : KcpevBase T} {s : ℕ}
    (ha : answer = some a) (hadds : a.Adds w.os fd) (hserver : w.server = some server)
    (hborn : Born w.os os (.kcpev w.os.next) b (SessionIo w.os.next) True)
    (hnext : w.os.next < os.next) (hudp : b.udp = (KcpevBase.zero : KcpevBase T).udp)
    (hsend : sockSendCommand os s .shakeHand1 a.uuid.val a.send = .ok (os', 0)) :
    Accept w fd answer
      ({ w with server := some (server.hashAdd a.uuid w.os.next) }.store os' w.os.next
      { (kcpevCreate : Kcpev T) with toKcpevBase := b, key := a.uuid, hasServer := true })

omit [ClockImpl T] in
theorem kcpevSetEv_ret {os os' : Os K T} {o : Owner} {k k' : KcpevSock} {cb : IoCb}
    {alloc : Bool} {ret : ℤ} (h : kcpevSetEv os o k cb alloc = (os', k', ret)) :
    ret < 0 → alloc = false := by
  unfold kcpevSetEv at h
  intro hret
  split at h
  · cases h
    omega
  split at h
  · rename_i halloc
    simpa using halloc
  · cases h
    omega

omit [ClockImpl T] in
theorem kcpevInitEv_socks {os os' : Os K T} {o : Owner} {b b' : KcpevBase T}
    {tcpCb udpCb : Option IoCb} {a : InitEvAnswer} {ret : ℤ}
    (h : kcpevInitEv os o b tcpCb udpCb a = (os', b', ret)) : os'.socks = os.socks := by
  have hset : ∀ {os os' : Os K T} {k k' : KcpevSock} {cb : Option IoCb} {alloc : Bool} {r : ℤ},
      kcpevSetEvIf os o k cb alloc = (os', k', r) → os'.socks = os.socks := by
    intro os os' k k' cb alloc r h
    unfold kcpevSetEvIf kcpevSetEv at h
    split at h
    · cases h
      rfl
    split at h
    · cases h
      rfl
    split at h
    · cases h
      rfl
    · cases h
      rfl
  unfold kcpevInitEv at h
  split at h
  rename_i os₁ k r hr
  split at h
  · cases h
    exact hset hr
  · cases h
    exact (hset rfl).trans (hset hr)

theorem tcpAccept_cases {w w' : World K T} {fd : ℕ} {answer : Option AcceptAnswer}
    (h : tcpAccept w fd answer = .ok w') : Accept w fd answer w' := by
  unfold tcpAccept at h
  split at h
  · rename_i hclosed
    cases h
    refine .nothing fun a _ hadds => ?_
    have hlisten := hadds.1
    rw [hclosed] at hlisten
    cases hlisten
  · cases h
    exact .nothing fun a ha => by cases ha
  rename_i v a hlisten
  split at h
  · rename_i hopen
    cases h
    refine .nothing fun a' ha hadds => ?_
    cases ha
    have hfree := hadds.2.1
    unfold Os.openSock at hopen
    dsimp only at hopen
    split at hopen
    · rename_i hsome
      simp only [Option.isNone_iff_eq_none] at hfree
      simp [hfree] at hsome
    · cases hopen
  rename_i os s hopen
  have hfresh : a.sock = s ∧ w.os.socks s = none ∧
      os = { w.os with socks := Function.update w.os.socks s (some ⟨some a.peer⟩) } := by
    unfold Os.openSock at hopen
    dsimp only at hopen
    split at hopen
    · cases hopen
    rename_i hnone
    cases hopen
    exact ⟨rfl, by simpa using hnone, rfl⟩
  obtain ⟨hsock, hfree, rfl⟩ := hfresh
  have hclose : ∀ v : Sock, ({ w.os with socks := Function.update w.os.socks s (some v) } :
      Os K T).close s = w.os := by
    intro v
    simp only [Os.close, Function.update_idem]
    rw [← hfree, Function.update_eq_self]
  split at h
  · rename_i hs
    subst hs
    cases h
    exact .zero rfl hsock hfree
  rename_i hs
  split at h
  · rename_i hname
    cases h
    rw [hclose]
    refine .nothing fun a' ha hadds => ?_
    cases ha
    exact hname hadds.2.2.2.1
  rename_i hname
  split at h
  · rename_i halloc
    cases h
    rw [hclose]
    refine .nothing fun a' ha hadds => ?_
    cases ha
    exact halloc hadds.2.2.2.2
  rename_i halloc
  rw [not_not] at hname halloc
  have hadds : a.Adds w.os fd := by
    refine ⟨?_, ?_, ?_, hname, halloc⟩
    · rw [hlisten]
      rfl
    · rw [hsock, hfree]
      rfl
    · rw [hsock]
      exact hs
  obtain ⟨server, hserver, h⟩ := bind_eq_ok.mp h
  rw [World.kcpevServer_ok] at hserver
  rcases hinit : kcpevInitEv
    { w.os with
      socks := Function.update w.os.socks s (some ⟨some a.peer⟩), next := w.os.next + 1 }
    (.kcpev w.os.next) (acceptBase s : KcpevBase T) (some .serverTcpRecv) none
    { tcp := a.evio, udp := true } with ⟨os₁, b, r⟩
  simp only [hinit] at h
  have hstarts : w.os.Starts (SessionIo w.os.next) os₁ := by
    refine Os.Starts.trans ?_ (Os.Starts.initEv (fun fd cb hcb => ?_) (fun fd cb hcb => ?_) hinit)
    · exact Os.Starts.of_ios (Nat.le_succ _) rfl rfl
    · cases hcb
      exact ⟨rfl, rfl⟩
    · cases hcb
  have hborn : Born w.os os₁ (.kcpev w.os.next) b (SessionIo w.os.next) True := by
    obtain ⟨hevt, hevh, -⟩ := kcpevInitEv_timers hinit
    refine ⟨hstarts, fun {objs} _ ho h => ?_, hevt, hevh⟩
    have hsocket : Owned
        ({ w.os with socks := Function.update w.os.socks s (some ⟨some a.peer⟩) } : Os K T)
        (Function.update objs (.kcpev w.os.next) (some (acceptBase s : KcpevBase T).slots)) :=
      (h.new ho).openSock .tcp rfl hs hfree _
    exact hsocket.malloc.initEv (Or.inr rfl) (Or.inl rfl) hinit
  have hnext : w.os.next < os₁.next := by
    have := (Os.Starts.initEv (P := SessionIo w.os.next) (fun fd cb hcb => by
      cases hcb; exact ⟨rfl, rfl⟩) (fun fd cb hcb => by cases hcb) hinit).next
    exact this
  have hudp : b.udp = (KcpevBase.zero : KcpevBase T).udp := by
    unfold kcpevInitEv at hinit
    split at hinit
    split at hinit
    · cases hinit
      rfl
    · cases hinit
      rfl
  split at h
  · rename_i hr
    cases h
    refine .failed rfl hadds hserver hborn hnext (Or.inl ?_)
    unfold kcpevInitEv kcpevSetEvIf at hinit
    split at hinit
    rename_i os₂ k r₂ hset
    split at hinit
    · rename_i hr₂
      exact kcpevSetEv_ret hset hr₂
    · cases hinit
      omega
  obtain ⟨⟨os₂, ret⟩, hsend, h⟩ := bind_eq_ok.mp h
  have hkeeps := keeps_sockSendCommand hsend
  by_cases hret : ret = 0
  · subst hret
    cases h
    exact .added rfl hadds hserver hborn hnext hudp hsend
  · simp only [ne_eq, hret, not_false_eq_true, if_true] at h
    cases h
    have hopen : (os₁.socks s).isSome := by
      rw [kcpevInitEv_socks hinit]
      simp
    have hlen : a.uuid.val.length + 8 = 24 := by rw [a.uuid.property]
    have hshort : a.send.send.getD 0 < 24 := by
      have hiff := sockSendCommand_ret hopen (by rw [hlen, kcpevBufferSize_eq]; omega) hsend
      rcases hk : a.send.send with _ | k
      · simp
      · by_contra hlong
        rw [Option.getD_some] at hlong
        exact hret (hiff.mpr ⟨k, hk, by omega⟩)
    refine .failed rfl hadds hserver
      ⟨hborn.starts.trans (Os.Starts.of_same hkeeps.toSame), fun hs ho h =>
      (hborn.owned hs ho h).same hkeeps.toSame, hborn.evt, hborn.evh⟩
      (hnext.trans_le hkeeps.next.ge) (Or.inr hshort)

end Accept

end KcpEv
