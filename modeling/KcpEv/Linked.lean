import KcpEv.Tidy
import KcpEv.ServerHash

/-!
What holds of the resources in every run, without any condition: the slots of
the live objects refer to resources that exist, and no two slots to the same
one. The library drops resources, but it never uses one twice.
-/
namespace KcpEv

open Ownership Guarded

variable {K T : Type}

structure Linked (os : Os K T) (objs : Owner → Option Slots) : Prop where
  socks : Refers os.socks (refs Slots.sockSlot objs)
  ios : Refers os.ios (refs Slots.ioSlot objs)
  timers : Refers os.timers (refs Slots.timerSlot objs)
  kcps : Refers os.kcps (refs Slots.kcpSlot objs)
  fresh : ∀ {p}, os.next ≤ p → os.ios p = none ∧ os.timers p = none ∧ os.kcps p = none

namespace Linked

variable {os os' : Os K T} {objs : Owner → Option Slots} {o : Owner} {s : Slots} {side : Side}

/-- Nothing goes, and the slots stay. -/
theorem grow (h : Linked os objs) (hsocks : ∀ i, (os.socks i).isSome → (os'.socks i).isSome)
    (hios : os'.ios = os.ios) (htimers : ∀ p, (os'.timers p).isSome = (os.timers p).isSome)
    (hkcps : ∀ p, (os'.kcps p).isSome = (os.kcps p).isSome) (hnext : os.next ≤ os'.next) :
    Linked os' objs where
  socks := h.socks.mono hsocks
  ios := by rw [hios]; exact h.ios
  timers := h.timers.mono fun p hp => by rw [htimers]; exact hp
  kcps := h.kcps.mono fun p hp => by rw [hkcps]; exact hp
  fresh {p} hp := by
    obtain ⟨h₁, h₂, h₃⟩ := h.fresh (hnext.trans hp)
    have ht := htimers p
    have hk := hkcps p
    rw [h₂] at ht
    rw [h₃] at hk
    refine ⟨by rw [hios]; exact h₁, ?_, ?_⟩
    · exact Option.not_isSome_iff_eq_none.mp (by rw [ht]; simp)
    · exact Option.not_isSome_iff_eq_none.mp (by rw [hk]; simp)

theorem same (h : Linked os objs) (hos : os.Same os') : Linked os' objs := by
  refine h.grow (fun i hi => by rw [hos.socks]; exact hi) hos.ios (fun p => ?_) hos.kcps
    hos.next.ge
  have hp := congrArg Option.isSome (hos.timers p)
  simpa using hp

theorem malloc (h : Linked os objs) : Linked { os with next := os.next + 1 } objs :=
  h.grow (fun _ hi => hi) rfl (fun _ => rfl) (fun _ => rfl) (Nat.le_succ _)

theorem emit (h : Linked os objs) (x : Output) : Linked (os.emit x) objs :=
  h.grow (fun _ hi => hi) rfl (fun _ => rfl) (fun _ => rfl) le_rfl

theorem vacant : Linked os (Function.update objs o none) ↔
    Linked os (Function.update objs o (some Slots.empty)) := by
  have hsock : Slots.sockSlot Slots.empty = fun _ => none := by
    funext x
    cases x <;> rfl
  have hio : Slots.ioSlot Slots.empty = fun _ => none := by
    funext x
    cases x <;> rfl
  have htimer : Slots.timerSlot Slots.empty = fun _ => none := by
    funext x
    cases x <;> rfl
  have hkcp : Slots.kcpSlot Slots.empty = fun _ => none := rfl
  have hs : refs Slots.sockSlot (Function.update objs o none) = _ := refs_vacant o hsock
  have hi : refs Slots.ioSlot (Function.update objs o none) = _ := refs_vacant o hio
  have ht : refs Slots.timerSlot (Function.update objs o none) = _ := refs_vacant o htimer
  have hk : refs Slots.kcpSlot (Function.update objs o none) = _ := refs_vacant o hkcp
  constructor
  · intro h
    exact ⟨hs ▸ h.socks, hi ▸ h.ios, ht ▸ h.timers, hk ▸ h.kcps, h.fresh⟩
  · intro h
    exact ⟨hs ▸ h.socks, hi ▸ h.ios, ht ▸ h.timers, hk ▸ h.kcps, h.fresh⟩

theorem new (h : Linked os objs) (ho : objs o = none) :
    Linked os (Function.update objs o (some Slots.empty)) := by
  apply vacant.mp
  rw [← ho, Function.update_eq_self]
  exact h

theorem withSock (h : Linked os (Function.update objs o (some s))) (side : Side) {k : KcpevSock}
    (hsocks : Refers os'.socks
      (Function.update (refs Slots.sockSlot (Function.update objs o (some s))) (o, side) k.ref))
    (hios : Refers os'.ios
      (Function.update (refs Slots.ioSlot (Function.update objs o (some s))) (o, side) k.evio))
    (htimers : os'.timers = os.timers) (hkcps : os'.kcps = os.kcps)
    (hfresh : ∀ {p}, os'.next ≤ p → os.next ≤ p ∧ os'.ios p = none) :
    Linked os' (Function.update objs o (some (s.withSock side k))) where
  socks := by rw [refs_update o (s.sockSlot_withSock side k)]; exact hsocks
  ios := by rw [refs_update o (s.ioSlot_withSock side k)]; exact hios
  timers := by rw [refs_congr o (s.timerSlot_withSock side k), htimers]; exact h.timers
  kcps := by rw [refs_congr o (s.kcpSlot_withSock side k), hkcps]; exact h.kcps
  fresh hp := by
    obtain ⟨hle, hio⟩ := hfresh hp
    obtain ⟨-, h₂, h₃⟩ := h.fresh hle
    rw [htimers, hkcps]
    exact ⟨hio, h₂, h₃⟩

/-- The table of watchers when the watcher of the slot stays. -/
theorem ios_self (h : Linked os (Function.update objs o (some s))) (side : Side) {k : KcpevSock}
    (hk : k.evio = (s.sock side).evio) : Refers os.ios
      (Function.update (refs Slots.ioSlot (Function.update objs o (some s))) (o, side) k.evio) := by
  have hself : refs Slots.ioSlot (Function.update objs o (some s)) (o, side) = k.evio := by
    rw [refs_self, hk]
    rfl
  rw [← hself, Function.update_eq_self]
  exact h.ios

theorem openSock (h : Linked os (Function.update objs o (some s))) (side : Side) {fd : ℕ}
    (hfree : os.socks fd = none) (v : Sock) :
    Linked { os with socks := Function.update os.socks fd (some v) }
      (Function.update objs o (some (s.withSock side { s.sock side with sock := fd }))) := by
  refine h.withSock side ?_ (h.ios_self side rfl) rfl rfl fun hp => ⟨hp, (h.fresh hp).1⟩
  by_cases hzero : fd = 0
  · have href : KcpevSock.ref { s.sock side with sock := fd } = none := if_pos hzero
    rw [href]
    exact (h.socks.drop (o, side)).add fd v
  · have href : KcpevSock.ref { s.sock side with sock := fd } = some fd := if_neg hzero
    rw [href]
    exact h.socks.acquire hfree (o, side) v

/-- A socket field is cleared, with or without a `close`. -/
theorem dropSock (h : Linked os (Function.update objs o (some s))) (side : Side) :
    Linked os (Function.update objs o (some (s.withSock side { s.sock side with sock := 0 }))) :=
  h.withSock side (h.socks.drop (o, side)) (h.ios_self side rfl) rfl rfl
    fun hp => ⟨hp, (h.fresh hp).1⟩

theorem connect (h : Linked os objs) (fd : ℕ) (addr : Addr) : Linked (os.connect fd addr) objs := by
  unfold Os.connect
  split
  · exact h
  · refine h.grow (fun i hi => ?_) rfl (fun _ => rfl) (fun _ => rfl) le_rfl
    rcases eq_or_ne i fd with rfl | hne
    · simp
    · simpa [hne] using hi

theorem startIo (h : Linked os (Function.update objs o (some s))) (side : Side) (cb : IoCb) :
    Linked (os.evIoStart { fd := (s.sock side).sock, data := o, cb }).1 (Function.update objs o
      (some (s.withSock side { s.sock side with evio := some os.next }))) := by
  refine h.withSock side ?_ (h.ios.acquire (h.fresh le_rfl).1 (o, side) _) rfl rfl ?_
  · have hself : refs Slots.sockSlot (Function.update objs o (some s)) (o, side) =
        KcpevSock.ref { s.sock side with evio := some os.next } := refs_self ..
    rw [← hself, Function.update_eq_self]
    exact h.socks
  · intro p hp
    have hlt : os.next + 1 ≤ p := hp
    refine ⟨by omega, ?_⟩
    simp only [Os.evIoStart]
    rw [Function.update_of_ne (by omega)]
    exact (h.fresh (by omega)).1

theorem destroySock (h : Linked os (Function.update objs o (some s))) (side : Side) :
    Linked ((s.sock side).destroy os).1
      (Function.update objs o (some (s.withSock side KcpevSock.zero))) := by
  obtain ⟨htimers, hkcps, hnext, -⟩ := Owned.destroySock_rest os (s.sock side)
  have hsockRef : refs Slots.sockSlot (Function.update objs o (some s)) (o, side) =
      (s.sock side).ref := refs_self ..
  have hioRef : refs Slots.ioSlot (Function.update objs o (some s)) (o, side) =
      (s.sock side).evio := refs_self ..
  refine h.withSock side ?_ ?_ htimers hkcps ?_
  · rw [Owned.destroySock_socks os (s.sock side), ← hsockRef]
    exact h.socks.clear (o, side)
  · rw [Owned.destroySock_ios os (s.sock side), ← hioRef]
    exact h.ios.clear (o, side)
  · intro p hp
    rw [hnext] at hp
    rw [Owned.destroySock_ios os (s.sock side)]
    exact ⟨hp, Owned.elim_update_none _ (h.fresh hp).1⟩

/-- The slot for one timer changes, and with it the table of timers. -/
theorem withClock (h : Linked os (Function.update objs o (some s))) (clock : Clock) {v : Option ℕ}
    {timers : ℕ → Option EvTimer} {next : ℕ}
    (htimers : Refers timers
      (Function.update (refs Slots.timerSlot (Function.update objs o (some s))) (o, clock) v))
    (hfresh : ∀ {p}, next ≤ p → os.next ≤ p ∧ timers p = none) :
    Linked { os with timers, next } (Function.update objs o (some (s.withClock clock v))) where
  socks := by rw [refs_congr o (s.sockSlot_withClock clock v)]; exact h.socks
  ios := by rw [refs_congr o (s.ioSlot_withClock clock v)]; exact h.ios
  timers := by rw [refs_update o (s.timerSlot_withClock clock v)]; exact htimers
  kcps := by rw [refs_congr o (s.kcpSlot_withClock clock v)]; exact h.kcps
  fresh hp := by
    obtain ⟨hle, ht⟩ := hfresh hp
    obtain ⟨h₁, -, h₃⟩ := h.fresh hle
    exact ⟨h₁, ht, h₃⟩

theorem timers_fresh (h : Linked os objs) (t : EvTimer) {p : ℕ} (hp : os.next + 1 ≤ p) :
    os.next ≤ p ∧ Function.update os.timers os.next (some t) p = none := by
  refine ⟨by omega, ?_⟩
  rw [Function.update_of_ne (by omega)]
  exact (h.fresh (by omega)).2.1

theorem startTimer (h : Linked os (Function.update objs o (some s))) (clock : Clock) (t : EvTimer) :
    Linked (os.evTimerStart t).1
      (Function.update objs o (some (s.withClock clock (some os.next)))) :=
  h.withClock clock (h.timers.acquire (h.fresh le_rfl).2.1 (o, clock) t) (h.timers_fresh t)

theorem loseTimer (h : Linked os objs) (t : EvTimer) : Linked (os.evTimerStart t).1 objs where
  socks := h.socks
  ios := h.ios
  timers := h.timers.add os.next t
  kcps := h.kcps
  fresh hp := by
    obtain ⟨hle, ht⟩ := h.timers_fresh t hp
    obtain ⟨h₁, -, h₃⟩ := h.fresh hle
    exact ⟨h₁, ht, h₃⟩

/-- `ev_timer_stop` of a timer of the object, if it has one. -/
theorem stopTimer (h : Linked os (Function.update objs o (some s))) (clock : Clock) :
    Linked { os with timers := (s.timerSlot clock).elim os.timers fun p =>
        Function.update os.timers p none }
      (Function.update objs o (some (s.withClock clock none))) := by
  have href : refs Slots.timerSlot (Function.update objs o (some s)) (o, clock) =
    s.timerSlot clock := refs_self ..
  refine h.withClock clock ?_ ?_
  · rw [← href]
    exact h.timers.clear (o, clock)
  · intro p hp
    exact ⟨hp, Owned.elim_update_none _ (h.fresh hp).2.1⟩

theorem dropTimer (h : Linked os (Function.update objs o (some s))) (clock : Clock) :
    Linked os (Function.update objs o (some (s.withClock clock none))) :=
  h.withClock clock (h.timers.drop (o, clock)) fun hp => ⟨hp, (h.fresh hp).2.1⟩

theorem withKcp (h : Linked os (Function.update objs o (some s))) {v : Option ℕ}
    {kcps : ℕ → Option (Ikcpcb K)} {next : ℕ}
    (hkcps : Refers kcps
      (Function.update (refs Slots.kcpSlot (Function.update objs o (some s))) (o, ()) v))
    (hfresh : ∀ {p}, next ≤ p → os.next ≤ p ∧ kcps p = none) :
    Linked { os with kcps, next } (Function.update objs o (some { s with kcp := v })) where
  socks := by rw [refs_congr o (s.sockSlot_kcp v)]; exact h.socks
  ios := by rw [refs_congr o (s.ioSlot_kcp v)]; exact h.ios
  timers := by rw [refs_congr o (s.timerSlot_kcp v)]; exact h.timers
  kcps := by rw [refs_update o (s.kcpSlot_kcp v)]; exact hkcps
  fresh hp := by
    obtain ⟨hle, hk⟩ := hfresh hp
    obtain ⟨h₁, h₂, -⟩ := h.fresh hle
    exact ⟨h₁, h₂, hk⟩

theorem createKcp [KcpImpl K] (h : Linked os (Function.update objs o (some s))) (conv : ℕ) :
    Linked (os.ikcpCreate conv).1
      (Function.update objs o (some { s with kcp := some os.next })) := by
  refine h.withKcp (h.kcps.acquire (h.fresh le_rfl).2.2 (o, ()) _) ?_
  intro p hp
  refine ⟨by omega, ?_⟩
  rw [Function.update_of_ne (by omega)]
  exact (h.fresh (by omega)).2.2

/-- `ikcp_release` of the KCP object of the object, if it has one. -/
theorem releaseKcp (h : Linked os (Function.update objs o (some s))) :
    Linked { os with kcps := s.kcp.elim os.kcps fun p => Function.update os.kcps p none }
      (Function.update objs o (some { s with kcp := none })) := by
  have href : refs Slots.kcpSlot (Function.update objs o (some s)) (o, ()) = s.kcp := refs_self ..
  refine h.withKcp ?_ ?_
  · rw [← href]
    exact h.kcps.clear (o, ())
  · intro p hp
    exact ⟨hp, Owned.elim_update_none _ (h.fresh hp).2.2⟩

/-! The functions of the library. -/

section Functions
variable {b b' : KcpevBase T} {ret : ℤ}

theorem leakSock (h : Linked os objs) (fd : ℕ) (v : Sock) :
    Linked { os with socks := Function.update os.socks fd (some v) } objs :=
  ⟨h.socks.add fd v, h.ios, h.timers, h.kcps, h.fresh⟩

theorem bindSocket (h : Linked os (Function.update objs o (some s))) (side : Side) {reuse : Bool}
    {a : BindAnswer} {k : KcpevSock}
    (hbind : kcpevBindSocket os (s.sock side) reuse a = (os', k, ret)) :
    Linked os' (Function.update objs o (some (s.withSock side k))) := by
  unfold kcpevBindSocket at hbind
  split at hbind
  · cases hbind
    rw [s.withSock_sock side]
    exact h
  · rcases bindLoop_cases reuse a.addrs os with ⟨hl, -⟩ | ⟨fd, hfd, hl, -⟩ | ⟨fd, hfd, hl, -⟩
    · rw [hl] at hbind
      cases hbind
      exact h.dropSock side
    · rw [hl] at hbind
      cases hbind
      exact h.openSock side hfd _
    · rw [hl] at hbind
      cases hbind
      exact (h.dropSock side).leakSock fd _

theorem connectSocket (h : Linked os objs) {k : KcpevSock} {addr : Addr} {a : ConnectAnswer}
    (hconn : kcpevConnectSocket os k addr a = (os', ret)) : Linked os' objs := by
  unfold kcpevConnectSocket at hconn
  split at hconn
  · cases hconn
    exact h
  split at hconn
  · cases hconn
    exact h
  split at hconn
  · cases hconn
    exact h.connect _ _
  · cases hconn
    exact h

theorem setEvIf (h : Linked os (Function.update objs o (some s))) (side : Side)
    {cb : Option IoCb} {alloc : Bool} {k : KcpevSock}
    (hset : kcpevSetEvIf os o (s.sock side) cb alloc = (os', k, ret)) :
    Linked os' (Function.update objs o (some (s.withSock side k))) := by
  have hself : Linked os (Function.update objs o (some (s.withSock side (s.sock side)))) := by
    rw [s.withSock_sock side]
    exact h
  rcases cb with _ | cb
  · cases hset
    exact hself
  unfold kcpevSetEvIf kcpevSetEv at hset
  dsimp only at hset
  split at hset
  · cases hset
    exact hself
  split at hset
  · cases hset
    exact hself
  · cases hset
    exact h.startIo side cb

theorem initEv (h : Linked os (Function.update objs o (some b.slots))) {tcpCb udpCb : Option IoCb}
    {a : InitEvAnswer} (hinit : kcpevInitEv os o b tcpCb udpCb a = (os', b', ret)) :
    Linked os' (Function.update objs o (some b'.slots)) := by
  unfold kcpevInitEv at hinit
  split at hinit
  rename_i os₁ k r hr
  have hfirst := h.setEvIf .tcp hr
  split at hinit
  · cases hinit
    exact hfirst
  · cases hinit
    exact hfirst.setEvIf .udp rfl

theorem destroyUdp (h : Linked os (Function.update objs o (some b.slots))) :
    Linked (b.udp.destroy os).1 (Function.update objs o
      (some { Slots.empty with tcp := b.tcp.toKcpevSock })) := by
  have hkcp := (((h.destroySock .udp).stopTimer .evt).stopTimer .evh).releaseKcp
  have hos : (b.udp.destroy os).1 = (KcpEv.releaseKcp (stopEvh (stopEvt
      (b.udp.toKcpevSock.destroy os).1 { b.udp with toKcpevSock := KcpevSock.zero }).1
      { b.udp with toKcpevSock := KcpevSock.zero, evt := none }).1
      { b.udp with toKcpevSock := KcpevSock.zero, evt := none, evh := none }).1 := by
    simp only [KcpevUdp.destroy, KcpevSock.destroy_snd, stopEvt_snd, stopEvh_snd]
  rw [hos, Owned.releaseKcp_fst, Owned.stopEvh_fst, Owned.stopEvt_fst]
  exact hkcp

theorem destroy (h : Linked os (Function.update objs o (some b.slots))) :
    Linked (b.destroy os) (Function.update objs o none) := by
  have hudp := (h.destroySock .tcp).destroyUdp
    (b := { b with tcp := { KcpevSock.zero with rb := none } })
  exact vacant.mpr hudp

theorem createKcp' [KcpImpl K] (h : Linked os (Function.update objs o (some b.slots))) {conv : ℕ}
    {alloc : Bool} {udp : KcpevUdp T}
    (hcreate : kcpevCreateKcp os b.udp conv alloc = (os', udp, ret)) :
    Linked os' (Function.update objs o (some { b with udp }.slots)) := by
  unfold kcpevCreateKcp at hcreate
  split at hcreate
  · cases hcreate
    exact h
  · cases hcreate
    exact h.createKcp conv

theorem kcpevBind (h : Linked os (Function.update objs o (some b.slots))) {reuse : Bool}
    {a : KcpevBindAnswer} (hbind : KcpEv.kcpevBind os b reuse a = (os', b', ret)) :
    Linked os' (Function.update objs o (some b'.slots)) := by
  unfold KcpEv.kcpevBind at hbind
  split at hbind
  rename_i os₁ k r htcp
  have hfirst := h.bindSocket .tcp htcp
  dsimp only at hbind
  split at hbind
  · cases hbind
    exact hfirst
  split at hbind
  · cases hbind
    exact hfirst
  split at hbind
  · cases hbind
    exact hfirst
  · cases hbind
    exact hfirst.bindSocket .udp rfl

theorem kcpevConnect (h : Linked os (Function.update objs o (some b.slots))) {addr : Addr}
    {a : KcpevConnectAnswer} (hconn : KcpEv.kcpevConnect os b addr a = (os', b', ret)) :
    Linked os' (Function.update objs o (some b'.slots)) := by
  have close : ∀ {os : Os K T}, Linked os (Function.update objs o (some b.slots)) →
      Linked (closeSock os b.udp.toKcpevSock).1 (Function.update objs o
        (some { b with udp := { b.udp with
          toKcpevSock := (closeSock os b.udp.toKcpevSock).2 } }.slots)) := by
    intro os h
    rw [closeSock_snd]
    have hdrop := h.dropSock .udp
    unfold closeSock
    split
    · exact hdrop
    · rename_i hne
      have href : refs Slots.sockSlot (Function.update objs o (some b.slots)) (o, Side.udp) =
          some b.udp.sock := (refs_self ..).trans (if_neg hne)
      have hclear := h.socks.clear (o, Side.udp)
      rw [href] at hclear
      exact h.withSock .udp hclear (h.ios_self .udp rfl) rfl rfl
        fun hp => ⟨hp, (h.fresh hp).1⟩
  unfold KcpEv.kcpevConnect at hconn
  split at hconn
  rename_i os₁ r₁ htcp
  have hfirst := h.connectSocket htcp
  split at hconn
  · cases hconn
    exact hfirst
  split at hconn
  rename_i os₂ r₂ hudp
  have hsecond := hfirst.connectSocket hudp
  split at hconn
  · cases hconn
    exact close hsecond
  · cases hconn
    exact hsecond

theorem createTimer (h : Linked os (Function.update objs o (some b.slots))) {data : Owner}
    {hcb : TimerCb} {evt evh : Bool} {udp : KcpevUdp T}
    (htimer : checkCreateKcpTimer os data b.udp hcb evt evh = .ok (os', udp, ret)) :
    Linked os' (Function.update objs o (some { b with udp }.slots)) := by
  rcases checkCreateKcpTimer_cases htimer with ⟨-, -, rfl, rfl⟩ | ⟨-, -, -, -, rfl, rfl⟩ |
    ⟨-, -, -, -, rfl, rfl⟩
  · exact h
  · exact ((h.dropTimer .evt).dropTimer .evh).loseTimer _
  · exact (h.startTimer .evt _).startTimer .evh _

theorem connectClientUdp [KcpImpl K] {c : ℕ} {client client' : Kcpev T} {addr : Addr}
    {a : RecvAnswer}
    (h : Linked os (Function.update objs (.kcpev c) (some client.toKcpevBase.slots)))
    (hconn : KcpEv.connectClientUdp os c client addr a = (os', client', ret)) :
    Linked os' (Function.update objs (.kcpev c) (some client'.toKcpevBase.slots)) := by
  have error : ∀ {os₁ os₂ : Os K T} {udp : KcpevUdp T} {client₂ : Kcpev T} {r : ℤ},
      Linked os₁ (Function.update objs (.kcpev c)
        (some { client.toKcpevBase with udp }.slots)) →
      connectClientUdpError os₁ client udp = (os₂, client₂, r) →
      Linked os₂ (Function.update objs (.kcpev c) (some client₂.toKcpevBase.slots)) := by
    intro os₁ os₂ udp client₂ r hlinked herr
    rw [connectClientUdpError_eq] at herr
    cases herr
    exact hlinked.destroyUdp
  unfold KcpEv.connectClientUdp at hconn
  rcases hbind : kcpevBindSocket os client.udp.toKcpevSock true a.bind with ⟨os₁, k, r⟩
  rw [hbind] at hconn
  have hbound := h.bindSocket .udp hbind
  dsimp only at hconn
  split at hconn
  · exact error hbound hconn
  split at hconn
  · exact error hbound hconn
  rcases hcreate : kcpevCreateKcp (os₁.connect k.sock addr)
    { client.udp with toKcpevSock := k } client.key.conv a.kcp with ⟨os₂, udp, r₂⟩
  rw [hcreate] at hconn
  have hconnected := hbound.connect k.sock addr
  have hcreated := hconnected.createKcp' (b := { client.toKcpevBase with
    udp := { client.udp with toKcpevSock := k } }) hcreate
  split at hconn
  · exact error hcreated hconn
  rcases hinit : kcpevInitEv os₂ (.kcpev c) { client.toKcpevBase with udp } none
    (some .serverUdpRecv) { tcp := true, udp := a.evio } with ⟨os₃, b, r₃⟩
  dsimp only at hconn
  rw [hinit] at hconn
  have hdone := hcreated.initEv hinit
  split at hconn
  · have hbase : b = { client.toKcpevBase with udp := b.udp } := by
      unfold kcpevInitEv kcpevSetEvIf at hinit
      cases hinit
      rfl
    rw [hbase] at hdone
    exact error hdone hconn
  · cases hconn
    exact hdone

end Functions

end Linked

namespace World

variable {w w' : World K T} {os : Os K T} {c : ℕ} {obj : Kcpev T}

/-- Every slot of a live object refers to a resource of its own. -/
def Separate (w : World K T) : Prop := Linked w.os w.slots

theorem Separate.quiet (h : w.Separate) (hq : w.Quiet w') : w'.Separate := by
  unfold Separate
  rw [hq.slots]
  exact h.same hq.os

theorem Separate.sock_open (h : w.Separate) (hobj : w.objs c = some obj)
    (hsock : obj.udp.sock ≠ 0) : (w.os.socks obj.udp.sock).isSome := by
  have href : refs Slots.sockSlot w.slots (.kcpev c, .udp) = some obj.udp.sock := by
    rw [refs_eq_some]
    exact ⟨_, World.slots_some hobj, if_neg hsock⟩
  exact h.socks.live href

theorem Separate.self (h : w.Separate) (hobj : w.objs c = some obj) :
    Linked w.os (Function.update w.slots (.kcpev c) (some obj.toKcpevBase.slots)) := by
  rw [slots_self hobj]
  exact h

theorem separate_store
    (h : Linked os (Function.update w.slots (.kcpev c) (some obj.toKcpevBase.slots))) :
    (w.store os c obj).Separate := by
  unfold Separate
  rw [slots_store]
  exact h

/-- An object that was being built is destroyed again. -/
theorem separate_unborn {o : Owner} {b : KcpevBase T} (ho : w.slots o = none)
    (h : Linked os (Function.update w.slots o (some b.slots))) :
    ({ w with os := b.destroy os } : World K T).Separate := by
  have hslots : ({ w with os := b.destroy os } : World K T).slots =
      Function.update w.slots o none := by
    rw [← ho, Function.update_eq_self]
    rfl
  unfold Separate
  rw [hslots]
  exact h.destroy

theorem Separate.destroyKcpev (h : w.Separate) (hobj : w.objs c = some obj) :
    (w.destroyKcpev c obj).Separate := by
  unfold Separate
  rw [slots_destroyKcpev]
  exact (h.self hobj).destroy

theorem Separate.hash (h : w.Separate) {server : KcpevServer T} (hserver : w.server = some server)
    (server' : KcpevServer T) (hbase : server'.toKcpevBase = server.toKcpevBase) :
    ({ w with server := some server' } : World K T).Separate := by
  unfold Separate
  have hslots := slots_hash hserver server' hbase w.os
  rw [hslots]
  exact h

section Create
variable [ClockImpl T]

theorem Separate.createClient [KcpImpl K] (h : w.Separate) (ht : Typed w)
    (a : CreateClientAnswer) : (kcpevCreateClient w a).Separate := by
  have ho := slots_fresh ht
  unfold kcpevCreateClient
  split
  · exact h
  dsimp only
  rcases hbind : kcpevBind { w.os with next := w.os.next + 1 }
    (kcpevCreate : Kcpev T).toKcpevBase false a.bind with ⟨os₁, b₁, r₁⟩
  have h₁ := ((Linked.malloc h).new ho).kcpevBind (b := (kcpevCreate : Kcpev T).toKcpevBase) hbind
  dsimp only
  split
  · exact separate_unborn ho h₁
  rcases hcreate : kcpevCreateKcp os₁ b₁.udp (kcpevCreate : Kcpev T).key.conv a.kcp with
    ⟨os₂, udp, r₂⟩
  have h₂ := h₁.createKcp' hcreate
  dsimp only
  split
  · exact separate_unborn ho h₂
  rcases hinit : kcpevInitEv os₂ (.kcpev w.os.next) { b₁ with udp } (some .clientTcpRecv)
    (some .clientUdpRecv) a.initEv with ⟨os₃, b₃, r₃⟩
  have h₃ := h₂.initEv hinit
  dsimp only
  split
  · exact separate_unborn ho h₃
  · exact separate_store h₃

theorem Separate.createServer (h : w.Separate) (hserver : w.server = none)
    (a : CreateServerAnswer) : (kcpevCreateServer w a).Separate := by
  have ho : w.slots .server = none := by simp [slots, hserver]
  unfold kcpevCreateServer
  split
  · exact h
  dsimp only
  rcases hbind : kcpevBind w.os (kcpevServerCreate : KcpevServer T).toKcpevBase true a.bind with
    ⟨os₁, b₁, r₁⟩
  have h₁ := (Linked.new h ho).kcpevBind
    (b := (kcpevServerCreate : KcpevServer T).toKcpevBase) hbind
  dsimp only
  split
  · exact separate_unborn ho h₁
  rcases hinit : kcpevInitEv os₁ .server b₁ (some .tcpAccept) (some .serverUdpRecvAll) a.initEv
    with ⟨os₂, b₂, r₂⟩
  have h₂ := h₁.initEv hinit
  dsimp only
  split
  · exact separate_unborn ho h₂
  split
  · exact separate_unborn ho h₂
  · unfold Separate
    rw [slots_server]
    exact h₂

theorem separate_acceptClient {s : ℕ} {a : AcceptAnswer}
    (hos : Linked os (Function.update w.slots (.kcpev c) (some (acceptBase s : KcpevBase T).slots)))
    (ho : w.slots (.kcpev c) = none) (hw : acceptClient w os c s a = .ok w') : w'.Separate := by
  obtain ⟨server, hserver, hw⟩ := bind_eq_ok.mp hw
  rw [kcpevServer_ok] at hserver
  have hslots := slots_hash hserver (server.hashAdd a.uuid c) rfl w.os
  dsimp only at hw
  rcases hinit : kcpevInitEv os (.kcpev c) (acceptBase s : KcpevBase T) (some .serverTcpRecv) none
    { tcp := a.evio, udp := true } with ⟨os₁, b, r⟩
  rw [hinit] at hw
  have h₁ := hos.initEv hinit
  rw [← hslots] at h₁ ho
  split at hw
  · cases hw
    exact separate_unborn ho h₁
  obtain ⟨⟨os₂, ret⟩, hsend, hw⟩ := bind_eq_ok.mp hw
  have h₂ := h₁.same (keeps_sockSendCommand hsend).toSame
  by_cases hret : ret = 0
  · subst hret
    cases hw
    exact separate_store h₂
  · simp only [ne_eq, hret, not_false_eq_true, if_true] at hw
    cases hw
    exact separate_unborn ho h₂

theorem Separate.accept (h : w.Separate) (ht : Typed w) {fd : ℕ} {answer : Option AcceptAnswer}
    (hw : tcpAccept w fd answer = .ok w') : w'.Separate := by
  have ho := slots_fresh ht
  unfold tcpAccept at hw
  split at hw
  · cases hw
    exact h
  · cases hw
    exact h
  rename_i v a hlisten
  split at hw
  · cases hw
    exact h
  rename_i os s hopen
  have hfresh : w.os.socks s = none ∧
      os = { w.os with socks := Function.update w.os.socks s (some ⟨some a.peer⟩) } := by
    unfold Os.openSock at hopen
    dsimp only at hopen
    split at hopen
    · cases hopen
    rename_i hnone
    cases hopen
    exact ⟨by simpa using hnone, rfl⟩
  obtain ⟨hfree, rfl⟩ := hfresh
  have hclose : ({ w.os with socks := Function.update w.os.socks s (some ⟨some a.peer⟩) } :
      Os K T).close s = w.os := by
    simp only [Os.close, Function.update_idem]
    rw [← hfree, Function.update_eq_self]
  split at hw
  · cases hw
    exact Linked.leakSock h _ _
  split at hw
  · cases hw
    rw [hclose]
    exact h
  split at hw
  · cases hw
    rw [hclose]
    exact h
  · exact separate_acceptClient ((Linked.new h ho).openSock .tcp hfree _).malloc ho hw

end Create

theorem Separate.deleteHash (h : ({ w with server := none } : World K T).Separate)
    {l : List (KcpevKey × ℕ)} (hw : w.deleteHash l = .ok w') :
    ({ w' with server := none } : World K T).Separate := by
  induction l generalizing w with
  | nil =>
    cases hw
    exact h
  | cons e rest ih =>
    obtain ⟨w₁, hdestroy, hw⟩ := bind_eq_ok.mp hw
    obtain ⟨client, hobj, hdestroy⟩ := bind_eq_ok.mp hdestroy
    rw [kcpev_ok] at hobj
    cases hdestroy
    have hdestroyed : ({ w with server := none }.destroyKcpev e.2 client).Separate :=
      h.destroyKcpev hobj
    exact ih hdestroyed hw

theorem Separate.serverDestroy (h : w.Separate) (hw : w.kcpevServerDestroy = .ok w') :
    w'.Separate := by
  obtain ⟨server, hserver, hw⟩ := bind_eq_ok.mp hw
  rw [kcpevServer_ok] at hserver
  obtain ⟨w₁, hdelete, hw⟩ := bind_eq_ok.mp hw
  cases hw
  have hlinked : Linked w.os (Function.update w.slots .server (some server.toKcpevBase.slots)) := by
    have hself : w.slots .server = some server.toKcpevBase.slots := by simp [slots, hserver]
    rw [← hself, Function.update_eq_self]
    exact h
  have hbase : ({ w with os := server.toKcpevBase.destroy w.os, server := none } :
      World K T).Separate := by
    unfold Separate
    rw [slots_server]
    exact hlinked.destroy
  have hdelete' : World.deleteHash { w with os := server.toKcpevBase.destroy w.os }
      server.hash.reverse = .ok w₁ := hdelete
  exact Separate.deleteHash hbase hdelete'

theorem Separate.close (h : w.Separate) (hw : w.closeClient c = .ok w') : w'.Separate := by
  obtain ⟨client, server, hobj, -, hserver, rfl⟩ := closeClient_cases hw
  exact (h.hash hserver (server.hashDel c) rfl).destroyKcpev hobj

end World

section Effect
variable [KcpImpl K] [ClockImpl T] {p : Process K T} {i : Input T} {w' : World K T}

theorem separate_effect (h : p.world.Separate) (ht : Typed p.world) (he : Effect p i w') :
    w'.Separate := by
  cases he with
  | quiet hquiet => exact h.quiet hquiet
  | data hdata => exact Linked.emit h _
  | createClient hi => exact h.createClient ht _
  | createServer hi hserver => exact h.createServer hserver _
  | serverDestroy hi hctl hw => exact h.serverDestroy hw
  | connect hi hobj hclient hconn => exact World.separate_store ((h.self hobj).kcpevConnect hconn)
  | accept hi hctl he hcb hdata hw => exact h.accept ht hw
  | close hctl hw => exact h.close hw
  | @connectSession buf addr a c obj obj' os ret w' hframe hfind hconn hquiet =>
    obtain ⟨server, key, -, -, -, hobj⟩ := hfind
    have hlinked := (h.self hobj).connectClientUdp hconn
    have hstored : (p.world.store os c (obj'.begun ret)).Separate := World.separate_store hlinked
    exact hstored.quiet hquiet
  | @serverTimers buf addr a c obj os udp ret w' hframe hfind hstatus htimer hquiet =>
    obtain ⟨server, key, -, -, -, hobj⟩ := hfind
    have hstored : (p.world.store os c { obj with udp }).Separate :=
      World.separate_store (Linked.createTimer (h.self hobj) htimer)
    exact hstored.quiet hquiet
  | @clientTimers buf a c obj os os' udp ret w' hframe hobj hparse hsock hstatus hsend htimer
      hquiet =>
    have hsent := (h.self hobj).same (keeps_sockSendCommand hsend).toSame
    have hstored : (p.world.store os' c { obj with udp }).Separate :=
      World.separate_store (Linked.createTimer hsent htimer)
    exact hstored.quiet hquiet

omit [KcpImpl K] [ClockImpl T] in
theorem separate_init (now : T) : (Process.init now : Process K T).world.Separate := by
  have hslots : (Process.init now : Process K T).world.slots = fun _ => none := by
    funext o
    cases o <;> rfl
  unfold World.Separate
  rw [hslots]
  exact ⟨Refers.empty, Refers.empty, Refers.empty, Refers.empty, fun _ => ⟨rfl, rfl, rfl⟩⟩

theorem run_separate {ok : Process K T → Input T → Prop} {now : T} {is : List (Input T)}
    (hrun : Run step ok (.init now) is p) : p.world.Separate := by
  have hinv : p.Typed ∧ p.world.Separate :=
    hrun.invariant (P := fun p => p.Typed ∧ p.world.Separate)
      ⟨Process.typed_init now, separate_init now⟩
      fun ⟨hp, h⟩ _ hs => ⟨hp.step hs, separate_effect h hp.world (step_effect hp hs)⟩
  exact hinv.2

end Effect

end KcpEv
