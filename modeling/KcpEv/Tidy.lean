import KcpEv.Registry

/-!
A process is tidy when its objects own all resources and no session has a KCP
object or a heartbeat timer without what belongs to it. A step keeps this unless
it comes to one of the places where the library drops a resource: these are
listed in `DropsNothing`.
-/
namespace KcpEv

open Ownership

variable {K T : Type}

/-- The two timers of an object come and go together. -/
def Slots.Paired (s : Slots) : Prop := s.evt = none → s.evh = none

/-- A session without a UDP socket has no KCP object either. -/
def Kcpev.Bare (obj : Kcpev T) : Prop :=
  obj.hasServer = true → obj.udp.sock = 0 → obj.udp.kcp = none

namespace World

structure Tidy (w : World K T) : Prop where
  owned : Owned w.os w.slots
  paired : ∀ {o s}, w.slots o = some s → s.Paired
  bare : ∀ {c obj}, w.objs c = some obj → obj.Bare

variable {w w' : World K T}

theorem slots_destroyKcpev (w : World K T) (c : ℕ) (client : Kcpev T) :
    (w.destroyKcpev c client).slots = Function.update w.slots (.kcpev c) none := by
  funext o
  rcases o with _ | c'
  · rfl
  · rcases eq_or_ne c' c with rfl | hne
    · simp [slots, destroyKcpev]
    · have : Owner.kcpev c' ≠ .kcpev c := by
        intro h
        cases h
        exact hne rfl
      simp [slots, destroyKcpev, hne, this]

theorem slots_server (w : World K T) (os : Os K T) (server : Option (KcpevServer T)) :
    ({ w with os, server } : World K T).slots =
      Function.update w.slots .server (server.map fun s => s.toKcpevBase.slots) := by
  funext o
  rcases o with _ | c
  · rfl
  · rfl

/-- Changes of the hash do not matter. -/
theorem slots_hash {server : KcpevServer T} (hserver : w.server = some server)
    (server' : KcpevServer T) (hbase : server'.toKcpevBase = server.toKcpevBase) (os : Os K T) :
    ({ w with os, server := some server' } : World K T).slots = w.slots := by
  rw [slots_server, Option.map_some, hbase, Function.update_eq_self_iff]
  simp [slots, hserver]

theorem Tidy.update (h : Tidy w) {o : Owner} {s : Option Slots}
    (hslots : w'.slots = Function.update w.slots o s)
    (howned : Owned w'.os (Function.update w.slots o s)) (hpaired : ∀ s', s = some s' → s'.Paired)
    (hbare : ∀ {c obj}, w'.objs c = some obj → w.objs c = some obj ∨ obj.Bare) : Tidy w' where
  owned := by
    rw [hslots]
    exact howned
  paired {o' s'} hs := by
    rw [hslots] at hs
    rcases eq_or_ne o' o with rfl | hne
    · rw [Function.update_self] at hs
      exact hpaired s' hs
    · rw [Function.update_of_ne hne] at hs
      exact h.paired hs
  bare hobj := by
    rcases hbare hobj with hold | hnew
    · exact h.bare hold
    · exact hnew

theorem Tidy.quiet (h : Tidy w) (hq : w.Quiet w') : Tidy w' where
  owned := by
    rw [hq.slots]
    exact h.owned.same hq.os
  paired hs := by
    rw [hq.slots] at hs
    exact h.paired hs
  bare {c obj'} hobj := by
    obtain ⟨obj, hold, hrole, hslots⟩ := hq.old hobj
    intro hserver hsock
    have hbare := h.bare hold ((hasServer_of_role hrole).trans hserver)
    rw [show obj'.udp.kcp = obj.udp.kcp from (congrArg Slots.kcp hslots).symm]
    apply hbare
    rw [show obj.udp.sock = obj'.udp.sock from congrArg (fun s => s.udp.sock) hslots]
    exact hsock

theorem slots_self {c : ℕ} {obj : Kcpev T} (hobj : w.objs c = some obj) :
    Function.update w.slots (.kcpev c) (some obj.toKcpevBase.slots) = w.slots := by
  rw [← slots_some hobj, Function.update_eq_self]

theorem Tidy.self (h : Tidy w) {c : ℕ} {obj : Kcpev T} (hobj : w.objs c = some obj) :
    Owned w.os (Function.update w.slots (.kcpev c) (some obj.toKcpevBase.slots)) := by
  rw [slots_self hobj]
  exact h.owned

theorem Tidy.store (h : Tidy w) {os : Os K T} {c : ℕ} {obj : Kcpev T}
    (howned : Owned os (Function.update w.slots (.kcpev c) (some obj.toKcpevBase.slots)))
    (hpaired : obj.toKcpevBase.slots.Paired) (hbare : obj.Bare) : Tidy (w.store os c obj) := by
  refine h.update (slots_store w os c obj) howned (fun s' hs => ?_) (fun {c' obj'} hobj => ?_)
  · cases hs
    exact hpaired
  · rcases eq_or_ne c' c with rfl | hne
    · simp only [World.store, Function.update_self, Option.some.injEq] at hobj
      rw [← hobj]
      exact Or.inr hbare
    · simp only [World.store, Function.update_of_ne hne] at hobj
      exact Or.inl hobj

theorem Tidy.destroyKcpev (h : Tidy w) {c : ℕ} {client : Kcpev T} (hobj : w.objs c = some client) :
    Tidy (w.destroyKcpev c client) := by
  refine h.update (slots_destroyKcpev w c client) (h.self hobj).destroy (fun s' hs => by cases hs)
    (fun {c' obj'} hobj' => Or.inl ?_)
  rcases eq_or_ne c' c with rfl | hne
  · simp [World.destroyKcpev] at hobj'
  · simp only [World.destroyKcpev, Function.update_of_ne hne] at hobj'
    exact hobj'

/-- An object that was being built is destroyed again. -/
theorem Tidy.unborn (h : Tidy w) {os : Os K T} {o : Owner} {b : KcpevBase T} {P : EvIo → Prop}
    {sound : Prop} (hborn : Born w.os os o b P sound) (hsound : sound) (ho : w.slots o = none) :
    Tidy { w with os := b.destroy os } := by
  have hslots : ({ w with os := b.destroy os } : World K T).slots =
      Function.update w.slots o none := by
    rw [← ho, Function.update_eq_self]
    rfl
  exact h.update hslots (hborn.owned hsound ho h.owned).destroy (fun s' hs => by cases hs)
    (fun hobj => Or.inl hobj)

theorem Born.paired {os os' : Os K T} {o : Owner} {b : KcpevBase T} {P : EvIo → Prop}
    {sound : Prop} (h : Born os os' o b P sound) : b.slots.Paired := fun _ => h.evh

theorem slots_fresh (ht : Typed w) : w.slots (.kcpev w.os.next) = none := by
  simp [slots, ht.fresh le_rfl]

section Create
variable [ClockImpl T]

theorem Tidy.createClient [KcpImpl K] (h : Tidy w) (ht : Typed w) {a : CreateClientAnswer}
    (ha : a.Sound w.os) : Tidy (kcpevCreateClient w a) := by
  rcases kcpevCreateClient_cases w a with hw | ⟨os, b, hborn, -, hw | ⟨-, hw⟩⟩
  · rw [hw]
    exact h
  · rw [hw]
    exact h.unborn hborn ha (slots_fresh ht)
  · rw [hw]
    refine h.store (hborn.owned ha (slots_fresh ht) h.owned) (Born.paired hborn) ?_
    intro hserver
    cases hserver

theorem Tidy.createServer (h : Tidy w) (hserver : w.server = none) {a : CreateServerAnswer}
    (ha : a.Sound w.os) : Tidy (kcpevCreateServer w a) := by
  have hnone : w.slots .server = none := by simp [slots, hserver]
  rcases kcpevCreateServer_cases w a with hw | ⟨os, b, hborn, hw | hw⟩
  · rw [hw]
    exact h
  · rw [hw]
    exact h.unborn hborn ha hnone
  · rw [hw]
    refine h.update (slots_server w _ _) (hborn.owned ha hnone h.owned) (fun s' hs => ?_)
      (fun hobj => Or.inl hobj)
    cases hs
    exact Born.paired hborn

end Create

theorem Tidy.deleteHash (h : Tidy { w with server := none }) {l : List (KcpevKey × ℕ)}
    (hw : w.deleteHash l = .ok w') : Tidy { w' with server := none } := by
  induction l generalizing w with
  | nil =>
    cases hw
    exact h
  | cons e rest ih =>
    obtain ⟨w₁, hdestroy, hw⟩ := bind_eq_ok.mp hw
    obtain ⟨client, hobj, hdestroy⟩ := bind_eq_ok.mp hdestroy
    rw [kcpev_ok] at hobj
    cases hdestroy
    have hdestroyed : Tidy ({ w with server := none }.destroyKcpev e.2 client) :=
      h.destroyKcpev hobj
    exact ih hdestroyed hw

theorem Tidy.serverDestroy (h : Tidy w) (hw : w.kcpevServerDestroy = .ok w') : Tidy w' := by
  obtain ⟨server, hserver, hw⟩ := bind_eq_ok.mp hw
  rw [kcpevServer_ok] at hserver
  obtain ⟨w₁, hdelete, hw⟩ := bind_eq_ok.mp hw
  cases hw
  have howned : Owned w.os (Function.update w.slots .server (some server.toKcpevBase.slots)) := by
    have hself : w.slots .server = some server.toKcpevBase.slots := by simp [slots, hserver]
    rw [← hself, Function.update_eq_self]
    exact h.owned
  have hbase : Tidy { w with os := server.toKcpevBase.destroy w.os, server := none } :=
    h.update (slots_server w _ none) howned.destroy (fun s' hs => by cases hs)
      (fun hobj => Or.inl hobj)
  exact Tidy.deleteHash (w := { w with os := server.toKcpevBase.destroy w.os }) hbase hdelete

theorem Tidy.close (h : Tidy w) {c : ℕ} (hw : w.closeClient c = .ok w') : Tidy w' := by
  obtain ⟨client, server, hobj, -, hserver, rfl⟩ := closeClient_cases hw
  have hdel : Tidy { w with server := some (server.hashDel c) } := by
    have hslots := slots_hash hserver (server.hashDel c) rfl w.os
    exact ⟨by rw [hslots]; exact h.owned, fun hs => h.paired (by rw [← hslots]; exact hs), h.bare⟩
  exact hdel.destroyKcpev hobj

theorem Tidy.accept [ClockImpl T] (h : Tidy w) (ht : Typed w) {fd : ℕ}
    {answer : Option AcceptAnswer}
    (hzero : ∀ a, answer = some a → w.os.socks a.sock = none → a.sock ≠ 0)
    (hw : tcpAccept w fd answer = .ok w') : Tidy w' := by
  cases tcpAccept_cases hw with
  | nothing => exact h
  | zero ha hsock hfree => exact absurd hsock (hzero _ ha (by rw [hsock]; exact hfree))
  | @failed a server os b ha hadds hserver hborn hnext hfails =>
    have htidy := h.unborn hborn trivial (slots_fresh ht)
    have hslots := slots_hash hserver (server.hashAdd a.uuid w.os.next) rfl
      (b.destroy os)
    exact ⟨by rw [hslots]; exact htidy.owned, fun hs => h.paired (by rw [← hslots]; exact hs),
      h.bare⟩
  | @added a server os os' b s ha hadds hserver hborn hnext hudp hsend =>
    have hslots := slots_hash hserver (server.hashAdd a.uuid w.os.next) rfl w.os
    have hadd : Tidy { w with server := some (server.hashAdd a.uuid w.os.next) } :=
      ⟨by rw [hslots]; exact h.owned, fun hs => h.paired (by rw [← hslots]; exact hs), h.bare⟩
    refine hadd.store ?_ (Born.paired hborn) ?_
    · have howned := hborn.owned trivial (slots_fresh ht) h.owned
      have hstored := howned.same (keeps_sockSendCommand hsend).toSame
      rw [hslots]
      exact hstored
    · intro _ _
      change b.udp.kcp = none
      rw [hudp]
      rfl

theorem kcpevConnect_fields {os os' : Os K T} {b b' : KcpevBase T} {addr : Addr}
    {a : KcpevConnectAnswer} {ret : ℤ} (h : kcpevConnect os b addr a = (os', b', ret)) :
    b'.udp.evt = b.udp.evt ∧ b'.udp.evh = b.udp.evh ∧ b'.udp.kcp = b.udp.kcp := by
  unfold kcpevConnect at h
  split at h
  split at h
  · cases h
    exact ⟨rfl, rfl, rfl⟩
  split at h
  split at h
  · cases h
    exact ⟨rfl, rfl, rfl⟩
  · cases h
    exact ⟨rfl, rfl, rfl⟩

end World

/-- The calls made for one socket succeed. -/
def ConnectAnswer.Succeeds (a : ConnectAnswer) : Prop := a.getaddrinfo ∧ a.connects.any id

/-- The UDP socket of an object is open and watched. -/
def KcpevBase.Watched (b : KcpevBase T) : Prop := b.udp.sock ≠ 0 ∧ b.udp.evio.isSome

/-- A step does not come to a place where the library drops a resource. -/
structure Process.DropsNothing (p : Process K T) (i : Input T) : Prop where
  createClient : ∀ a, i = .createClient a → p.ctl.appMayCall → a.Sound p.world.os
  createServer : ∀ a, i = .createServer a → p.ctl.appMayCall → p.world.server = none →
    a.Sound p.world.os
  /-- `accept` does not return descriptor zero, which is refused without being closed -/
  accept : ∀ q io e a, i = .io q io → p.ctl = .loop → p.world.os.ios q = some e →
    e.cb = .tcpAccept → io.accept = some a → p.world.os.socks a.sock = none → a.sock ≠ 0
  /-- `kcpev_connect` does not close a UDP socket that is watched -/
  connect : ∀ c addr a obj, i = .connect c addr a → p.ctl.appMayCall →
    p.world.objs c = some obj → obj.hasServer = false → obj.toKcpevBase.Watched →
      a.tcp.Succeeds → a.udp.Succeeds
  /-- `connect_client_udp` does not overwrite the UDP socket of a session -/
  shakeHand1 : ∀ buf addr a c obj, ServerFrame p i buf addr a →
    Finds p.world buf .shakeHand1 c obj →
      a.bind.Sound true p.world.os ∧ (obj.udp.sock = 0 ∨ a.bind.getaddrinfo = false)
  /-- `check_create_kcp_timer` does not free a started timer -/
  serverTimers : ∀ buf addr a c obj, ServerFrame p i buf addr a →
    Finds p.world buf .shakeHand2 c obj → obj.udp.status = .shakingHand → obj.udp.evt = none →
      a.evt → a.evh
  clientTimers : ∀ c buf a obj, ClientFrame p i c buf a → p.world.objs c = some obj →
    Parses buf .shakeHand2 obj.key.val → obj.udp.status = .shakingHand → obj.udp.evt = none →
      a.evt → a.evh

section Effect
variable [KcpImpl K] [ClockImpl T] {p : Process K T} {i : Input T} {w' : World K T}

omit [KcpImpl K] [ClockImpl T] in
theorem World.Tidy.timers {w : World K T} (h : w.Tidy) {os os' : Os K T} {c : ℕ} {obj : Kcpev T}
    {udp : KcpevUdp T} {hcb : TimerCb} {evt evh : Bool} {ret : ℤ}
    (hobj : w.objs c = some obj) (hos : w.os.Same os)
    (halloc : obj.udp.evt = none → evt → evh)
    (htimer : checkCreateKcpTimer os (.kcpev c) obj.udp hcb evt evh = .ok (os', udp, ret)) :
    (w.store os' c { obj with udp }).Tidy := by
  have howned := ((h.self hobj).same hos).createTimer (h.paired (World.slots_some hobj)) halloc
    htimer
  refine h.store howned ?_ ?_
  · rcases checkCreateKcpTimer_cases htimer with ⟨-, -, -, rfl⟩ | ⟨-, -, -, -, -, rfl⟩ |
      ⟨-, -, -, -, -, rfl⟩
    · exact h.paired (World.slots_some hobj)
    · exact fun _ => rfl
    · intro hnone
      cases hnone
  · have hbare := h.bare hobj
    rcases checkCreateKcpTimer_cases htimer with ⟨-, -, -, rfl⟩ | ⟨-, -, -, -, -, rfl⟩ |
      ⟨-, -, -, -, -, rfl⟩
    · exact hbare
    · exact hbare
    · exact hbare

theorem tidy_effect (h : p.world.Tidy) (ht : Typed p.world)
    {known : List (KcpevKey × ℕ)} (hreg : World.Registered known p.world)
    (hok : p.DropsNothing i) (he : Effect p i w') : w'.Tidy := by
  cases he with
  | quiet hquiet => exact h.quiet hquiet
  | data hdata => exact ⟨h.owned.emit _, h.paired, h.bare⟩
  | createClient hi hctl => exact h.createClient ht (hok.createClient _ hi hctl)
  | createServer hi hserver hctl =>
    exact h.createServer hserver (hok.createServer _ hi hctl hserver)
  | serverDestroy hi hctl hw => exact h.serverDestroy hw
  | @connect c addr a obj os b ret hi hobj hclient hconn hctl =>
    obtain ⟨hevt, hevh, -⟩ := World.kcpevConnect_fields hconn
    refine h.store ((h.self hobj).kcpevConnect ?_ hconn) ?_ ?_
    · by_cases hwatched : obj.toKcpevBase.Watched
      · by_cases htcp : a.tcp.Succeeds
        · have hudp := hok.connect c addr a obj hi hctl hobj hclient hwatched htcp
          exact Or.inr (Or.inr (Or.inl hudp))
        · exact Or.inr (Or.inr (Or.inr htcp))
      · unfold KcpevBase.Watched at hwatched
        rw [not_and_or, not_not, Option.not_isSome_iff_eq_none] at hwatched
        rcases hwatched with hsock | hevio
        · exact Or.inr (Or.inl hsock)
        · exact Or.inl hevio
    · have hpaired := h.paired (World.slots_some hobj)
      intro hnone
      change b.udp.evh = none
      rw [hevh]
      apply hpaired
      change obj.udp.evt = none
      rw [← hevt]
      exact hnone
    · intro hserver
      rw [show obj.hasServer = true from hserver] at hclient
      cases hclient
  | accept hi hctl he hcb hdata hw =>
    exact h.accept ht (fun a ha => hok.accept _ _ _ a hi hctl he hcb ha) hw
  | close hctl hw => exact h.close hw
  | @connectSession buf addr a c obj obj' os ret w hframe hfind hconn hquiet =>
    obtain ⟨hsound, hfree⟩ := hok.shakeHand1 buf addr a c obj hframe hfind
    obtain ⟨server, key, hparse, hserver, hc, hobj⟩ := hfind
    refine World.Tidy.quiet ?_ hquiet
    have hsession := (hreg.hasServer_of_find hserver hc hobj).1
    have hfree' : obj.udp.sock = 0 ∧ obj.udp.kcp = none ∨ a.bind.getaddrinfo = false :=
      hfree.imp_left fun hsock => ⟨hsock, h.bare hobj hsession hsock⟩
    have howned := (h.self hobj).connectClientUdp hfree' hsound hconn
    refine h.store howned ?_ ?_
    · rcases connectClientUdp_cases hconn with ⟨-, rfl⟩ | ⟨-, hconnected⟩
      · exact fun _ => rfl
      · have hpaired := h.paired (World.slots_some hobj)
        rw [hconnected.fields]
        exact hpaired
    · rcases connectClientUdp_cases hconn with ⟨-, rfl⟩ | ⟨-, hconnected⟩
      · exact fun _ _ => rfl
      · exact fun _ hsock => absurd hsock hconnected.sock
  | serverTimers hframe hfind hstatus htimer hquiet =>
    have halloc := hok.serverTimers _ _ _ _ _ hframe hfind hstatus
    obtain ⟨server, key, -, -, -, hobj⟩ := hfind
    exact (h.timers hobj (Os.Same.refl _) halloc htimer).quiet hquiet
  | clientTimers hframe hobj hparse hsock hstatus hsend htimer hquiet =>
    have halloc := hok.clientTimers _ _ _ _ hframe hobj hparse hstatus
    exact (h.timers hobj (keeps_sockSendCommand hsend).toSame halloc htimer).quiet hquiet

end Effect

end KcpEv
