import KcpEv.Handshake
import KcpEv.Lib.Ownership

/-!
Which object owns which resource. `Owned` says that the sockets, the started
watchers and the KCP objects of a process match the slots of its live objects
one to one; there is one lemma for each way in which a resource comes, goes or
changes.
-/
namespace KcpEv

open Ownership

/-- The two sockets of an object. -/
inductive Side
  | tcp | udp
  deriving DecidableEq, Repr

/-- The two timers of an object. -/
inductive Clock
  | evt | evh
  deriving DecidableEq, Repr

/-- The fields of an object that refer to resources. -/
structure Slots where
  tcp : KcpevSock
  udp : KcpevSock
  evt : Option ℕ
  evh : Option ℕ
  kcp : Option ℕ
  deriving DecidableEq, Repr

def KcpevBase.slots {T : Type} (b : KcpevBase T) : Slots where
  tcp := b.tcp.toKcpevSock
  udp := b.udp.toKcpevSock
  evt := b.udp.evt
  evh := b.udp.evh
  kcp := b.udp.kcp

/-- The open socket a `sock` field refers to. -/
def KcpevSock.ref (k : KcpevSock) : Option ℕ := if k.sock = 0 then none else some k.sock

theorem KcpevSock.ref_eq_some {k : KcpevSock} {fd : ℕ} :
    k.ref = some fd ↔ k.sock = fd ∧ fd ≠ 0 := by
  unfold KcpevSock.ref
  split
  · constructor
    · intro h
      cases h
    · rintro ⟨rfl, h⟩
      contradiction
  · constructor
    · intro h
      cases h
      exact ⟨rfl, by assumption⟩
    · rintro ⟨rfl, -⟩
      rfl

namespace Slots

def empty : Slots :=
  { tcp := KcpevSock.zero, udp := KcpevSock.zero, evt := none, evh := none, kcp := none }

def sock (s : Slots) : Side → KcpevSock
  | .tcp => s.tcp
  | .udp => s.udp

def withSock (s : Slots) (side : Side) (k : KcpevSock) : Slots :=
  match side with
  | .tcp => { s with tcp := k }
  | .udp => { s with udp := k }

def sockSlot (s : Slots) (side : Side) : Option ℕ := (s.sock side).ref

def ioSlot (s : Slots) (side : Side) : Option ℕ := (s.sock side).evio

def timerSlot (s : Slots) : Clock → Option ℕ
  | .evt => s.evt
  | .evh => s.evh

def kcpSlot (s : Slots) (_ : Unit) : Option ℕ := s.kcp

theorem sock_withSock (s : Slots) (side : Side) (k : KcpevSock) :
    (s.withSock side k).sock side = k := by
  cases side <;> rfl

theorem sockSlot_withSock (s : Slots) (side : Side) (k : KcpevSock) :
    (s.withSock side k).sockSlot = Function.update s.sockSlot side k.ref := by
  funext x
  cases side <;> cases x <;> rfl

theorem ioSlot_withSock (s : Slots) (side : Side) (k : KcpevSock) :
    (s.withSock side k).ioSlot = Function.update s.ioSlot side k.evio := by
  funext x
  cases side <;> cases x <;> rfl

theorem timerSlot_withSock (s : Slots) (side : Side) (k : KcpevSock) :
    (s.withSock side k).timerSlot = s.timerSlot := by
  funext x
  cases side <;> cases x <;> rfl

theorem kcpSlot_withSock (s : Slots) (side : Side) (k : KcpevSock) :
    (s.withSock side k).kcpSlot = s.kcpSlot := by
  funext x
  cases side <;> rfl

def withClock (s : Slots) (clock : Clock) (v : Option ℕ) : Slots :=
  match clock with
  | .evt => { s with evt := v }
  | .evh => { s with evh := v }

theorem timerSlot_withClock (s : Slots) (clock : Clock) (v : Option ℕ) :
    (s.withClock clock v).timerSlot = Function.update s.timerSlot clock v := by
  funext x
  cases clock <;> cases x <;> rfl

theorem sockSlot_withClock (s : Slots) (clock : Clock) (v : Option ℕ) :
    (s.withClock clock v).sockSlot = s.sockSlot := by
  funext x
  cases clock <;> cases x <;> rfl

theorem ioSlot_withClock (s : Slots) (clock : Clock) (v : Option ℕ) :
    (s.withClock clock v).ioSlot = s.ioSlot := by
  funext x
  cases clock <;> cases x <;> rfl

theorem kcpSlot_withClock (s : Slots) (clock : Clock) (v : Option ℕ) :
    (s.withClock clock v).kcpSlot = s.kcpSlot := by
  funext x
  cases clock <;> rfl

theorem sockSlot_kcp (s : Slots) (v : Option ℕ) :
    ({ s with kcp := v } : Slots).sockSlot = s.sockSlot := rfl

theorem ioSlot_kcp (s : Slots) (v : Option ℕ) : ({ s with kcp := v } : Slots).ioSlot = s.ioSlot :=
  rfl

theorem timerSlot_kcp (s : Slots) (v : Option ℕ) :
    ({ s with kcp := v } : Slots).timerSlot = s.timerSlot := rfl

theorem kcpSlot_kcp (s : Slots) (v : Option ℕ) :
    ({ s with kcp := v } : Slots).kcpSlot = Function.update s.kcpSlot () v := by
  funext x
  rfl

end Slots

variable {K T : Type}

/-- The resources of the process match the slots of its objects, and a started
watcher belongs to the object that refers to it. -/
structure Owned (os : Os K T) (objs : Owner → Option Slots) : Prop where
  socks : Owns os.socks (refs Slots.sockSlot objs)
  ios : Owns os.ios (refs Slots.ioSlot objs)
  timers : Owns os.timers (refs Slots.timerSlot objs)
  kcps : Owns os.kcps (refs Slots.kcpSlot objs)
  watch : ∀ {x p e}, refs Slots.ioSlot objs x = some p → os.ios p = some e →
    e.data = x.1 ∧ refs Slots.sockSlot objs x = some e.fd
  timed : ∀ {x p t}, refs Slots.timerSlot objs x = some p → os.timers p = some t → t.data = x.1
  fresh : ∀ {p}, os.next ≤ p → os.ios p = none ∧ os.timers p = none ∧ os.kcps p = none

namespace Owned

variable {os os' : Os K T} {objs : Owner → Option Slots} {o : Owner} {s : Slots} {side : Side}

theorem same (h : Owned os objs) (hos : os.Same os') : Owned os' objs where
  socks := by rw [hos.socks]; exact h.socks
  ios := by rw [hos.ios]; exact h.ios
  timers := h.timers.congr_isSome fun p => by
    have hp := congrArg Option.isSome (hos.timers p)
    simpa using hp
  kcps := h.kcps.congr_isSome hos.kcps
  watch := by rw [hos.ios]; exact h.watch
  timed {x p t} hp ht := by
    have hold := hos.timers p
    rw [ht, Option.map_some] at hold
    obtain ⟨t', ht', heq⟩ := Option.map_eq_some_iff.mp hold.symm
    have hdata : t'.data = t.data := congrArg Prod.fst heq
    rw [← hdata]
    exact h.timed hp ht'
  fresh {p} hp := by
    rw [hos.next] at hp
    obtain ⟨hios, htimers, hkcps⟩ := h.fresh hp
    refine ⟨by rw [hos.ios]; exact hios, ?_, ?_⟩
    · have := hos.timers p
      rw [htimers, Option.map_none] at this
      exact Option.map_eq_none_iff.mp this
    · have := hos.kcps p
      rw [hkcps] at this
      exact Option.isNone_iff_eq_none.mp (by simpa using this)

theorem emit (h : Owned os objs) (x : Output) : Owned (os.emit x) objs :=
  ⟨h.socks, h.ios, h.timers, h.kcps, h.watch, h.timed, h.fresh⟩

/-- An object without resources is created or destroyed. -/
theorem vacant : Owned os (Function.update objs o none) ↔
    Owned os (Function.update objs o (some Slots.empty)) := by
  have hsock : Slots.sockSlot Slots.empty = fun _ => none := by
    funext x
    cases x <;> rfl
  have hio : Slots.ioSlot Slots.empty = fun _ => none := by
    funext x
    cases x <;> rfl
  have htimer : Slots.timerSlot Slots.empty = fun _ => none := by
    funext x
    cases x <;> rfl
  have hkcp : Slots.kcpSlot Slots.empty = fun _ => none := rfl
  have key : ∀ objs₁ objs₂ : Owner → Option Slots,
      refs Slots.sockSlot objs₁ = refs Slots.sockSlot objs₂ →
      refs Slots.ioSlot objs₁ = refs Slots.ioSlot objs₂ →
      refs Slots.timerSlot objs₁ = refs Slots.timerSlot objs₂ →
      refs Slots.kcpSlot objs₁ = refs Slots.kcpSlot objs₂ →
      Owned os objs₁ → Owned os objs₂ := by
    intro objs₁ objs₂ h₁ h₂ h₃ h₄ h
    exact ⟨h₁ ▸ h.socks, h₂ ▸ h.ios, h₃ ▸ h.timers, h₄ ▸ h.kcps, h₁ ▸ h₂ ▸ h.watch, h₃ ▸ h.timed,
      h.fresh⟩
  constructor
  · exact key _ _ (refs_vacant o hsock) (refs_vacant o hio) (refs_vacant o htimer)
      (refs_vacant o hkcp)
  · exact key _ _ (refs_vacant o hsock).symm (refs_vacant o hio).symm (refs_vacant o htimer).symm
      (refs_vacant o hkcp).symm

theorem malloc (h : Owned os objs) : Owned { os with next := os.next + 1 } objs :=
  { h with fresh := fun hp => h.fresh (Nat.le_of_succ_le hp) }

/-- An object without a socket has no started watcher on it. -/
theorem evio_none (h : Owned os (Function.update objs o (some s))) (side : Side)
    (hsock : (s.sock side).sock = 0) : (s.sock side).evio = none := by
  rcases hio : (s.sock side).evio with _ | p
  · rfl
  · have hp : refs Slots.ioSlot (Function.update objs o (some s)) (o, side) = some p := by
      rw [refs_self]
      exact hio
    obtain ⟨e, he⟩ := Option.isSome_iff_exists.mp (h.ios.live hp)
    obtain ⟨-, hfd⟩ := h.watch hp he
    rw [refs_self] at hfd
    obtain ⟨heq, hne⟩ := KcpevSock.ref_eq_some.mp hfd
    rw [hsock] at heq
    exact absurd heq.symm hne

theorem openSock (h : Owned os (Function.update objs o (some s))) (side : Side) {fd : ℕ}
    (hside : s.sock side = KcpevSock.zero) (hfd : fd ≠ 0) (hfree : os.socks fd = none) (v : Sock) :
    Owned { os with socks := Function.update os.socks fd (some v) }
      (Function.update objs o (some (s.withSock side { sock := fd, evio := none }))) where
  socks := by
    rw [refs_update o (s.sockSlot_withSock side _),
      KcpevSock.ref_eq_some.mpr (⟨rfl, hfd⟩ : (KcpevSock.mk fd none).sock = fd ∧ fd ≠ 0)]
    refine h.socks.acquire hfree ?_ v
    rw [refs_self, Slots.sockSlot, hside]
    rfl
  ios := by
    have hio : (s.withSock side { sock := fd, evio := none }).ioSlot = s.ioSlot := by
      rw [Slots.ioSlot_withSock, Function.update_eq_self_iff, Slots.ioSlot, hside]
      rfl
    rw [refs_congr o hio]
    exact h.ios
  timers := by rw [refs_congr o (s.timerSlot_withSock side _)]; exact h.timers
  kcps := by rw [refs_congr o (s.kcpSlot_withSock side _)]; exact h.kcps
  watch {x p e} hp he := by
    rw [refs_update o (s.ioSlot_withSock side _)] at hp
    rcases eq_or_ne x (o, side) with rfl | hne
    · rw [Function.update_self] at hp
      cases hp
    · rw [Function.update_of_ne hne] at hp
      rw [refs_update o (s.sockSlot_withSock side _), Function.update_of_ne hne]
      exact h.watch hp he
  timed := by rw [refs_congr o (s.timerSlot_withSock side _)]; exact h.timed
  fresh := h.fresh

theorem connect (h : Owned os objs) (fd : ℕ) (addr : Addr) : Owned (os.connect fd addr) objs := by
  unfold Os.connect
  split
  · exact h
  · rename_i v hv
    refine { h with socks := h.socks.congr_isSome fun i => ?_ }
    rcases eq_or_ne i fd with rfl | hne
    · simp [hv]
    · simp [hne]

theorem startIo (h : Owned os (Function.update objs o (some s))) {fd : ℕ}
    (hside : s.sock side = { sock := fd, evio := none }) (hfd : fd ≠ 0) (cb : IoCb) :
    Owned (os.evIoStart { fd, data := o, cb }).1 (Function.update objs o
      (some (s.withSock side { sock := fd, evio := some os.next }))) where
  socks := by
    have hsock : (s.withSock side { sock := fd, evio := some os.next }).sockSlot = s.sockSlot := by
      rw [Slots.sockSlot_withSock, Function.update_eq_self_iff, Slots.sockSlot, hside]
      rfl
    rw [refs_congr o hsock]
    exact h.socks
  ios := by
    rw [refs_update o (s.ioSlot_withSock side _)]
    refine h.ios.acquire (h.fresh le_rfl).1 ?_ _
    rw [refs_self, Slots.ioSlot, hside]
  timers := by rw [refs_congr o (s.timerSlot_withSock side _)]; exact h.timers
  kcps := by rw [refs_congr o (s.kcpSlot_withSock side _)]; exact h.kcps
  watch {x p e} hp he := by
    have hfresh := (h.fresh le_rfl).1
    simp only [Os.evIoStart] at he
    rw [refs_update o (s.ioSlot_withSock side _)] at hp
    rcases eq_or_ne x (o, side) with rfl | hne
    · rw [Function.update_self] at hp
      cases hp
      rw [Function.update_self] at he
      cases he
      refine ⟨rfl, ?_⟩
      rw [refs_self, Slots.sockSlot, Slots.sock_withSock]
      exact KcpevSock.ref_eq_some.mpr ⟨rfl, hfd⟩
    · rw [Function.update_of_ne hne] at hp
      have hpne : p ≠ os.next := by
        rintro rfl
        exact h.ios.ne_of_none hfresh x hp
      rw [Function.update_of_ne hpne] at he
      rw [refs_update o (s.sockSlot_withSock side _), Function.update_of_ne hne]
      exact h.watch hp he
  timed := by rw [refs_congr o (s.timerSlot_withSock side _)]; exact h.timed
  fresh {p} hp := by
    have hlt : os.next + 1 ≤ p := hp
    obtain ⟨hios, htimers, hkcps⟩ := h.fresh (p := p) (by omega)
    refine ⟨?_, htimers, hkcps⟩
    simp only [Os.evIoStart]
    rw [Function.update_of_ne (by omega)]
    exact hios

theorem destroySock_socks (os : Os K T) (k : KcpevSock) :
    (k.destroy os).1.socks = k.ref.elim os.socks fun fd => Function.update os.socks fd none := by
  rcases k with ⟨fd, _ | p⟩
  · by_cases h : fd = 0 <;> simp [KcpevSock.destroy, closeSock, stopIo, KcpevSock.ref, h, Os.close]
  · by_cases h : fd = 0 <;>
      simp [KcpevSock.destroy, closeSock, stopIo, KcpevSock.ref, h, Os.close, Os.evIoStop]

theorem destroySock_ios (os : Os K T) (k : KcpevSock) :
    (k.destroy os).1.ios = k.evio.elim os.ios fun p => Function.update os.ios p none := by
  rcases k with ⟨fd, _ | p⟩
  · by_cases h : fd = 0 <;> simp [KcpevSock.destroy, closeSock, stopIo, h, Os.close]
  · by_cases h : fd = 0 <;> simp [KcpevSock.destroy, closeSock, stopIo, h, Os.close, Os.evIoStop]

theorem destroySock_rest (os : Os K T) (k : KcpevSock) :
    (k.destroy os).1.timers = os.timers ∧ (k.destroy os).1.kcps = os.kcps ∧
      (k.destroy os).1.next = os.next ∧ (k.destroy os).1.out = os.out := by
  rcases k with ⟨fd, _ | p⟩
  · by_cases h : fd = 0 <;> simp [KcpevSock.destroy, closeSock, stopIo, h, Os.close]
  · by_cases h : fd = 0 <;> simp [KcpevSock.destroy, closeSock, stopIo, h, Os.close, Os.evIoStop]

theorem elim_update_none {ρ : Type*} {res : ℕ → Option ρ} {p : ℕ} (i : Option ℕ)
    (h : res p = none) : (i.elim res fun j => Function.update res j none) p = none := by
  rcases i with _ | j
  · exact h
  · rcases eq_or_ne p j with rfl | hne
    · exact Function.update_self ..
    · rw [Option.elim_some, Function.update_of_ne hne]
      exact h

theorem destroySock (h : Owned os (Function.update objs o (some s))) (side : Side) :
    Owned ((s.sock side).destroy os).1
      (Function.update objs o (some (s.withSock side KcpevSock.zero))) := by
  obtain ⟨htimers, hkcps, hnext, -⟩ := destroySock_rest os (s.sock side)
  have hsocks := destroySock_socks os (s.sock side)
  have hios := destroySock_ios os (s.sock side)
  have hsockRef : refs Slots.sockSlot (Function.update objs o (some s)) (o, side) =
      (s.sock side).ref := refs_self ..
  have hioRef : refs Slots.ioSlot (Function.update objs o (some s)) (o, side) =
      (s.sock side).evio := refs_self ..
  refine ⟨?_, ?_, ?_, ?_, ?_, ?_, ?_⟩
  · rw [hsocks, refs_update o (s.sockSlot_withSock side _), ← hsockRef]
    exact h.socks.clear (o, side)
  · rw [hios, refs_update o (s.ioSlot_withSock side _), ← hioRef]
    exact h.ios.clear (o, side)
  · rw [htimers, refs_congr o (s.timerSlot_withSock side _)]
    exact h.timers
  · rw [hkcps, refs_congr o (s.kcpSlot_withSock side _)]
    exact h.kcps
  · intro x p e hp he
    rw [refs_update o (s.ioSlot_withSock side _)] at hp
    rcases eq_or_ne x (o, side) with rfl | hne
    · rw [Function.update_self] at hp
      cases hp
    · rw [Function.update_of_ne hne] at hp
      rw [refs_update o (s.sockSlot_withSock side _), Function.update_of_ne hne]
      refine h.watch hp ?_
      rw [hios] at he
      rcases hev : (s.sock side).evio with _ | q
      · rw [hev] at he
        exact he
      · rw [hev, Option.elim_some, Function.update_of_ne] at he
        · exact he
        · rintro rfl
          exact hne (h.ios.unique hp (hioRef.trans hev))
  · rw [htimers, refs_congr o (s.timerSlot_withSock side _)]
    exact h.timed
  · intro p hp
    rw [hnext] at hp
    obtain ⟨h₁, h₂, h₃⟩ := h.fresh hp
    rw [hios, htimers, hkcps]
    exact ⟨elim_update_none _ h₁, h₂, h₃⟩

theorem startTimer (h : Owned os (Function.update objs o (some s))) {clock : Clock}
    (hclock : s.timerSlot clock = none) (cb : TimerCb) (again : ℕ) :
    Owned (os.evTimerStart { data := o, cb, again }).1
      (Function.update objs o (some (s.withClock clock (some os.next)))) where
  socks := by rw [refs_congr o (s.sockSlot_withClock clock _)]; exact h.socks
  ios := by rw [refs_congr o (s.ioSlot_withClock clock _)]; exact h.ios
  timers := by
    rw [refs_update o (s.timerSlot_withClock clock _)]
    exact h.timers.acquire (h.fresh le_rfl).2.1 ((refs_self ..).trans hclock) _
  kcps := by rw [refs_congr o (s.kcpSlot_withClock clock _)]; exact h.kcps
  watch := by
    rw [refs_congr o (s.ioSlot_withClock clock _), refs_congr o (s.sockSlot_withClock clock _)]
    exact h.watch
  timed {x p t} hp ht := by
    have hfresh := (h.fresh le_rfl).2.1
    simp only [Os.evTimerStart] at ht
    rw [refs_update o (s.timerSlot_withClock clock _)] at hp
    rcases eq_or_ne x (o, clock) with rfl | hne
    · rw [Function.update_self] at hp
      cases hp
      rw [Function.update_self] at ht
      cases ht
      rfl
    · rw [Function.update_of_ne hne] at hp
      have hpne : p ≠ os.next := by
        rintro rfl
        exact h.timers.ne_of_none hfresh x hp
      rw [Function.update_of_ne hpne] at ht
      exact h.timed hp ht
  fresh {p} hp := by
    have hlt : os.next + 1 ≤ p := hp
    obtain ⟨hios, htimers, hkcps⟩ := h.fresh (p := p) (by omega)
    refine ⟨hios, ?_, hkcps⟩
    simp only [Os.evTimerStart]
    rw [Function.update_of_ne (by omega)]
    exact htimers

/-- `ev_timer_stop` of a timer of the object, if it has one. -/
theorem stopTimer (h : Owned os (Function.update objs o (some s))) (clock : Clock) :
    Owned { os with timers := (s.timerSlot clock).elim os.timers fun p =>
        Function.update os.timers p none }
      (Function.update objs o (some (s.withClock clock none))) where
  socks := by rw [refs_congr o (s.sockSlot_withClock clock _)]; exact h.socks
  ios := by rw [refs_congr o (s.ioSlot_withClock clock _)]; exact h.ios
  timers := by
    have href : refs Slots.timerSlot (Function.update objs o (some s)) (o, clock) =
      s.timerSlot clock := refs_self ..
    rw [refs_update o (s.timerSlot_withClock clock _), ← href]
    exact h.timers.clear (o, clock)
  kcps := by rw [refs_congr o (s.kcpSlot_withClock clock _)]; exact h.kcps
  watch := by
    rw [refs_congr o (s.ioSlot_withClock clock _), refs_congr o (s.sockSlot_withClock clock _)]
    exact h.watch
  timed {x p t} hp ht := by
    rw [refs_update o (s.timerSlot_withClock clock _)] at hp
    rcases eq_or_ne x (o, clock) with rfl | hne
    · rw [Function.update_self] at hp
      cases hp
    · rw [Function.update_of_ne hne] at hp
      refine h.timed hp ?_
      dsimp only at ht
      rcases hev : s.timerSlot clock with _ | q
      · rw [hev] at ht
        exact ht
      · rw [hev, Option.elim_some, Function.update_of_ne] at ht
        · exact ht
        · rintro rfl
          exact hne (h.timers.unique hp ((refs_self ..).trans hev))
  fresh {p} hp := by
    obtain ⟨h₁, h₂, h₃⟩ := h.fresh hp
    exact ⟨h₁, elim_update_none _ h₂, h₃⟩

theorem createKcp [KcpImpl K] (h : Owned os (Function.update objs o (some s)))
    (hkcp : s.kcp = none) (conv : ℕ) :
    Owned (os.ikcpCreate conv).1
      (Function.update objs o (some { s with kcp := some os.next })) where
  socks := by rw [refs_congr o (s.sockSlot_kcp _)]; exact h.socks
  ios := by rw [refs_congr o (s.ioSlot_kcp _)]; exact h.ios
  timers := by rw [refs_congr o (s.timerSlot_kcp _)]; exact h.timers
  kcps := by
    rw [refs_update o (s.kcpSlot_kcp _)]
    exact h.kcps.acquire (h.fresh le_rfl).2.2 ((refs_self ..).trans hkcp) _
  watch := by rw [refs_congr o (s.ioSlot_kcp _), refs_congr o (s.sockSlot_kcp _)]; exact h.watch
  timed := by rw [refs_congr o (s.timerSlot_kcp _)]; exact h.timed
  fresh {p} hp := by
    have hlt : os.next + 1 ≤ p := hp
    obtain ⟨hios, htimers, hkcps⟩ := h.fresh (p := p) (by omega)
    refine ⟨hios, htimers, ?_⟩
    simp only [Os.ikcpCreate]
    rw [Function.update_of_ne (by omega)]
    exact hkcps

/-- `ikcp_release` of the KCP object of the object, if it has one. -/
theorem releaseKcp (h : Owned os (Function.update objs o (some s))) :
    Owned { os with kcps := s.kcp.elim os.kcps fun p => Function.update os.kcps p none }
      (Function.update objs o (some { s with kcp := none })) where
  socks := by rw [refs_congr o (s.sockSlot_kcp _)]; exact h.socks
  ios := by rw [refs_congr o (s.ioSlot_kcp _)]; exact h.ios
  timers := by rw [refs_congr o (s.timerSlot_kcp _)]; exact h.timers
  kcps := by
    have href : refs Slots.kcpSlot (Function.update objs o (some s)) (o, ()) = s.kcp :=
      refs_self ..
    rw [refs_update o (s.kcpSlot_kcp _), ← href]
    exact h.kcps.clear (o, ())
  watch := by rw [refs_congr o (s.ioSlot_kcp _), refs_congr o (s.sockSlot_kcp _)]; exact h.watch
  timed := by rw [refs_congr o (s.timerSlot_kcp _)]; exact h.timed
  fresh {p} hp := by
    obtain ⟨h₁, h₂, h₃⟩ := h.fresh hp
    exact ⟨h₁, h₂, elim_update_none _ h₃⟩

end Owned

end KcpEv
