import KcpEv.Setup
import KcpEv.ServerHash

/-!
Whose heartbeat timer is whose. Only `check_create_kcp_timer` starts timers; it gives a
session the timer that notifies the client, and a client the other one.
-/
namespace KcpEv

variable {K T : Type}

/-- No timer is started; a timer may be stopped, or get another delay. -/
structure Os.Fades (os os' : Os K T) : Prop where
  timer : ∀ {q e}, os'.timers q = some e →
    ∃ e₀, os.timers q = some e₀ ∧ e₀.data = e.data ∧ e₀.cb = e.cb

namespace Os.Fades

variable {os os' os'' : Os K T}

theorem refl (os : Os K T) : os.Fades os := ⟨fun he => ⟨_, he, rfl, rfl⟩⟩

theorem trans (h : os.Fades os') (h' : os'.Fades os'') : os.Fades os'' := by
  refine ⟨fun {q e} he => ?_⟩
  obtain ⟨e₁, he₁, hdata₁, hcb₁⟩ := h'.timer he
  obtain ⟨e₀, he₀, hdata, hcb⟩ := h.timer he₁
  exact ⟨e₀, he₀, hdata.trans hdata₁, hcb.trans hcb₁⟩

theorem of_timers (h : os'.timers = os.timers) : os.Fades os' := by
  refine ⟨fun {q e} he => ?_⟩
  rw [h] at he
  exact ⟨e, he, rfl, rfl⟩

theorem of_same (h : os.Same os') : os.Fades os' := by
  refine ⟨fun {q e} he => ?_⟩
  have htimer := h.timers q
  rw [he, Option.map_some] at htimer
  obtain ⟨e₀, he₀, hkind⟩ := Option.map_eq_some_iff.mp htimer.symm
  rw [Prod.mk.injEq] at hkind
  exact ⟨e₀, he₀, hkind.1, hkind.2⟩

theorem stop (os : Os K T) (q : ℕ) : os.Fades (os.evTimerStop q) := by
  refine ⟨fun {r e} he => ?_⟩
  rcases eq_or_ne r q with heq | hne
  · simp [Os.evTimerStop, heq] at he
  · simp only [Os.evTimerStop, Function.update_of_ne hne] at he
    exact ⟨e, he, rfl, rfl⟩

/-- No timer is started while an object is set up or destroyed. -/
theorem setup [KcpImpl K] : Os.Setup (K := K) (T := T) Os.Fades where
  refl := refl
  trans := trans
  rest _ _ htimers _ := of_timers htimers
  stop := stop
  release _ _ := of_timers rfl
  create _ _ := of_timers rfl

theorem tcpAccept [KcpImpl K] [ClockImpl T] {w w' : World K T} {fd : ℕ}
    {answer : Option AcceptAnswer} (h : KcpEv.tcpAccept w fd answer = .ok w') :
    w.os.Fades w'.os := by
  unfold KcpEv.tcpAccept at h
  split at h
  · cases h
    exact refl _
  · cases h
    exact refl _
  split at h
  · cases h
    exact refl _
  rename_i a _ _ os s hopen
  have hopened := setup.openSock hopen
  split at h
  · cases h
    exact hopened
  split at h
  · cases h
    exact hopened.trans (of_timers rfl)
  split at h
  · cases h
    exact hopened.trans (of_timers rfl)
  obtain ⟨server, -, h⟩ := bind_eq_ok.mp h
  rcases hinit : kcpevInitEv { os with next := os.next + 1 } (.kcpev os.next)
    (acceptBase s : KcpevBase T) (some .serverTcpRecv) none { tcp := a.evio, udp := true } with
    ⟨os₁, b, r⟩
  have hnext : os.Fades { os with next := os.next + 1 } := of_timers rfl
  have hstarted : w.os.Fades os₁ := hopened.trans (hnext.trans (setup.initEv hinit))
  simp only [hinit] at h
  split at h
  · cases h
    exact hstarted.trans (setup.destroy _ _)
  obtain ⟨⟨os₂, ret⟩, hsend, h⟩ := bind_eq_ok.mp h
  have hsent := hstarted.trans (of_same (keeps_sockSendCommand hsend).toSame)
  dsimp only at h
  split at h
  · cases h
    exact hsent.trans (setup.destroy _ _)
  · cases h
    exact hsent

end Os.Fades

/-- An address that was given to a session; the session may be gone. -/
def World.IsSession (w : World K T) (c : ℕ) : Prop :=
  c < w.os.next ∧ ∀ obj, w.objs c = some obj → obj.hasServer = true

theorem World.Ages.isSession {w w' : World K T} (h : w.Ages w') {c : ℕ} (hc : w.IsSession c) :
    w'.IsSession c := by
  refine ⟨hc.1.trans_le h.next, fun obj' hobj' => ?_⟩
  obtain ⟨obj, hobj, hserver⟩ := h.objs hc.1 hobj'
  rw [hserver]
  exact hc.2 obj hobj

/-- A heartbeat timer belongs to an object of its kind. -/
def World.TimerOf (w : World K T) (e : EvTimer) : Prop :=
  ∀ c, e.data = .kcpev c → (e.cb = .onServerHeartbeatTimer → w.IsSession c) ∧
    (e.cb = .onClientHeartbeatTimer → w.IsClient c)

structure World.TimersTyped (w : World K T) : Prop where
  timer : ∀ {q e}, w.os.timers q = some e → w.TimerOf e

namespace World

variable {w w' : World K T}

theorem TimerOf.ages {e e' : EvTimer} (h : w.TimerOf e) (hages : w.Ages w')
    (hdata : e.data = e'.data) (hcb : e.cb = e'.cb) : w'.TimerOf e' := by
  intro c hc
  obtain ⟨hsession, hclient⟩ := h c (hdata.trans hc)
  rw [hcb] at hsession hclient
  exact ⟨fun hcb => hages.isSession (hsession hcb), fun hcb => hages.isClient (hclient hcb)⟩

theorem TimersTyped.fades (h : w.TimersTyped) (hages : w.Ages w') (hos : w.os.Fades w'.os) :
    w'.TimersTyped := by
  refine ⟨fun {q e} he => ?_⟩
  obtain ⟨e₀, he₀, hdata, hcb⟩ := hos.timer he
  exact (h.timer he₀).ages hages hdata hcb

/-- The timers `check_create_kcp_timer` starts. -/
theorem TimersTyped.create (h : w.TimersTyped) (hages : w.Ages w') {os : Os K T} {c : ℕ}
    {udp udp' : KcpevUdp T} {hcb : TimerCb} {evt evh : Bool} {ret : ℤ} (hos : w.os.Fades os)
    (htimer : checkCreateKcpTimer os (.kcpev c) udp hcb evt evh = .ok (w'.os, udp', ret))
    (hkind : w'.TimerOf { data := .kcpev c, cb := hcb, again := 10000 }) : w'.TimersTyped := by
  have old : ∀ {q e}, os.timers q = some e → w'.TimerOf e := by
    intro q e he
    obtain ⟨e₀, he₀, hdata, hcb⟩ := hos.timer he
    exact (h.timer he₀).ages hages hdata hcb
  have kcp : w'.TimerOf { data := .kcpev c, cb := .kcpevOnTimer, again := 10 } := by
    intro d _
    constructor
    · nofun
    · nofun
  have started : ∀ {os₁ : Os K T} {e₁ : EvTimer}, (∀ {q e}, os₁.timers q = some e → w'.TimerOf e) →
      w'.TimerOf e₁ → ∀ {q e}, (os₁.evTimerStart e₁).1.timers q = some e → w'.TimerOf e := by
    intro os₁ e₁ hall he₁ q e he
    rcases eq_or_ne q os₁.next with heq | hne
    · simp only [Os.evTimerStart, heq, Function.update_self, Option.some.injEq] at he
      rw [← he]
      exact he₁
    · simp only [Os.evTimerStart, Function.update_of_ne hne] at he
      exact hall he
  rcases checkCreateKcpTimer_cases htimer with ⟨-, -, hsame, -⟩ | ⟨-, -, -, -, hsame, -⟩ |
    ⟨-, -, -, -, hsame, -⟩
  · refine ⟨fun {q e} he => ?_⟩
    rw [hsame] at he
    exact old he
  · refine ⟨fun {q e} he => ?_⟩
    rw [hsame] at he
    exact started old kcp he
  · refine ⟨fun {q e} he => ?_⟩
    rw [hsame] at he
    exact started (started old kcp) hkind he

end World

section Effect
variable [KcpImpl K] [ClockImpl T] {p p' : Process K T} {i : Input T} {w' : World K T}

theorem timersTyped_effect (h : p.world.TimersTyped) (hp : p.Typed)
    {known : List (KcpevKey × ℕ)} (hreg : World.Registered known p.world)
    (he : Effect p i w') : w'.TimersTyped := by
  have hages := (typed_effect hp.world he).ages
  cases he with
  | quiet hquiet => exact h.fades hages (.of_same hquiet.os)
  | data => exact h.fades hages (.of_timers rfl)
  | createClient => exact h.fades hages (Os.Fades.setup.createClient _ _)
  | createServer => exact h.fades hages (Os.Fades.setup.createServer _ _)
  | serverDestroy _ _ hw => exact h.fades hages (Os.Fades.setup.serverDestroy hw)
  | connect _ _ _ hconn => exact h.fades hages (Os.Fades.setup.kcpevConnect hconn)
  | accept _ _ _ _ _ hw => exact h.fades hages (.tcpAccept hw)
  | close _ hw => exact h.fades hages (Os.Fades.setup.closeClient hw)
  | connectSession hframe hfind hconn hquiet =>
    exact h.fades hages ((Os.Fades.setup.connectClientUdp hconn).trans (.of_same hquiet.os))
  | @serverTimers buf addr a c obj os udp ret w hframe hfind hstatus htimer hquiet =>
    obtain ⟨server, key, -, hserver, hc, hobj⟩ := hfind
    have hsession := (hreg.hasServer_of_find hserver hc hobj).1
    have hstored : p.world.Ages (p.world.store os c { obj with udp }) :=
      World.ages_store hobj (Os.Starts.createTimer (P := fun _ => False) htimer).next rfl
    have hcreated : (p.world.store os c { obj with udp }).TimersTyped := by
      refine h.create hstored (.refl _) htimer fun d hd => ⟨fun _ => ?_, nofun⟩
      cases hd
      refine hstored.isSession ⟨hp.world.lt_next hobj, fun obj₀ hobj₀ => ?_⟩
      rw [hobj, Option.some.injEq] at hobj₀
      rw [← hobj₀]
      exact hsession
    exact hcreated.fades hquiet.ages (.of_same hquiet.os)
  | @clientTimers buf a c obj os os' udp ret w hframe hobj hparse hsock hstatus hsend htimer
      hquiet =>
    have hsame := (keeps_sockSendCommand hsend).toSame
    have hnext : p.world.os.next ≤ os'.next :=
      hsame.next.ge.trans (Os.Starts.createTimer (P := fun _ => False) htimer).next
    have hstored : p.world.Ages (p.world.store os' c { obj with udp }) :=
      World.ages_store hobj hnext rfl
    have hcreated : (p.world.store os' c { obj with udp }).TimersTyped := by
      refine h.create hstored (.of_same hsame) htimer fun d hd => ⟨nofun, fun _ => ?_⟩
      cases hd
      refine hstored.isClient ⟨hp.world.lt_next hobj, fun obj₀ hobj₀ => ?_⟩
      rw [hobj, Option.some.injEq] at hobj₀
      rw [← hobj₀]
      exact hframe.client hp hobj
    exact hcreated.fades hquiet.ages (.of_same hquiet.os)

theorem run_timersTyped {ok : Process K T → Input T → Prop} {now : T} {is : List (Input T)}
    (hrun : Guarded.Run step ok (.init now) is p) : p.world.TimersTyped := by
  have hinv : p.Typed ∧ World.Registered (generatedKeys (K := K) now is) p.world ∧
      p.world.TimersTyped := by
    refine hrun.invariant_history (P := fun known p =>
      p.Typed ∧ World.Registered known p.world ∧ p.world.TimersTyped) ?_ ?_
    · refine ⟨Process.typed_init now, (World.exact_init now).toRegistered, ⟨fun {q e} he => ?_⟩⟩
      cases he
    · rintro known s i s' ⟨hp, hreg, htimers⟩ hok hs
      exact ⟨hp.step hs, registered_step hp hreg hs,
        timersTyped_effect htimers hp hreg (step_effect hp hs)⟩
  exact hinv.2.2

end Effect

end KcpEv
