import KcpEv.Effects
import KcpEv.Lifecycle

/-!
Client callbacks only run for clients: a watcher with a client callback, and a
client callback that is running, belong to an object without a server. This
holds in every run, and with it every step has one of the effects.
-/
namespace KcpEv

variable {K T : Type}

namespace World

/-- An address that was given to a client; the client may be gone. -/
def IsClient (w : World K T) (c : ℕ) : Prop :=
  c < w.os.next ∧ ∀ obj, w.objs c = some obj → obj.hasServer = false

/-- Objects are only put at new addresses, and keep their kind. -/
structure Ages (w w' : World K T) : Prop where
  next : w.os.next ≤ w'.os.next
  objs : ∀ {c obj'}, c < w.os.next → w'.objs c = some obj' →
    ∃ obj, w.objs c = some obj ∧ obj'.hasServer = obj.hasServer

theorem Ages.isClient {w w' : World K T} (h : w.Ages w') {c : ℕ} (hc : w.IsClient c) :
    w'.IsClient c := by
  refine ⟨hc.1.trans_le h.next, fun obj' hobj' => ?_⟩
  obtain ⟨obj, hobj, hserver⟩ := h.objs hc.1 hobj'
  rw [hserver]
  exact hc.2 obj hobj

theorem hasServer_of_role {client client' : Kcpev T} (h : client'.role = client.role) :
    client'.hasServer = client.hasServer := by
  unfold Kcpev.role at h
  split at h <;> split at h <;> simp_all

theorem Quiet.ages {w w' : World K T} (h : w.Quiet w') : w.Ages w' where
  next := h.os.next.ge
  objs {c obj'} _ hobj' := by
    have hrole := h.role c
    rw [hobj', Option.map_some] at hrole
    obtain ⟨obj, hobj, hr⟩ := Option.map_eq_some_iff.mp hrole.symm
    exact ⟨obj, hobj, hasServer_of_role hr.symm⟩

theorem Ages.trans {w w' w'' : World K T} (h : w.Ages w') (h' : w'.Ages w'') : w.Ages w'' where
  next := h.next.trans h'.next
  objs hc hobj := by
    obtain ⟨obj', hobj', hs'⟩ := h'.objs (hc.trans_le h.next) hobj
    obtain ⟨obj, hobj, hs⟩ := h.objs hc hobj'
    exact ⟨obj, hobj, hs'.trans hs⟩

theorem ages_store {w : World K T} {os : Os K T} {c : ℕ} {client client' : Kcpev T}
    (hobj : w.objs c = some client) (hos : w.os.next ≤ os.next)
    (hserver : client'.hasServer = client.hasServer) : w.Ages (w.store os c client') where
  next := hos
  objs {c' obj'} _ hobj' := by
    rcases eq_or_ne c' c with rfl | hne
    · simp only [store, Function.update_self, Option.some.injEq] at hobj'
      subst hobj'
      exact ⟨client, hobj, hserver⟩
    · simp only [store, Function.update_of_ne hne] at hobj'
      exact ⟨obj', hobj', rfl⟩

end World

/-- A source only a client has. -/
def Source.OfClient (c : ℕ) : Source → Prop
  | .clientTcpRecv c' | .clientUdpRecv c' => c' = c
  | .serverTcpRecv _ | .serverUdpRecv _ | .serverUdpRecvAll | .tryKcpRecv _ _ => False

def Control.source : Control → Option Source
  | .frame src _ _ | .drain src _ => some src
  | .loop | .closing _ => none

structure Typed (w : World K T) : Prop where
  fresh : ∀ {c}, w.os.next ≤ c → w.objs c = none
  io : ∀ {q e c}, w.os.ios q = some e → ClientIo c e → w.IsClient c

theorem Typed.lt_next {w : World K T} (h : Typed w) {c : ℕ} {obj : Kcpev T}
    (hobj : w.objs c = some obj) : c < w.os.next := by
  by_contra hnew
  rw [h.fresh (not_lt.mp hnew)] at hobj
  cases hobj

/-- A later world, in which everything is still typed. -/
structure TypedAfter (w₀ w : World K T) : Prop extends Typed w where
  ages : w₀.Ages w

theorem Typed.after {w : World K T} (h : Typed w) : TypedAfter w w :=
  ⟨h, le_rfl, fun _ hobj => ⟨_, hobj, rfl⟩⟩

namespace TypedAfter

variable {w₀ w w' : World K T}

/-- New watchers are not those of a client that existed before. -/
theorem of_starts (h : TypedAfter w₀ w) (hages : w.Ages w') {P : EvIo → Prop}
    (hstarts : w.os.Starts P w'.os) (hP : ∀ {e c}, P e → ClientIo c e → w'.IsClient c)
    (hfresh : ∀ {c}, w'.os.next ≤ c → w'.objs c = none) : TypedAfter w₀ w' where
  fresh := hfresh
  ages := h.ages.trans hages
  io he hio := by
    rcases hstarts.io he with he | he
    · exact hages.isClient (h.io he hio)
    · exact hP he hio

theorem quiet (h : TypedAfter w₀ w) (hq : w.Quiet w') : TypedAfter w₀ w' := by
  refine h.of_starts hq.ages (Os.Starts.of_same (P := fun _ => False) hq.os) (fun h => h.elim) ?_
  intro c hc
  rw [hq.os.next] at hc
  have hnone := hq.isSome c
  rw [h.fresh hc] at hnone
  exact Option.not_isSome_iff_eq_none.mp (by simp [hnone])

theorem store (h : TypedAfter w₀ w) {os : Os K T} {c : ℕ} {client client' : Kcpev T}
    {P : EvIo → Prop}
    (hobj : w.objs c = some client) (hserver : client'.hasServer = client.hasServer)
    (hstarts : w.os.Starts P os) (hP : ∀ {e c}, P e → ¬ ClientIo c e) :
    TypedAfter w₀ (w.store os c client') := by
  refine h.of_starts (World.ages_store hobj hstarts.next hserver) hstarts
    (fun he hio => absurd hio (hP he)) ?_
  intro c' hc'
  have hne : c' ≠ c := by
    rintro rfl
    have hnone := h.fresh (hstarts.next.trans hc')
    rw [hobj] at hnone
    cases hnone
  simp only [World.store, Function.update_of_ne hne]
  exact h.fresh (hstarts.next.trans hc')

end TypedAfter

section Effect
variable [KcpImpl K] [ClockImpl T] {p : Process K T} {i : Input T} {w' : World K T}

omit [KcpImpl K] [ClockImpl T] in
theorem TypedAfter.of_os {w₀ w : World K T} (h : TypedAfter w₀ w) {os : Os K T} {P : EvIo → Prop}
    (hstarts : w.os.Starts P os) (hP : ∀ {e c}, P e → ClientIo c e → w.os.next ≤ c ∧ c < os.next)
    (server : Option (KcpevServer T)) : TypedAfter w₀ { w with os, server } := by
  have hages : w.Ages { w with os, server } :=
    ⟨hstarts.next, fun _ hobj => ⟨_, hobj, rfl⟩⟩
  refine h.of_starts hages hstarts (fun {e c} he hio => ?_)
    (fun hc => h.fresh (hstarts.next.trans hc))
  obtain ⟨hlo, hhi⟩ := hP he hio
  refine ⟨hhi, fun obj hobj => ?_⟩
  rw [h.fresh hlo] at hobj
  cases hobj

omit [KcpImpl K] [ClockImpl T] in
theorem TypedAfter.new {w₀ w : World K T} (h : TypedAfter w₀ w) {os : Os K T} {P : EvIo → Prop}
    {client : Kcpev T}
    (hnext : w.os.next < os.next) (hstarts : w.os.Starts P os)
    (hP : ∀ {e c}, P e → ClientIo c e → c = w.os.next ∧ client.hasServer = false)
    (server : Option (KcpevServer T)) :
    TypedAfter w₀ ({ w with server := server }.store os w.os.next client) := by
  have hages : w.Ages ({ w with server := server }.store os w.os.next client) := by
    refine ⟨hstarts.next, fun {c obj'} hc hobj => ?_⟩
    simp only [World.store, Function.update_of_ne (Nat.ne_of_lt hc)] at hobj
    exact ⟨obj', hobj, rfl⟩
  refine h.of_starts hages hstarts (fun {e c} he hio => ?_) (fun {c} hc => ?_)
  · obtain ⟨rfl, hclient⟩ := hP he hio
    refine ⟨hnext, fun obj hobj => ?_⟩
    simp only [World.store, Function.update_self, Option.some.injEq] at hobj
    rw [← hobj]
    exact hclient
  · have hle : os.next ≤ c := hc
    simp only [World.store, Function.update_of_ne (show c ≠ w.os.next by omega)]
    exact h.fresh (hstarts.next.trans hle)

omit [KcpImpl K] [ClockImpl T] in
theorem TypedAfter.destroyKcpev {w₀ w : World K T} (h : TypedAfter w₀ w) (c : ℕ)
    (client : Kcpev T) :
    TypedAfter w₀ (w.destroyKcpev c client) := by
  have hstarts : w.os.Starts (fun _ => False) (client.toKcpevBase.destroy w.os) :=
    Os.Starts.destroy _ _
  refine h.of_starts ⟨hstarts.next, fun {c' obj'} _ hobj => ?_⟩ hstarts (fun h => h.elim) ?_
  · rcases eq_or_ne c' c with rfl | hne
    · simp [World.destroyKcpev] at hobj
    · simp only [World.destroyKcpev, Function.update_of_ne hne] at hobj
      exact ⟨obj', hobj, rfl⟩
  · intro c' hc'
    rcases eq_or_ne c' c with rfl | hne
    · exact Function.update_self ..
    · simp only [World.destroyKcpev, Function.update_of_ne hne]
      exact h.fresh (hstarts.next.trans hc')

omit [KcpImpl K] [ClockImpl T] in
theorem TypedAfter.deleteHash {w₀ w w' : World K T} (h : TypedAfter w₀ w)
    {hash : List (KcpevKey × ℕ)}
    (hw : w.deleteHash hash = .ok w') : TypedAfter w₀ w' := by
  induction hash generalizing w with
  | nil =>
    cases hw
    exact h
  | cons e rest ih =>
    obtain ⟨w₁, hdestroy, hw⟩ := bind_eq_ok.mp hw
    obtain ⟨client, -, hdestroy⟩ := bind_eq_ok.mp hdestroy
    cases hdestroy
    exact ih (h.destroyKcpev e.2 client) hw

theorem typed_effect (htyped : Typed p.world) (he : Effect p i w') : TypedAfter p.world w' := by
  have h := htyped.after
  have none_client : ∀ {e : EvIo} {c : ℕ}, False → ¬ ClientIo c e := fun h => h.elim
  cases he with
  | quiet hquiet => exact h.quiet hquiet
  | data hdata => exact ⟨⟨htyped.fresh, htyped.io⟩, ⟨le_rfl, h.ages.objs⟩⟩
  | @createClient a hi =>
    rcases kcpevCreateClient_cases p.world a with hw | ⟨os, b, hborn, hnext, hw | ⟨-, hw⟩⟩
    · rw [hw]
      exact h
    · rw [hw]
      have hstarts := hborn.starts.trans (Os.Starts.destroy os b)
      refine h.of_os hstarts (fun {e c} he hio => ?_) p.world.server
      obtain ⟨hdata, -⟩ := hio
      obtain ⟨hdata', -⟩ := he
      rw [hdata'] at hdata
      cases hdata
      exact ⟨le_rfl, hnext.trans_le (Os.Starts.destroy (P := fun _ => False) os b).next⟩
    · rw [hw]
      refine h.new hnext hborn.starts (fun {e c} he hio => ?_) p.world.server
      obtain ⟨hdata, -⟩ := hio
      obtain ⟨hdata', -⟩ := he
      rw [hdata'] at hdata
      cases hdata
      exact ⟨rfl, rfl⟩
  | @createServer a hi hserver =>
    have hno : ∀ {e : EvIo} {c : ℕ}, ServerIo e → ClientIo c e → False := by
      rintro e c (hcb | hcb) ⟨-, hcb' | hcb'⟩
      all_goals
        rw [hcb] at hcb'
        cases hcb'
    rcases kcpevCreateServer_cases p.world a with hw | ⟨os, b, hborn, hw | hw⟩
    · rw [hw]
      exact h
    · rw [hw]
      exact h.of_os (hborn.starts.trans (Os.Starts.destroy os b)) (fun he hio => (hno he hio).elim)
        p.world.server
    · rw [hw]
      exact h.of_os hborn.starts (fun he hio => (hno he hio).elim) _
  | serverDestroy hi hctl hw =>
    obtain ⟨server, -, hw⟩ := bind_eq_ok.mp hw
    obtain ⟨w₁, hdelete, hw⟩ := bind_eq_ok.mp hw
    cases hw
    have hos : TypedAfter p.world { p.world with os := server.toKcpevBase.destroy p.world.os } :=
      h.of_os (Os.Starts.destroy (P := fun _ => False) _ _) (fun he => he.elim) p.world.server
    exact (hos.deleteHash hdelete).of_os (Os.Starts.refl (P := fun _ => False) _)
      (fun he => he.elim) none
  | connect hi hobj hclient hconn =>
    exact h.store hobj rfl (Os.Starts.kcpevConnect hconn) none_client
  | accept hi hctl he hcb hdata hw =>
    have hno : ∀ {c₀ : ℕ} {e : EvIo} {c : ℕ}, SessionIo c₀ e → ClientIo c e → False := by
      rintro c₀ e c ⟨-, hcb⟩ ⟨-, hcb' | hcb'⟩
      all_goals
        rw [hcb] at hcb'
        cases hcb'
    cases tcpAccept_cases hw with
    | nothing => exact h
    | zero ha hsock hfree =>
      refine h.of_os (P := fun _ => False) ?_ (fun he => he.elim) p.world.server
      exact Os.Starts.of_ios le_rfl rfl rfl
    | failed ha hadds hserver hborn hnext hfails =>
      exact h.of_os (hborn.starts.trans (Os.Starts.destroy _ _)) (fun he hio => (hno he hio).elim) _
    | added ha hadds hserver hborn hnext hudp hsend =>
      have hsame := (keeps_sockSendCommand hsend).toSame
      exact h.new (hnext.trans_le hsame.next.ge) (hborn.starts.trans (Os.Starts.of_same hsame))
        (fun he hio => (hno he hio).elim) _
  | @close c w hctl hw =>
    obtain ⟨client, -, hw⟩ := bind_eq_ok.mp hw
    split at hw
    · cases hw
    obtain ⟨server, -, hw⟩ := bind_eq_ok.mp hw
    cases hw
    have hos := h.of_os (Os.Starts.refl (P := fun _ => False) p.world.os) (fun he => he.elim)
      (some (server.hashDel c))
    exact hos.destroyKcpev c client
  | connectSession hframe hfind hconn hquiet =>
    obtain ⟨server, key, -, -, -, hobj⟩ := hfind
    have hstarts := Os.Starts.connectClientUdp (P := fun e => e.cb = .serverUdpRecv)
      (fun _ => rfl) hconn
    refine TypedAfter.quiet ?_ hquiet
    refine h.store hobj hstarts.2.2 hstarts.1 fun {e c} he hio => ?_
    obtain ⟨-, hcb | hcb⟩ := hio
    all_goals
      rw [he] at hcb
      cases hcb
  | serverTimers hframe hfind hstatus htimer hquiet =>
    obtain ⟨server, key, -, -, -, hobj⟩ := hfind
    refine TypedAfter.quiet ?_ hquiet
    exact h.store hobj rfl (Os.Starts.createTimer htimer) none_client
  | clientTimers hframe hobj hparse hsock hstatus hsend htimer hquiet =>
    have hsame := (keeps_sockSendCommand hsend).toSame
    refine TypedAfter.quiet ?_ hquiet
    exact h.store hobj rfl ((Os.Starts.of_same hsame).trans (Os.Starts.createTimer htimer))
      none_client

end Effect

/-! The running callback. -/

/-- Whom a running callback works for has the kind the callback is for. -/
structure Process.Typed (p : Process K T) : Prop where
  world : KcpEv.Typed p.world
  ctl : ∀ {src c}, p.ctl.source = some src → src.OfClient c → p.world.IsClient c

theorem ClientFrame.client {p : Process K T} {i : Input T} {c : ℕ} {buf : Bytes} {a : RecvAnswer}
    (h : ClientFrame p i c buf a) (hp : p.Typed) {obj : Kcpev T}
    (hobj : p.world.objs c = some obj) :
    obj.hasServer = false := by
  obtain ⟨src, addr, hctl, -, hsrc⟩ := h
  have hsource : p.ctl.source = some src := by
    rw [hctl]
    rfl
  rcases src with c' | c' | c' | c' | _ | ⟨c', q⟩
  · cases hsrc
  · cases hsrc
    exact (hp.ctl hsource rfl).2 obj hobj
  · cases hsrc
  · cases hsrc
    exact (hp.ctl hsource rfl).2 obj hobj
  · cases hsrc
  · obtain ⟨-, obj', hobj', hclient⟩ := hsrc
    rw [hobj] at hobj'
    cases hobj'
    exact hclient

section Step
variable [KcpImpl K] [ClockImpl T] {p p' : Process K T} {i : Input T}

omit [ClockImpl T] in
theorem drainRound_source {w w' : World K T} {src src' : Source} {addr : Addr} {ctl : Control}
    (h : drainRound w src addr = .ok (w', ctl)) (hsrc : ctl.source = some src') : src' = src := by
  unfold drainRound at h
  split at h
  · obtain ⟨client, -, h⟩ := bind_eq_ok.mp h
    obtain ⟨⟨rb, chunk⟩, -, h⟩ := bind_eq_ok.mp h
    dsimp only at h
    split at h
    · cases h
      cases hsrc
    · cases h
      cases hsrc
      rfl
  · obtain ⟨client, -, h⟩ := bind_eq_ok.mp h
    obtain ⟨⟨rb, chunk⟩, -, h⟩ := bind_eq_ok.mp h
    dsimp only at h
    split at h
    · cases h
      cases hsrc
    · cases h
      cases hsrc
      rfl
  · obtain ⟨⟨w₁, answer⟩, -, h⟩ := bind_eq_ok.mp h
    rcases answer with _ | _ | ⟨b, rest⟩
    · cases h
      cases hsrc
    · cases h
      cases hsrc
    dsimp only at h
    split at h
    · cases h
    obtain ⟨obj, -, h⟩ := bind_eq_ok.mp h
    split at h
    · split at h
      · cases h
        cases hsrc
      · cases h
        cases hsrc
        rfl
    · cases h
      cases hsrc
      rfl
  · cases h
    cases hsrc
  · cases h
    cases hsrc
  · cases h
    cases hsrc

theorem dispatched_source {src src' : Source} {addr : Addr} {ret : ℤ} {ctl : Control}
    (h : dispatched src addr ret = .ok ctl) (hsrc : ctl.source = some src') : src' = src := by
  unfold dispatched at h
  split at h
  · cases h
    split at hsrc <;> cases hsrc
    rfl
  · split at h
    · cases h
      cases hsrc
      rfl
    · cases h
  · cases h
    split at hsrc <;> cases hsrc
    rfl
  · cases h
    cases hsrc
  · cases h
    cases hsrc
  · cases h
    cases hsrc

/-- A round never changes whom the callback works for. -/
theorem callbackRound_source {w w' : World K T} {ctl ctl' : Control} {a : RecvAnswer}
    {src : Source} (h : callbackRound w ctl a = .ok (w', ctl')) (hsrc : ctl'.source = some src) :
    ctl.source = some src := by
  unfold callbackRound at h
  split at h
  · cases h
    cases hsrc
  · rw [drainRound_source h hsrc]
    rfl
  · obtain ⟨⟨w₁, ret⟩, -, h⟩ := bind_eq_ok.mp h
    obtain ⟨ctl₁, hctl, h⟩ := bind_eq_ok.mp h
    cases h
    rw [dispatched_source hctl hsrc]
    rfl
  · obtain ⟨w₁, -, h⟩ := bind_eq_ok.mp h
    cases h
    cases hsrc

omit [KcpImpl K] [ClockImpl T] in
theorem tryKcpRecv_ctl {w w' : World K T} {c : ℕ} {ctl : Control}
    (h : tryKcpRecv w c = .ok (w', ctl)) : ∃ kcp, ctl = .drain (.tryKcpRecv c kcp) 0 := by
  obtain ⟨client, -, h⟩ := bind_eq_ok.mp h
  split at h
  · cases h
  · cases h
    exact ⟨_, rfl⟩

omit [KcpImpl K] [ClockImpl T] in
theorem tcpReceived_source {w w' : World K T} {src : Source} {c : ℕ} {client : Kcpev T}
    {addr : Addr} {data : Bytes} {a : IoAnswer} {ctl : Control}
    (h : tcpReceived w src c client addr data a = .ok (w', ctl)) : ctl.source = some src := by
  obtain ⟨⟨rb, size⟩, -, h⟩ := bind_eq_ok.mp h
  dsimp only at h
  split at h
  · cases h
    rfl
  · cases h
    rfl

omit [ClockImpl T] in
theorem kcpReceived_ctl {w w' : World K T} {c : ℕ} {client : Kcpev T} {data : Bytes}
    {ctl : Control} (h : kcpReceived w c client data = .ok (w', ctl)) :
    ∃ kcp, ctl = .drain (.tryKcpRecv c kcp) 0 := by
  unfold kcpReceived at h
  split at h
  · cases h
  · obtain ⟨os, -, h⟩ := bind_eq_ok.mp h
    exact tryKcpRecv_ctl h

/-- A client callback is started by a client's watcher only. -/
theorem ioEvent_source {w w' : World K T} {e : EvIo} {a : IoAnswer} {ctl : Control} {src : Source}
    {c : ℕ} (h : ioEvent w e a = .ok (w', ctl)) (hsrc : ctl.source = some src)
    (hclient : src.OfClient c) : ClientIo c e := by
  unfold ioEvent at h
  split at h
  · obtain ⟨w₁, -, h⟩ := bind_eq_ok.mp h
    cases h
    cases hsrc
  · have hall := Except.ok.inj h
    unfold serverUdpRecvAll at hall
    split at hall
    · cases hall
      cases hsrc
    · cases hall
      cases hsrc
      exact hclient.elim
  · obtain ⟨client, -, h⟩ := bind_eq_ok.mp h
    split at h
    · cases h
      cases hsrc
    · rw [tcpReceived_source h] at hsrc
      cases hsrc
      exact hclient.elim
  · unfold serverUdpRecv at h
    split at h
    · cases h
      cases hsrc
    obtain ⟨client, -, h⟩ := bind_eq_ok.mp h
    split at h
    · split at h
      · cases h
        cases hsrc
      · cases h
        cases hsrc
        exact hclient.elim
    · obtain ⟨kcp, rfl⟩ := kcpReceived_ctl h
      cases hsrc
      exact hclient.elim
  · rename_i c' hcb hdata
    unfold clientTcpRecv at h
    split at h
    · cases h
    obtain ⟨client, -, h⟩ := bind_eq_ok.mp h
    rw [tcpReceived_source h] at hsrc
    cases hsrc
    cases hclient
    exact ⟨hdata, Or.inl hcb⟩
  · rename_i c' hcb hdata
    unfold clientUdpRecv at h
    split at h
    · cases h
      cases hsrc
    obtain ⟨client, -, h⟩ := bind_eq_ok.mp h
    split at h
    · cases h
      cases hsrc
      cases hclient
      exact ⟨hdata, Or.inr hcb⟩
    · obtain ⟨kcp, rfl⟩ := kcpReceived_ctl h
      cases hsrc
      exact hclient.elim
  · cases h
    cases hsrc

theorem timerEvent_source {w w' : World K T} {t : EvTimer} {a : TimerAnswer} {ctl : Control}
    {src : Source} {c : ℕ} (h : timerEvent w t a = .ok (w', ctl)) (hsrc : ctl.source = some src) :
    ¬ src.OfClient c := by
  unfold timerEvent at h
  split at h
  · obtain ⟨w₁, -, h⟩ := bind_eq_ok.mp h
    obtain ⟨kcp, rfl⟩ := tryKcpRecv_ctl h
    cases hsrc
    exact id
  · obtain ⟨w₁, -, h⟩ := bind_eq_ok.mp h
    cases h
    cases hsrc
  · obtain ⟨w₁, -, h⟩ := bind_eq_ok.mp h
    cases h
    cases hsrc
  · cases h
    cases hsrc

/-- Where a step comes from: what the process was doing, or a client's watcher. -/
theorem step_source (h : step p i = .ok p') {src : Source} {c : ℕ}
    (hsrc : p'.ctl.source = some src) (hclient : src.OfClient c) :
    p.ctl.source = some src ∨ ∃ q e, p.world.os.ios q = some e ∧ ClientIo c e := by
  unfold step at h
  split at h
  · obtain ⟨⟨w₁, ctl₁⟩, hround, h⟩ := bind_eq_ok.mp h
    cases h
    exact Or.inl (callbackRound_source hround hsrc)
  · split at h
    · rename_i q a _ _ e hctl he
      obtain ⟨⟨w₁, ctl₁⟩, hio, h⟩ := bind_eq_ok.mp h
      cases h
      exact Or.inr ⟨q, e, he, ioEvent_source hio hsrc hclient⟩
    · cases h
      exact Or.inl hsrc
  · split at h
    · obtain ⟨⟨w₁, ctl₁⟩, htimer, h⟩ := bind_eq_ok.mp h
      cases h
      exact absurd hclient (timerEvent_source htimer hsrc)
    · cases h
      exact Or.inl hsrc
  · split at h
    · obtain ⟨w₁, -, h⟩ := bind_eq_ok.mp h
      cases h
      exact Or.inl hsrc
    · cases h
      exact Or.inl hsrc
  · split at h
    · obtain ⟨w₁, -, h⟩ := bind_eq_ok.mp h
      cases h
      exact Or.inl hsrc
    · cases h
      exact Or.inl hsrc

theorem dispatch_effect (hp : p.Typed) {src : Source} {addr : Addr} {buf : Bytes} {a : RecvAnswer}
    {w' : World K T} {ret : ℤ} (hctl : p.ctl = .frame src addr buf) (hi : i = .round a)
    (h : dispatch p.world src addr buf a = .ok (w', ret)) : Effect p i w' := by
  have session : ∀ {c : ℕ}, src.ToServer p.world → src.client = some c →
      onSessionRecv p.world c buf addr a = .ok (w', ret) → Effect p i w' := by
    intro c hsrc hof h
    obtain ⟨client, hobj, h⟩ := bind_eq_ok.mp h
    rw [World.kcpev_ok] at hobj
    split at h
    · cases h
    · rename_i hserver
      rw [← hof] at h
      refine onServerRecv_effect hctl hi hsrc (fun c' hc' => ?_) h
      rw [hof] at hc'
      cases hc'
      exact ⟨client, hobj, by simpa using hserver⟩
  have client : ∀ {c : ℕ}, src.ToClient p.world c → src.OfClient c →
      onClientRecv p.world c buf a = .ok (w', ret) → Effect p i w' := by
    intro c hsrc hof h
    have hsource : p.ctl.source = some src := by
      rw [hctl]
      rfl
    have hc := hp.ctl hsource hof
    exact onClientRecv_effect hctl hi hsrc hc.2 h
  unfold dispatch at h
  split at h
  · exact session trivial rfl h
  · exact session trivial rfl h
  · exact client rfl rfl h
  · exact client rfl rfl h
  · exact onServerRecv_effect hctl hi trivial (fun c hc => by cases hc) h
  · obtain ⟨kcpev, hobj, h⟩ := bind_eq_ok.mp h
    rw [World.kcpev_ok] at hobj
    split at h
    · rename_i hserver
      exact session ⟨kcpev, hobj, hserver⟩ rfl h
    · rename_i hserver
      have hserver' : kcpev.hasServer = false := by simpa using hserver
      refine onClientRecv_effect hctl hi ⟨rfl, kcpev, hobj, hserver'⟩ (fun obj hobj' => ?_) h
      rw [hobj] at hobj'
      cases hobj'
      exact hserver'

theorem step_effect (hp : p.Typed) (h : step p i = .ok p') : Effect p i p'.world := by
  unfold step at h
  split at h
  · obtain ⟨⟨w₁, ctl₁⟩, hround, h⟩ := bind_eq_ok.mp h
    cases h
    unfold callbackRound at hround
    split at hround
    · cases hround
      exact .of_calm (World.Calm.refl _)
    · exact .of_calm (calm_drainRound hround)
    · rename_i src addr buf hctl
      obtain ⟨⟨w₂, ret⟩, hdispatch, hround⟩ := bind_eq_ok.mp hround
      obtain ⟨ctl₂, -, hround⟩ := bind_eq_ok.mp hround
      cases hround
      exact dispatch_effect hp hctl rfl hdispatch
    · rename_i c hctl
      obtain ⟨w₂, hclose, hround⟩ := bind_eq_ok.mp hround
      cases hround
      exact .close hctl hclose
  · split at h
    · rename_i q a _ _ e hctl he
      obtain ⟨⟨w₁, ctl₁⟩, hio, h⟩ := bind_eq_ok.mp h
      cases h
      unfold ioEvent at hio
      split at hio
      · rename_i hcb hdata
        obtain ⟨w₂, haccept, hio⟩ := bind_eq_ok.mp hio
        cases hio
        exact .accept rfl hctl he hcb hdata haccept
      · have hcalm : p.world.Calm (serverUdpRecvAll p.world e.fd a).1 := calm_serverUdpRecvAll
        rw [Except.ok.inj hio] at hcalm
        exact .of_calm hcalm
      · exact .of_calm (calm_serverTcpRecv hio)
      · exact .of_calm (calm_serverUdpRecv hio)
      · exact .of_calm (calm_clientTcpRecv hio)
      · exact .of_calm (calm_clientUdpRecv hio)
      · cases hio
        exact .of_calm (World.Calm.refl _)
    · cases h
      exact .of_calm (World.Calm.refl _)
  · split at h
    · obtain ⟨⟨w₁, ctl₁⟩, htimer, h⟩ := bind_eq_ok.mp h
      cases h
      unfold timerEvent at htimer
      split at htimer
      · exact .of_calm (calm_kcpevOnTimer htimer)
      · obtain ⟨w₂, hheart, htimer⟩ := bind_eq_ok.mp htimer
        cases htimer
        exact .of_calm (calm_onClientHeartbeatTimer hheart)
      · obtain ⟨w₂, hheart, htimer⟩ := bind_eq_ok.mp htimer
        cases htimer
        exact .of_calm (calm_onServerHeartbeatTimer hheart)
      · cases htimer
        exact .of_calm (World.Calm.refl _)
    · cases h
      exact .of_calm (World.Calm.refl _)
  · split at h
    · rename_i hctl
      obtain ⟨w₁, hdestroy, h⟩ := bind_eq_ok.mp h
      cases h
      exact .serverDestroy rfl hctl hdestroy
    · cases h
      exact .of_calm (World.Calm.refl _)
  · split at h
    · rename_i hctl
      obtain ⟨w₁, happly, h⟩ := bind_eq_ok.mp h
      cases h
      exact apply_effect hctl happly
    · cases h
      exact .of_calm (World.Calm.refl _)

/-- Typing is an invariant of every run, without any condition. -/
theorem Process.Typed.step (hp : p.Typed) (h : step p i = .ok p') : p'.Typed := by
  have hafter := typed_effect hp.world (step_effect hp h)
  refine ⟨hafter.toTyped, fun {src c} hsrc hclient => hafter.ages.isClient ?_⟩
  rcases step_source h hsrc hclient with hold | ⟨q, e, he, hio⟩
  · exact hp.ctl hold hclient
  · exact hp.world.io he hio

omit [KcpImpl K] [ClockImpl T] in
theorem Process.typed_init (now : T) : (Process.init now : Process K T).Typed where
  world := ⟨fun _ => rfl, fun he => by cases he⟩
  ctl h := by cases h

end Step

end KcpEv
