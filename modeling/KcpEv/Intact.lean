import KcpEv.KcpTimers
import KcpEv.Steady
import KcpEv.TcpSafety
import KcpEv.TimerKinds

/-!
What has to hold of a process so that nothing it uses is gone: its objects own their
resources and are registered, the rings are valid, a watcher leads to a live object
of its kind, and so does the callback that is running.
-/
namespace KcpEv

open TcpRecv

variable {K T : Type}

/-! The watchers of sessions. -/

/-- A watcher on one of the sockets of a session. -/
def EvIo.Serves (c : ℕ) (e : EvIo) : Prop :=
  e.data = .kcpev c ∧ (e.cb = .serverTcpRecv ∨ e.cb = .serverUdpRecv)

namespace World

variable {w w' : World K T}

structure IosTyped (w : World K T) : Prop where
  io : ∀ {q e c}, w.os.ios q = some e → e.Serves c → w.IsSession c

theorem IosTyped.starts (h : w.IosTyped) (hages : w.Ages w') {P : EvIo → Prop}
    (hstarts : w.os.Starts P w'.os) (hP : ∀ {e c}, P e → e.Serves c → w'.IsSession c) :
    w'.IosTyped := by
  refine ⟨fun {q e c} he hserves => ?_⟩
  rcases hstarts.io he with hold | hnew
  · exact hages.isSession (h.io hold hserves)
  · exact hP hnew hserves

theorem IosTyped.others (h : w.IosTyped) (hages : w.Ages w') {P : EvIo → Prop}
    (hstarts : w.os.Starts P w'.os) (hP : ∀ {e c}, P e → ¬ e.Serves c) : w'.IosTyped :=
  h.starts hages hstarts fun hnew hserves => absurd hserves (hP hnew)

theorem starts_deleteHash {P : EvIo → Prop} {l : List (KcpevKey × ℕ)}
    (h : w.deleteHash l = .ok w') : w.os.Starts P w'.os := by
  induction l generalizing w with
  | nil =>
    cases h
    exact .refl _
  | cons e rest ih =>
    obtain ⟨w₁, hdestroy, h⟩ := bind_eq_ok.mp h
    obtain ⟨client, -, hdestroy⟩ := bind_eq_ok.mp hdestroy
    cases hdestroy
    exact (Os.Starts.destroy w.os client.toKcpevBase).trans (ih h)

theorem starts_serverDestroy {P : EvIo → Prop} (h : w.kcpevServerDestroy = .ok w') :
    w.os.Starts P w'.os := by
  obtain ⟨server, -, h⟩ := bind_eq_ok.mp h
  obtain ⟨w₁, hdelete, h⟩ := bind_eq_ok.mp h
  cases h
  exact (Os.Starts.destroy w.os server.toKcpevBase).trans (starts_deleteHash hdelete)

end World

theorem ClientIo.not_serves {c d : ℕ} {e : EvIo} (h : ClientIo c e) : ¬ e.Serves d := by
  rintro ⟨-, hcb⟩
  rcases h.2 with hclient | hclient
  all_goals
    rw [hclient] at hcb
    rcases hcb with hcb | hcb <;> cases hcb

theorem ServerIo.not_serves {d : ℕ} {e : EvIo} (h : ServerIo e) : ¬ e.Serves d := by
  rintro ⟨-, hcb⟩
  rcases h with hserver | hserver
  all_goals
    rw [hserver] at hcb
    rcases hcb with hcb | hcb <;> cases hcb

section Effect
variable [KcpImpl K] [ClockImpl T] {p p' : Process K T} {i : Input T} {w' : World K T}
  {known : List (KcpevKey × ℕ)}

omit [KcpImpl K] [ClockImpl T] in
/-- The address an object has just been put at is that of a session, if it is one. -/
theorem isSession_stored {w : World K T} {os : Os K T} {c : ℕ} {obj : Kcpev T}
    (hlt : c < os.next) (hserver : obj.hasServer = true) :
    (w.store os c obj).IsSession c := by
  refine ⟨hlt, fun obj' hobj' => ?_⟩
  simp only [World.store, Function.update_self, Option.some.injEq] at hobj'
  rw [← hobj']
  exact hserver

theorem iosTyped_effect (h : p.world.IosTyped) (ht : Typed p.world)
    (hreg : World.Registered known p.world) (he : Effect p i w') : w'.IosTyped := by
  have hages := (typed_effect ht he).ages
  have nothing : p.world.os.Starts (fun _ => False) w'.os → w'.IosTyped :=
    fun hstarts => h.others hages hstarts fun hfalse => hfalse.elim
  cases he with
  | quiet hquiet => exact nothing (.of_same hquiet.os)
  | data hdata => exact ⟨fun he hserves => hages.isSession (h.io he hserves)⟩
  | @createClient a hi =>
    rcases kcpevCreateClient_cases p.world a with hw | ⟨os, b, hborn, -, hw | ⟨-, hw⟩⟩
    · rw [hw]
      exact h
    · rw [hw] at hages ⊢
      exact h.others hages (hborn.starts.trans (.destroy os b)) ClientIo.not_serves
    · rw [hw] at hages ⊢
      exact h.others hages hborn.starts ClientIo.not_serves
  | @createServer a hi hserver =>
    rcases kcpevCreateServer_cases p.world a with hw | ⟨os, b, hborn, hw | hw⟩
    · rw [hw]
      exact h
    · rw [hw] at hages ⊢
      exact h.others hages (hborn.starts.trans (.destroy os b)) ServerIo.not_serves
    · rw [hw] at hages ⊢
      exact h.others hages hborn.starts ServerIo.not_serves
  | serverDestroy hi hctl hw => exact nothing (World.starts_serverDestroy hw)
  | connect hi hobj hclient hconn => exact nothing (.kcpevConnect hconn)
  | accept hi hctl he hcb hdata hw =>
    cases tcpAccept_cases hw with
    | nothing => exact h
    | zero => exact nothing (.of_ios le_rfl rfl rfl)
    | @failed a server os b ha hadds hserver hborn hnext =>
      have hstarts := hborn.starts.trans (.destroy os b)
      refine h.starts hages hstarts fun hnew hserves => ?_
      have hc := hserves.1
      rw [hnew.1] at hc
      cases hc
      have hlt := hnext.trans_le (Os.Starts.destroy (P := fun _ => False) os b).next
      refine ⟨hlt, fun obj hobj => ?_⟩
      have hfresh : p.world.objs p.world.os.next = none := ht.fresh le_rfl
      rw [show p.world.objs p.world.os.next = some obj from hobj] at hfresh
      cases hfresh
    | added ha hadds hserver hborn hnext hudp hsend =>
      have hsame := (keeps_sockSendCommand hsend).toSame
      refine h.starts hages (hborn.starts.trans (.of_same hsame)) fun hnew hserves => ?_
      have hc := hserves.1
      rw [hnew.1] at hc
      cases hc
      exact isSession_stored (hnext.trans_le hsame.next.ge) rfl
  | close hctl hw =>
    obtain ⟨client, server, -, -, -, rfl⟩ := World.closeClient_cases hw
    exact nothing (.destroy _ _)
  | @connectSession buf addr a c obj obj' os ret w hframe hfind hconn hquiet =>
    obtain ⟨server, key, -, hserver, hc, hobj⟩ := hfind
    have hsession := (hreg.hasServer_of_find hserver hc hobj).1
    have hstarts := (Os.Starts.connectClientUdp (P := fun e => e.data = .kcpev c)
      (fun _ => rfl) hconn).1
    refine h.starts hages (hstarts.trans (.of_same hquiet.os)) fun hnew hserves => ?_
    have hd := hserves.1
    rw [hnew] at hd
    cases hd
    refine hages.isSession ⟨ht.lt_next hobj, fun obj₀ hobj₀ => ?_⟩
    rw [hobj, Option.some.injEq] at hobj₀
    rw [← hobj₀]
    exact hsession
  | serverTimers hframe hfind hstatus htimer hquiet =>
    exact nothing ((Os.Starts.createTimer htimer).trans (.of_same hquiet.os))
  | clientTimers hframe hobj hparse hsock hstatus hsend htimer hquiet =>
    exact nothing (((Os.Starts.of_same (keeps_sockSendCommand hsend).toSame).trans
      (.createTimer htimer)).trans (.of_same hquiet.os))

end Effect

/-! The rings of all objects. -/

structure World.RingsOk (w : World K T) : Prop where
  ring : ∀ {c obj}, w.objs c = some obj → RingOk obj.tcp.rb

namespace World.RingsOk

variable {w w' : World K T} {c : ℕ} {obj : Kcpev T}

theorem of_objs (h : w.RingsOk) (hobjs : ∀ {c obj}, w'.objs c = some obj → w.objs c = some obj) :
    w'.RingsOk :=
  ⟨fun hobj => h.ring (hobjs hobj)⟩

theorem steady (h : w.RingsOk) (hsteady : w.Steady w') : w'.RingsOk := by
  refine ⟨fun {c obj'} hobj' => ?_⟩
  rcases hsteady.objs hobj' with ⟨obj, hobj, hkept⟩ | ⟨-, hfresh⟩
  · rw [hkept.rb]
    exact h.ring hobj
  · rw [hfresh.rb]
    exact ringOk_none

theorem store (h : w.RingsOk) (os : Os K T) (hrb : RingOk obj.tcp.rb) :
    (w.store os c obj).RingsOk := by
  refine ⟨fun {d obj'} hobj' => ?_⟩
  rcases eq_or_ne d c with rfl | hne
  · simp only [World.store, Function.update_self, Option.some.injEq] at hobj'
    rw [← hobj']
    exact hrb
  · simp only [World.store, Function.update_of_ne hne] at hobj'
    exact h.ring hobj'

theorem keep (h : w.RingsOk) {os : Os K T} {obj' : Kcpev T} (hobj : w.objs c = some obj)
    (hrb : obj'.tcp.rb = obj.tcp.rb) : (w.store os c obj').RingsOk :=
  h.store os (by rw [hrb]; exact h.ring hobj)

variable [KcpImpl K] {buf : Bytes} {addr : Addr} {a : RecvAnswer} {ret : ℤ}

theorem serverRecv (h : w.RingsOk) {client : Option ℕ}
    (hrecv : ServerRecv w client buf addr a w' ret) : w'.RingsOk := by
  have connected : ∀ {c : ℕ} {obj obj' : Kcpev T} {os : Os K T} {ret : ℤ},
      connectClientUdp w.os c obj addr a = (os, obj', ret) → obj'.tcp.rb = obj.tcp.rb := by
    intro c obj obj' os ret hconn
    rcases connectClientUdp_cases hconn with ⟨-, rfl⟩ | ⟨-, hconnected⟩
    · rfl
    · rw [hconnected.fields]
  cases hrecv with
  | unchanged => exact h
  | data => exact h.of_objs id
  | shakeHand1Failed hname hfind hconn =>
    obtain ⟨server, key, -, -, -, hobj⟩ := hfind
    exact h.keep hobj (connected hconn)
  | shakeHand1 hname hfind hconn =>
    obtain ⟨server, key, -, -, -, hobj⟩ := hfind
    have hrb := connected hconn
    exact h.keep hobj hrb
  | shakeHand2Failed hname hfind =>
    obtain ⟨server, key, -, -, -, hobj⟩ := hfind
    exact h.keep hobj rfl
  | shakeHand2 hname hfind =>
    obtain ⟨server, key, -, -, -, hobj⟩ := hfind
    exact h.keep hobj rfl
  | heartbeat1 => exact h.of_objs id
  | heartbeat2 hclient hobj => exact h.keep hobj rfl

theorem clientRecv (h : w.RingsOk) (hrecv : ClientRecv w c buf a w' ret) : w'.RingsOk := by
  cases hrecv with
  | unchanged => exact h
  | data => exact h.of_objs id
  | shakeHand1Unsent hparse hobj => exact h.keep hobj rfl
  | shakeHand1 hparse hobj => exact h.keep hobj rfl
  | shakeHand2Unsent => exact h.of_objs id
  | shakeHand2Failed hparse hobj => exact h.keep hobj rfl
  | shakeHand2 hparse hobj => exact h.keep hobj rfl
  | heartbeat1Unsent => exact h.of_objs id
  | heartbeat1 hobj => exact h.keep hobj rfl
  | udpInvalid hobj => exact h.keep hobj rfl

omit [KcpImpl K] in
theorem tcpReceived (h : w.RingsOk) {src : Source} {client : Kcpev T} {data : Bytes} {a : IoAnswer}
    {ctl : Control} (hobj : w.objs c = some client)
    (hrecv : KcpEv.tcpReceived w src c client addr data a = .ok (w', ctl)) : w'.RingsOk := by
  obtain ⟨⟨rb, size⟩, hput, hrecv⟩ := bind_eq_ok.mp hrecv
  obtain ⟨rb', size', hput', hrb⟩ :=
    TcpSafety.onTcpRecv_ok (h.ring hobj) data a.newMem a.growMem
  rw [hput] at hput'
  cases hput'
  have hset : (w.setRb c client rb).RingsOk := h.store _ hrb
  dsimp only at hrecv
  split at hrecv
  · cases hrecv
    exact hset.of_objs id
  · cases hrecv
    exact hset

theorem drainRound (h : w.RingsOk) {src : Source} {ctl : Control}
    (hdrain : KcpEv.drainRound w src addr = .ok (w', ctl)) : w'.RingsOk := by
  have stream : ∀ {c : ℕ} {src : Source},
      (do
        let client ← w.kcpev c
        let r ← TcpRecv.getTcpBufChunk client.tcp.rb kcpevBufferSize
        if r.2 = [] then return (w.setRb c client r.1, Control.loop)
        else return (w.setRb c client r.1).toFrame src addr r.2) = .ok (w', ctl) → w'.RingsOk := by
    intro c src hdrain
    obtain ⟨client, hobj, hdrain⟩ := bind_eq_ok.mp hdrain
    rw [World.kcpev_ok] at hobj
    obtain ⟨⟨rb, chunk⟩, hchunk, hdrain⟩ := bind_eq_ok.mp hdrain
    obtain ⟨rb', frame, hchunk', hrb, -⟩ := TcpSafety.getTcpBufChunk_ok (h.ring hobj)
    rw [hchunk] at hchunk'
    cases hchunk'
    have hset : (w.setRb c client rb).RingsOk := h.store _ hrb
    dsimp only at hdrain
    split at hdrain
    · cases hdrain
      exact hset
    · cases hdrain
      exact hset.of_objs id
  rcases src with c | c | c | c | _ | ⟨c, q⟩
  · exact stream hdrain
  · exact stream hdrain
  · cases hdrain
    exact h
  · cases hdrain
    exact h
  · cases hdrain
    exact h
  · exact h.steady (drainKcp_steady hdrain).1

variable [ClockImpl T]

theorem dispatch (h : w.RingsOk) {src : Source}
    (hdispatch : KcpEv.dispatch w src addr buf a = .ok (w', ret)) : w'.RingsOk := by
  have session : ∀ {c : ℕ}, onSessionRecv w c buf addr a = .ok (w', ret) → w'.RingsOk := by
    intro c hsession
    obtain ⟨client, -, hsession⟩ := bind_eq_ok.mp hsession
    split at hsession
    · cases hsession
    · exact h.serverRecv (onServerRecv_cases hsession)
  rcases src with c | c | c | c | _ | ⟨c, q⟩
  · exact session hdispatch
  · exact h.clientRecv (onClientRecv_cases hdispatch)
  · exact session hdispatch
  · exact h.clientRecv (onClientRecv_cases hdispatch)
  · exact h.serverRecv (onServerRecv_cases hdispatch)
  · obtain ⟨kcpev, -, hdispatch⟩ := bind_eq_ok.mp hdispatch
    split at hdispatch
    · exact session hdispatch
    · exact h.clientRecv (onClientRecv_cases hdispatch)

theorem callbackRound (h : w.RingsOk) {ctl ctl' : Control}
    (hround : KcpEv.callbackRound w ctl a = .ok (w', ctl')) : w'.RingsOk := by
  rcases ctl with _ | ⟨src, addr, buf⟩ | ⟨src, addr⟩ | c
  · cases hround
    exact h
  · obtain ⟨⟨w₁, ret⟩, hdispatch, hround⟩ := bind_eq_ok.mp hround
    obtain ⟨ctl₁, -, hround⟩ := bind_eq_ok.mp hround
    cases hround
    exact h.dispatch hdispatch
  · exact h.drainRound hround
  · obtain ⟨w₁, hclose, hround⟩ := bind_eq_ok.mp hround
    cases hround
    obtain ⟨client, server, -, -, -, rfl⟩ := World.closeClient_cases hclose
    exact h.of_objs fun hobj => World.objs_destroyKcpev _ hobj

theorem ioEvent (h : w.RingsOk) {e : EvIo} {a : IoAnswer} {ctl : Control}
    (hio : KcpEv.ioEvent w e a = .ok (w', ctl)) : w'.RingsOk := by
  unfold KcpEv.ioEvent at hio
  split at hio
  · obtain ⟨w₁, haccept, hio⟩ := bind_eq_ok.mp hio
    cases hio
    exact h.steady (steady_tcpAccept haccept)
  · have hsteady := (serverUdpRecvAll_steady w e.fd a).1
    rw [Except.ok.inj hio] at hsteady
    exact h.steady hsteady
  · obtain ⟨client, hobj, hio⟩ := bind_eq_ok.mp hio
    split at hio
    · cases hio
      exact h
    · exact h.tcpReceived (World.kcpev_ok.mp hobj) hio
  · exact h.steady (serverUdpRecv_steady hio).1
  · unfold clientTcpRecv at hio
    split at hio
    · cases hio
    obtain ⟨client, hobj, hio⟩ := bind_eq_ok.mp hio
    exact h.tcpReceived (World.kcpev_ok.mp hobj) hio
  · exact h.steady (clientUdpRecv_steady hio).1
  · cases hio
    exact h

end World.RingsOk

section Step
variable [KcpImpl K] [ClockImpl T] {p p' : Process K T} {i : Input T}

theorem World.RingsOk.step (h : p.world.RingsOk) (hs : KcpEv.step p i = .ok p') :
    p'.world.RingsOk := by
  unfold KcpEv.step at hs
  split at hs
  · obtain ⟨⟨w₁, ctl₁⟩, hround, hs⟩ := bind_eq_ok.mp hs
    cases hs
    exact h.callbackRound hround
  · split at hs
    · obtain ⟨⟨w₁, ctl₁⟩, hio, hs⟩ := bind_eq_ok.mp hs
      cases hs
      exact h.ioEvent hio
    · cases hs
      exact h
  · split at hs
    · obtain ⟨⟨w₁, ctl₁⟩, htimer, hs⟩ := bind_eq_ok.mp hs
      cases hs
      exact h.steady (timerEvent_steady htimer).1
    · cases hs
      exact h
  · split at hs
    · obtain ⟨w₁, hdestroy, hs⟩ := bind_eq_ok.mp hs
      cases hs
      exact h.of_objs fun hobj => World.objs_serverDestroy hdestroy hobj
    · cases hs
      exact h
  · split at hs
    · obtain ⟨w₁, happly, hs⟩ := bind_eq_ok.mp hs
      cases hs
      exact h.steady (apply_steady happly)
    · cases hs
      exact h

end Step

/-! The running callback. -/

/-- Whom a callback works for is there, and is what the callback is for. -/
def Source.Runs (w : World K T) : Source → Prop
  | .serverTcpRecv c | .serverUdpRecv c => ∃ obj, w.objs c = some obj ∧ obj.hasServer = true
  | .clientTcpRecv c | .clientUdpRecv c => ∃ obj, w.objs c = some obj
  | .serverUdpRecvAll => ∃ server, w.server = some server
  | .tryKcpRecv c q => ∃ obj, w.objs c = some obj ∧ obj.udp.kcp = some q

def Control.Runs (w : World K T) : Control → Prop
  | .loop => True
  | .frame src _ _ | .drain src _ => src.Runs w
  | .closing c => ∃ obj, w.objs c = some obj ∧ obj.hasServer = true

/-- The objects and the server stay, and so does the KCP object that is being drained. -/
structure World.Lasts (src : Option Source) (w w' : World K T) : Prop where
  objs : ∀ {c obj}, w.objs c = some obj → ∃ obj', w'.objs c = some obj' ∧
    obj'.hasServer = obj.hasServer ∧
    ∀ q, src = some (.tryKcpRecv c q) → obj.udp.kcp = some q → obj'.udp.kcp = some q
  server : ∀ {server}, w.server = some server → ∃ server', w'.server = some server'

namespace World.Lasts

variable {src : Option Source} {w w' w'' : World K T} {c : ℕ} {os : Os K T} {obj obj' : Kcpev T}

theorem trans (h : w.Lasts src w') (h' : w'.Lasts src w'') : w.Lasts src w'' where
  objs hobj := by
    obtain ⟨obj', hobj', hserver, hkcp⟩ := h.objs hobj
    obtain ⟨obj'', hobj'', hserver', hkcp'⟩ := h'.objs hobj'
    exact ⟨obj'', hobj'', hserver'.trans hserver, fun q hq hold => hkcp' q hq (hkcp q hq hold)⟩
  server hserver := by
    obtain ⟨server', hserver'⟩ := h.server hserver
    exact h'.server hserver'

theorem of_objs (hobjs : ∀ {c obj}, w.objs c = some obj → w'.objs c = some obj)
    (hserver : ∀ {server}, w.server = some server → ∃ server', w'.server = some server') :
    w.Lasts src w' :=
  ⟨fun hobj => ⟨_, hobjs hobj, rfl, fun _ _ hkcp => hkcp⟩, hserver⟩

theorem refl (w : World K T) : w.Lasts src w := of_objs id fun hserver => ⟨_, hserver⟩

theorem store (hobj : w.objs c = some obj) (hserver : obj'.hasServer = obj.hasServer)
    (hkcp : ∀ q, src = some (.tryKcpRecv c q) → obj.udp.kcp = some q → obj'.udp.kcp = some q) :
    w.Lasts src (w.store os c obj') where
  objs {d obj₀} hobj₀ := by
    rcases eq_or_ne d c with rfl | hne
    · rw [hobj, Option.some.injEq] at hobj₀
      rw [← hobj₀]
      exact ⟨obj', Function.update_self .., hserver, hkcp⟩
    · exact ⟨obj₀, (Function.update_of_ne hne ..).trans hobj₀, rfl, fun _ _ hold => hold⟩
  server hs := ⟨_, hs⟩

theorem new (hfresh : w.objs c = none) (server : Option (KcpevServer T))
    (hserver : ∀ {s}, w.server = some s → ∃ s', server = some s') :
    w.Lasts src ({ w with server := server }.store os c obj) := by
  refine of_objs (fun {d obj₀} hobj₀ => ?_) hserver
  have hne : d ≠ c := by
    rintro rfl
    rw [hfresh] at hobj₀
    cases hobj₀
  exact (Function.update_of_ne hne ..).trans hobj₀

theorem quiet (hquiet : w.Quiet w') : w.Lasts src w' where
  objs {c obj} hobj := by
    have hlive := hquiet.isSome c
    rw [hobj, Option.isSome_some, Option.isSome_iff_exists] at hlive
    obtain ⟨obj', hobj'⟩ := hlive
    obtain ⟨obj₀, hobj₀, hrole, hslots⟩ := hquiet.old hobj'
    rw [hobj, Option.some.injEq] at hobj₀
    subst hobj₀
    refine ⟨obj', hobj', hasServer_of_role hrole.symm, fun q _ hkcp => ?_⟩
    rw [show obj'.udp.kcp = obj.udp.kcp from (congrArg Slots.kcp hslots).symm]
    exact hkcp
  server {server} hserver := by
    have hlive := hquiet.server
    rw [hserver, Option.isSome_some, Option.isSome_iff_exists] at hlive
    exact hlive

end World.Lasts

theorem Source.Runs.lasts {w w' : World K T} {src : Source} (h : src.Runs w)
    (hlasts : w.Lasts (some src) w') : src.Runs w' := by
  have session : ∀ {c : ℕ}, (∃ obj, w.objs c = some obj ∧ obj.hasServer = true) →
      ∃ obj, w'.objs c = some obj ∧ obj.hasServer = true := by
    rintro c ⟨obj, hobj, hserver⟩
    obtain ⟨obj', hobj', hserver', -⟩ := hlasts.objs hobj
    exact ⟨obj', hobj', hserver'.trans hserver⟩
  have client : ∀ {c : ℕ}, (∃ obj, w.objs c = some obj) → ∃ obj, w'.objs c = some obj := by
    rintro c ⟨obj, hobj⟩
    obtain ⟨obj', hobj', -⟩ := hlasts.objs hobj
    exact ⟨obj', hobj'⟩
  rcases src with c | c | c | c | _ | ⟨c, q⟩
  · exact session h
  · exact client h
  · exact session h
  · exact client h
  · obtain ⟨server, hserver⟩ := h
    exact hlasts.server hserver
  · obtain ⟨obj, hobj, hkcp⟩ := h
    obtain ⟨obj', hobj', -, hkept⟩ := hlasts.objs hobj
    exact ⟨obj', hobj', hkept q rfl hkcp⟩

theorem Control.Runs.lasts {w w' : World K T} {ctl : Control} (h : ctl.Runs w)
    (hlasts : w.Lasts ctl.source w') : ctl.Runs w' := by
  rcases ctl with _ | ⟨src, addr, buf⟩ | ⟨src, addr⟩ | c
  · trivial
  · exact Source.Runs.lasts h hlasts
  · exact Source.Runs.lasts h hlasts
  · obtain ⟨obj, hobj, hserver⟩ := h
    obtain ⟨obj', hobj', hserver', -⟩ := hlasts.objs hobj
    exact ⟨obj', hobj', hserver'.trans hserver⟩

/-- The session whose KCP object is being drained does not get its first handshake
message through this object: a failing `connect_client_udp` would release it. -/
def Process.DrainsOn (p : Process K T) (i : Input T) : Prop :=
  ∀ buf addr a c obj q, ServerFrame p i buf addr a → Finds p.world buf .shakeHand1 c obj →
    p.ctl.source ≠ some (.tryKcpRecv c q)

section Lasts
variable [KcpImpl K] [ClockImpl T] {p p' : Process K T} {i : Input T} {w' : World K T}

/-- Unless the server or a session is destroyed, everything a callback works for stays. -/
theorem lasts_effect (ht : Typed p.world) (hdrains : p.DrainsOn i) (he : Effect p i w')
    {src : Option Source} (hsrc : ∀ a, i = .round a → src = none ∨ src = p.ctl.source) :
    p.world.Lasts src w' ∨ i = .serverDestroy ∨ ∃ c, p.ctl = .closing c := by
  cases he with
  | quiet hquiet => exact Or.inl (.quiet hquiet)
  | data => exact Or.inl (.of_objs id fun hs => ⟨_, hs⟩)
  | @createClient a hi =>
    left
    rcases kcpevCreateClient_cases p.world a with hw | ⟨os, b, -, -, hw | ⟨-, hw⟩⟩
    · rw [hw]
      exact .refl _
    · rw [hw]
      exact .of_objs id fun hs => ⟨_, hs⟩
    · rw [hw]
      exact .new (ht.fresh le_rfl) p.world.server fun hs => ⟨_, hs⟩
  | @createServer a hi hserver =>
    left
    refine .of_objs (fun {c obj} hobj => ?_) fun hs => ?_
    · rcases kcpevCreateServer_cases p.world a with hw | ⟨os, b, -, hw | hw⟩
      all_goals
        rw [hw]
        exact hobj
    · rw [hserver] at hs
      cases hs
  | serverDestroy hi => exact Or.inr (Or.inl hi)
  | connect hi hobj hclient hconn =>
    refine Or.inl (.store hobj rfl fun q _ hkcp => ?_)
    obtain ⟨-, -, hsame⟩ := World.kcpevConnect_fields hconn
    exact hsame.trans hkcp
  | accept hi hctl he hcb hdata hw =>
    left
    cases tcpAccept_cases hw with
    | nothing => exact .refl _
    | zero => exact .of_objs id fun hs => ⟨_, hs⟩
    | failed => exact .of_objs id fun _ => ⟨_, rfl⟩
    | added => exact .new (ht.fresh le_rfl) _ fun _ => ⟨_, rfl⟩
  | close hctl => exact Or.inr (Or.inr ⟨_, hctl⟩)
  | @connectSession buf addr a c obj obj' os ret w hframe hfind hconn hquiet =>
    have hkind := (Os.Starts.connectClientUdp (P := fun _ => True) (fun _ => trivial) hconn).2.2
    have hother : ∀ q, src ≠ some (.tryKcpRecv c q) := by
      intro q hq
      have hi : i = .round a := by
        obtain ⟨src₀, -, hi, -⟩ := hframe
        exact hi
      rcases hsrc a hi with hnone | hsame
      · rw [hnone] at hq
        cases hq
      · exact hdrains _ _ _ c obj q hframe hfind (hsame ▸ hq)
    obtain ⟨server, key, -, -, -, hobj⟩ := hfind
    have hquieted : World.Lasts src _ w' := .quiet hquiet
    have hstored : World.Lasts src p.world (p.world.store os c (obj'.begun ret)) :=
      .store hobj hkind fun q hq => absurd hq (hother q)
    exact Or.inl (hstored.trans hquieted)
  | serverTimers hframe hfind hstatus htimer hquiet =>
    obtain ⟨server, key, -, -, -, hobj⟩ := hfind
    have hquieted : World.Lasts src _ w' := .quiet hquiet
    refine Or.inl (.trans (.store hobj ?_ fun q _ hkcp => ?_) hquieted)
    · rfl
    · exact (checkCreateKcpTimer_kcp htimer).trans hkcp
  | clientTimers hframe hobj hparse hsock hstatus hsend htimer hquiet =>
    have hquieted : World.Lasts src _ w' := .quiet hquiet
    refine Or.inl (.trans (.store hobj ?_ fun q _ hkcp => ?_) hquieted)
    · rfl
    · exact (checkCreateKcpTimer_kcp htimer).trans hkcp

/-- After a destruction no callback is running. -/
theorem step_leaves (hs : step p i = .ok p')
    (hend : i = .serverDestroy ∨ ∃ c, p.ctl = .closing c) : p'.ctl = .loop ∨ p' = p := by
  rcases hend with rfl | ⟨c, hctl⟩
  · simp only [step] at hs
    split at hs
    · rename_i hctl
      obtain ⟨w₁, -, hs⟩ := bind_eq_ok.mp hs
      cases hs
      exact Or.inl hctl
    · cases hs
      exact Or.inr rfl
  · rcases p with ⟨w, ctl⟩
    cases hctl
    cases i with
    | round a =>
      obtain ⟨⟨w₁, ctl₁⟩, hround, hs⟩ := bind_eq_ok.mp hs
      cases hs
      obtain ⟨w₂, -, hround⟩ := bind_eq_ok.mp hround
      cases hround
      exact Or.inl rfl
    | _ =>
      cases hs
      exact Or.inr rfl

/-- What the process works for after a step was there before, and is still there. -/
theorem Control.Runs.step (ht : Typed p.world) (he : Effect p i p'.world)
    (hdrains : p.DrainsOn i) (hs : KcpEv.step p i = .ok p') (h : p'.ctl.Runs p.world) :
    p'.ctl.Runs p'.world := by
  have hsrc : ∀ a, i = .round a → p'.ctl.source = none ∨ p'.ctl.source = p.ctl.source := by
    rintro a rfl
    rcases hsource : p'.ctl.source with _ | src
    · exact Or.inl rfl
    · right
      obtain ⟨⟨w₁, ctl₁⟩, hround, hs⟩ := bind_eq_ok.mp hs
      cases hs
      exact (callbackRound_source hround hsource).symm
  rcases lasts_effect ht hdrains he hsrc with hlasts | hend
  · exact h.lasts hlasts
  · rcases step_leaves hs hend with hloop | hsame
    · rw [hloop]
      trivial
    · rw [hsame] at h ⊢
      exact h

end Lasts

end KcpEv
