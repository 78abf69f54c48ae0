import KcpEv.Received
import KcpEv.Registry

/-!
What the functions outside of the dispatchers do to an object. They leave its
kind, its key and its ring alone; its UDP status can only become invalid. An
object that was not there before is a new one.
-/
namespace KcpEv

variable {K T : Type}

structure Kcpev.Steady (obj obj' : Kcpev T) : Prop where
  hasServer : obj'.hasServer = obj.hasServer
  key : obj'.key = obj.key
  rb : obj'.tcp.rb = obj.tcp.rb
  status : obj'.udp.status = obj.udp.status ∨ obj'.udp.status = .invalid

theorem Kcpev.Steady.refl (obj : Kcpev T) : obj.Steady obj := ⟨rfl, rfl, rfl, Or.inl rfl⟩

/-- No callback of a TCP connection is running. -/
def Control.offTcp : Control → Bool
  | .frame (.serverTcpRecv _) _ _ | .frame (.clientTcpRecv _) _ _ | .drain (.serverTcpRecv _) _
  | .drain (.clientTcpRecv _) _ | .closing _ => false
  | .loop | .frame .. | .drain .. => true

/-- The base of an object that has received nothing yet. -/
structure KcpevBase.Fresh (b : KcpevBase T) : Prop where
  rb : b.tcp.rb = none
  status : b.udp.status = .invalid

namespace World

variable {w w' : World K T} {c : ℕ} {os : Os K T} {obj obj' : Kcpev T}

/-- Every object is one that was there, or has a new address. -/
structure Steady (w w' : World K T) : Prop where
  objs : ∀ {c obj'}, w'.objs c = some obj' →
    (∃ obj, w.objs c = some obj ∧ obj.Steady obj') ∨ (w.os.next ≤ c ∧ obj'.toKcpevBase.Fresh)

namespace Steady

theorem of_objs (h : ∀ {c obj}, w'.objs c = some obj → w.objs c = some obj) : w.Steady w' :=
  ⟨fun hobj => Or.inl ⟨_, h hobj, .refl _⟩⟩

theorem refl (w : World K T) : w.Steady w := of_objs id

theorem store (hobj : w.objs c = some obj) (h : obj.Steady obj') :
    w.Steady (w.store os c obj') := by
  refine ⟨fun {d obj''} hd => ?_⟩
  rcases eq_or_ne d c with heq | hne
  · rw [heq] at hd ⊢
    simp only [World.store, Function.update_self, Option.some.injEq] at hd
    rw [← hd]
    exact Or.inl ⟨obj, hobj, h⟩
  · simp only [World.store, Function.update_of_ne hne] at hd
    exact Or.inl ⟨obj'', hd, .refl _⟩

theorem new (h : obj.toKcpevBase.Fresh) (server : Option (KcpevServer T)) :
    w.Steady ({ w with server := server }.store os w.os.next obj) := by
  refine ⟨fun {d obj''} hd => ?_⟩
  rcases eq_or_ne d w.os.next with heq | hne
  · rw [heq] at hd ⊢
    simp only [World.store, Function.update_self, Option.some.injEq] at hd
    rw [← hd]
    exact Or.inr ⟨le_rfl, h⟩
  · simp only [World.store, Function.update_of_ne hne] at hd
    exact Or.inl ⟨obj'', hd, .refl _⟩

end Steady

theorem objs_destroyKcpev (server : Option (KcpevServer T)) {client : Kcpev T} {d : ℕ}
    (h : ({ w with server := server }.destroyKcpev c client).objs d = some obj) :
    w.objs d = some obj := by
  simp only [World.destroyKcpev, Function.update_apply] at h
  split at h
  · cases h
  · exact h

theorem objs_serverDestroy (h : w.kcpevServerDestroy = .ok w') (hobj : w'.objs c = some obj) :
    w.objs c = some obj := by
  obtain ⟨server, -, h⟩ := bind_eq_ok.mp h
  obtain ⟨w₁, hdelete, h⟩ := bind_eq_ok.mp h
  cases h
  have hlist : ∀ {l : List (KcpevKey × ℕ)} {w w' : World K T}, w.deleteHash l = .ok w' →
      w'.objs c = some obj → w.objs c = some obj := by
    intro l
    induction l with
    | nil =>
      intro w w' h hobj
      cases h
      exact hobj
    | cons e rest ih =>
      intro w w' h hobj
      obtain ⟨w₁, hdestroy, h⟩ := bind_eq_ok.mp h
      obtain ⟨client, -, hdestroy⟩ := bind_eq_ok.mp hdestroy
      cases hdestroy
      exact objs_destroyKcpev w.server (ih h hobj)
  have hsub := hlist hdelete hobj
  exact hsub

end World

/-! Creation. -/

section Create
variable {w w' : World K T} {os os' : Os K T} {b b' : KcpevBase T} {ret : ℤ}

theorem fresh_zero [ClockImpl T] : (KcpevBase.zero : KcpevBase T).Fresh := ⟨rfl, rfl⟩

theorem KcpevBase.Fresh.initEv {o : Owner} {tcpCb udpCb : Option IoCb} {a : InitEvAnswer}
    (hb : b.Fresh) (h : kcpevInitEv os o b tcpCb udpCb a = (os', b', ret)) : b'.Fresh := by
  unfold kcpevInitEv at h
  split at h
  split at h
  · cases h
    exact ⟨hb.rb, hb.status⟩
  · cases h
    exact ⟨hb.rb, hb.status⟩

theorem KcpevBase.Fresh.bind {reuse : Bool} {a : KcpevBindAnswer} (hb : b.Fresh)
    (h : kcpevBind os b reuse a = (os', b', ret)) : b'.Fresh := by
  unfold kcpevBind at h
  split at h
  dsimp only at h
  split at h
  · cases h
    exact ⟨hb.rb, hb.status⟩
  split at h
  · cases h
    exact ⟨hb.rb, hb.status⟩
  split at h
  · cases h
    exact ⟨hb.rb, hb.status⟩
  · cases h
    exact ⟨hb.rb, hb.status⟩

theorem KcpevBase.Fresh.createKcp [KcpImpl K] {udp : KcpevUdp T} {conv : ℕ} {alloc : Bool}
    (hb : b.Fresh) (h : kcpevCreateKcp os b.udp conv alloc = (os', udp, ret)) :
    KcpevBase.Fresh { b with udp } := by
  unfold kcpevCreateKcp at h
  split at h
  · cases h
    exact hb
  · cases h
    exact ⟨hb.rb, hb.status⟩

theorem steady_createClient [KcpImpl K] [ClockImpl T] (w : World K T) (a : CreateClientAnswer) :
    w.Steady (kcpevCreateClient w a) := by
  unfold kcpevCreateClient
  split
  · exact .refl w
  dsimp only
  rcases hbind : kcpevBind { w.os with next := w.os.next + 1 }
    (kcpevCreate : Kcpev T).toKcpevBase false a.bind with ⟨os₁, b₁, r₁⟩
  have hb₁ : b₁.Fresh := fresh_zero.bind hbind
  dsimp only
  split
  · exact .of_objs id
  rcases hcreate : kcpevCreateKcp os₁ b₁.udp (kcpevCreate : Kcpev T).key.conv a.kcp with
    ⟨os₂, udp, r₂⟩
  have hb₂ := hb₁.createKcp hcreate
  dsimp only
  split
  · exact .of_objs id
  rcases hinit : kcpevInitEv os₂ (.kcpev w.os.next) { b₁ with udp } (some .clientTcpRecv)
    (some .clientUdpRecv) a.initEv with ⟨os₃, b₃, r₃⟩
  have hb₃ := hb₂.initEv hinit
  dsimp only
  split
  · exact .of_objs id
  · exact World.Steady.new hb₃ w.server

theorem steady_createServer [ClockImpl T] (w : World K T) (a : CreateServerAnswer) :
    w.Steady (kcpevCreateServer w a) := by
  rcases kcpevCreateServer_cases w a with hw | ⟨os, b, -, hw | hw⟩
  all_goals
    rw [hw]
    exact .of_objs id

theorem steady_tcpAccept [ClockImpl T] {fd : ℕ} {answer : Option AcceptAnswer}
    (h : tcpAccept w fd answer = .ok w') : w.Steady w' := by
  unfold tcpAccept at h
  split at h
  · cases h
    exact .refl w
  · cases h
    exact .refl w
  split at h
  · cases h
    exact .refl w
  rename_i os₁ s hopen
  have hnext : os₁.next = w.os.next := by
    rcases w.os.openSock_cases _ _ with ho | ⟨fd, -, ho⟩
    · rw [ho] at hopen
      cases hopen
    · rw [ho] at hopen
      cases hopen
      rfl
  split at h
  · cases h
    exact .of_objs id
  split at h
  · cases h
    exact .of_objs id
  split at h
  · cases h
    exact .of_objs id
  obtain ⟨server, -, h⟩ := bind_eq_ok.mp h
  split at h
  rename_i os b r hinit
  have hb : b.Fresh := KcpevBase.Fresh.initEv ⟨rfl, rfl⟩ hinit
  split at h
  · cases h
    exact .of_objs id
  obtain ⟨⟨os', r'⟩, -, h⟩ := bind_eq_ok.mp h
  dsimp only at h
  split at h
  · cases h
    exact .of_objs id
  · cases h
    rw [hnext]
    exact World.Steady.new hb _

theorem kcpevConnect_steady {obj : Kcpev T} {addr : Addr} {a : KcpevConnectAnswer}
    (h : kcpevConnect os obj.toKcpevBase addr a = (os', b', ret)) :
    obj.Steady { obj with toKcpevBase := b' } := by
  unfold kcpevConnect at h
  split at h
  split at h
  · cases h
    exact .refl obj
  split at h
  split at h
  · cases h
    exact ⟨rfl, rfl, rfl, Or.inl rfl⟩
  · cases h
    exact .refl obj

end Create

section Events
variable {w w' : World K T} {ctl : Control} {c fd : ℕ} {a : IoAnswer}

theorem tryKcpRecv_steady (h : tryKcpRecv w c = .ok (w', ctl)) : w' = w ∧ ctl.offTcp = true := by
  obtain ⟨client, -, h⟩ := bind_eq_ok.mp h
  split at h
  · cases h
  · cases h
    exact ⟨rfl, rfl⟩

variable [KcpImpl K]

theorem kcpReceived_steady {client : Kcpev T} {data : Bytes}
    (h : kcpReceived w c client data = .ok (w', ctl)) : w.Steady w' ∧ ctl.offTcp = true := by
  unfold kcpReceived at h
  split at h
  · cases h
  obtain ⟨os, -, h⟩ := bind_eq_ok.mp h
  obtain ⟨rfl, hctl⟩ := tryKcpRecv_steady h
  exact ⟨.of_objs id, hctl⟩

theorem clientUdpRecv_steady (h : clientUdpRecv w c fd a = .ok (w', ctl)) :
    w.Steady w' ∧ ctl.offTcp = true := by
  unfold clientUdpRecv at h
  split at h
  · cases h
    exact ⟨.refl w, rfl⟩
  obtain ⟨client, -, h⟩ := bind_eq_ok.mp h
  split at h
  · cases h
    exact ⟨.of_objs id, rfl⟩
  · exact kcpReceived_steady h

theorem serverUdpRecv_steady (h : serverUdpRecv w c fd a = .ok (w', ctl)) :
    w.Steady w' ∧ ctl.offTcp = true := by
  unfold serverUdpRecv at h
  split at h
  · cases h
    exact ⟨.refl w, rfl⟩
  obtain ⟨client, -, h⟩ := bind_eq_ok.mp h
  split at h
  · split at h
    · cases h
      exact ⟨.refl w, rfl⟩
    · cases h
      exact ⟨.of_objs id, rfl⟩
  · exact kcpReceived_steady h

omit [KcpImpl K] in
theorem serverUdpRecvAll_steady (w : World K T) (fd : ℕ) (a : IoAnswer) :
    w.Steady (serverUdpRecvAll w fd a).1 ∧ (serverUdpRecvAll w fd a).2.offTcp = true := by
  unfold serverUdpRecvAll
  split
  · exact ⟨.refl w, rfl⟩
  · exact ⟨.of_objs id, rfl⟩

theorem ikcpRecv_steady {p size : ℕ} {answer : Option Bytes}
    (h : w.ikcpRecv p size = .ok (w', answer)) : w.Steady w' := by
  unfold World.ikcpRecv at h
  split at h
  · cases h
  · cases h
    exact .of_objs id

theorem drainKcp_steady {p : ℕ} {addr : Addr}
    (h : drainRound w (.tryKcpRecv c p) addr = .ok (w', ctl)) :
    w.Steady w' ∧ ctl.offTcp = true := by
  obtain ⟨⟨w₁, answer⟩, hrecv, h⟩ := bind_eq_ok.mp h
  have hsteady := ikcpRecv_steady hrecv
  rcases answer with _ | _ | ⟨b, rest⟩
  · cases h
    exact ⟨hsteady, rfl⟩
  · cases h
    exact ⟨hsteady, rfl⟩
  dsimp only at h
  split at h
  · cases h
  obtain ⟨obj, -, h⟩ := bind_eq_ok.mp h
  split at h
  · split at h
    · cases h
      exact ⟨hsteady, rfl⟩
    · cases h
      exact ⟨⟨hsteady.objs⟩, rfl⟩
  · cases h
    exact ⟨⟨hsteady.objs⟩, rfl⟩

variable [ClockImpl T]

theorem timerEvent_steady {t : EvTimer} {a : TimerAnswer}
    (h : timerEvent w t a = .ok (w', ctl)) : w.Steady w' ∧ ctl.offTcp = true := by
  have invalid : ∀ (os : Os K T) {c : ℕ} {obj : Kcpev T}, w.objs c = some obj → w.Steady
      (w.store os c { obj with udp := obj.udp.setKcpInvalid }) := by
    intro os c obj hobj
    refine .store hobj ⟨rfl, rfl, rfl, Or.inr ?_⟩
    rw [KcpevUdp.setKcpInvalid_eq]
  unfold timerEvent at h
  split at h
  · obtain ⟨w₁, hrepeat, h⟩ := bind_eq_ok.mp h
    obtain ⟨rfl, hctl⟩ := tryKcpRecv_steady h
    refine ⟨.of_objs fun hobj => ?_, hctl⟩
    rwa [timerRepeat_objs hrepeat] at hobj
  · obtain ⟨w₁, hheart, h⟩ := bind_eq_ok.mp h
    cases h
    obtain ⟨client, hobj, hheart⟩ := bind_eq_ok.mp hheart
    rw [World.kcpev_ok] at hobj
    split at hheart
    · cases hheart
      exact ⟨.refl w, rfl⟩
    split at hheart
    · cases hheart
      exact ⟨invalid _ hobj, rfl⟩
    · obtain ⟨⟨os, r⟩, -, hheart⟩ := bind_eq_ok.mp hheart
      cases hheart
      exact ⟨.of_objs id, rfl⟩
  · obtain ⟨w₁, hheart, h⟩ := bind_eq_ok.mp h
    cases h
    obtain ⟨client, hobj, hheart⟩ := bind_eq_ok.mp hheart
    rw [World.kcpev_ok] at hobj
    split at hheart
    · cases hheart
      exact ⟨.refl w, rfl⟩
    split at hheart
    · obtain ⟨⟨os, r⟩, -, hheart⟩ := bind_eq_ok.mp hheart
      cases hheart
      exact ⟨invalid _ hobj, rfl⟩
    · cases hheart
      exact ⟨.refl w, rfl⟩
  · cases h
    exact ⟨.refl w, rfl⟩

theorem apply_steady {i : Input T} (h : apply w i = .ok w') : w.Steady w' := by
  unfold apply at h
  split at h
  · cases h
    exact steady_createClient w _
  · cases h
    split
    · exact .refl w
    · exact steady_createServer w _
  · obtain ⟨obj, hobj, h⟩ := bind_eq_ok.mp h
    cases h
    exact .store (World.kcpev_ok.mp hobj) ⟨rfl, rfl, rfl, Or.inl rfl⟩
  · obtain ⟨server, -, h⟩ := bind_eq_ok.mp h
    cases h
    exact .of_objs id
  · obtain ⟨obj, hobj, h⟩ := bind_eq_ok.mp h
    rw [World.kcpev_ok] at hobj
    split at h
    · cases h
      exact .refl w
    · split at h
      rename_i hconnect
      cases h
      exact .store hobj (kcpevConnect_steady hconnect)
  · obtain ⟨obj, -, h⟩ := bind_eq_ok.mp h
    obtain ⟨⟨os, r⟩, -, h⟩ := bind_eq_ok.mp h
    cases h
    exact .of_objs id
  · obtain ⟨obj, -, h⟩ := bind_eq_ok.mp h
    obtain ⟨⟨os, r⟩, -, h⟩ := bind_eq_ok.mp h
    cases h
    exact .of_objs id
  all_goals
    cases h
    exact .of_objs id

end Events

end KcpEv
