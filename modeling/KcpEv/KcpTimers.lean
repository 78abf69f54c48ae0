import KcpEv.Received
import KcpEv.Tidy
import KcpEv.TimerKinds

/-!
A KCP timer needs a KCP object. The timers of a session start with the second
handshake message, its KCP object is made by the first one; a first message that
is repeated and fails takes the object away and leaves the status, so that the
second message starts timers without one.
-/
namespace KcpEv

open Guarded

variable {K T : Type}

/-! What becomes of the KCP timers when none is started. -/

/-- No timer is started, and an object keeps its KCP timer, or it is a session whose KCP
timer is stopped. -/
structure World.Sheds (w w' : World K T) : Prop where
  os : w.os.Fades w'.os
  objs : ∀ {c obj}, w.objs c = some obj →
    (∃ obj', w'.objs c = some obj' ∧ obj'.hasServer = obj.hasServer ∧
      obj'.udp.evt = obj.udp.evt) ∨
    (obj.hasServer = true ∧ ∀ q, obj.udp.evt = some q → w'.os.timers q = none)

theorem Os.Fades.stopped {os os' : Os K T} (h : os.Fades os') {q : ℕ}
    (hq : os.timers q = none) : os'.timers q = none := by
  by_contra hne
  obtain ⟨t, ht⟩ := Option.ne_none_iff_exists'.mp hne
  obtain ⟨t₀, ht₀, -⟩ := h.timer ht
  rw [hq] at ht₀
  cases ht₀

theorem KcpevUdp.destroy_stops [KcpImpl K] (os : Os K T) {udp : KcpevUdp T} {q : ℕ}
    (hevt : udp.evt = some q) : (udp.destroy os).1.timers q = none := by
  have hfades := Os.Fades.setup (K := K) (T := T)
  have hstop : ∀ (os₁ : Os K T) (udp₁ : KcpevUdp T), udp₁.evt = some q →
      (stopEvt os₁ udp₁).1.timers q = none := by
    intro os₁ udp₁ hevt₁
    simp [stopEvt, hevt₁, Os.evTimerStop]
  exact ((hfades.stopEvh _ _).trans (hfades.releaseKcp _ _)).stopped (hstop _ _ hevt)

namespace World.Sheds

variable {w w' w'' : World K T}

theorem of_objs (hos : w.os.Fades w'.os)
    (hobjs : ∀ {c obj}, w.objs c = some obj → w'.objs c = some obj) : w.Sheds w' :=
  ⟨hos, fun hobj => Or.inl ⟨_, hobjs hobj, rfl, rfl⟩⟩

theorem trans (h : w.Sheds w') (h' : w'.Sheds w'') : w.Sheds w'' := by
  refine ⟨h.os.trans h'.os, fun {c obj} hobj => ?_⟩
  rcases h.objs hobj with ⟨obj₁, hobj₁, hserver₁, hevt₁⟩ | ⟨hserver, hstopped⟩
  · rcases h'.objs hobj₁ with ⟨obj₂, hobj₂, hserver₂, hevt₂⟩ | ⟨hserver, hstopped⟩
    · exact Or.inl ⟨obj₂, hobj₂, hserver₂.trans hserver₁, hevt₂.trans hevt₁⟩
    · exact Or.inr ⟨hserver₁.symm.trans hserver, fun q hq => hstopped q (hevt₁.trans hq)⟩
  · exact Or.inr ⟨hserver, fun q hq => h'.os.stopped (hstopped q hq)⟩

theorem quiet (h : w.Quiet w') : w.Sheds w' := by
  refine ⟨.of_same h.os, fun {c obj} hobj => ?_⟩
  have hlive := h.isSome c
  rw [hobj] at hlive
  obtain ⟨obj', hobj'⟩ := Option.isSome_iff_exists.mp hlive
  obtain ⟨obj₀, hobj₀, hrole, hslots⟩ := h.old hobj'
  rw [hobj, Option.some.injEq] at hobj₀
  subst hobj₀
  exact Or.inl ⟨obj', hobj', (hasServer_of_role hrole).symm, (congrArg Slots.evt hslots).symm⟩

theorem store {os : Os K T} {c : ℕ} {obj obj' : Kcpev T} (hos : w.os.Fades os)
    (hobj : w.objs c = some obj)
    (hafter : obj'.hasServer = obj.hasServer ∧ obj'.udp.evt = obj.udp.evt ∨
      (obj.hasServer = true ∧ ∀ q, obj.udp.evt = some q → os.timers q = none)) :
    w.Sheds (w.store os c obj') := by
  refine ⟨hos, fun {d obj₀} hobj₀ => ?_⟩
  rcases eq_or_ne d c with rfl | hne
  · rw [hobj, Option.some.injEq] at hobj₀
    subst hobj₀
    refine hafter.imp_left fun hsame => ⟨obj', ?_, hsame⟩
    simp [World.store]
  · refine Or.inl ⟨obj₀, ?_, rfl, rfl⟩
    simpa [World.store, Function.update_of_ne hne] using hobj₀

theorem destroyKcpev [KcpImpl K] {c : ℕ} {client : Kcpev T} (hobj : w.objs c = some client)
    (hserver : client.hasServer = true) : w.Sheds (w.destroyKcpev c client) := by
  refine ⟨Os.Fades.setup.destroy _ _, fun {d obj} hd => ?_⟩
  rcases eq_or_ne d c with rfl | hne
  · rw [hobj, Option.some.injEq] at hd
    subst hd
    exact Or.inr ⟨hserver, fun q hq => KcpevUdp.destroy_stops _ hq⟩
  · refine Or.inl ⟨obj, ?_, rfl, rfl⟩
    simpa [World.destroyKcpev, Function.update_of_ne hne] using hd

theorem deleteHash [KcpImpl K] {l : List (KcpevKey × ℕ)}
    (hsessions : ∀ e ∈ l, ∀ obj, w.objs e.2 = some obj → obj.hasServer = true)
    (hw : w.deleteHash l = .ok w') : w.Sheds w' := by
  induction l generalizing w with
  | nil =>
    cases hw
    exact of_objs (.refl _) id
  | cons e rest ih =>
    obtain ⟨w₁, hdestroy, hw⟩ := bind_eq_ok.mp hw
    obtain ⟨client, hobj, hdestroy⟩ := bind_eq_ok.mp hdestroy
    rw [kcpev_ok] at hobj
    cases hdestroy
    have hfirst := destroyKcpev hobj (hsessions e List.mem_cons_self client hobj)
    refine hfirst.trans (ih (fun e' he' obj hobj' => ?_) hw)
    rcases eq_or_ne e'.2 e.2 with heq | hne
    · simp [World.destroyKcpev, heq] at hobj'
    · simp only [World.destroyKcpev, Function.update_of_ne hne] at hobj'
      exact hsessions e' (List.mem_cons_of_mem _ he') obj hobj'

theorem serverDestroy [KcpImpl K] {known : List (KcpevKey × ℕ)} (hreg : Registered known w)
    (hw : w.kcpevServerDestroy = .ok w') : w.Sheds w' := by
  obtain ⟨server, hserver, hw⟩ := bind_eq_ok.mp hw
  rw [kcpevServer_ok] at hserver
  obtain ⟨w₁, hdelete, hw⟩ := bind_eq_ok.mp hw
  cases hw
  have hbase : w.Sheds { w with os := server.toKcpevBase.destroy w.os } :=
    of_objs (Os.Fades.setup.destroy _ _) id
  refine hbase.trans ((deleteHash (fun e he obj hobj => ?_) hdelete).trans
    (of_objs (.refl _) id))
  rw [List.mem_reverse, ← hash_some hserver] at he
  exact (hreg.hasServer_of_mem he hobj).1

end World.Sheds

/-! The objects. -/

/-- An object with a KCP timer has a KCP object and a socket. -/
def Slots.Timed (s : Slots) : Prop := s.evt.isSome → s.kcp.isSome ∧ s.udp.sock ≠ 0

/-- A client has a KCP object all its life, and a session has one, and a socket, in the
middle of a handshake. -/
structure Kcpev.Equipped (obj : Kcpev T) : Prop where
  client : obj.hasServer = false → obj.udp.kcp.isSome
  shaking : obj.Shaking → obj.udp.kcp.isSome ∧ obj.udp.sock ≠ 0

namespace World

/-- Every object is timed and equipped, and every KCP timer works for a live object; the
timer of a session is its own. -/
structure Timed (w : World K T) : Prop where
  slots : ∀ {o s}, w.slots o = some s → s.Timed
  objs : ∀ {c obj}, w.objs c = some obj → obj.Equipped
  timer : ∀ {q t c}, w.os.timers q = some t → t.cb = .kcpevOnTimer → t.data = .kcpev c →
    ∃ obj, w.objs c = some obj ∧ (obj.hasServer = true → obj.udp.evt = some q)

variable {w w' : World K T}

theorem Timed.sheds (h : Timed w) (hsheds : w.Sheds w')
    (hslots : ∀ {o s}, w'.slots o = some s → w.slots o = some s ∨ s.Timed)
    (hobjs : ∀ {c obj}, w'.objs c = some obj → w.objs c = some obj ∨ obj.Equipped) :
    Timed w' where
  slots hs := (hslots hs).elim h.slots id
  objs hobj := (hobjs hobj).elim h.objs id
  timer {q t c} ht hcb hdata := by
    obtain ⟨t₀, ht₀, hdata₀, hcb₀⟩ := hsheds.os.timer ht
    obtain ⟨obj, hobj, hevt⟩ := h.timer ht₀ (hcb₀.trans hcb) (hdata₀.trans hdata)
    rcases hsheds.objs hobj with ⟨obj', hobj', hserver, hevt'⟩ | ⟨hserver, hstopped⟩
    · exact ⟨obj', hobj', fun hsession => hevt'.trans (hevt (hserver.symm.trans hsession))⟩
    · rw [hstopped q (hevt hserver)] at ht
      cases ht

theorem Timed.quiet (h : Timed w) (hq : w.Quiet w') : Timed w' := by
  refine h.sheds (.quiet hq) (fun {o s} hs => ?_) fun {c obj'} hobj => ?_
  · rw [hq.slots] at hs
    exact Or.inl hs
  · obtain ⟨obj, hold, hrole, hslots⟩ := hq.old hobj
    have hserver := hasServer_of_role hrole
    have hkcp : obj.udp.kcp = obj'.udp.kcp := congrArg Slots.kcp hslots
    have hsock : obj.udp.sock = obj'.udp.sock := congrArg (fun s => s.udp.sock) hslots
    refine Or.inr ⟨fun hclient => ?_, fun hshaking => ?_⟩
    · rw [← hkcp]
      exact (h.objs hold).client (hserver.trans hclient)
    · obtain ⟨obj₀, hobj₀, hshaking₀⟩ := hq.shaking hobj hshaking
      rw [hold, Option.some.injEq] at hobj₀
      subst hobj₀
      rw [← hkcp, ← hsock]
      exact (h.objs hold).shaking hshaking₀

theorem Timed.subset (h : Timed w) (hsheds : w.Sheds w')
    (hslots : ∀ {o s}, w'.slots o = some s → w.slots o = some s)
    (hobjs : ∀ {c obj}, w'.objs c = some obj → w.objs c = some obj) : Timed w' :=
  h.sheds hsheds (fun hs => Or.inl (hslots hs)) fun hobj => Or.inl (hobjs hobj)

theorem slots_store_cases {os : Os K T} {c : ℕ} {obj : Kcpev T} {o : Owner} {s : Slots}
    (hs : (w.store os c obj).slots o = some s) :
    w.slots o = some s ∨ s = obj.toKcpevBase.slots := by
  rw [slots_store] at hs
  rcases eq_or_ne o (.kcpev c) with rfl | hne
  · rw [Function.update_self, Option.some.injEq] at hs
    exact Or.inr hs.symm
  · rw [Function.update_of_ne hne] at hs
    exact Or.inl hs

theorem objs_store_cases {os : Os K T} {c d : ℕ} {obj obj' : Kcpev T}
    (hobj : (w.store os c obj).objs d = some obj') :
    w.objs d = some obj' ∧ d ≠ c ∨ d = c ∧ obj' = obj := by
  rcases eq_or_ne d c with rfl | hne
  · simp only [World.store, Function.update_self, Option.some.injEq] at hobj
    exact Or.inr ⟨rfl, hobj.symm⟩
  · simp only [World.store, Function.update_of_ne hne] at hobj
    exact Or.inl ⟨hobj, hne⟩

theorem Timed.store (h : Timed w) {os : Os K T} {c : ℕ} {obj : Kcpev T}
    (hsheds : w.Sheds (w.store os c obj)) (htimed : obj.toKcpevBase.slots.Timed)
    (hequipped : obj.Equipped) : Timed (w.store os c obj) := by
  refine h.sheds hsheds (fun {o s} hs => ?_) fun {d obj'} hobj => ?_
  · rcases slots_store_cases hs with hold | rfl
    · exact Or.inl hold
    · exact Or.inr htimed
  · rcases objs_store_cases hobj with ⟨hold, -⟩ | ⟨-, rfl⟩
    · exact Or.inl hold
    · exact Or.inr hequipped

theorem Sheds.new {os : Os K T} {c : ℕ} {obj : Kcpev T} (hos : w.os.Fades os)
    (hnone : w.objs c = none) : w.Sheds (w.store os c obj) := by
  refine of_objs hos fun {d obj₀} hd => ?_
  have hne : d ≠ c := by
    rintro rfl
    rw [hnone] at hd
    cases hd
  simpa [World.store, Function.update_of_ne hne] using hd

theorem Born.timed {os os' : Os K T} {o : Owner} {b : KcpevBase T} {P : EvIo → Prop}
    {sound : Prop} (h : Born os os' o b P sound) : b.slots.Timed := by
  intro hevt
  rw [show b.slots.evt = none from h.evt] at hevt
  cases hevt

theorem Timed.createClient [KcpImpl K] [ClockImpl T] (h : Timed w) (ht : Typed w)
    (a : CreateClientAnswer) : Timed (kcpevCreateClient w a) := by
  have hfades := (Os.Fades.setup (K := K) (T := T)).createClient w a
  rcases kcpevCreateClient_cases w a with hw | ⟨os, b, hborn, -, hw | ⟨hkcp, hw⟩⟩
  · rw [hw]
    exact h
  · rw [hw] at hfades ⊢
    exact h.subset (.of_objs hfades id) id id
  · rw [hw] at hfades ⊢
    refine h.store (.new hfades (ht.fresh le_rfl)) (Born.timed hborn) ⟨fun _ => hkcp, ?_⟩
    intro hshaking
    cases hshaking.1

theorem Timed.createServer [KcpImpl K] [ClockImpl T] (h : Timed w) (a : CreateServerAnswer) :
    Timed (kcpevCreateServer w a) := by
  have hfades := (Os.Fades.setup (K := K) (T := T)).createServer w a
  rcases kcpevCreateServer_cases w a with hw | ⟨os, b, hborn, hw | hw⟩
  · rw [hw]
    exact h
  · rw [hw] at hfades ⊢
    exact h.subset (.of_objs hfades id) id id
  · rw [hw] at hfades ⊢
    refine h.sheds (.of_objs hfades id) (fun {o s} hs => ?_) fun hobj => Or.inl hobj
    rw [slots_server] at hs
    rcases eq_or_ne o .server with rfl | hne
    · rw [Function.update_self, Option.map_some] at hs
      cases hs
      exact Or.inr (Born.timed hborn)
    · rw [Function.update_of_ne hne] at hs
      exact Or.inl hs

theorem Timed.serverDestroy [KcpImpl K] (h : Timed w) {known : List (KcpevKey × ℕ)}
    (hreg : Registered known w) (hw : w.kcpevServerDestroy = .ok w') : Timed w' := by
  obtain ⟨-, hserver, hobjs⟩ := kcpevServerDestroy_cases hw
  have hsub : ∀ {c obj}, w'.objs c = some obj → w.objs c = some obj := by
    intro c obj hobj
    rw [hobjs c] at hobj
    split at hobj
    · cases hobj
    · exact hobj
  refine h.subset (.serverDestroy hreg hw) (fun {o s} hs => ?_) hsub
  rcases o with _ | c
  · simp [World.slots, hserver] at hs
  · simp only [World.slots, Option.map_eq_some_iff] at hs ⊢
    obtain ⟨obj, hobj, hslots⟩ := hs
    exact ⟨obj, hsub hobj, hslots⟩

theorem slots_update_none {o : Owner} {s : Slots}
    (hslots : w'.slots = Function.update w.slots o none) {o' : Owner} (hs : w'.slots o' = some s) :
    w.slots o' = some s := by
  rw [hslots] at hs
  rcases eq_or_ne o' o with rfl | hne
  · rw [Function.update_self] at hs
    cases hs
  · rw [Function.update_of_ne hne] at hs
    exact hs

theorem Timed.hash (h : Timed w) {server : KcpevServer T} (server' : KcpevServer T)
    (hserver : w.server = some server) (hbase : server'.toKcpevBase = server.toKcpevBase)
    {os : Os K T} (hos : w.os.Fades os) :
    Timed { w with os, server := some server' } := by
  refine h.subset (.of_objs hos id) (fun {o s} hs => ?_) id
  rw [slots_hash hserver server' hbase os] at hs
  exact hs

theorem Timed.close [KcpImpl K] (h : Timed w) {c : ℕ} (hw : w.closeClient c = .ok w') :
    Timed w' := by
  obtain ⟨client, server, hobj, hsession, hserver, rfl⟩ := closeClient_cases hw
  have hdel := h.hash (server.hashDel c) hserver rfl (.refl w.os)
  refine hdel.subset (.destroyKcpev hobj hsession)
    (fun hs => slots_update_none (slots_destroyKcpev _ c client) hs) fun {c' obj} hobj => ?_
  rcases eq_or_ne c' c with rfl | hne
  · simp [World.destroyKcpev] at hobj
  · simp only [World.destroyKcpev, Function.update_of_ne hne] at hobj
    exact hobj

theorem Timed.accept [KcpImpl K] [ClockImpl T] (h : Timed w) (ht : Typed w) {fd : ℕ}
    {answer : Option AcceptAnswer} (hw : tcpAccept w fd answer = .ok w') : Timed w' := by
  have hfades := Os.Fades.tcpAccept hw
  cases tcpAccept_cases hw with
  | nothing => exact h
  | zero => exact h.subset (.of_objs hfades id) id id
  | @failed a server os b ha hadds hserver =>
    exact h.hash (server.hashAdd a.uuid w.os.next) hserver rfl hfades
  | @added a server os os' b s ha hadds hserver hborn hnext hudp =>
    have hadd := h.hash (server.hashAdd a.uuid w.os.next) hserver rfl (.refl w.os)
    refine hadd.store (.new hfades (ht.fresh le_rfl)) (Born.timed hborn) ⟨?_, ?_⟩
    · intro hclient
      cases hclient
    · intro hshaking
      have hstatus : b.udp.status = .shakingHand := hshaking.2
      rw [hudp] at hstatus
      cases hstatus

end World

/-! One step. -/

/-- The calls of `connect_client_udp` that it depends on succeed. -/
def RecvAnswer.Connects (a : RecvAnswer) (os : Os K T) : Prop :=
  (a.bind.getaddrinfo ∧ ∃ x ∈ a.bind.addrs.find? (AddrAnswer.ends true os),
    x.setsockopt ∧ x.socket ≠ some 0) ∧ a.connect ∧ a.kcp

instance (a : RecvAnswer) (os : Os K T) : Decidable (a.Connects os) :=
  inferInstanceAs (Decidable ((_ ∧ ∃ x ∈ a.bind.addrs.find? _, _) ∧ _))

/-- A step does not take the KCP object or the socket away while a handshake or a timer
needs it, and leaves no KCP timer of a session behind. -/
structure Process.KeepsKcp (p : Process K T) (i : Input T) : Prop where
  /-- `connect_client_udp` does not fail for a session in the middle of a handshake -/
  shakeHand1 : ∀ buf addr a c obj, ServerFrame p i buf addr a →
    Finds p.world buf .shakeHand1 c obj → obj.udp.status = .shakingHand → a.Connects p.world.os
  /-- `check_create_kcp_timer` does not free the started timer of a session -/
  shakeHand2 : ∀ buf addr a c obj, ServerFrame p i buf addr a →
    Finds p.world buf .shakeHand2 c obj → obj.udp.status = .shakingHand → obj.udp.evt = none →
      a.evt → a.evh
  /-- `kcpev_connect` does not close the UDP socket of a client with timers -/
  connect : ∀ c addr a obj, i = .connect c addr a → p.ctl.appMayCall →
    p.world.objs c = some obj → obj.hasServer = false → obj.udp.evt.isSome →
      a.tcp.Succeeds → a.udp.Succeeds

section Effect
variable [KcpImpl K] [ClockImpl T] {p : Process K T} {i : Input T} {w' : World K T}

omit [ClockImpl T] in
theorem connectClientUdp_connects {os os' : Os K T} {c : ℕ} {client client' : Kcpev T}
    {addr : Addr} {a : RecvAnswer} {ret : ℤ} (ha : a.Connects os)
    (h : connectClientUdp os c client addr a = (os', client', ret)) : ret = 0 := by
  rcases connectClientUdp_cases h with ⟨rfl, -⟩ | ⟨hret, -⟩
  · obtain ⟨⟨hinfo, x, hx, hset, hsock⟩, hconnect, hkcp⟩ := ha
    rcases connectClientUdp_failed h with hbind | hno | hno
    · exfalso
      unfold kcpevBindSocket at hbind
      rw [if_neg (not_not.mpr hinfo)] at hbind
      rcases bindLoop_cases true a.bind.addrs os with ⟨-, hnone⟩ | ⟨fd, -, hl, y, hy, hfd, -⟩ |
        ⟨fd, -, -, y, hy, -, hno⟩
      · rw [hnone] at hx
        cases hx
      · rw [hy, Option.mem_def, Option.some.injEq] at hx
        subst hx
        have hne : fd ≠ 0 := by
          rintro rfl
          exact hsock hfd
        simp [hl, hne] at hbind
      · rw [hy, Option.mem_def, Option.some.injEq] at hx
        subst hx
        exact hno hset
    · rw [hconnect] at hno
      cases hno
    · rw [hkcp] at hno
      cases hno
  · exact hret

omit [ClockImpl T] in
/-- A session that cannot be connected has its timers stopped. -/
theorem connectClientUdp_stops {os os' : Os K T} {c : ℕ} {client client' : Kcpev T} {addr : Addr}
    {a : RecvAnswer} (h : connectClientUdp os c client addr a = (os', client', -1)) {q : ℕ}
    (hevt : client.udp.evt = some q) : os'.timers q = none := by
  have error : ∀ {os₁ : Os K T} {udp : KcpevUdp T},
      connectClientUdpError os₁ client udp = (os', client', -1) →
      udp.evt = client.udp.evt → os'.timers q = none := by
    intro os₁ udp herr hsame
    rw [connectClientUdpError_eq, Prod.mk.injEq] at herr
    rw [← herr.1]
    exact KcpevUdp.destroy_stops _ (hsame.trans hevt)
  unfold connectClientUdp at h
  rcases hbind : kcpevBindSocket os client.udp.toKcpevSock true a.bind with ⟨os₁, k, r⟩
  rw [hbind] at h
  dsimp only at h
  split at h
  · exact error h rfl
  split at h
  · exact error h rfl
  rcases hcreate : kcpevCreateKcp (os₁.connect k.sock addr) { client.udp with toKcpevSock := k }
    client.key.conv a.kcp with ⟨os₂, udp, r₂⟩
  have hudp : udp.evt = client.udp.evt := by
    unfold kcpevCreateKcp at hcreate
    split at hcreate <;> cases hcreate <;> rfl
  rw [hcreate] at h
  dsimp only at h
  split at h
  · exact error h hudp
  rcases hinit : kcpevInitEv os₂ (.kcpev c) { client.toKcpevBase with udp } none
    (some .serverUdpRecv) { tcp := true, udp := a.evio } with ⟨os₃, b, r₃⟩
  rw [hinit] at h
  dsimp only at h
  split at h
  · exact error h ((kcpevInitEv_timers hinit).1.trans hudp)
  · simp at h

omit [KcpImpl K] [ClockImpl T] in
theorem timed_timers {os os' : Os K T} {o : Owner} {b : KcpevBase T} {udp : KcpevUdp T}
    {hcb : TimerCb} {evt evh : Bool} {ret : ℤ} (h : b.slots.Timed)
    (hkcp : b.udp.kcp.isSome ∧ b.udp.sock ≠ 0)
    (htimer : checkCreateKcpTimer os o b.udp hcb evt evh = .ok (os', udp, ret)) :
    ({ b with udp } : KcpevBase T).slots.Timed := by
  rcases checkCreateKcpTimer_cases htimer with ⟨-, -, -, rfl⟩ | ⟨-, -, -, -, -, rfl⟩ |
    ⟨-, -, -, -, -, rfl⟩
  · exact h
  · intro hsome
    cases hsome
  · exact fun _ => hkcp

omit [KcpImpl K] [ClockImpl T] in
theorem checkCreateKcpTimer_kcp {os os' : Os K T} {o : Owner} {udp udp' : KcpevUdp T}
    {hcb : TimerCb} {evt evh : Bool} {ret : ℤ}
    (htimer : checkCreateKcpTimer os o udp hcb evt evh = .ok (os', udp', ret)) :
    udp'.kcp = udp.kcp := by
  rcases checkCreateKcpTimer_cases htimer with ⟨-, -, -, rfl⟩ | ⟨-, -, -, -, -, rfl⟩ |
    ⟨-, -, -, -, -, rfl⟩
  · rfl
  · rfl
  · rfl

omit [KcpImpl K] [ClockImpl T] in
theorem checkCreateKcpTimer_sock {os os' : Os K T} {o : Owner} {udp udp' : KcpevUdp T}
    {hcb : TimerCb} {evt evh : Bool} {ret : ℤ}
    (htimer : checkCreateKcpTimer os o udp hcb evt evh = .ok (os', udp', ret)) :
    udp'.sock = udp.sock := by
  rcases checkCreateKcpTimer_cases htimer with ⟨-, -, -, rfl⟩ | ⟨-, -, -, -, -, rfl⟩ |
    ⟨-, -, -, -, -, rfl⟩
  · rfl
  · rfl
  · rfl

omit [KcpImpl K] [ClockImpl T] in
/-- A socket is only closed when it cannot be connected. -/
theorem kcpevConnect_sock {os os' : Os K T} {b b' : KcpevBase T} {addr : Addr}
    {a : KcpevConnectAnswer} {ret : ℤ} (hconn : kcpevConnect os b addr a = (os', b', ret))
    (hok : a.tcp.Succeeds → a.udp.Succeeds) : b'.udp.sock = b.udp.sock := by
  unfold kcpevConnect at hconn
  rcases htcp : kcpevConnectSocket os b.tcp.toKcpevSock addr a.tcp with ⟨os₁, r₁⟩
  rw [htcp] at hconn
  dsimp only at hconn
  split at hconn
  · cases hconn
    rfl
  rename_i hr₁
  rcases hudp : kcpevConnectSocket os₁ b.udp.toKcpevSock addr a.udp with ⟨os₂, r₂⟩
  rw [hudp] at hconn
  split at hconn
  · rename_i hr₂
    have hsucceeds : a.tcp.Succeeds := by
      unfold kcpevConnectSocket at htcp
      split at htcp
      · cases htcp
        omega
      split at htcp
      · cases htcp
        omega
      rename_i hinfo
      split at htcp
      · rename_i hany
        exact ⟨not_not.mp hinfo, hany⟩
      · cases htcp
        omega
    obtain ⟨hinfo, hany⟩ := hok hsucceeds
    have hsock : b.udp.sock = 0 := by
      by_contra hne
      unfold kcpevConnectSocket at hudp
      rw [if_neg hne, if_neg (not_not.mpr hinfo), if_pos hany] at hudp
      cases hudp
      omega
    cases hconn
    simp [closeSock, hsock]
  · cases hconn
    rfl

omit [KcpImpl K] [ClockImpl T] in
theorem World.Timed.createTimer {w : World K T} (h : w.Timed) {os os' : Os K T} {c : ℕ}
    {obj : Kcpev T} {udp : KcpevUdp T} {hcb : TimerCb} {evt evh : Bool} {ret : ℤ}
    (hobj : w.objs c = some obj) (hos : w.os.Fades os) (hother : hcb ≠ .kcpevOnTimer)
    (hkcp : obj.udp.kcp.isSome ∧ obj.udp.sock ≠ 0)
    (halloc : obj.hasServer = true → obj.udp.evt = none → evt → evh)
    (htimer : checkCreateKcpTimer os (.kcpev c) obj.udp hcb evt evh = .ok (os', udp, ret)) :
    (w.store os' c { obj with udp }).Timed := by
  have hkcp' : udp.kcp.isSome ∧ udp.sock ≠ 0 := by
    rw [checkCreateKcpTimer_kcp htimer, checkCreateKcpTimer_sock htimer]
    exact hkcp
  have live : ∀ {d obj₀}, w.objs d = some obj₀ → d ≠ c →
      (w.store os' c { obj with udp }).objs d = some obj₀ := by
    intro d obj₀ hobj₀ hne
    simpa [World.store, Function.update_of_ne hne] using hobj₀
  have self : (w.store os' c { obj with udp }).objs c = some { obj with udp } := by
    simp [World.store]
  -- a timer that was there before
  have old : ∀ {q t d}, os.timers q = some t → t.cb = .kcpevOnTimer → t.data = .kcpev d →
      (obj.udp.evt = none ∨ udp.evt = obj.udp.evt) →
      ∃ obj₀, (w.store os' c { obj with udp }).objs d = some obj₀ ∧
        (obj₀.hasServer = true → obj₀.udp.evt = some q) := by
    intro q t d ht hcb hdata hsame
    obtain ⟨t₀, ht₀, hdata₀, hcb₀⟩ := hos.timer ht
    obtain ⟨obj₀, hobj₀, hevt⟩ := h.timer ht₀ (hcb₀.trans hcb) (hdata₀.trans hdata)
    rcases eq_or_ne d c with rfl | hne
    · rw [hobj, Option.some.injEq] at hobj₀
      subst hobj₀
      refine ⟨_, self, fun hserver => ?_⟩
      rcases hsame with hnone | hsame
      · rw [hevt hserver] at hnone
        cases hnone
      · exact hsame.trans (hevt hserver)
    · exact ⟨obj₀, live hobj₀ hne, hevt⟩
  refine ⟨fun {o s} hs => ?_, fun {d obj'} hobj' => ?_, fun {q t d} ht hcb hdata => ?_⟩
  · rcases World.slots_store_cases hs with hs | rfl
    · exact h.slots hs
    · exact timed_timers (h.slots (World.slots_some hobj)) hkcp htimer
  · rcases World.objs_store_cases hobj' with ⟨hobj', -⟩ | ⟨-, rfl⟩
    · exact h.objs hobj'
    · exact ⟨fun _ => hkcp'.1, fun _ => hkcp'⟩
  change os'.timers q = some t at ht
  rcases checkCreateKcpTimer_cases htimer with ⟨-, -, rfl, hudp⟩ |
    ⟨-, hnone, hevt, hevh, rfl, -⟩ | ⟨-, hnone, -, -, rfl, hudp⟩
  · exact old ht hcb hdata (Or.inr (by rw [hudp]))
  · rcases eq_or_ne q os.next with rfl | hne
    · simp only [Os.evTimerStart, Function.update_self, Option.some.injEq] at ht
      subst ht
      cases hdata
      refine ⟨_, self, fun hserver => ?_⟩
      have hboth := halloc hserver hnone hevt
      rw [hevh] at hboth
      cases hboth
    · simp only [Os.evTimerStart, Function.update_of_ne hne] at ht
      exact old ht hcb hdata (Or.inl hnone)
  · rcases eq_or_ne q (os.next + 1) with rfl | hne
    · simp only [Os.evTimerStart, Function.update_self, Option.some.injEq] at ht
      subst ht
      exact absurd hcb hother
    simp only [Os.evTimerStart, Function.update_of_ne hne] at ht
    rcases eq_or_ne q os.next with rfl | hne'
    · simp only [Function.update_self, Option.some.injEq] at ht
      subst ht
      cases hdata
      exact ⟨_, self, fun _ => by rw [hudp]⟩
    · simp only [Function.update_of_ne hne'] at ht
      exact old ht hcb hdata (Or.inl hnone)

theorem timed_effect (h : p.world.Timed) (hp : p.Typed) {known : List (KcpevKey × ℕ)}
    (hreg : World.Registered known p.world) (hok : p.KeepsKcp i) (he : Effect p i w') :
    w'.Timed := by
  cases he with
  | quiet hquiet => exact h.quiet hquiet
  | data hdata => exact h.subset (.of_objs (.of_timers rfl) id) id id
  | createClient hi => exact h.createClient hp.world _
  | createServer hi hserver => exact h.createServer _
  | serverDestroy hi hctl hw => exact h.serverDestroy hreg hw
  | @connect c addr a obj os b ret hi hobj hclient hconn hctl =>
    obtain ⟨hevt, -, hkcp⟩ := World.kcpevConnect_fields hconn
    have hfades := (Os.Fades.setup (K := K) (T := T)).kcpevConnect hconn
    refine h.store (.store hfades hobj (Or.inl ⟨rfl, hevt⟩)) (fun hsome => ?_) ⟨fun _ => ?_, ?_⟩
    · have hsome' : obj.udp.evt.isSome := by
        rw [← hevt]
        exact hsome
      have hold := h.slots (World.slots_some hobj) hsome'
      have hsock := kcpevConnect_sock hconn
        (hok.connect c addr a obj hi hctl hobj hclient hsome')
      change b.udp.kcp.isSome ∧ b.udp.sock ≠ 0
      rw [hkcp, hsock]
      exact hold
    · change b.udp.kcp.isSome
      rw [hkcp]
      exact (h.objs hobj).client hclient
    · intro hshaking
      rw [show obj.hasServer = true from hshaking.1] at hclient
      cases hclient
  | accept hi hctl he hcb hdata hw => exact h.accept hp.world hw
  | close hctl hw => exact h.close hw
  | @connectSession buf addr a c obj obj' os ret w hframe hfind hconn hquiet =>
    have hconnects := hok.shakeHand1 _ _ _ _ _ hframe hfind
    obtain ⟨server, key, -, hserver, hc, hobj⟩ := hfind
    have hsession := (hreg.hasServer_of_find hserver hc hobj).1
    have hfades := (Os.Fades.setup (K := K) (T := T)).connectClientUdp hconn
    refine World.Timed.quiet ?_ hquiet
    rcases connectClientUdp_cases hconn with ⟨rfl, rfl⟩ | ⟨rfl, hconnected⟩
    · have hcleared : ({ obj with udp := obj.udp.cleared } : Kcpev T).begun (-1) =
          { obj with udp := obj.udp.cleared } := rfl
      rw [hcleared]
      have hstops : ∀ q, obj.udp.evt = some q → os.timers q = none :=
        fun q hq => connectClientUdp_stops hconn hq
      refine h.store (.store hfades hobj (Or.inr ⟨hsession, hstops⟩)) (fun hsome => ?_)
        ⟨fun hclient => ?_, ?_⟩
      · cases hsome
      · rw [show obj.hasServer = false from hclient] at hsession
        cases hsession
      · intro hshaking
        have hret := connectClientUdp_connects (hconnects hshaking.2) hconn
        cases hret
    · have hkcp : (obj'.begun 0).udp.kcp.isSome ∧ (obj'.begun 0).udp.sock ≠ 0 := by
        refine ⟨?_, hconnected.sock⟩
        change obj'.udp.kcp.isSome
        rw [hconnected.fields]
        rfl
      have hsame : (obj'.begun 0).hasServer = obj.hasServer ∧
          (obj'.begun 0).udp.evt = obj.udp.evt := by
        change obj'.hasServer = obj.hasServer ∧ obj'.udp.evt = obj.udp.evt
        rw [hconnected.fields]
        exact ⟨rfl, rfl⟩
      exact h.store (.store hfades hobj (Or.inl hsame)) (fun _ => hkcp)
        ⟨fun _ => hkcp.1, fun _ => hkcp⟩
  | @serverTimers buf addr a c obj os udp ret w hframe hfind hstatus htimer hquiet =>
    have halloc := hok.shakeHand2 _ _ _ _ _ hframe hfind hstatus
    obtain ⟨server, key, -, hserver, hc, hobj⟩ := hfind
    have hsession := (hreg.hasServer_of_find hserver hc hobj).1
    refine World.Timed.quiet ?_ hquiet
    exact h.createTimer hobj (.refl _) (fun hcb => by cases hcb)
      ((h.objs hobj).shaking ⟨hsession, hstatus⟩) (fun _ => halloc) htimer
  | @clientTimers buf a c obj os os' udp ret w hframe hobj hparse hsock hstatus hsend htimer
      hquiet =>
    have hclient := hframe.client hp hobj
    have hkcp := (h.objs hobj).client hclient
    refine World.Timed.quiet ?_ hquiet
    refine h.createTimer hobj (.of_same (keeps_sockSendCommand hsend).toSame)
      (fun hcb => by cases hcb) ⟨hkcp, hsock⟩ (fun hsession => ?_) htimer
    rw [hclient] at hsession
    cases hsession

end Effect

section Run
variable [KcpImpl K] [ClockImpl T] {p : Process K T} {now : T} {is : List (Input T)}

/-- The timers of a world run on KCP objects: an object with a KCP timer has a KCP object
and a socket, and `kcpev_on_timer`, for every timer that is started, finds a live object
with a KCP object and does not come to `ikcp_recv` without. -/
structure World.TimersHaveKcp (w : World K T) : Prop where
  kcp : ∀ o s, w.slots o = some s → s.evt.isSome → s.kcp.isSome ∧ s.udp.sock ≠ 0
  onTimer : ∀ q t c, w.os.timers q = some t → t.cb = .kcpevOnTimer → t.data = .kcpev c →
    (∃ obj, w.objs c = some obj ∧ obj.udp.kcp.isSome) ∧
      ∀ a, kcpevOnTimer w c a ≠ .error .assertion

theorem kcpevTimerRepeat_returns {w : World K T} {c q evt : ℕ} {obj : Kcpev T}
    (output : ℕ → Option ℕ) (hobj : w.objs c = some obj) (hkcp : obj.udp.kcp = some q)
    (hevt : obj.udp.evt = some evt) :
    kcpevTimerRepeat w c output = .error .useAfterFree ∨
      ∃ w', kcpevTimerRepeat w c output = .ok w' := by
  have hget : w.kcpev c = .ok obj := World.kcpev_ok.mpr hobj
  unfold kcpevTimerRepeat
  simp only [hget, bind, Except.bind, hkcp, hevt]
  rcases w.os.kcps q with _ | kcp
  · exact Or.inl rfl
  · exact Or.inr ⟨_, rfl⟩

omit [KcpImpl K] [ClockImpl T] in
theorem timed_init (now : T) : (Process.init now : Process K T).world.Timed where
  slots {o s} hs := by
    rcases o with _ | c
    · cases hs
    · cases hs
  objs hobj := by cases hobj
  timer ht := by cases ht

/-- With a KCP object, `kcpev_timer_repeat` fails no assertion. -/
theorem kcpevTimerRepeat_stops {w : World K T} {c q : ℕ} {obj : Kcpev T} {output : ℕ → Option ℕ}
    (hobj : w.objs c = some obj) (hkcp : obj.udp.kcp = some q) :
    kcpevTimerRepeat w c output ≠ .error .assertion := by
  have hget : w.kcpev c = .ok obj := World.kcpev_ok.mpr hobj
  intro h
  unfold kcpevTimerRepeat at h
  simp only [hget, bind, Except.bind, hkcp] at h
  split at h
  · cases h
  split at h
  · cases h
  · cases h

theorem World.Timed.timersHaveKcp {w : World K T} (h : w.Timed) : w.TimersHaveKcp where
  kcp o s hs := h.slots hs
  onTimer q t c ht hcb hdata := by
    obtain ⟨obj, hobj, hevt⟩ := h.timer ht hcb hdata
    have hkcp : obj.udp.kcp.isSome := by
      cases hserver : obj.hasServer with
      | false => exact (h.objs hobj).client hserver
      | true =>
        refine (h.slots (World.slots_some hobj) ?_).1
        exact Option.isSome_of_eq_some (hevt hserver)
    refine ⟨⟨obj, hobj, hkcp⟩, fun a herr => ?_⟩
    obtain ⟨r, hr⟩ := Option.isSome_iff_exists.mp hkcp
    unfold kcpevOnTimer at herr
    rcases hrepeat : kcpevTimerRepeat w c a.output with e | w'
    · rw [hrepeat] at herr
      cases herr
      exact kcpevTimerRepeat_stops hobj hr hrepeat
    · have hget : w'.kcpev c = .ok obj := by
        rw [World.kcpev_ok, timerRepeat_objs hrepeat]
        exact hobj
      simp [hrepeat, bind, Except.bind, tryKcpRecv, hget, hr, pure, Except.pure] at herr

theorem run_timersHaveKcp (hrun : Run step Process.KeepsKcp (.init now) is p) :
    p.world.TimersHaveKcp := by
  have hinv : p.Typed ∧ World.Registered (generatedKeys (K := K) now is) p.world ∧
      p.world.Timed := by
    refine hrun.invariant_history (P := fun known p =>
      p.Typed ∧ World.Registered known p.world ∧ p.world.Timed) ?_ ?_
    · exact ⟨Process.typed_init now, (World.exact_init now).toRegistered, timed_init now⟩
    · rintro known s i s' ⟨hp, hreg, htimed⟩ hok hs
      exact ⟨hp.step hs, registered_step hp hreg hs,
        timed_effect htimed hp hreg hok (step_effect hp hs)⟩
  exact hinv.2.2.timersHaveKcp

end Run

/-! A handshake whose first message comes twice. -/

/-- A step that connects no client, and dispatches only frames for which every call
succeeds. -/
def Process.Supplied (p : Process K T) (i : Input T) : Bool :=
  match i, p.ctl with
  | .connect .., _ => false
  | .round a, .frame .. => a.evh && a.Connects p.world.os
  | _, _ => true

theorem keepsKcp_of_supplied {p : Process K T} {i : Input T} (h : p.Supplied i = true) :
    p.KeepsKcp i where
  shakeHand1 buf addr a c obj hframe hfind hstatus := by
    obtain ⟨src, hctl, rfl, -⟩ := hframe
    simp only [Process.Supplied, hctl, Bool.and_eq_true, decide_eq_true_eq] at h
    exact h.2
  shakeHand2 buf addr a c obj hframe hfind hstatus hnone hevt := by
    obtain ⟨src, hctl, rfl, -⟩ := hframe
    simp only [Process.Supplied, hctl, Bool.and_eq_true, decide_eq_true_eq] at h
    exact h.1
  connect c addr a obj hi := by
    subst hi
    simp [Process.Supplied] at h

/-- The first handshake message of a client. -/
def firstShakeHand1 : List (Input ℕ) :=
  oneAccept ++ [.io 2 (.receives (handshakeFrame .shakeHand1) 9), .round (.socket 6)]

/-- The first message comes twice, and then the second one. -/
def doubledHandshake : List (Input ℕ) :=
  firstShakeHand1 ++
    [.io 2 (.receives (handshakeFrame .shakeHand1) 9), .round (.socket 7),
      .io 2 (.receives (handshakeFrame .shakeHand2) 9), .round (.socket 8)]

/-- The session has its KCP timer, and a timer is started. -/
theorem run_timersHaveKcp_doubledHandshake : ∃ p : Process Unit ℕ,
    Run step Process.KeepsKcp (.init 0) doubledHandshake p ∧ p.world.TimersHaveKcp ∧
      (∃ q t, p.world.os.timers q = some t ∧ t.cb = .kcpevOnTimer ∧ t.data = .kcpev 3 ∧
        (p.world.objs 3).any (fun obj => obj.udp.evt = some q) = true) := by
  obtain ⟨p, hrun, htest⟩ := Run.exists_of_exec (step (K := Unit))
    (fun p i => p.Supplied i = true) (.init 0) doubledHandshake
    (fun p => (p.world.os.timers 9).any (fun t => t.cb = .kcpevOnTimer ∧ t.data = .kcpev 3) &&
      (p.world.objs 3).any (fun obj => obj.udp.evt = some 9)) (by decide)
  rw [Bool.and_eq_true, Option.any_eq_true] at htest
  obtain ⟨⟨t, ht, htimer⟩, hobj⟩ := htest
  obtain ⟨hcb, hdata⟩ := of_decide_eq_true htimer
  have hkeeps : Run step Process.KeepsKcp (.init 0) doubledHandshake p :=
    hrun.mono fun h => keepsKcp_of_supplied h
  exact ⟨p, hkeeps, run_timersHaveKcp hkeeps, 9, t, ht, hcb, hdata, hobj⟩
/-- The first message is repeated and fails, and then the second one comes. -/
def failedShakeHand1 : List (Input ℕ) :=
  firstShakeHand1 ++
    [.io 2 (.receives (handshakeFrame .shakeHand1) 9),
      .round { RecvAnswer.socket 7 with connect := false },
      .io 2 (.receives (handshakeFrame .shakeHand2) 9), .round (.socket 7)]

/-- The session has a KCP timer and no KCP object, and the timer runs into the
assertion of `ikcp_recv`. -/
theorem failed_shakeHand1_timer : ∃ p : Process Unit ℕ,
    Run step (fun _ _ => True) (.init 0) failedShakeHand1 p ∧ ¬ p.world.TimersHaveKcp := by
  obtain ⟨p, hrun, htest⟩ := Run.exists_of_exec (step (K := Unit)) (fun _ _ => True)
    (.init 0) failedShakeHand1 (fun p => (p.world.slots (.kcpev 3)).any fun s =>
      s.evt.isSome && s.kcp.isNone) (by decide)
  refine ⟨p, hrun, fun htimers => ?_⟩
  rcases hs : p.world.slots (.kcpev 3) with _ | s
  · rw [hs] at htest
    cases htest
  rw [hs, Option.any_some, Bool.and_eq_true] at htest
  have hkcp := (htimers.kcp _ s hs htest.1).1
  rw [Option.isNone_iff_eq_none.mp htest.2] at hkcp
  cases hkcp

end KcpEv
